import Fluxion.Quadrature.Kronrod

/-!
# Adaptive quadrature

The interval is cut where the rule is worst: as long as the total error estimate exceeds the
tolerance, a part of largest estimate is replaced by its two halves.  The parts cover the interval
at every moment, and value and estimate are the totals over the parts.
-/

namespace Fluxion.Quadrature

/-- The error that is tolerated for a value: the absolute tolerance, or the
relative one if that is more.  It changes with the value, so it is computed
anew for each subdivision. -/
def Settings.tolerance (settings : Settings) (value : Float) : Float :=
  greatest settings.absoluteTolerance (settings.relativeTolerance * value.abs)

/-- The place of the last part of largest estimate, when the parts before have
their largest `estimate` at the place `best`.  A part behind wins even if it
is only as bad. -/
def worstFrom (best : Nat) (estimate : Float) (place : Nat) : List Part → Nat
  | [] => best
  | part :: rest =>
    if estimate ≤ part.estimate then worstFrom place part.estimate (place + 1) rest
    else worstFrom best estimate (place + 1) rest

/-- The place of the last part of largest estimate.  Where estimates are
equal, the part that stands behind the others is taken. -/
def worstPlace : List Part → Nat
  | [] => 0
  | part :: rest => worstFrom 0 part.estimate 1 rest

/-- The place found is one of those looked at. -/
theorem worstFrom_lt {best place : Nat} (before : best < place) (estimate : Float)
    (parts : List Part) : worstFrom best estimate place parts < place + parts.length := by
  induction parts generalizing best estimate place with
  | nil => exact before
  | cons part rest inductionHypothesis =>
      rw [worstFrom, List.length_cons]
      split
      · have found := inductionHypothesis (Nat.lt_add_one place) part.estimate
        omega
      · have found := inductionHypothesis (Nat.lt_add_one_of_lt before) estimate
        omega

/-- The worst part is among the parts, so replacing it never misses. -/
theorem worstPlace_lt {parts : List Part} (nonempty : parts ≠ []) :
    worstPlace parts < parts.length := by
  match parts, nonempty with
  | part :: rest, _ =>
      have found := worstFrom_lt Nat.one_pos part.estimate rest
      rw [worstPlace, List.length_cons]
      omega

/-- The parts an interval is cut into, with the totals over them.  There is always a
part, so there is always a worst one; that is part of the structure. -/
structure Subdivision where
  parts : List Part
  value : Float
  estimate : Float
  evaluations : Nat
  nonempty : parts ≠ []

namespace Subdivision

/-- The subdivision of an interval into itself, after one measurement. -/
def whole (part : Part) : Subdivision :=
  ⟨[part], part.value, part.estimate, 15, List.cons_ne_nil part []⟩

/-- A part of largest estimate, which is the one that is bisected next. -/
def worst (subdivision : Subdivision) : Part :=
  subdivision.parts.get ⟨worstPlace subdivision.parts, worstPlace_lt subdivision.nonempty⟩

/-- The parts but the worst, whose place the last part takes.  The order of
the parts is therefore not that of the interval. -/
def others (subdivision : Subdivision) : List Part :=
  let last := subdivision.parts.getLast subdivision.nonempty
  (subdivision.parts.set (worstPlace subdivision.parts) last).dropLast

/-- Taking out the worst part leaves one part fewer. -/
theorem length_others (subdivision : Subdivision) :
    subdivision.others.length + 1 = subdivision.parts.length := by
  have positive := List.length_pos_iff.2 subdivision.nonempty
  simp only [others, List.length_dropLast, List.length_set]
  omega

/-- The subdivision with two parts in place of the worst, and the totals over
its parts.  The totals are summed anew, so no rounding is carried from one
subdivision to the next. -/
def replaceWorst (subdivision : Subdivision) (left right : Part) : Subdivision :=
  let parts := subdivision.others ++ [left, right]
  ⟨parts, total (parts.map (·.value)), total (parts.map (·.estimate)),
    subdivision.evaluations + 30, List.append_ne_nil_of_right_ne_nil _ (List.cons_ne_nil _ _)⟩

/-- Two parts in place of one make one part more. -/
theorem length_replaceWorst (subdivision : Subdivision) (left right : Part) :
    (subdivision.replaceWorst left right).parts.length = subdivision.parts.length + 1 := by
  simp only [replaceWorst, List.length_append, List.length_cons, List.length_nil]
  have others := subdivision.length_others
  omega

/-- Replaces the worst part by its halves, both of which are measured.  The type says
that there is one part more, which is what the recursion of `refine` rests on. -/
def bisect (subdivision : Subdivision) :
    Sampling { next : Subdivision // next.parts.length = subdivision.parts.length + 1 } := do
  let worst := subdivision.worst
  let middle := 0.5 * (worst.lower + worst.upper)
  let left ← measure worst.lower middle
  let right ← measure middle worst.upper
  return ⟨subdivision.replaceWorst left right, subdivision.length_replaceWorst left right⟩

end Subdivision

/-- Bisects until the tolerance is met or there are as many parts as are allowed.
Every bisection adds a part, so the recursion ends with the room for parts.  Even a
value that is not finite can meet the tolerance, and fails only then. -/
def refine (settings : Settings) (subdivision : Subdivision) : Sampling Outcome :=
  if settings.tolerance subdivision.value < subdivision.estimate then
    if max settings.partLimit 1 ≤ subdivision.parts.length then
      .fail (.notConverged subdivision.value subdivision.estimate)
    else do
      let ⟨next, _⟩ ← subdivision.bisect
      refine settings next
  else if subdivision.value.isFinite then
    .done ⟨subdivision.value, subdivision.estimate, subdivision.evaluations⟩
  else .fail .notFinite
termination_by max settings.partLimit 1 - subdivision.parts.length
decreasing_by omega

/-- The integral over an interval whose ends are finite and in order: one
measurement of the whole, then bisections.  A limit of no parts counts as a
limit of one. -/
def adaptive (settings : Settings) (lower upper : Float) : Sampling Outcome := do
  let part ← measure lower upper
  refine settings (.whole part)

end Fluxion.Quadrature
