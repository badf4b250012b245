import Mathlib
import Fluxion.Proofs.Subdivision

/-!
# The loop of the adaptive rule

The loop measures the interval, and bisects as long as its total estimate is above the tolerance and
there is room for one more part.  `Tested` are the subdivisions it tests, with the number of
bisections that led to each; they keep their `Accounts`, they have one part more than there were
bisections, and the evaluations they count are the samples asked for so far (`Tested.exists_asked`).
How a run can come to an end is said by `Ends`: there is one way for each end of the loop and one for
each measurement that fails.
-/

namespace Fluxion.Quadrature

open Subdivision
open scoped List

variable {f : Integrand} {settings : Settings} {lower upper : Float}

/-- Above the tolerance and with room for one more part, the loop fails as the
bisection does, or goes on at the subdivision that it leads to. -/
theorem run_refine_of_room {s : Subdivision} (above : settings.tolerance s.value < s.estimate)
    (room : s.parts.length < max settings.partLimit 1) :
    (∀ error, s.bisect.run f = .error error → (refine settings s).run f = .error error) ∧
    ∀ next, s.bisect.run f = .ok next →
      (refine settings s).run f = (refine settings next.1).run f := by
  rw [refine, if_pos above, if_neg (Nat.not_le.2 room)]
  exact ⟨fun error fails => Sampling.run_bind_of_error fails,
    fun next bisects => Sampling.run_bind_of_ok bisects⟩

/-- The subdivisions whose estimate the loop compares with the tolerance, each
after a number of bisections: the whole interval first, and the bisection of a
tested one that exceeds the tolerance while there is room. -/
inductive Tested (f : Integrand) (settings : Settings) (lower upper : Float) :
    Nat → Subdivision → Prop
  | start {part : Part} (measured : (measure lower upper).run f = .ok part) :
      Tested f settings lower upper 0 (whole part)
  | bisected {bisections : Nat} {s : Subdivision}
      {next : { next : Subdivision // next.parts.length = s.parts.length + 1 }}
      (tested : Tested f settings lower upper bisections s)
      (above : settings.tolerance s.value < s.estimate)
      (room : s.parts.length < max settings.partLimit 1)
      (bisects : s.bisect.run f = .ok next) :
      Tested f settings lower upper (bisections + 1) next.1

namespace Tested

variable {bisections : Nat} {s : Subdivision}

/-- Every tested subdivision keeps its accounts: it covers the interval, and
its totals are the totals over its parts. -/
theorem accounts (tested : Tested f settings lower upper bisections s) :
    s.Accounts f lower upper := by
  induction tested with
  | start measured => exact accounts_whole measured
  | bisected _ _ _ bisects accounts => exact accounts.bisect bisects

/-- A subdivision that is tested after some bisections has one part more than
there were bisections. -/
theorem length_eq (tested : Tested f settings lower upper bisections s) :
    s.parts.length = bisections + 1 := by
  induction tested with
  | start measured => rfl
  | @bisected _ _ next _ _ _ _ length => rw [next.2, length]

/-- The loop never bisects beyond the parts that are allowed, and never goes
below the one part it starts with. -/
theorem length_le (tested : Tested f settings lower upper bisections s) :
    s.parts.length ≤ max settings.partLimit 1 := by
  cases tested with
  | start measured => exact le_max_right _ _
  | @bisected _ _ next _ _ room _ =>
    rw [next.2]
    exact room

/-- A test leaves the rest of the run to be done: the run of the adaptive rule
is the run of the loop at any subdivision that is tested. -/
theorem run_eq (tested : Tested f settings lower upper bisections s) :
    (adaptive settings lower upper).run f = (refine settings s).run f := by
  induction tested with
  | start measured => exact Sampling.run_bind_of_ok measured
  | bisected _ above room bisects run => rw [run, (run_refine_of_room above room).2 _ bisects]

/-- The evaluations that are on the books have been asked for, and the rest is
still to be asked. -/
theorem exists_asked (tested : Tested f settings lower upper bisections s) :
    ∃ asked, (adaptive settings lower upper).points f = asked ++ (refine settings s).points f ∧
      asked.length = s.evaluations := by
  induction tested with
  | start measured =>
    exact ⟨_, Sampling.points_bind_of_ok measured, asks_measure lower upper f _ measured⟩
  | @bisected _ s next _ above room bisects inductionHypothesis =>
    obtain ⟨asked, points, length⟩ := inductionHypothesis
    refine ⟨asked ++ s.bisect.points f, ?_, ?_⟩
    · rw [points, refine, if_pos above, if_neg (Nat.not_le.2 room), List.append_assoc]
      exact congrArg (asked ++ ·) (Sampling.points_bind_of_ok bisects)
    · obtain ⟨left, right, -, -, -, -, -, same⟩ := bisect_eq_ok bisects
      rw [List.length_append, length, asks_bisect s f next bisects, same]
      rfl

end Tested

/-- How a run of the loop can end: with a measurement that fails, for want of
room, with a value that is not finite, or with an outcome.  But for the first
measurement, every ending is tied to a subdivision that was tested. -/
inductive Ends (f : Integrand) (settings : Settings) (lower upper : Float) :
    Except IntegrationError Outcome → Prop
  | unmeasured {error : IntegrationError} (fails : (measure lower upper).run f = .error error) :
      Ends f settings lower upper (.error error)
  | unbisected {bisections : Nat} {s : Subdivision} {error : IntegrationError}
      (tested : Tested f settings lower upper bisections s)
      (fails : s.bisect.run f = .error error) :
      Ends f settings lower upper (.error error)
  | full {bisections : Nat} {s : Subdivision}
      (tested : Tested f settings lower upper bisections s)
      (full : max settings.partLimit 1 ≤ s.parts.length) :
      Ends f settings lower upper (.error (.notConverged s.value s.estimate))
  | infinite {bisections : Nat} {s : Subdivision}
      (tested : Tested f settings lower upper bisections s)
      (infinite : s.value.isFinite = false) :
      Ends f settings lower upper (.error .notFinite)
  | converged {bisections : Nat} {s : Subdivision}
      (tested : Tested f settings lower upper bisections s)
      (within : ¬settings.tolerance s.value < s.estimate) (finite : s.value.isFinite = true) :
      Ends f settings lower upper (.ok ⟨s.value, s.estimate, s.evaluations⟩)

/-- However the loop ends from a subdivision that it tests, it ends in one of
the ways listed.  The induction is on the room that is left for parts. -/
theorem refine_ends {bisections : Nat} {s : Subdivision}
    (tested : Tested f settings lower upper bisections s) :
    Ends f settings lower upper ((refine settings s).run f) := by
  induction s using refine.induct settings generalizing bisections with
  | case1 s above full =>
    rw [refine, if_pos above, if_pos full]
    exact .full tested full
  | case2 s above room bisected =>
    rw [refine, if_pos above, if_neg room]
    cases bisects : s.bisect.run f with
    | error error =>
      rw [Sampling.run_bind_of_error bisects]
      exact .unbisected tested bisects
    | ok next =>
      rw [Sampling.run_bind_of_ok bisects]
      exact bisected next.1 next.2 (.bisected tested above (Nat.not_le.1 room) bisects)
  | case3 s within finite =>
    rw [refine, if_neg within, if_pos finite]
    exact .converged tested within finite
  | case4 s within infinite =>
    rw [refine, if_neg within, if_neg infinite]
    exact .infinite tested (Bool.eq_false_of_not_eq_true infinite)

/-- However the adaptive rule ends, it ends in one of the ways listed.  The
first measurement may fail before anything is tested. -/
theorem adaptive_ends (f : Integrand) (settings : Settings) (lower upper : Float) :
    Ends f settings lower upper ((adaptive settings lower upper).run f) := by
  cases measured : (measure lower upper).run f with
  | error error =>
    rw [adaptive, Sampling.run_bind_of_error measured]
    exact .unmeasured measured
  | ok part =>
    rw [(Tested.start measured).run_eq]
    exact refine_ends (.start measured)

/-- The loop runs out of parts only when there are as many as are allowed, and
then reports the totals of the subdivision it stands at. -/
theorem exists_tested_of_notConverged {value estimate : Float}
    (stops : (adaptive settings lower upper).run f = .error (.notConverged value estimate)) :
    ∃ bisections s, Tested f settings lower upper bisections s ∧
      s.parts.length = max settings.partLimit 1 ∧ value = s.value ∧ estimate = s.estimate := by
  have ends := adaptive_ends f settings lower upper
  rw [stops] at ends
  cases ends with
  | unmeasured fails => exact absurd fails (transparent_measure lower upper).run_ne_notConverged
  | unbisected tested fails => exact absurd fails (transparent_bisect _).run_ne_notConverged
  | full tested full => exact ⟨_, _, tested, tested.length_le.antisymm full, rfl, rfl⟩

/-- An integral that is handed out is the total of a tested subdivision whose
estimate meets the tolerance, and it is finite. -/
theorem exists_tested_of_ok {outcome : Outcome}
    (succeeds : (adaptive settings lower upper).run f = .ok outcome) :
    ∃ bisections s, Tested f settings lower upper bisections s ∧
      ¬settings.tolerance s.value < s.estimate ∧ s.value.isFinite = true ∧
      outcome = ⟨s.value, s.estimate, s.evaluations⟩ := by
  have ends := adaptive_ends f settings lower upper
  rw [succeeds] at ends
  cases ends with
  | converged tested within finite => exact ⟨_, _, tested, within, finite, rfl⟩

/-- Where the loop stops for the tolerance, all it has asked for is on the
books: the number that is handed out is the number of samples taken. -/
theorem length_points_of_within {bisections : Nat} {s : Subdivision}
    (tested : Tested f settings lower upper bisections s)
    (within : ¬settings.tolerance s.value < s.estimate) (finite : s.value.isFinite = true) :
    ((adaptive settings lower upper).points f).length = s.evaluations := by
  obtain ⟨asked, points, length⟩ := tested.exists_asked
  rw [points, refine, if_neg within, if_pos finite, Sampling.points, List.append_nil, length]

section Integral

variable [NodeTable]

/-- Between finite limits in order, the integral is what the configured method
makes of them as they are. -/
theorem integral_of_lt (ordered : lower < upper)
    (finite : lower.isFinite = true ∧ upper.isFinite = true) :
    integral settings lower upper = forwardIntegral settings lower upper := by
  rw [integral, finite.1, finite.2, if_neg (by decide), Binary64.beq_eq_false_of_lt ordered,
    if_neg Bool.false_ne_true, if_neg (Binary64.not_lt_of_lt ordered)]

/-- The adaptive rule covers the interval once and keeps its accounts,
whenever it tests its tolerance: the parts form a chain from end to end, each
is measured between its own ends, and the totals are theirs.  There is one
part more than there were bisections, and never more than are allowed.  Above
the tolerance and with room for one more part, the run goes on at the bisected
subdivision, which is tested next, or fails as the bisection does; and what is
bisected is a part of largest estimate.  An outcome is finite, meets the
tolerance and counts the samples that were asked for; to stop short of the
tolerance, the loop must have as many parts as are allowed. -/
theorem adaptive_covers_once (f : Integrand) {settings : Settings} {lower upper : Float}
    (rule : settings.method = .adaptive) (finiteLower : lower.isFinite = true)
    (finiteUpper : upper.isFinite = true) (ordered : lower < upper) :
    (∀ bisections s, Tested f settings lower upper bisections s →
      s.Accounts f lower upper ∧
      s.parts.length = bisections + 1 ∧ bisections + 1 ≤ max settings.partLimit 1 ∧
      integrate f settings lower upper = (refine settings s).run f ∧
      (settings.tolerance s.value < s.estimate →
        ∀ part ∈ s.parts, part.estimate ≤ s.worst.estimate) ∧
      (settings.tolerance s.value < s.estimate → s.parts.length < max settings.partLimit 1 →
        (∀ error, s.bisect.run f = .error error →
          integrate f settings lower upper = .error error) ∧
        ∀ next, s.bisect.run f = .ok next →
          Tested f settings lower upper (bisections + 1) next.1 ∧
          integrate f settings lower upper = (refine settings next.1).run f) ∧
      ∀ next, s.bisect.run f = .ok next → ∃ left right,
        s.parts ~ s.worst :: s.others ∧ next.1.parts ~ left :: right :: s.others ∧
        left.lower = s.worst.lower ∧ left.upper = right.lower ∧ right.upper = s.worst.upper) ∧
    (∀ outcome, integrate f settings lower upper = .ok outcome →
      outcome.value.isFinite = true ∧ ¬settings.tolerance outcome.value < outcome.estimate ∧
      outcome.evaluations = ((integral settings lower upper).points f).length ∧
      ∃ bisections s, Tested f settings lower upper bisections s ∧
        outcome = ⟨s.value, s.estimate, s.evaluations⟩) ∧
    ∀ value estimate, integrate f settings lower upper = .error (.notConverged value estimate) →
      ∃ bisections s, Tested f settings lower upper bisections s ∧
        s.parts.length = max settings.partLimit 1 ∧ value = s.value ∧ estimate = s.estimate := by
  rw [integrate, integral_of_lt ordered ⟨finiteLower, finiteUpper⟩, forwardIntegral, rule]
  dsimp only
  refine ⟨?_, ?_, ?_⟩
  · intro bisections s tested
    have bounded := tested.length_le
    rw [tested.length_eq] at bounded
    refine ⟨tested.accounts, tested.length_eq, bounded, tested.run_eq,
      tested.accounts.estimate_le_worst, ?_, ?_⟩
    · intro above room
      obtain ⟨fails, goesOn⟩ := run_refine_of_room (f := f) above room
      rw [tested.run_eq]
      exact ⟨fails, fun next bisects =>
        ⟨.bisected tested above room bisects, goesOn next bisects⟩⟩
    · intro next bisects
      obtain ⟨left, right, -, -, starts, meet, ends, same⟩ := bisect_eq_ok bisects
      refine ⟨left, right, s.perm_worst_others, ?_, starts, meet, ends⟩
      rw [same]
      exact List.perm_append_comm
  · intro outcome succeeds
    obtain ⟨bisections, s, tested, within, finite, rfl⟩ := exists_tested_of_ok succeeds
    exact ⟨finite, within, (length_points_of_within tested within finite).symm, bisections, s,
      tested, rfl⟩
  · intro value estimate stops
    exact exists_tested_of_notConverged stops

end Integral

/-- The identity on a symmetric interval: its first measurement meets the
default tolerance, but no measurement meets a tolerance of zero, and then
there is no room for a second part. -/
theorem adaptive_covers_once_of_identity :
    letI := computedNodes
    let identity : Integrand := .ok
    let strict : Settings := ⟨0.0, 0.0, 0, .adaptive⟩
    (∃ outcome, integrate identity .default (-1.0) 1.0 = .ok outcome ∧
      ¬Settings.default.tolerance outcome.value < outcome.estimate) ∧
    ∃ value estimate, integrate identity strict (-1.0) 1.0 = .error (.notConverged value estimate) ∧
      ∃ bisections s, Tested identity strict (-1.0) 1.0 bisections s ∧ s.parts.length = 1 := by
  intro identity strict
  let table := computedNodes
  have finiteLower : (-1.0 : Float).isFinite = true := by decide +kernel
  have finiteUpper : (1.0 : Float).isFinite = true := by decide +kernel
  have ordered : (-1.0 : Float) < 1.0 := by decide +kernel
  have isDefault : Settings.default.method = .adaptive := rfl
  have isStrict : strict.method = .adaptive := rfl
  obtain ⟨part, measured, finite, within, above⟩ : ∃ part,
      (measure (-1.0) 1.0).run identity = .ok part ∧ (whole part).value.isFinite = true ∧
      ¬Settings.default.tolerance (whole part).value < (whole part).estimate ∧
      strict.tolerance (whole part).value < (whole part).estimate := by
    have succeeds : ((measure (-1.0) 1.0).run identity).isOk = true := by decide +kernel
    have checked : ∀ part ∈ ((measure (-1.0) 1.0).run identity).toOption,
        (whole part).value.isFinite = true ∧
        ¬Settings.default.tolerance (whole part).value < (whole part).estimate ∧
        strict.tolerance (whole part).value < (whole part).estimate := by
      decide +kernel
    obtain ⟨part, measured⟩ := exists_of_isOk succeeds
    rw [measured] at checked
    exact ⟨part, measured, checked part rfl⟩
  constructor
  · obtain ⟨tests, converged, -⟩ :=
      adaptive_covers_once identity isDefault finiteLower finiteUpper ordered
    obtain ⟨-, -, -, run, -⟩ := tests 0 _ (.start measured)
    rw [refine, if_neg within, if_pos finite] at run
    exact ⟨_, run, (converged _ run).2.1⟩
  · obtain ⟨tests, -, stops⟩ :=
      adaptive_covers_once identity isStrict finiteLower finiteUpper ordered
    obtain ⟨-, -, -, run, -⟩ := tests 0 _ (.start measured)
    have full : max strict.partLimit 1 ≤ (whole part).parts.length := le_refl 1
    rw [refine, if_pos above, if_pos full] at run
    obtain ⟨bisections, s, tested, length, -⟩ := stops _ _ run
    exact ⟨_, _, run, bisections, s, tested, length⟩

end Fluxion.Quadrature
