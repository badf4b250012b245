import Mathlib
import Fluxion.Proofs.Binary64
import Fluxion.Proofs.Outcome
import Fluxion.Proofs.Sampling

/-!
# Subdivisions of an interval

The loop of the adaptive rule and what is true of it whenever it comes to test its tolerance
(`Tested`).  The parts, in some order, form a chain from one end of the interval to the other
(`Tiles`), each part is what the rule measures between its own ends, and value, estimate and number
of evaluations are those of the parts (`Accounts`).  One bisection keeps all of this
(`Accounts.bisect`), because the worst part leaves the chain at one place and its halves take that
place; the list that stores the parts is in another order after every bisection, so all of it is said
up to permutation.

The estimates that are compared are numbers: they are terms of a total that exceeds the tolerance
(`isNaN_of_mem_of_total`).  Hence the part that is bisected has the largest one
(`estimate_le_worst`).
-/

namespace Fluxion.Quadrature

open scoped List

variable {f : Integrand} {settings : Settings} {lower upper middle : Float}

/-! ### Totals -/

theorem total_singleton (value : Float) : total [value] = value := Binary64.negativeZero_add value

theorem isNaN_of_foldl_add {values : List Float} {start : Float}
    (number : (values.foldl (· + ·) start).isNaN = false) :
    start.isNaN = false ∧ ∀ value ∈ values, value.isNaN = false := by
  induction values generalizing start with
  | nil => exact ⟨number, by simp⟩
  | cons value rest inductionHypothesis =>
    obtain ⟨sum, later⟩ := inductionHypothesis number
    obtain ⟨first, second⟩ := Binary64.isNaN_of_add sum
    exact ⟨first, List.forall_mem_cons.2 ⟨second, later⟩⟩

/-- A total that is a number has numbers for terms. -/
theorem isNaN_of_mem_of_total {values : List Float} (number : (total values).isNaN = false) :
    ∀ value ∈ values, value.isNaN = false :=
  (isNaN_of_foldl_add number).2

/-! ### The worst part -/

/-- The search for the largest estimate, when `seen` have been looked at and
the one at `best` is the largest of them. -/
theorem exists_worstFrom {seen rest : List Part} {best : Nat} {current : Part}
    (found : seen[best]? = some current)
    (largest : ∀ part ∈ seen, part.estimate ≤ current.estimate)
    (numbers : ∀ part ∈ seen ++ rest, part.estimate.isNaN = false) :
    ∃ worst, (seen ++ rest)[worstFrom best current.estimate seen.length rest]? = some worst ∧
      ∀ part ∈ seen ++ rest, part.estimate ≤ worst.estimate := by
  induction rest generalizing seen best current with
  | nil => exact ⟨current, by rwa [List.append_nil], by rwa [List.append_nil]⟩
  | cons part rest inductionHypothesis =>
    have number : part.estimate.isNaN = false := numbers part (by simp)
    have inside : current.estimate.isNaN = false :=
      numbers current (List.mem_append_left _ (List.mem_of_getElem? found))
    have shifted : seen ++ part :: rest = (seen ++ [part]) ++ rest := by simp
    have length : (seen ++ [part]).length = seen.length + 1 := by simp
    rw [shifted] at numbers ⊢
    rw [worstFrom, ← length]
    split
    · next larger =>
      refine inductionHypothesis (by simp) ?_ numbers
      rw [List.forall_mem_append]
      refine ⟨fun other earlier => Binary64.le_of_le_of_le (largest other earlier) larger, ?_⟩
      simpa using Binary64.le_self number
    · next smaller =>
      refine inductionHypothesis ?_ ?_ numbers
      · rw [List.getElem?_append_left (List.getElem?_eq_some_iff.1 found).1, found]
      · rw [List.forall_mem_append]
        refine ⟨largest, ?_⟩
        simpa using (Binary64.le_or_le inside number).resolve_left smaller

/-- An element and the others, when the last one takes its place. -/
theorem perm_get_dropLast_set {parts : List Part} {i : Nat} (inside : i < parts.length)
    (nonempty : parts ≠ []) :
    parts ~ parts.get ⟨i, inside⟩ :: (parts.set i (parts.getLast nonempty)).dropLast := by
  obtain ⟨front, last, rfl⟩ : ∃ front last, parts = front ++ [last] :=
    ⟨_, _, (List.dropLast_append_getLast nonempty).symm⟩
  rw [List.getLast_append_singleton, List.get_eq_getElem]
  by_cases before : i < front.length
  · rw [List.set_append_left i last before, List.dropLast_concat, List.getElem_append_left before]
    calc front ++ [last]
      _ ~ last :: front := List.perm_append_singleton last front
      _ ~ last :: front[i] :: front.eraseIdx i :=
        (List.getElem_cons_eraseIdx_perm before).symm.cons last
      _ ~ front[i] :: last :: front.eraseIdx i := List.Perm.swap _ _ _
      _ ~ front[i] :: front.set i last := (List.set_perm_cons_eraseIdx before last).symm.cons _
  · have here : i = front.length := by
      rw [List.length_append, List.length_singleton] at inside
      omega
    subst here
    rw [List.set_append_right _ _ le_rfl, List.getElem_append_right le_rfl]
    simp

namespace Subdivision

variable {s : Subdivision}

/-- The parts are the worst one and the others, in some order. -/
theorem perm_worst_others (s : Subdivision) : s.parts ~ s.worst :: s.others :=
  perm_get_dropLast_set (worstPlace_lt s.nonempty) s.nonempty

/-- No part has a larger estimate than the worst one, if all estimates are numbers. -/
theorem estimate_le_worst (numbers : ∀ part ∈ s.parts, part.estimate.isNaN = false) :
    ∀ part ∈ s.parts, part.estimate ≤ s.worst.estimate := by
  have chosen : s.parts[worstPlace s.parts]? = some s.worst :=
    List.getElem?_eq_getElem (worstPlace_lt s.nonempty)
  revert chosen numbers
  generalize s.worst = worst
  cases s.parts with
  | nil => intro _ _ part none; cases none
  | cons first rest =>
    intro numbers chosen
    have alone : ∀ part ∈ [first], part.estimate ≤ first.estimate := by
      simpa using Binary64.le_self (numbers first List.mem_cons_self)
    have found : [first][0]? = some first := rfl
    obtain ⟨found, place, largest⟩ := exists_worstFrom found alone numbers
    cases chosen.symm.trans place
    exact largest

end Subdivision

/-! ### Chains of parts -/

/-- Parts that follow one another from one point to another, each beginning
where the one before ends. -/
def Tiles : Float → List Part → Float → Prop
  | lower, [], upper => lower = upper
  | lower, part :: rest, upper => part.lower = lower ∧ Tiles part.upper rest upper

/-- A chain of parts is two chains that meet. -/
theorem tiles_append {front rest : List Part} :
    Tiles lower (front ++ rest) upper ↔
      ∃ middle, Tiles lower front middle ∧ Tiles middle rest upper := by
  induction front generalizing lower with
  | nil => simp [Tiles]
  | cons part front inductionHypothesis =>
    rw [List.cons_append, Tiles, inductionHypothesis]
    constructor
    · rintro ⟨starts, middle, tiled, goesOn⟩
      exact ⟨middle, ⟨starts, tiled⟩, goesOn⟩
    · rintro ⟨middle, ⟨starts, tiled⟩, goesOn⟩
      exact ⟨starts, middle, tiled, goesOn⟩

/-- Two parts that meet can stand for the part they make up. -/
theorem exists_tiles_of_halves {parts others : List Part} {whole left right : Part}
    (perm : parts ~ whole :: others)
    (tiled : ∃ chain, chain ~ parts ∧ Tiles lower chain upper)
    (starts : left.lower = whole.lower) (meet : right.lower = left.upper)
    (ends : right.upper = whole.upper) :
    ∃ chain, chain ~ others ++ [left, right] ∧ Tiles lower chain upper := by
  obtain ⟨chain, same, tiles⟩ := tiled
  have member : whole ∈ chain := (same.trans perm).mem_iff.2 List.mem_cons_self
  obtain ⟨before, after, rfl⟩ := List.append_of_mem member
  refine ⟨before ++ left :: right :: after, ?_, ?_⟩
  · have others_perm : before ++ after ~ others :=
      (List.perm_middle.symm.trans (same.trans perm)).cons_inv
    calc before ++ left :: right :: after
      _ ~ left :: right :: (before ++ after) :=
        List.perm_middle.trans (List.perm_middle.cons left)
      _ ~ [left, right] ++ others := (others_perm.cons right).cons left
      _ ~ others ++ [left, right] := List.perm_append_comm
  · obtain ⟨middle, front, here, rest⟩ := tiles_append.1 tiles
    refine tiles_append.2 ⟨middle, front, starts.trans here, meet, ?_⟩
    rwa [ends]

/-! ### Measuring and bisecting -/

/-- A measured part has the ends it was measured on. -/
theorem ends_of_measure {part : Part} (measured : (measure lower upper).run f = .ok part) :
    part.lower = lower ∧ part.upper = upper := by
  rw [measure, Sampling.run_bind] at measured
  obtain ⟨centreValue, -, measured⟩ := bind_eq_ok measured
  rw [Sampling.run_bind] at measured
  obtain ⟨pairs, -, measured⟩ := bind_eq_ok measured
  cases measured
  exact ⟨rfl, rfl⟩

namespace Subdivision

variable {s : Subdivision}

/-- A bisection that succeeds has measured the two halves of the worst part
and replaces it by them. -/
theorem bisect_eq_ok {next : { next : Subdivision // next.parts.length = s.parts.length + 1 }}
    (bisects : s.bisect.run f = .ok next) :
    ∃ left right,
      (measure left.lower left.upper).run f = .ok left ∧
      (measure right.lower right.upper).run f = .ok right ∧
      left.lower = s.worst.lower ∧ left.upper = right.lower ∧ right.upper = s.worst.upper ∧
      next.1 = s.replaceWorst left right := by
  rw [bisect, Sampling.run_bind] at bisects
  obtain ⟨left, measuredLeft, bisects⟩ := bind_eq_ok bisects
  rw [Sampling.run_bind] at bisects
  obtain ⟨right, measuredRight, bisects⟩ := bind_eq_ok bisects
  cases bisects
  obtain ⟨startsLeft, endsLeft⟩ := ends_of_measure measuredLeft
  obtain ⟨startsRight, endsRight⟩ := ends_of_measure measuredRight
  refine ⟨left, right, ?_, ?_, startsLeft, endsLeft.trans startsRight.symm, endsRight, rfl⟩
  · rw [startsLeft, endsLeft, measuredLeft]
  · rw [startsRight, endsRight, measuredRight]

/-- What a subdivision of an interval says of an integrand: its parts cover
the interval once, each is measured, and the totals are those of the parts. -/
structure Accounts (f : Integrand) (lower upper : Float) (s : Subdivision) : Prop where
  /-- the parts cover the interval, without gap or overlap -/
  tiled : ∃ chain, chain ~ s.parts ∧ Tiles lower chain upper
  measured : ∀ part ∈ s.parts, (measure part.lower part.upper).run f = .ok part
  value_eq : s.value = total (s.parts.map (·.value))
  estimate_eq : s.estimate = total (s.parts.map (·.estimate))
  evaluations_eq : s.evaluations = 15 * (2 * s.parts.length - 1)

/-- The first measurement starts the accounts. -/
theorem accounts_whole {part : Part} (measured : (measure lower upper).run f = .ok part) :
    (whole part).Accounts f lower upper := by
  obtain ⟨starts, ends⟩ := ends_of_measure measured
  constructor
  · exact ⟨[part], .refl _, starts, ends⟩
  · intro other member
    cases List.mem_singleton.1 member
    rw [starts, ends, measured]
  · exact (total_singleton part.value).symm
  · exact (total_singleton part.estimate).symm
  · rfl

/-- Bisecting the worst part keeps the accounts. -/
theorem Accounts.bisect {next : { next : Subdivision // next.parts.length = s.parts.length + 1 }}
    (accounts : s.Accounts f lower upper) (bisects : s.bisect.run f = .ok next) :
    next.1.Accounts f lower upper := by
  obtain ⟨left, right, measuredLeft, measuredRight, starts, meet, ends, same⟩ :=
    bisect_eq_ok bisects
  have grown := next.2
  rw [same] at grown ⊢
  constructor
  · exact exists_tiles_of_halves s.perm_worst_others accounts.tiled starts meet.symm ends
  · refine List.forall_mem_append.2 ⟨?_, ?_⟩
    · intro part member
      exact accounts.measured part
        (s.perm_worst_others.mem_iff.2 (List.mem_cons_of_mem _ member))
    · rw [List.forall_mem_cons, List.forall_mem_singleton]
      exact ⟨measuredLeft, measuredRight⟩
  · rfl
  · rfl
  · have positive := List.length_pos_iff.2 s.nonempty
    have before := accounts.evaluations_eq
    change s.evaluations + 30 = _
    rw [grown]
    omega

/-- Above its tolerance a subdivision with accounts has its largest estimate
at the worst part. -/
theorem Accounts.estimate_le_worst (accounts : s.Accounts f lower upper)
    (above : settings.tolerance s.value < s.estimate) :
    ∀ part ∈ s.parts, part.estimate ≤ s.worst.estimate := by
  have number := Binary64.isNaN_of_lt above
  rw [accounts.estimate_eq] at number
  exact Subdivision.estimate_le_worst (List.forall_mem_map.1 (isNaN_of_mem_of_total number))

end Subdivision

end Fluxion.Quadrature
