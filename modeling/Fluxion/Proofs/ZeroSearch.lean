import Mathlib
import Fluxion.Expr.Pole
import Fluxion.Proofs.Exact
import Fluxion.Proofs.Outcome

/-!
# The search for zeros

A zero of a factor is looked for around the inner points of a grid, three samples at a time.  Every
cell of a grid with an inner point is beside one, so no change of sign between neighbours is missed,
in the first cell and in the last as little as elsewhere, and samples without a value hide nothing
but themselves (`zeroBeside?_eq_none`, `mul_nonneg_of_interiorZero?`).  What is found lies between
the two outer samples: halfway between two of them, or in a bracket that is narrowed from them and
never left (`exists_narrow`).

The search can also run on indices, with a counter for the inner points.  Here every index is
checked.  The search on indices gives the same answer for every grid, and none of its indices is out
of range (`Indexed.interiorZero?_eq`).
-/

namespace Fluxion.Expr

/-! ### Brackets -/

section Brackets

/-- The golden section divides an interval inside. -/
theorem golden_section_inside : 0 < (√5 - 1) / 2 ∧ (√5 - 1) / 2 < 1 := by
  have conjugate : (√5 - 1) / 2 = -Real.goldenConj := by
    rw [Real.goldenConj]
    ring
  rw [conjugate]
  exact ⟨neg_pos.2 Real.goldenConj_neg, neg_lt.2 Real.neg_one_lt_goldenConj⟩

theorem midpoint_exact (a b : ℝ) :
    (Scalar.half * (Exact.real a + .real b) : Exact) = .real (1 / 2 * (a + b)) := by
  rw [Exact.half_eq]
  rfl

/-- However sizes compare, a narrowed bracket lies in the one it was narrowed from. -/
theorem exists_narrow (size : Exact → Exact) {ratio low high : ℝ} (inside : 0 < ratio ∧ ratio < 1)
    (steps : ℕ) (order : low < high) :
    ∃ low' high' : ℝ, narrow size (.real ratio) steps (.real low) (.real high) =
      (.real low', .real high') ∧ low ≤ low' ∧ low' < high' ∧ high' ≤ high := by
  induction steps generalizing low high with
  | zero => exact ⟨low, high, rfl, le_rfl, order, le_rfl⟩
  | succ steps ih =>
    have width : 0 < high - low := sub_pos.2 order
    have part : 0 < ratio * (high - low) ∧ ratio * (high - low) < high - low :=
      ⟨mul_pos inside.1 width, mul_lt_of_lt_one_left width inside.2⟩
    rw [narrow]
    split
    · have left : low < low + ratio * (high - low) := by linarith
      obtain ⟨low', high', narrowed, below, order', above⟩ := ih left
      exact ⟨low', high', narrowed, below, order', by linarith⟩
    · have right : high - ratio * (high - low) < high := by linarith
      obtain ⟨low', high', narrowed, below, order', above⟩ := ih right
      exact ⟨low', high', narrowed, by linarith, order', above⟩

/-- The point where a minimum is suspected lies inside the bracket. -/
theorem exists_smallestOn (name : String) (g : Expr Exact) {low high : ℝ} (order : low < high) :
    ∃ point : ℝ, (smallestOn name g (.real low) (.real high)).1 = .real point ∧
      low < point ∧ point < high := by
  have ratio : ((Scalar.sqrt (Scalar.ofInt 5) - Scalar.ofInt 1) / Scalar.ofInt 2 : Exact) =
      .real ((√5 - 1) / 2) := by
    have root : (Scalar.sqrt (Scalar.ofInt 5) : Exact) = .real √5 := by
      rw [Exact.ofInt_eq, Int.cast_ofNat]
      exact Exact.when_of (by norm_num) _
    rw [root]
    exact Exact.div_eq_real.2 ⟨√5 - 1, 2, by simp, by simp, by norm_num, rfl⟩
  obtain ⟨low', high', narrowed, below, order', above⟩ :=
    exists_narrow (fun t => Scalar.abs (g.valueAt name t)) golden_section_inside narrowings order
  refine ⟨1 / 2 * (low' + high'), ?_, by linarith, by linarith⟩
  rw [smallestOn]
  dsimp only
  rw [ratio, narrowed]
  exact midpoint_exact low' high'

end Brackets

/-! ### Three samples -/

section Samples

variable {name : String} {g : Expr Exact} {tolerance : Exact} {before here after : Sample Exact}

theorem isNegative_mul_iff {a b : ℝ} :
    Scalar.isNegative (Exact.real a * .real b) = true ↔ a * b < 0 := by
  rw [Exact.isNegative_iff]
  constructor
  · rintro ⟨_, same, negative⟩
    exact Exact.real.inj same ▸ negative
  · intro negative
    exact ⟨a * b, rfl, negative⟩

/-- Where nothing is found beside a sample with a value, the value is no zero
and its neighbours do not have the opposite sign. -/
theorem zeroBeside?_eq_none {b : ℝ} (value : here.value = .real b)
    (none : zeroBeside? name g tolerance before here after = none) :
    b ≠ 0 ∧ (∀ a, before.value = .real a → 0 ≤ a * b) ∧
      ∀ c, after.value = .real c → 0 ≤ b * c := by
  rw [zeroBeside?, value] at none
  dsimp only at none
  rw [Exact.isFinite_real, if_neg (by decide)] at none
  split at none
  · cases none
  · next nonzero =>
    split at none
    · cases none
    · next below =>
      split at none
      · cases none
      · next above =>
        refine ⟨Exact.isZero_real_eq_false.1 (Bool.eq_false_of_not_eq_true nonzero), ?_, ?_⟩
        · intro a known
          rw [known, Exact.isFinite_real, Bool.true_and, isNegative_mul_iff] at below
          exact not_lt.1 below
        · intro c known
          rw [known, Exact.isFinite_real, Bool.true_and, isNegative_mul_iff] at above
          exact not_lt.1 above

/-- What is found lies between the outer samples. -/
theorem exists_of_zeroBeside? {x y z : ℝ} (points : before.point = .real x ∧ here.point = .real y ∧
    after.point = .real z) (order : x < y ∧ y < z) {p : Exact}
    (found : zeroBeside? name g tolerance before here after = some p) :
    ∃ q : ℝ, p = .real q ∧ x < q ∧ q < z := by
  obtain ⟨below, above⟩ := order
  rw [zeroBeside?, points.1, points.2.1, points.2.2] at found
  dsimp only at found
  split at found
  · cases found
  · split at found
    · cases found
      exact ⟨y, rfl, below, above⟩
    · split at found
      · cases found
        exact ⟨1 / 2 * (x + y), midpoint_exact x y, by linarith, by linarith⟩
      · split at found
        · cases found
          exact ⟨1 / 2 * (y + z), midpoint_exact y z, by linarith, by linarith⟩
        · split at found
          · obtain ⟨q, least, inside⟩ := exists_smallestOn name g (below.trans above)
            split at found
            · cases found
              exact ⟨q, least, inside⟩
            · cases found
          · cases found

end Samples

/-! ### All samples -/

section Search

variable {K : Type} [Scalar K] {name : String} {g : Expr K} {tolerance : K}
  {samples : List (Sample K)}

/-- Where nothing is found, nothing is found beside any inner sample. -/
theorem zeroBeside?_of_zeroAmong? (none : zeroAmong? name g tolerance samples = none) (i : ℕ)
    (inner : i + 2 < samples.length) :
    zeroBeside? name g tolerance samples[i] samples[i + 1] samples[i + 2] = Option.none := by
  induction samples generalizing i with
  | nil => cases inner
  | cons before rest ih =>
    rcases rest with _ | ⟨here, _ | ⟨after, rest⟩⟩
    · simp at inner
    · simp at inner
    · rw [zeroAmong?] at none
      split at none
      · cases none
      · next nothing =>
        cases i with
        | zero => exact nothing
        | succ i => exact ih none i (Nat.lt_of_succ_lt_succ inner)

/-- What is found is found beside an inner sample. -/
theorem exists_of_zeroAmong? {p : K} (found : zeroAmong? name g tolerance samples = some p) :
    ∃ (i : ℕ) (_ : i + 2 < samples.length),
      zeroBeside? name g tolerance samples[i] samples[i + 1] samples[i + 2] = some p := by
  induction samples with
  | nil => cases found
  | cons before rest ih =>
    rcases rest with _ | ⟨here, _ | ⟨after, rest⟩⟩
    · cases found
    · cases found
    · rw [zeroAmong?] at found
      split at found
      · next first =>
        cases found
        exact ⟨0, by simp, first⟩
      · obtain ⟨i, inner, later⟩ := ih found
        exact ⟨i + 1, Nat.succ_lt_succ inner, later⟩

/-- The samples of a grid. -/
def samplesOf (name : String) (g : Expr K) (grid : List K) : List (Sample K) :=
  grid.map fun t => ⟨t, g.valueAt name t⟩

/-- The largest value on a grid, and no less than one.  It decides what
counts as small. -/
def scaleOf (name : String) (g : Expr K) (grid : List K) : K :=
  (grid.map (g.valueAt name)).foldl
    (fun scale value =>
      if Scalar.isFinite value then Scalar.larger scale (Scalar.abs value) else scale)
    (Scalar.ofInt 1)

/-- The size below which a minimum counts as zero. -/
def toleranceOf (name : String) (g : Expr K) (grid : List K) : K :=
  Scalar.ofInt 1 / Scalar.ofInt 10000000000 * scaleOf name g grid

/-- The search is that among the samples of the grid, with the tolerance
that they give. -/
theorem interiorZero?_eq (name : String) (g : Expr K) (grid : List K) :
    interiorZero? name g grid =
      zeroAmong? name g (toleranceOf name g grid) (samplesOf name g grid) := by
  rw [interiorZero?, toleranceOf, scaleOf, samplesOf, List.foldl_map, List.foldl_map]

end Search

/-! ### On indices -/

namespace Indexed

/-- How an index fails to be one of a list. -/
inductive OutOfRange where
  | below
  | beyond
  deriving DecidableEq, Repr

/-- The entry at an index. -/
def entry {A : Type} (entries : List A) (i : ℕ) : Except OutOfRange A :=
  match entries[i]? with
  | some a => .ok a
  | none => .error .beyond

/-- The index before an index. -/
def previous : ℕ → Except OutOfRange ℕ
  | 0 => .error .below
  | i + 1 => .ok i

variable {K : Type} [Scalar K]

/-- A zero next to the point at an index, where neighbours are found by
counting up and down. -/
def zeroBeside? (name : String) (g : Expr K) (tolerance : K) (grid values : List K) (i : ℕ) :
    Except OutOfRange (Option K) := do
  let before ← entry values (← previous i)
  let here ← entry values i
  let after ← entry values (i + 1)
  if !Scalar.isFinite here then
    return none
  else if Scalar.isZero here then
    return some (← entry grid i)
  else if Scalar.isFinite before && Scalar.isNegative (before * here) then
    return some (Scalar.half * ((← entry grid (← previous i)) + (← entry grid i)))
  else if Scalar.isFinite after && Scalar.isNegative (here * after) then
    return some (Scalar.half * ((← entry grid i) + (← entry grid (i + 1))))
  else if Scalar.isFinite before && Scalar.isFinite after
      && Scalar.atMost (Scalar.abs here) (Scalar.abs before)
      && Scalar.atMost (Scalar.abs here) (Scalar.abs after) then
    let (point, least) := smallestOn name g (← entry grid (← previous i)) (← entry grid (i + 1))
    return if Scalar.atMost least tolerance then some point else none
  else
    return none

/-- The first zero found around as many points as a counter is to pass,
from an index on. -/
def zeroFrom? (name : String) (g : Expr K) (tolerance : K) (grid values : List K) :
    ℕ → ℕ → Except OutOfRange (Option K)
  | 0, _ => .ok none
  | count + 1, i => do
    match ← zeroBeside? name g tolerance grid values i with
    | some point => return some point
    | none => zeroFrom? name g tolerance grid values count (i + 1)

/-- A zero strictly inside a grid.  The counter goes from one to the index of the last
point, which it leaves out; without a last point there is nothing to search. -/
def interiorZero? (name : String) (g : Expr K) (grid : List K) : Except OutOfRange (Option K) :=
  let values := grid.map (g.valueAt name)
  match values.length with
  | 0 => .ok none
  | last + 1 => zeroFrom? name g (toleranceOf name g grid) grid values (last - 1) 1

section Range

variable {name : String} {g : Expr K} {tolerance : K} {grid : List K}

theorem entry_eq {A : Type} {entries : List A} {i : ℕ} (within : i < entries.length) :
    entry entries i = .ok entries[i] := by
  rw [entry, List.getElem?_eq_getElem within]

theorem entry_map_eq {A B : Type} {entries : List A} (f : A → B) {i : ℕ}
    (within : i < entries.length) : entry (entries.map f) i = .ok (f entries[i]) := by
  rw [entry, List.getElem?_map, List.getElem?_eq_getElem within]
  rfl

/-- Beside an inner point all indices are in range, and the samples
there are looked at. -/
theorem zeroBeside?_eq {i : ℕ} (inner : i + 2 < grid.length) :
    zeroBeside? name g tolerance grid (grid.map (g.valueAt name)) (i + 1) =
      .ok (Expr.zeroBeside? name g tolerance ⟨grid[i], g.valueAt name grid[i]⟩
        ⟨grid[i + 1], g.valueAt name grid[i + 1]⟩ ⟨grid[i + 2], g.valueAt name grid[i + 2]⟩) := by
  have first := Nat.lt_of_succ_lt (Nat.lt_of_succ_lt inner)
  have second := Nat.lt_of_succ_lt inner
  rw [zeroBeside?, Expr.zeroBeside?, previous]
  simp only [ok_bind, entry_map_eq (g.valueAt name) first, entry_map_eq (g.valueAt name) second,
    entry_map_eq (g.valueAt name) inner, entry_eq first, entry_eq second, entry_eq inner,
    apply_ite Except.ok, pure, Except.pure]

/-- From an inner point on, the counter meets what is left of the samples. -/
theorem zeroFrom?_eq (count i : ℕ) (reaches : i + count + 2 = grid.length) :
    zeroFrom? name g tolerance grid (grid.map (g.valueAt name)) count (i + 1) =
      .ok (zeroAmong? name g tolerance (samplesOf name g (grid.drop i))) := by
  induction count generalizing i with
  | zero =>
    have two : (samplesOf name g (grid.drop i)).length = 2 := by
      rw [samplesOf, List.length_map, List.length_drop]
      omega
    obtain ⟨before, here, both⟩ := List.length_eq_two.1 two
    rw [zeroFrom?, both]
    rfl
  | succ count ih =>
    have inner : i + 2 < grid.length := by omega
    have later : grid.drop (i + 1) = grid[i + 1] :: grid[i + 2] :: grid.drop (i + 3) := by
      rw [List.drop_eq_getElem_cons (by omega), List.drop_eq_getElem_cons inner]
    have here : grid.drop i = grid[i] :: grid.drop (i + 1) := List.drop_eq_getElem_cons (by omega)
    have next := ih (i + 1) (by omega)
    rw [zeroFrom?, zeroBeside?_eq inner, ok_bind, next, here, later]
    simp only [samplesOf, List.map_cons, zeroAmong?]
    -- the step and the search on lists go on with the same answer
    generalize Expr.zeroBeside? name g tolerance _ _ _ = found
    cases found with
    | some point => rfl
    | none => rfl

/-- The search on indices gives the same answer, and none of its indices is
out of range. -/
theorem interiorZero?_eq (name : String) (g : Expr K) (grid : List K) :
    interiorZero? name g grid = .ok (Expr.interiorZero? name g grid) := by
  rw [interiorZero?, Expr.interiorZero?_eq, List.length_map]
  rcases grid with _ | ⟨only, _ | ⟨second, rest⟩⟩
  · rfl
  · rfl
  · exact zeroFrom?_eq rest.length 0 (by simp)

end Range

end Indexed

/-! ### What the search covers -/

section Coverage

variable {name : String} {g : Expr Exact} {grid : List ℝ}

/-- The sample at a real point. -/
noncomputable def sampleAt (name : String) (g : Expr Exact) (t : ℝ) : Sample Exact :=
  ⟨.real t, g.valueAt name (.real t)⟩

theorem samplesOf_real : samplesOf name g (grid.map .real) = grid.map (sampleAt name g) :=
  List.map_map

/-- A search that finds nothing has looked beside every inner point. -/
theorem zeroBeside?_of_interiorZero? (none : interiorZero? name g (grid.map .real) = none) (i : ℕ)
    (inner : i + 2 < grid.length) :
    zeroBeside? name g (toleranceOf name g (grid.map .real)) (sampleAt name g grid[i])
      (sampleAt name g grid[i + 1]) (sampleAt name g grid[i + 2]) = Option.none := by
  rw [interiorZero?_eq, samplesOf_real] at none
  have nothing := zeroBeside?_of_zeroAmong? none i (by rwa [List.length_map])
  rwa [List.getElem_map, List.getElem_map, List.getElem_map] at nothing

/-- Of two neighbours on a grid with an inner point, one is an inner point. -/
theorem mul_nonneg_of_interiorZero? (many : 3 ≤ grid.length)
    (none : interiorZero? name g (grid.map .real) = none) {i : ℕ} (cell : i + 1 < grid.length)
    {a b : ℝ} (left : g.valueAt name (.real grid[i]) = .real a)
    (right : g.valueAt name (.real grid[i + 1]) = .real b) : 0 ≤ a * b := by
  by_cases inner : i + 2 < grid.length
  · have nothing := zeroBeside?_of_interiorZero? none i inner
    exact (zeroBeside?_eq_none right nothing).2.1 a left
  · -- the last cell, which has an inner point on its left
    obtain ⟨j, rfl⟩ : ∃ j, i = j + 1 := Nat.exists_eq_add_of_le' (by omega)
    have nothing := zeroBeside?_of_interiorZero? none j cell
    exact (zeroBeside?_eq_none left nothing).2.2 b right

theorem getElem_le_getElem (increasing : grid.Pairwise (· < ·)) {i j : ℕ} (order : i ≤ j)
    (within : j < grid.length) : grid[i] ≤ grid[j] := by
  rcases Nat.eq_or_lt_of_le order with rfl | less
  · exact le_rfl
  · exact (List.pairwise_iff_getElem.1 increasing i j _ within less).le

/-- What is found lies inside the grid. -/
theorem exists_inside_of_interiorZero? (increasing : grid.Pairwise (· < ·)) {p : Exact}
    (found : interiorZero? name g (grid.map .real) = some p) :
    ∃ first point last : ℝ, grid.head? = some first ∧ grid.getLast? = some last ∧
      p = .real point ∧ first < point ∧ point < last := by
  rw [interiorZero?_eq, samplesOf_real] at found
  obtain ⟨i, inner, beside⟩ := exists_of_zeroAmong? found
  rw [List.length_map] at inner
  rw [List.getElem_map, List.getElem_map, List.getElem_map] at beside
  have below := List.pairwise_iff_getElem.1 increasing i (i + 1) (by omega) (by omega) (by omega)
  have above := List.pairwise_iff_getElem.1 increasing (i + 1) (i + 2) (by omega) inner (by omega)
  obtain ⟨point, same, left, right⟩ := exists_of_zeroBeside? ⟨rfl, rfl, rfl⟩ ⟨below, above⟩ beside
  have front := getElem_le_getElem increasing (Nat.zero_le i) (by omega)
  have back := getElem_le_getElem increasing (i := i + 2) (j := grid.length - 1) (by omega)
    (by omega)
  refine ⟨grid[0], point, grid[grid.length - 1], ?_, ?_, same, front.trans_lt left,
    right.trans_le back⟩
  · rw [List.head?_eq_getElem?, List.getElem?_eq_getElem]
  · rw [List.getLast?_eq_getElem?, List.getElem?_eq_getElem]

end Coverage

/-- The search for zeros misses none that shows on its grid.  Over the exact
numbers, if nothing is found on a grid of at least three increasing points,
then no inner point is a zero, and no two neighbours, the outermost included,
have values of opposite sign; what is found lies inside the grid.  On indices
the search gives the same answer for every grid, and none of its indices is
out of range. -/
theorem zero_search_covers_grid :
    (∀ (name : String) (g : Expr Exact) (grid : List ℝ), grid.Pairwise (· < ·) →
      3 ≤ grid.length →
        (interiorZero? name g (grid.map .real) = none →
          (∀ (i : ℕ) (_ : i + 1 < grid.length), 0 < i → g.valueAt name (.real grid[i]) ≠ .real 0) ∧
          ∀ (i : ℕ) (_ : i + 1 < grid.length) (a b : ℝ), g.valueAt name (.real grid[i]) = .real a →
            g.valueAt name (.real grid[i + 1]) = .real b → 0 ≤ a * b) ∧
        ∀ p, interiorZero? name g (grid.map .real) = some p →
          ∃ first point last : ℝ, grid.head? = some first ∧ grid.getLast? = some last ∧
            p = .real point ∧ first < point ∧ point < last) ∧
    ∀ {K : Type} [Scalar K] (name : String) (g : Expr K) (grid : List K),
      Indexed.interiorZero? name g grid = .ok (interiorZero? name g grid) := by
  constructor
  · intro name g grid increasing many
    refine ⟨fun none => ⟨?_, ?_⟩, fun p => exists_inside_of_interiorZero? increasing⟩
    · intro i cell positive zero
      obtain ⟨i, rfl⟩ := Nat.exists_eq_add_of_le' positive
      have nothing := zeroBeside?_of_interiorZero? none i cell
      exact (zeroBeside?_eq_none zero nothing).1 rfl
    · intro i cell a b
      exact mul_nonneg_of_interiorZero? many none cell
  · intro K _ name g grid
    exact Indexed.interiorZero?_eq name g grid

/-- The identity has no zero around two, and one between minus one and one. -/
theorem zero_search_covers_grid_of_identity :
    let x : Expr Exact := .var "x"
    ([1, 2, 3].Pairwise (· < · : ℝ → ℝ → Prop) ∧ 3 ≤ [1, 2, 3].length ∧
      interiorZero? "x" x ([1, 2, 3].map .real) = none ∧
      x.valueAt "x" (.real 2) ≠ .real 0 ∧ (0 : ℝ) ≤ 1 * 2 ∧ (0 : ℝ) ≤ 2 * 3) ∧
    ([-1, 0, 1].Pairwise (· < · : ℝ → ℝ → Prop) ∧
      ∃ point : ℝ, interiorZero? "x" x ([-1, 0, 1].map .real) = some (.real point) ∧
        -1 < point ∧ point < 1) ∧
    Indexed.interiorZero? "x" x [] = .ok none ∧
    Indexed.interiorZero? "x" x [.real 1] = .ok none := by
  intro x
  obtain ⟨covers, indices⟩ := zero_search_covers_grid
  have up : [1, 2, 3].Pairwise (· < · : ℝ → ℝ → Prop) := by norm_num
  have around : [-1, 0, 1].Pairwise (· < · : ℝ → ℝ → Prop) := by norm_num
  have nothing : interiorZero? "x" x ([1, 2, 3].map .real) = none := by
    rw [interiorZero?_eq, samplesOf_real]
    have nonzero : Scalar.isZero (Exact.real 2) = false :=
      Exact.isZero_real_eq_false.2 two_ne_zero
    have left : ¬Scalar.isNegative (Exact.real 1 * .real 2) = true := by
      rw [isNegative_mul_iff]
      norm_num
    have right : ¬Scalar.isNegative (Exact.real 2 * .real 3) = true := by
      rw [isNegative_mul_iff]
      norm_num
    have larger : Scalar.atMost (Scalar.abs (Exact.real 2)) (Scalar.abs (.real 1)) = false := by
      show Scalar.atMost (Exact.real |2|) (.real |1|) = false
      rw [← Bool.not_eq_true, Scalar.atMost, Bool.or_eq_true, Exact.less_iff, Exact.beq_iff]
      rintro (⟨_, _, ⟨⟩, ⟨⟩, less⟩ | ⟨_, two, one⟩)
      · norm_num at less
      · have same := Exact.real.inj (two.trans one.symm)
        norm_num at same
    simp [zeroAmong?, zeroBeside?, sampleAt, x, valueAt, Exact.isFinite_real, nonzero, left, right,
      larger]
  have found : interiorZero? "x" x ([-1, 0, 1].map .real) = some (.real 0) := by
    rw [interiorZero?_eq, samplesOf_real]
    have zero : Scalar.isZero (Exact.real 0) = true := Exact.isZero_iff.2 (by simp)
    simp [zeroAmong?, zeroBeside?, sampleAt, x, valueAt, Exact.isFinite_real, zero]
  obtain ⟨inner, cells⟩ := (covers "x" x [1, 2, 3] up le_rfl).1 nothing
  obtain ⟨first, point, last, head, tail, same, below, above⟩ :=
    (covers "x" x [-1, 0, 1] around le_rfl).2 _ found
  cases head
  cases tail
  refine ⟨⟨up, le_rfl, nothing, ?_, ?_, ?_⟩, ⟨around, point, ?_, below, above⟩, ?_, ?_⟩
  · exact inner 1 (by decide) one_pos
  · exact cells 0 (by decide) 1 2 rfl rfl
  · exact cells 1 (by decide) 2 3 rfl rfl
  · rw [found, same]
  · exact indices "x" x []
  · exact indices "x" x [.real 1]

end Fluxion.Expr
