import Fluxion.Proofs.NearestFloat

/-!
# Shortest decimals read back

The decimal that is written for a machine number lies near it (`Binary.near_shortest`): on each grid
the search accepts none but such decimals, and if it found none it would fall back on the number
itself.

On one grid the search looks at the two neighbours of the number only.  That is enough: what it
takes is as near as any multiple on the grid that lies near the number at all
(`Binary.candidateOn_nearest`), and it takes something if there is one (`Binary.candidateOn_ne_none`).
-/

namespace Fluxion.Decimal

/-! ### The value of a decimal -/

namespace Digits

/-- The number that the digits stand for. -/
def value (number : Digits) : ℚ := number.digits * 10 ^ number.exponent

theorem value_trimmed (number : Digits) : number.trimmed.value = number.value := by
  induction number using trimmed.induct with
  | case1 number ends ih =>
    have tens : ((number.digits / 10 : ℕ) : ℚ) * 10 = number.digits := by
      exact_mod_cast Nat.div_mul_cancel (Nat.dvd_of_mod_eq_zero ends.2)
    rw [trimmed, if_pos ends, ih, value, value, ← tens]
    dsimp only
    rw [zpow_add₀ (by norm_num), zpow_one]
    ring
  | case2 number ends => rw [trimmed, if_neg ends]

end Digits

namespace Binary

variable {value : Binary}

/-- The absolute value. -/
def magnitude (value : Binary) : ℚ := value.significand * 2 ^ value.exponent

theorem near_magnitude (nonzero : value.significand ≠ 0) : value.Near value.magnitude :=
  near_self nonzero

theorem value_exactDigits : value.exactDigits.value = value.magnitude := by
  obtain ⟨negative, significand, exponent⟩ := value
  cases exponent with
  | ofNat k => simp [exactDigits, Digits.value, magnitude, twoTo]
  | negSucc k =>
    have ten : (10 : ℚ) ^ (k + 1) = 2 ^ (k + 1) * 5 ^ (k + 1) := by
      rw [← mul_pow]
      norm_num
    simp only [exactDigits, Digits.value, magnitude, zpow_negSucc, Nat.cast_mul, Nat.pow_eq,
      Nat.cast_pow, Nat.cast_ofNat, ten]
    field_simp

/-! ### Common units -/

/-- The number of common units in the product of one power of ten and one of two. -/
theorem commonUnit_eq (s t : ℤ) :
    ∃ scale : ℚ, 0 < scale ∧ ((commonUnit s t).1 : ℚ) = 10 ^ s * scale ∧
      ((commonUnit s t).2 : ℚ) = 2 ^ t * scale := by
  refine ⟨10 ^ (-s).toNat * 2 ^ (-t).toNat, by positivity, ?_, ?_⟩
  · rw [← mul_assoc, zpow_mul_pow_toNat (by norm_num)]
    exact_mod_cast rfl
  · rw [mul_left_comm, zpow_mul_pow_toNat two_ne_zero, mul_comm]
    exact_mod_cast rfl

/-- The common unit of a decimal and a binary exponent is not zero. -/
theorem commonUnit_pos (s t : ℤ) : 0 < (commonUnit s t).1 := by
  obtain ⟨scale, positive, ten, -⟩ := commonUnit_eq s t
  rw [← Nat.cast_pos (α := ℚ), ten]
  positivity

/-- Comparing over the common unit is comparing the numbers. -/
theorem mul_commonUnit_le_iff {s t : ℤ} {a b : ℕ} :
    a * (commonUnit s t).1 ≤ b * (commonUnit s t).2 ↔ (a : ℚ) * 10 ^ s ≤ b * 2 ^ t := by
  obtain ⟨scale, positive, ten, two⟩ := commonUnit_eq s t
  rw [← Nat.cast_le (α := ℚ), Nat.cast_mul, Nat.cast_mul, ten, two, ← mul_assoc, ← mul_assoc,
    mul_le_mul_iff_left₀ positive]

theorem le_mul_commonUnit_iff {s t : ℤ} {a b : ℕ} :
    b * (commonUnit s t).2 ≤ a * (commonUnit s t).1 ↔ (b : ℚ) * 2 ^ t ≤ a * 10 ^ s := by
  obtain ⟨scale, positive, ten, two⟩ := commonUnit_eq s t
  rw [← Nat.cast_le (α := ℚ), Nat.cast_mul, Nat.cast_mul, ten, two, ← mul_assoc, ← mul_assoc,
    mul_le_mul_iff_left₀ positive]

/-! ### Candidates -/

/-- Whether the search finds a multiple of a power of ten in the interval.  It
compares whole numbers only. -/
def inside (value : Binary) (s : ℤ) (d : ℕ) : Bool :=
  if value.significand % 2 = 0 then
    decide (value.interval.1 * (commonUnit s (value.exponent - 2)).2 ≤
      d * (commonUnit s (value.exponent - 2)).1 ∧
      d * (commonUnit s (value.exponent - 2)).1 ≤
        value.interval.2 * (commonUnit s (value.exponent - 2)).2)
  else
    decide (value.interval.1 * (commonUnit s (value.exponent - 2)).2 <
      d * (commonUnit s (value.exponent - 2)).1 ∧
      d * (commonUnit s (value.exponent - 2)).1 <
        value.interval.2 * (commonUnit s (value.exponent - 2)).2)

/-- The test of whole numbers decides nearness. -/
theorem inside_iff {s : ℤ} {d : ℕ} : value.inside s d = true ↔ value.Near (d * 10 ^ s) := by
  unfold inside
  split
  · next even =>
    rw [decide_eq_true_iff, le_mul_commonUnit_iff, mul_commonUnit_le_iff]
    constructor
    · rintro ⟨low, high⟩
      exact ⟨low, high, fun odd => by omega⟩
    · intro near
      exact ⟨near.low_le, near.le_high⟩
  · next odd =>
    rw [decide_eq_true_iff, ← not_le, ← not_le, mul_commonUnit_le_iff, le_mul_commonUnit_iff,
      not_le, not_le]
    constructor
    · rintro ⟨low, high⟩
      exact ⟨low.le, high.le, fun _ => ⟨low, high⟩⟩
    · intro near
      exact near.of_odd (by omega)

/-- What rounds to a number has no gaps. -/
theorem Near.between {x y z : ℚ} (near : value.Near x) (near' : value.Near y) (le : x ≤ z)
    (le' : z ≤ y) : value.Near z where
  low_le := near.low_le.trans le
  le_high := le'.trans near'.le_high
  of_odd odd := ⟨(near.of_odd odd).1.trans_le le, le'.trans_lt (near'.of_odd odd).2⟩

/-! ### Neighbours on a grid -/

/-- The number of whole powers of ten in the number. -/
def floorOn (value : Binary) (s : ℤ) : ℕ :=
  4 * value.significand * (commonUnit s (value.exponent - 2)).2 /
    (commonUnit s (value.exponent - 2)).1

theorem centre_eq : ((4 * value.significand : ℕ) : ℚ) * 2 ^ (value.exponent - 2) =
    value.magnitude := by
  rw [two_zpow_sub_two, magnitude]
  push_cast
  ring

theorem floorOn_le (value : Binary) (s : ℤ) : value.floorOn s * 10 ^ s ≤ value.magnitude := by
  rw [← centre_eq, ← mul_commonUnit_le_iff]
  exact Nat.div_mul_le_self _ _

theorem lt_floorOn_add_one (value : Binary) (s : ℤ) :
    value.magnitude < (value.floorOn s + 1 : ℕ) * 10 ^ s := by
  rw [← centre_eq, ← not_le, ← mul_commonUnit_le_iff, not_le]
  exact Nat.lt_mul_of_div_lt (Nat.lt_succ_self _) (commonUnit_pos _ _)

section Neighbours

variable {s : ℤ} {c d : ℕ} {tie : Tie}

theorem dist_floorOn : |value.magnitude - value.floorOn s * 10 ^ s| =
    value.magnitude - value.floorOn s * 10 ^ s :=
  abs_of_nonneg (sub_nonneg.2 (value.floorOn_le s))

theorem dist_floorOn_add_one : |value.magnitude - (value.floorOn s + 1 : ℕ) * 10 ^ s| =
    (value.floorOn s + 1 : ℕ) * 10 ^ s - value.magnitude := by
  rw [abs_sub_comm, abs_of_pos (sub_pos.2 (value.lt_floorOn_add_one s))]

/-- A multiple that is not above the number is not nearer than the neighbour below. -/
theorem dist_floorOn_le (le : d ≤ value.floorOn s) :
    |value.magnitude - value.floorOn s * 10 ^ s| ≤ |value.magnitude - d * 10 ^ s| := by
  have farther : (d : ℚ) * 10 ^ s ≤ value.floorOn s * 10 ^ s := by gcongr
  rw [dist_floorOn]
  exact le_trans (by linarith) (le_abs_self _)

/-- A multiple that is above the number is not nearer than the neighbour above. -/
theorem dist_floorOn_add_one_le (lt : value.floorOn s < d) :
    |value.magnitude - (value.floorOn s + 1 : ℕ) * 10 ^ s| ≤ |value.magnitude - d * 10 ^ s| := by
  have farther : ((value.floorOn s + 1 : ℕ) : ℚ) * 10 ^ s ≤ d * 10 ^ s := by
    gcongr
    exact lt
  rw [dist_floorOn_add_one]
  exact le_trans (by linarith) (neg_le_abs _)

/-- The neighbour on the side of a near multiple is near. -/
theorem Near.neighbour (near : value.Near (d * 10 ^ s)) (nonzero : value.significand ≠ 0) :
    d ≤ value.floorOn s ∧ value.inside s (value.floorOn s) = true ∨
      value.floorOn s < d ∧ value.inside s (value.floorOn s + 1) = true := by
  obtain le | lt := le_or_gt d (value.floorOn s)
  · refine .inl ⟨le, inside_iff.2 (near.between (near_magnitude nonzero) ?_ (value.floorOn_le s))⟩
    gcongr
  · refine .inr ⟨lt, inside_iff.2 ((near_magnitude nonzero).between near
      (value.lt_floorOn_add_one s).le ?_)⟩
    gcongr
    exact lt

/-- Which of the two neighbours is nearer. -/
theorem dist_le_iff : |value.magnitude - value.floorOn s * 10 ^ s| ≤
      |value.magnitude - (value.floorOn s + 1 : ℕ) * 10 ^ s| ↔
    2 * (4 * value.significand * (commonUnit s (value.exponent - 2)).2) ≤
      (value.floorOn s + (value.floorOn s + 1)) * (commonUnit s (value.exponent - 2)).1 := by
  rw [← mul_assoc, le_mul_commonUnit_iff, Nat.cast_mul, mul_assoc, centre_eq, dist_floorOn,
    dist_floorOn_add_one]
  push_cast
  constructor <;> intro <;> linarith

/-- Which neighbour is nearer is decided without fractions. -/
theorem dist_ge_iff : |value.magnitude - (value.floorOn s + 1 : ℕ) * 10 ^ s| ≤
      |value.magnitude - value.floorOn s * 10 ^ s| ↔
    (value.floorOn s + (value.floorOn s + 1)) * (commonUnit s (value.exponent - 2)).1 ≤
      2 * (4 * value.significand * (commonUnit s (value.exponent - 2)).2) := by
  rw [← mul_assoc, mul_commonUnit_le_iff, Nat.cast_mul, mul_assoc, centre_eq, dist_floorOn,
    dist_floorOn_add_one]
  push_cast
  constructor <;> intro <;> linarith

/-- What the search finds is one of the two neighbours, inside, and the nearer
one if both are. -/
theorem candidateOn_eq_some (found : value.candidateOn tie s = some c) :
    c = value.floorOn s ∧ value.inside s (value.floorOn s) = true ∧
        (value.inside s (value.floorOn s + 1) = true →
          |value.magnitude - value.floorOn s * 10 ^ s| ≤
            |value.magnitude - (value.floorOn s + 1 : ℕ) * 10 ^ s|) ∨
      c = value.floorOn s + 1 ∧ value.inside s (value.floorOn s + 1) = true ∧
        (value.inside s (value.floorOn s) = true →
          |value.magnitude - (value.floorOn s + 1 : ℕ) * 10 ^ s| ≤
            |value.magnitude - value.floorOn s * 10 ^ s|) := by
  rw [dist_le_iff, dist_ge_iff]
  unfold candidateOn at found
  dsimp only at found
  split at found
  · cases found
  · next lower upper =>
    cases found
    exact .inl ⟨rfl, lower, fun both => absurd both (Bool.eq_false_iff.1 upper)⟩
  · next lower upper =>
    cases found
    exact .inr ⟨rfl, upper, fun both => absurd both (Bool.eq_false_iff.1 lower)⟩
  · next lower upper =>
    split at found
    · next less =>
      cases found
      exact .inl ⟨rfl, lower, fun _ => (Nat.compare_eq_lt.1 less).le⟩
    · next more =>
      cases found
      exact .inr ⟨rfl, upper, fun _ => (Nat.compare_eq_gt.1 more).le⟩
    · next same =>
      have halfway := Nat.compare_eq_eq.1 same
      split at found
      · cases found
        exact .inr ⟨rfl, upper, fun _ => halfway.ge⟩
      · split at found
        · cases found
          exact .inl ⟨rfl, lower, fun _ => halfway.le⟩
        · cases found
          exact .inr ⟨rfl, upper, fun _ => halfway.ge⟩

/-- A candidate is near to the magnitude, so it reads back. -/
theorem near_of_candidateOn (found : value.candidateOn tie s = some c) :
    value.Near (c * 10 ^ s) := by
  obtain ⟨rfl, lower, -⟩ | ⟨rfl, upper, -⟩ := candidateOn_eq_some found
  · exact inside_iff.1 lower
  · exact inside_iff.1 upper

/-- On its grid, nothing that rounds to the number is nearer than what the
search finds. -/
theorem candidateOn_nearest (found : value.candidateOn tie s = some c)
    (near : value.Near (d * 10 ^ s)) (nonzero : value.significand ≠ 0) :
    |value.magnitude - c * 10 ^ s| ≤ |value.magnitude - d * 10 ^ s| := by
  obtain ⟨rfl, -, nearer⟩ | ⟨rfl, -, nearer⟩ := candidateOn_eq_some found
  · obtain ⟨le, -⟩ | ⟨lt, upper⟩ := near.neighbour nonzero
    · exact dist_floorOn_le le
    · exact (nearer upper).trans (dist_floorOn_add_one_le lt)
  · obtain ⟨le, lower⟩ | ⟨lt, -⟩ := near.neighbour nonzero
    · exact (nearer lower).trans (dist_floorOn_le le)
    · exact dist_floorOn_add_one_le lt

/-- A grid with something that rounds to the number has a candidate. -/
theorem candidateOn_ne_none (near : value.Near (d * 10 ^ s)) (nonzero : value.significand ≠ 0)
    (tie : Tie) : value.candidateOn tie s ≠ none := by
  intro missing
  unfold candidateOn at missing
  dsimp only at missing
  split at missing
  · next lower upper =>
    obtain ⟨-, inside⟩ | ⟨-, inside⟩ := near.neighbour nonzero
    · exact absurd inside (Bool.eq_false_iff.1 lower)
    · exact absurd inside (Bool.eq_false_iff.1 upper)
  all_goals repeat' split at missing
  all_goals cases missing

end Neighbours

/-! ### The shortest decimal -/

/-- The decimal that is written for a number lies near it. -/
theorem near_shortest (nonzero : value.significand ≠ 0) (tie : Tie) :
    value.Near (value.shortest tie).value := by
  rw [shortest, if_neg nonzero]
  dsimp only
  rw [Digits.value_trimmed]
  cases search : (List.range 17).findSome? fun k =>
      (value.candidateOn tie (value.decimalLength - Int.ofNat (k + 1))).map fun d =>
        Digits.mk d (value.decimalLength - Int.ofNat (k + 1)) with
  | none =>
    rw [Option.getD_none, value_exactDigits]
    exact near_magnitude nonzero
  | some number =>
    obtain ⟨k, -, found⟩ := List.exists_of_findSome?_eq_some search
    obtain ⟨d, candidate, rfl⟩ := Option.map_eq_some_iff.1 found
    exact near_of_candidateOn candidate

/-- What lies near a number is positive. -/
theorem Near.pos {x : ℚ} (near : value.Near x) (nonzero : value.significand ≠ 0) : 0 < x := by
  have least : (1 : ℚ) ≤ value.significand := by exact_mod_cast Nat.pos_of_ne_zero nonzero
  refine lt_of_lt_of_le ?_ ((value.half_le_low nonzero).trans near.low_le)
  have : (0 : ℚ) < 2 ^ value.exponent := by positivity
  exact mul_pos (by linarith) this

end Binary

end Fluxion.Decimal
