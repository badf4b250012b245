import Fluxion.Expr.Pole
import Fluxion.Proofs.Parts
import Fluxion.Proofs.Value

/-!
# Poles and their factors

Over the exact numbers a formula ceases to be defined at a pole: a divisor is zero, a power of zero has
a negative exponent, or the cosine under a tangent is zero.  A scan for singularities looks at the
zeros of `poleFactors` alone, so these have to account for every pole.  They do for quotients and
tangents, and for powers whose exponent is a constant (`poles_are_zeros_of_factors`).  An exponent
that is computed, as in `x ^ (0 - 2)`, is not looked into: such a power has no factor of its own
(`poleFactors_of_computed_exponent`).

A divisor that is zero at a point is taken apart by `vanishingFactors`.  What they leave out, parts
without the variable and exponentials, cannot be what makes it zero there, unless it is zero
everywhere; and then the formula is defined nowhere (`exists_vanishingFactor`).
-/

namespace Fluxion.Expr

variable {name : String} {a b : String → Exact} {y : ℝ} {e o f u v n : Expr Exact}

/-! ### Zeros of factors -/

/-- Assignments that differ in one variable make no difference to a tree
without it. -/
theorem valueIn_eq_of_not_mentions (agree : ∀ other, other ≠ name → a other = b other)
    (absent : e.mentions name = false) : e.valueIn a = e.valueIn b := by
  have update : Function.update b name (a name) = a := by
    funext other
    by_cases same : other = name
    · rw [same, Function.update_self]
    · rw [Function.update_of_ne same, agree other same]
  rw [← update, valueIn_update_of_not_mentions absent]

theorem eq_zero_of_rpow {base exponent : ℝ} (defined : PowerDefined base exponent)
    (zero : base ^ exponent = 0) : base = 0 := by
  rcases defined with positive | ⟨zero, -⟩ | ⟨negative, m, rfl⟩
  · exact absurd zero (Real.rpow_pos_of_pos positive exponent).ne'
  · exact zero
  · rw [Real.rpow_intCast] at zero
    exact absurd zero (zpow_ne_zero m negative.ne)

/-- An exponent that passes for a constant above zero is not zero. -/
theorem ne_of_isPositiveConst {exponent : ℝ} (positive : n.isPositiveConst = true)
    (value : n.valueIn a = .real exponent) : exponent ≠ 0 := by
  cases n with
  | const c =>
    obtain ⟨d, same, above⟩ := Exact.isPositive_iff.1 positive
    cases same.symm.trans value
    exact above.ne'
  | _ => cases positive

/-- What takes a value other than zero elsewhere depends on the variable. -/
theorem mentions_of_values (agree : ∀ other, other ≠ name → a other = b other)
    (zero : e.valueIn a = .real 0) (value : e.valueIn b = .real y) (nonzero : y ≠ 0) :
    (!e.mentions name) = false := by
  rw [Bool.not_eq_false']
  by_contra absent
  have same := valueIn_eq_of_not_mentions agree (Bool.eq_false_of_not_eq_true absent)
  exact nonzero (Exact.real.inj ((zero.symm.trans same).trans value)).symm

/-- A tree that is zero under one assignment and not under another, which
differs in the variable alone, has a factor that is zero. -/
theorem exists_vanishingFactor (agree : ∀ other, other ≠ name → a other = b other)
    (zero : e.valueIn a = .real 0) (value : e.valueIn b = .real y) (nonzero : y ≠ 0) :
    ∃ g ∈ e.vanishingFactors name, g.valueIn a = .real 0 := by
  have occurs := mentions_of_values agree zero value nonzero
  -- a part is taken apart further only where it is zero too, and not zero elsewhere
  induction e generalizing y with
  | var | const | named | add | sub =>
    rw [vanishingFactors.eq_def, occurs, if_neg Bool.false_ne_true]
    exact ⟨_, List.mem_singleton_self _, zero⟩
  | mul u v ihu ihv =>
    rw [vanishingFactors, occurs, if_neg Bool.false_ne_true]
    obtain ⟨p, q, hu, hv, product⟩ := valueIn_mul.1 zero
    obtain ⟨r, s, hu', hv', rfl⟩ := valueIn_mul.1 value
    obtain ⟨nonzeroLeft, nonzeroRight⟩ := mul_ne_zero_iff.1 nonzero
    rcases mul_eq_zero.1 product with rfl | rfl
    · obtain ⟨g, member, vanishes⟩ :=
        ihu hu hu' nonzeroLeft (mentions_of_values agree hu hu' nonzeroLeft)
      exact ⟨g, List.mem_append_left _ member, vanishes⟩
    · obtain ⟨g, member, vanishes⟩ :=
        ihv hv hv' nonzeroRight (mentions_of_values agree hv hv' nonzeroRight)
      exact ⟨g, List.mem_append_right _ member, vanishes⟩
  | div u v ih =>
    rw [vanishingFactors, occurs, if_neg Bool.false_ne_true]
    obtain ⟨p, q, hu, -, finite, quotient⟩ := valueIn_div.1 zero
    obtain ⟨r, s, hu', -, -, rfl⟩ := valueIn_div.1 value
    obtain rfl := (div_eq_zero_iff.1 quotient).resolve_right finite
    have nonzeroLeft := (div_ne_zero_iff.1 nonzero).1
    exact ih hu hu' nonzeroLeft (mentions_of_values agree hu hu' nonzeroLeft)
  | pow u n ih =>
    rw [vanishingFactors, occurs, if_neg Bool.false_ne_true]
    split
    · next positive =>
      obtain ⟨p, q, hu, -, defined, power⟩ := valueIn_pow.1 zero
      obtain ⟨r, s, hu', hn, -, rfl⟩ := valueIn_pow.1 value
      obtain rfl := eq_zero_of_rpow defined power
      have nonzeroBase : r ≠ 0 := by
        rintro rfl
        exact nonzero (Real.zero_rpow (ne_of_isPositiveConst positive hn))
      exact ih hu hu' nonzeroBase (mentions_of_values agree hu hu' nonzeroBase)
    · exact ⟨_, List.mem_singleton_self _, zero⟩
  | call f u ih =>
    rw [vanishingFactors.eq_def, occurs, if_neg Bool.false_ne_true]
    obtain ⟨p, hu, inside, image⟩ := valueIn_call.1 zero
    obtain ⟨r, hu', -, rfl⟩ := valueIn_call.1 value
    cases f with
    | sqrt =>
      obtain rfl := (Real.sqrt_eq_zero inside).1 image
      have nonzeroRadicand : r ≠ 0 := by
        rintro rfl
        exact nonzero Real.sqrt_zero
      exact ih hu hu' nonzeroRadicand (mentions_of_values agree hu hu' nonzeroRadicand)
    | exp => exact absurd image (Real.exp_pos p).ne'
    | _ => exact ⟨_, List.mem_singleton_self _, zero⟩

/-! ### Poles -/

/-- The outermost operation has a pole: a divisor is zero, a power of zero has
a negative exponent, or the cosine under a tangent is zero. -/
def HasPole (a : String → Exact) : Expr Exact → Prop
  | div _ v => v.valueIn a = .real 0
  | pow u n => u.valueIn a = .real 0 ∧ ∃ exponent < 0, n.valueIn a = .real exponent
  | call .tan u => ∃ angle, u.valueIn a = .real angle ∧ Real.cos angle = 0
  | _ => False

/-- An operand has a value wherever the operation has one. -/
theorem exists_value_of_operand (member : o ∈ e.operands) (value : e.valueIn b = .real y) :
    ∃ z, o.valueIn b = .real z := by
  have either {u v : Expr Exact} {p q : ℝ} (member : o ∈ [u, v]) (hu : u.valueIn b = .real p)
      (hv : v.valueIn b = .real q) : ∃ z, o.valueIn b = .real z := by
    obtain rfl | rfl := List.mem_pair.1 member
    · exact ⟨p, hu⟩
    · exact ⟨q, hv⟩
  cases e with
  | var | const | named => cases member
  | add u v =>
    obtain ⟨p, q, hu, hv, -⟩ := valueIn_add.1 value
    exact either member hu hv
  | sub u v =>
    obtain ⟨p, q, hu, hv, -⟩ := valueIn_sub.1 value
    exact either member hu hv
  | mul u v =>
    obtain ⟨p, q, hu, hv, -⟩ := valueIn_mul.1 value
    exact either member hu hv
  | div u v =>
    obtain ⟨p, q, hu, hv, -⟩ := valueIn_div.1 value
    exact either member hu hv
  | pow u v =>
    obtain ⟨p, q, hu, hv, -⟩ := valueIn_pow.1 value
    exact either member hu hv
  | call f u =>
    obtain ⟨p, hu, -⟩ := valueIn_call.1 value
    obtain rfl := List.mem_singleton.1 member
    exact ⟨p, hu⟩

/-- Where a tree has a value, every tree within it has one. -/
theorem exists_value_of_within (within : Within e f) (value : f.valueIn b = .real y) :
    ∃ z, e.valueIn b = .real z := by
  induction within generalizing y with
  | refl => exact ⟨y, value⟩
  | operand within member ih =>
    obtain ⟨z, value⟩ := exists_value_of_operand member value
    exact ih value

/-- The factors of the operands are among the factors of the operation. -/
theorem poleFactors_subset_of_operand (member : o ∈ e.operands) :
    o.poleFactors name ⊆ e.poleFactors name := by
  cases e with
  | var | const | named => cases member
  | add u v | sub u v | mul u v =>
    rw [poleFactors]
    obtain rfl | rfl := List.mem_pair.1 member
    · exact List.subset_append_left _ _
    · exact List.subset_append_right _ _
  | div u v | pow u v =>
    rw [poleFactors]
    refine List.Subset.trans ?_ (List.subset_append_left _ _)
    obtain rfl | rfl := List.mem_pair.1 member
    · exact List.subset_append_left _ _
    · exact List.subset_append_right _ _
  | call f u =>
    obtain rfl := List.mem_singleton.1 member
    cases f with
    | tan =>
      rw [poleFactors]
      exact List.subset_append_left _ _
    | _ => exact List.Subset.refl _

/-- The factors of a tree are among those of every tree around it. -/
theorem poleFactors_subset_of_within (within : Within e f) :
    e.poleFactors name ⊆ f.poleFactors name := by
  induction within with
  | refl => exact List.Subset.refl _
  | operand within member ih => exact List.Subset.trans ih (poleFactors_subset_of_operand member)

/-- A pole of the outermost operation is a zero of one of its factors, unless
it is the pole of a power whose exponent is not a constant. -/
theorem exists_poleFactor (agree : ∀ other, other ≠ name → a other = b other)
    (value : e.valueIn b = .real y) (pole : e.HasPole a) :
    (∃ g ∈ e.poleFactors name, g.valueIn a = .real 0) ∨
      ∃ u n, e = .pow u n ∧ n.isConst = false := by
  unfold HasPole at pole
  split at pole
  · next u v =>
    obtain ⟨p, q, -, hv, nonzero, -⟩ := valueIn_div.1 value
    obtain ⟨g, member, vanishes⟩ := exists_vanishingFactor agree pole hv nonzero
    rw [poleFactors]
    exact .inl ⟨g, List.mem_append_right _ member, vanishes⟩
  · next u n =>
    obtain ⟨zero, exponent, negative, hn⟩ := pole
    cases n with
    | const c =>
      left
      have fixed : c = .real exponent := hn
      obtain ⟨r, s, hu, hc, powerDefined, -⟩ := valueIn_pow.1 value
      have same : s = exponent := Exact.real.inj (hc.symm.trans fixed)
      have nonzero : r ≠ 0 := by
        rintro rfl
        exact negative.not_ge (same ▸ PowerDefined.zero_left_iff.1 powerDefined)
      obtain ⟨g, member, vanishes⟩ := exists_vanishingFactor agree zero hu nonzero
      have isNegative : (const c).isNegativeConst = true :=
        Exact.less_iff.2 ⟨exponent, 0, fixed, congrArg Exact.real Int.cast_zero, negative⟩
      rw [poleFactors, isNegative, if_pos rfl]
      exact ⟨g, List.mem_append_right _ member, vanishes⟩
    -- an exponent that is not a constant node is not looked into
    | _ => exact .inr ⟨u, _, rfl, rfl⟩
  · next u =>
    obtain ⟨angle, here, zero⟩ := pole
    obtain ⟨other, there, nonzero, -⟩ := valueIn_call.1 value
    have vanishing : (call .cos u).valueIn a = .real 0 := valueIn_call.2 ⟨angle, here, trivial, zero⟩
    have elsewhere : (call .cos u).valueIn b = .real (Real.cos other) :=
      valueIn_call.2 ⟨other, there, trivial, rfl⟩
    obtain ⟨g, member, vanishes⟩ := exists_vanishingFactor agree vanishing elsewhere nonzero
    rw [poleFactors]
    exact .inl ⟨g, List.mem_append_right _ member, vanishes⟩
  · cases pole

/-- Every pole of a formula that is defined somewhere is a zero of one of the
factors that are scanned, but for the poles of powers whose exponent is not a
constant.  The part with the pole has a value wherever the formula has one, so
one of its own factors vanishes at the pole and not everywhere.  That factor
is among those of the formula, whatever lies around the part. -/
theorem poles_are_zeros_of_factors {f e : Expr Exact} {name : String} (a : String → Exact) {p : ℝ}
    (defined : ∃ x y : ℝ, f.valueIn (Function.update a name (.real x)) = .real y)
    (within : Within e f) (pole : e.HasPole (Function.update a name (.real p))) :
    (∃ g ∈ f.poleFactors name, g.valueIn (Function.update a name (.real p)) = .real 0) ∨
      ∃ u n, e = .pow u n ∧ n.isConst = false := by
  obtain ⟨x, y, value⟩ := defined
  have agree (other : String) (different : other ≠ name) :
      Function.update a name (.real p) other = Function.update a name (.real x) other := by
    rw [Function.update_of_ne different, Function.update_of_ne different]
  obtain ⟨z, value⟩ := exists_value_of_within within value
  refine (exists_poleFactor agree value pole).imp_left ?_
  rintro ⟨g, member, vanishes⟩
  exact ⟨g, poleFactors_subset_of_within within member, vanishes⟩

section Instances

theorem valueIn_int_one : (int 1 : Expr Exact).valueIn a = .real 1 := by
  rw [valueIn_int, Int.cast_one]

theorem valueIn_updated (x : ℝ) {a : String → Exact} {name : String} :
    (var name : Expr Exact).valueIn (Function.update a name (.real x)) = .real x := by
  rw [valueIn_var, Function.update_self]

theorem valueIn_int_two : (int 2 : Expr Exact).valueIn a = .real 2 := by
  rw [valueIn_int, Int.cast_ofNat]

/-- The double pole of `1 + 1/(x - 1)^2` is a zero of a factor. -/
theorem poles_are_zeros_of_factors_of_double_pole :
    let f : Expr Exact := .add (.int 1) (.div (.int 1) (.pow (.sub (.var "x") (.int 1)) (.int 2)))
    f.valueAt "x" (.real 2) = .real 2 ∧
      ∃ g ∈ f.poleFactors "x", g.valueAt "x" (.real 1) = .real 0 := by
  intro f
  simp only [valueAt_eq_valueIn]
  have square (x y : ℝ) (same : (x - 1) ^ (2 : ℝ) = y) :
      (pow (.sub (.var "x") (.int 1)) (.int 2) : Expr Exact).valueIn
        (Function.update (fun _ => Scalar.undefined) "x" (Exact.real x)) = Exact.real y :=
    valueIn_pow.2 ⟨x - 1, 2, valueIn_sub.2 ⟨x, 1, valueIn_updated x, valueIn_int_one, rfl⟩,
      valueIn_int_two, by exact_mod_cast PowerDefined.of_natCast (x - 1) 2, same⟩
  have value : f.valueIn (Function.update (fun _ => Scalar.undefined) "x" (.real 2)) = .real 2 :=
    valueIn_add.2 ⟨1, 1, valueIn_int_one, valueIn_div.2 ⟨1, 1, valueIn_int_one,
      square 2 1 (by norm_num), one_ne_zero, by norm_num⟩, by norm_num⟩
  have within : Within _ f := .operand (.refl _) (.tail _ (.head _))
  rcases poles_are_zeros_of_factors _ ⟨2, 2, value⟩ within (square 1 0 (by norm_num)) with
    found | ⟨u, n, same, -⟩
  · exact ⟨value, found⟩
  · cases same

/-- A power with a computed exponent: it has a pole, and no factor to
find the pole by. -/
theorem poleFactors_of_computed_exponent :
    let e : Expr Exact := .pow (.var "x") (.sub (.int 0) (.int 2))
    e.HasPole (Function.update (fun _ => Scalar.undefined) "x" (.real 0)) ∧
      e.valueAt "x" (.real 1) = .real 1 ∧ e.poleFactors "x" = [] := by
  intro e
  have exponent {a : String → Exact} : (sub (.int 0) (.int 2)).valueIn a = .real (-2) :=
    valueIn_sub.2 ⟨0, 2, by rw [valueIn_int, Int.cast_zero], valueIn_int_two, by norm_num⟩
  refine ⟨⟨valueIn_updated 0, -2, by norm_num, exponent⟩, ?_, rfl⟩
  rw [valueAt_eq_valueIn]
  exact valueIn_pow.2 ⟨1, -2, valueIn_updated 1, exponent, .of_pos one_pos _, Real.one_rpow _⟩

end Instances

end Fluxion.Expr
