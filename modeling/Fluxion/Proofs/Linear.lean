import Fluxion.Proofs.Passes
import Fluxion.Proofs.Primitives

/-!
# Linear arguments

What simplification makes of a constant beside a tree that is not one: a coefficient may be dropped,
merged or put into an exponent (`Scaling`), and a divisor in the same ways (`Division`).  The trees that
are linear in a variable and written with constants only are therefore closed under simplification
(`Linear.closed`).  Their terms may change places, but a slope is read off again (`Linear.slope?`).
-/

namespace Fluxion.Expr

/-- Sums, differences and products of trees that simplify to constants are
folded, in the same pass. -/
theorem simplifyPass_fold {u v : Expr Exact} {a b : ℝ} (left : u.simplifyPass = const (.real a))
    (right : v.simplifyPass = const (.real b)) :
    (add u v).simplifyPass = const (.real (a + b)) ∧ (sub u v).simplifyPass = const (.real (a - b)) ∧
      (mul u v).simplifyPass = const (.real (a * b)) := by
  refine ⟨?_, ?_, ?_⟩ <;>
    · rw [simplifyPass_eq, mapOperands, left, right]
      rfl

/-- A tree that one pass makes a constant is simplified with that pass. -/
theorem simplify_of_simplifyPass_const {e : Expr Exact} {c : Exact}
    (folded : e.simplifyPass = const c) : e.simplify = const c := by
  have settled := simplify_of_fixed (simplifyPass_const c)
  rw [simplify, simplifyPass_const] at settled
  rw [simplify, folded, settled]

/-! ### Rules for a constant beside a tree -/

variable {name : String} {u v : Expr Exact} {a : ℝ}

/-- Trees of which only one mentions a variable differ. -/
theorem beq_eq_false_of_mentions (occurs : u.mentions name = true) (absent : v.mentions name = false) :
    (u == v) = false ∧ (v == u) = false := by
  refine ⟨Bool.eq_false_iff.2 fun same => ?_, Bool.eq_false_iff.2 fun same => ?_⟩
  · rw [eq_of_beq same, absent] at occurs
    cases occurs
  · rw [eq_of_beq same, occurs] at absent
    cases absent

/-- A tree in which a variable occurs is not a constant. -/
theorem isConst_eq_false (occurs : v.mentions name = true) : v.isConst = false := by
  cases v with
  | const => cases occurs
  | _ => rfl

theorem not_const (compound : v.isConst = false) (c : Exact) (same : v = const c) : False := by
  cases same
  cases compound

/-- A tree and a constant have a base in common only if the tree is a power of
the constant. -/
theorem commonBase?_const {c : Exact} {b m n : Expr Exact} (h : commonBase? v (const c) = some (b, m, n)) :
    v = pow (const c) m ∧ b = const c ∧ n = int 1 := by
  unfold commonBase? at h
  split at h
  · next other => cases other
  · split at h
    · next same =>
      cases h
      cases eq_of_beq same
      exact ⟨rfl, rfl, rfl⟩
    · cases h
  · cases h

/-- What a coefficient becomes beside a tree that is not a constant.  It may
disappear, join another coefficient or a numerator, or stay in front. -/
inductive Scaling (a : Exact) : Expr Exact → Expr Exact → Prop
  | dropped (v : Expr Exact) : Scaling a v v
  | merged (b : Exact) (w : Expr Exact) : Scaling a (mul (const b) w) (mul (const (a * b)) w)
  | numerator (b : Exact) (w : Expr Exact) : Scaling a (div (const b) w) (div (const (a * b)) w)
  | exponent (m : Expr Exact) : Scaling a (pow (const a) m) (pow (const a) (add m (int 1)))
  | kept (v : Expr Exact) : Scaling a v (mul (const a) v)

/-- Multiplying by a constant scales, or raises a power of that constant. -/
theorem multiplyPowers_const (c : Exact) (v : Expr Exact) :
    Scaling c v (multiplyPowers (const c) v).tree := by
  unfold multiplyPowers
  split
  · next merged => cases merged
  · split
    · next merged =>
      obtain ⟨rfl, rfl, rfl⟩ := commonBase?_const merged
      exact .exponent _
    · rw [isConst, Bool.not_true, Bool.and_false]
      exact .kept v

/-- The rule for products, with a constant other than zero in front, scales. -/
theorem simplifyMul_const (nonzero : a ≠ 0) (compound : v.isConst = false) :
    Scaling (.real a) v (simplifyMul (const (.real a)) v).tree := by
  have zero := Exact.isZero_real_eq_false.2 nonzero
  unfold simplifyMul
  split
  · cases compound
  · next same _ =>
    cases same
    rw [zero, if_neg Bool.false_ne_true]
    split
    · exact .dropped _
    · split
      · exact .merged _ _
      · exact .kept _
      · exact .numerator _ _
      · exact .kept _
      · exact multiplyPowers_const _ _
  -- the other rules are for products that no constant begins
  all_goals simp_all

theorem simplifyMul_zero (compound : v.isConst = false) :
    simplifyMul (int 0) v = .final (int 0) := by
  unfold simplifyMul
  split
  · cases compound
  · next same _ =>
    cases same
    exact if_pos (Exact.isZero_iff.2 rfl)
  all_goals simp_all

/-- What a tree that is not a constant becomes over a constant, by any of the
rules for quotients. -/
inductive Division (d : Exact) : Expr Exact → Expr Exact → Prop
  | dropped (u : Expr Exact) : Division d u u
  | negated (u : Expr Exact) : Division d u (mul (int (-1)) u)
  | coefficient (c : Exact) (w : Expr Exact) : Division d (mul (const c) w) (mul (const (c / d)) w)
  | exponent (m : Expr Exact) : Division d (pow (const d) m) (pow (const d) (sub m (int 1)))
  | kept (u : Expr Exact) : Division d u (div u (const d))

/-- Dividing by a constant divides, or lowers a power of that constant. -/
theorem dividePowers_const {d : Exact} (compound : u.isConst = false) :
    Division d u (dividePowers u (const d)).tree := by
  unfold dividePowers
  split
  · next same =>
    cases eq_of_beq same
    cases compound
  · split
    · next merged =>
      obtain ⟨rfl, rfl, rfl⟩ := commonBase?_const merged
      exact .exponent _
    · exact .kept u

/-- Division by a constant, whether or not it divides a coefficient, is one of
the ways listed. -/
theorem divideByConstant_division {d : Exact} (compound : u.isConst = false) :
    Division d u (divideByConstant u d).tree := by
  unfold divideByConstant
  split
  · exact .negated u
  · split
    · split
      · exact .coefficient _ _
      · exact .kept _
    · exact dividePowers_const compound

/-- The rule for quotients over a constant is one of the ways listed. -/
theorem simplifyDiv_const {d : Exact} (compound : u.isConst = false) :
    Division d u (simplifyDiv u (const d)).tree := by
  unfold simplifyDiv
  split
  · cases compound
  · cases compound
  · next same =>
    cases same
    split
    · exact .dropped _
    · exact divideByConstant_division compound
  · simp_all

/-! ### Linear trees -/

/-- The trees that a variable, constants, sums and differences with a constant
and products with a constant other than zero make. -/
inductive Linear (name : String) : Expr Exact → Prop
  | var : Linear name (var name)
  | scale {a : ℝ} {u : Expr Exact} (nonzero : a ≠ 0) (linear : Linear name u) :
      Linear name (mul (const (.real a)) u)
  | add {u : Expr Exact} (linear : Linear name u) (b : ℝ) : Linear name (add u (const (.real b)))
  | sub {u : Expr Exact} (linear : Linear name u) (b : ℝ) : Linear name (sub u (const (.real b)))
  | constAdd {u : Expr Exact} (b : ℝ) (linear : Linear name u) : Linear name (add (const (.real b)) u)
  | constSub {u : Expr Exact} (b : ℝ) (linear : Linear name u) : Linear name (sub (const (.real b)) u)

namespace Linear

theorem mentions (linear : Linear name u) : u.mentions name = true := by
  induction linear with
  | var => simp [Expr.mentions]
  | scale nonzero linear ih | constAdd b linear ih | constSub b linear ih =>
    rw [Expr.mentions, ih, Bool.or_true]
  | add linear b ih | sub linear b ih => rw [Expr.mentions, ih, Bool.true_or]

theorem splitCoefficient (linear : Linear name u) : Linear name u.splitCoefficient.2 := by
  cases linear with
  | var => exact .var
  | scale nonzero linear => exact linear
  | add linear b => exact .add linear b
  | sub linear b => exact .sub linear b
  | constAdd b linear => exact .constAdd b linear
  | constSub b linear => exact .constSub b linear

/-- A constant is no like term of a linear tree. -/
theorem collect_const (linear : Linear name u) (operation : Expr Exact → Expr Exact → Expr Exact)
    (combine : Exact → Exact → Exact) (c : Exact) :
    collect operation combine u (const c) = .final (operation u (const c)) ∧
      collect operation combine (const c) u = .final (operation (const c) u) := by
  have different := beq_eq_false_of_mentions (v := const c) linear.splitCoefficient.mentions rfl
  refine ⟨if_neg ?_, if_neg ?_⟩
  · exact Bool.not_eq_true _ ▸ different.1
  · exact Bool.not_eq_true _ ▸ different.2

theorem not_const (linear : Linear name u) : ∀ c, u = const c → False :=
  Expr.not_const (isConst_eq_false linear.mentions)

/-- Scaling by a number other than zero keeps a tree linear. -/
theorem of_scaling {t : Expr Exact} (linear : Linear name u) (nonzero : a ≠ 0)
    (scaling : Scaling (.real a) u t) : Linear name t := by
  cases scaling with
  | dropped => exact linear
  | merged b w =>
    obtain _ | ⟨further, linear⟩ := linear
    exact .scale (mul_ne_zero nonzero further) linear
  | numerator | exponent => cases linear
  | kept => exact .scale nonzero linear

/-- Simplification keeps a tree linear, or makes it a constant.  Nothing that
is read off it is lost by simplifying it first. -/
theorem closed (name : String) : Closed (Linear name) where
  operands member each := by
    cases member with
    | var => exact .var
    | scale nonzero linear =>
      rw [mapOperands, simplifyPass_const]
      exact .scale nonzero (each _ (.tail _ (.head _)) linear)
    | add linear b =>
      rw [mapOperands, simplifyPass_const]
      exact .add (each _ (.head _) linear) b
    | sub linear b =>
      rw [mapOperands, simplifyPass_const]
      exact .sub (each _ (.head _) linear) b
    | constAdd b linear =>
      rw [mapOperands, simplifyPass_const]
      exact .constAdd b (each _ (.tail _ (.head _)) linear)
    | constSub b linear =>
      rw [mapOperands, simplifyPass_const]
      exact .constSub b (each _ (.tail _ (.head _)) linear)
  rule member := by
    cases member with
    | var => exact .var
    | scale nonzero linear =>
      exact linear.of_scaling nonzero (simplifyMul_const nonzero (isConst_eq_false linear.mentions))
    | add linear b =>
      rw [reduceRoot, simplifyAdd.eq_3 _ _ linear.not_const]
      split
      · exact linear
      · rw [(linear.collect_const _ _ _).1]
        exact .add linear b
    | sub linear b =>
      rw [reduceRoot, simplifySub.eq_3 _ _ linear.not_const]
      split
      · exact linear
      · split
        · exact .add linear (-b)
        · rw [(linear.collect_const _ _ _).1]
          exact .sub linear b
    | constAdd b linear =>
      rw [reduceRoot, simplifyAdd.eq_2 _ _ linear.not_const]
      split
      · exact linear
      · rw [(linear.collect_const _ _ _).2]
        exact .constAdd b linear
    | constSub b linear =>
      rw [reduceRoot, simplifySub.eq_2 _ _ linear.not_const]
      split
      · exact .scale (by norm_num) linear
      · rw [(linear.collect_const _ _ _).2]
        exact .constSub b linear

/-! ### Slopes -/

/-- The derivative tree of a linear tree simplifies to a constant in one pass.  The
induction is on how the tree is built, one case for each rule of linearity. -/
theorem simplifyPass_diff (linear : Linear name u) :
    ∃ s : ℝ, s ≠ 0 ∧ (u.diff name).simplifyPass = const (.real s) := by
  have constant (c : ℝ) : ((const (Exact.real c)).diff name).simplifyPass = const (.real 0) := by
    rw [diff, simplifyPass_const, Exact.ofInt_eq, Int.cast_zero]
  induction linear with
  | var => exact ⟨1, one_ne_zero, by rw [diff, if_pos rfl, simplifyPass_const, Exact.ofInt_eq, Int.cast_one]⟩
  | @scale a u nonzero linear ih =>
    obtain ⟨s, slope, derivative⟩ := ih
    have vanishing : (mul (int 0) u).simplifyPass = const (.real 0) := by
      rw [simplifyPass_eq, mapOperands, simplifyPass_const, reduceRoot,
        simplifyMul_zero (isConst_eq_false ((closed name).simplifyPass linear).mentions)]
      simp
    have product := (simplifyPass_fold (simplifyPass_const (Exact.real a)) derivative).2.2
    exact ⟨0 + a * s, by simp [nonzero, slope], (simplifyPass_fold vanishing product).1⟩
  | add linear b ih =>
    obtain ⟨s, slope, derivative⟩ := ih
    exact ⟨s + 0, by simpa using slope, (simplifyPass_fold derivative (constant b)).1⟩
  | sub linear b ih =>
    obtain ⟨s, slope, derivative⟩ := ih
    exact ⟨s - 0, by simpa using slope, (simplifyPass_fold derivative (constant b)).2.1⟩
  | constAdd b linear ih =>
    obtain ⟨s, slope, derivative⟩ := ih
    exact ⟨0 + s, by simpa using slope, (simplifyPass_fold (constant b) derivative).1⟩
  | constSub b linear ih =>
    obtain ⟨s, slope, derivative⟩ := ih
    exact ⟨0 - s, by simpa using slope, (simplifyPass_fold (constant b) derivative).2.1⟩

/-- A linear tree has a value everywhere. -/
theorem valueAt_real (linear : Linear name u) (x : ℝ) : ∃ y, u.valueAt name (.real x) = .real y := by
  induction linear with
  | var => exact ⟨x, if_pos rfl⟩
  | scale nonzero linear ih | add linear b ih | sub linear b ih | constAdd b linear ih
  | constSub b linear ih =>
    obtain ⟨y, value⟩ := ih
    rw [valueAt, value]
    exact ⟨_, rfl⟩

/-- A slope is read off every linear tree, and it is not zero. -/
theorem slope? (linear : Linear name u) : ∃ s : ℝ, s ≠ 0 ∧ u.slope? name = some (.real s) := by
  obtain ⟨s, nonzero, pass⟩ := linear.simplifyPass_diff
  obtain ⟨y, intercept⟩ := linear.valueAt_real 0
  have derivative : u.derivative name = const (.real s) := simplify_of_simplifyPass_const pass
  refine ⟨s, nonzero, ?_⟩
  have moving := Exact.isZero_real_eq_false.2 nonzero
  simp [Expr.slope?, linear.mentions, derivative, Expr.mentions, valueAt, moving, intercept,
    Exact.isFinite_iff]

end Linear

end Fluxion.Expr
