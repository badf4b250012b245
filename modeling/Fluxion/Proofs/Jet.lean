import Fluxion.Proofs.Value

/-!
# Jets

A jet is a number together with its rate of change, and with the record whether it can change at
all.  A tree has a jet where its variables have: the value and the slope follow the rules of
differentiation, and what depends on no moving variable stands still.

A jet asks for no more than its use: a tree that stands still needs a value and nothing else, so
that `√0` has a jet although the derivative of the square root has no value there.  This is what
makes jets the right meaning for simplification.  A tree may simplify to one that stands still, or
to one with a larger domain, and `Jet` is ordered accordingly: `j ≤ k` says that `k` has the value
and the slope of `j` and moves only if `j` does.

With all variables standing still, jets are values (`jet_eq_some_still`).
-/

namespace Fluxion

/-- A number, its rate of change, and whether it changes at all. -/
@[ext] structure Jet where
  value : ℝ
  slope : ℝ
  moves : Bool
  slope_eq_zero : moves = false → slope = 0

namespace Elementary

/-- Where the function is differentiable within its domain.  The root is not
at zero, and neither are the inverse functions at the ends. -/
def Smooth : Elementary → ℝ → Prop
  | log, a | sqrt, a => 0 < a
  | tan, a => Real.cos a ≠ 0
  | arcsin, a | arccos, a => -1 < a ∧ a < 1
  | _, _ => True

/-- The derivative of the function. -/
noncomputable def slope : Elementary → ℝ → ℝ
  | sin, a => Real.cos a
  | cos, a => -Real.sin a
  | tan, a => 1 / Real.cos a ^ 2
  | arcsin, a => 1 / Real.sqrt (1 - a ^ 2)
  | arccos, a => -(1 / Real.sqrt (1 - a ^ 2))
  | arctan, a => 1 / (1 + a ^ 2)
  | exp, a => Real.exp a
  | log, a => 1 / a
  | sqrt, a => 1 / (2 * Real.sqrt a)

end Elementary

namespace Jet

/-- A number that does not change.  Its slope is zero by its very form. -/
def still (value : ℝ) : Jet := ⟨value, 0, false, fun _ => rfl⟩

/-- A number that changes. -/
def moving (value slope : ℝ) : Jet := ⟨value, slope, true, nofun⟩

@[simp] theorem still_value (v : ℝ) : (still v).value = v := rfl
@[simp] theorem still_slope (v : ℝ) : (still v).slope = 0 := rfl
@[simp] theorem still_moves (v : ℝ) : (still v).moves = false := rfl
@[simp] theorem moving_value (v d : ℝ) : (moving v d).value = v := rfl
@[simp] theorem moving_slope (v d : ℝ) : (moving v d).slope = d := rfl
@[simp] theorem moving_moves (v d : ℝ) : (moving v d).moves = true := rfl

/-- A jet that does not move stands still at its value, since then it has no slope. -/
theorem eq_still {j : Jet} (h : j.moves = false) : j = still j.value :=
  Jet.ext rfl (j.slope_eq_zero h) h

/-- The same number at the same rate, moving less. -/
instance : Preorder Jet where
  le j k := j.value = k.value ∧ j.slope = k.slope ∧ (k.moves = true → j.moves = true)
  le_refl _ := ⟨rfl, rfl, id⟩
  le_trans _ _ _ h g := ⟨h.1.trans g.1, h.2.1.trans g.2.1, h.2.2 ∘ g.2.2⟩

/-- A jet is at most another if value and slope are the same and it moves
wherever the other one moves. -/
theorem le_def {j k : Jet} :
    j ≤ k ↔ j.value = k.value ∧ j.slope = k.slope ∧ (k.moves = true → j.moves = true) := Iff.rfl

/-- Above a jet that does not move there is none but itself. -/
theorem still_le {v : ℝ} {k : Jet} : still v ≤ k ↔ k = still v := by
  constructor
  · rintro ⟨value, slope, moves⟩
    have stands : k.moves = false := by simpa using moves
    rw [eq_still stands, ← value, still_value]
  · rintro rfl
    exact le_rfl

/-! ### Arithmetic -/

/-- The sum of two jets, which moves if a term does. -/
instance : Add Jet where
  add j k := ⟨j.value + k.value, j.slope + k.slope, j.moves || k.moves, fun stands => by
    rw [Bool.or_eq_false_iff] at stands
    rw [j.slope_eq_zero stands.1, k.slope_eq_zero stands.2, add_zero]⟩

/-- The difference of two jets, which moves if a term does. -/
instance : Sub Jet where
  sub j k := ⟨j.value - k.value, j.slope - k.slope, j.moves || k.moves, fun stands => by
    rw [Bool.or_eq_false_iff] at stands
    rw [j.slope_eq_zero stands.1, k.slope_eq_zero stands.2, sub_zero]⟩

/-- The product of two jets, by the product rule. -/
instance : Mul Jet where
  mul j k := ⟨j.value * k.value, j.slope * k.value + j.value * k.slope, j.moves || k.moves,
    fun stands => by
      rw [Bool.or_eq_false_iff] at stands
      rw [j.slope_eq_zero stands.1, k.slope_eq_zero stands.2, zero_mul, mul_zero, add_zero]⟩

/-- The quotient of two jets, by the quotient rule; where the divisor is zero
it means nothing. -/
noncomputable instance : Div Jet where
  div j k := ⟨j.value / k.value, (j.slope * k.value - k.slope * j.value) / k.value ^ 2,
    j.moves || k.moves, fun stands => by
      rw [Bool.or_eq_false_iff] at stands
      rw [j.slope_eq_zero stands.1, k.slope_eq_zero stands.2, zero_mul, zero_mul, sub_zero,
        zero_div]⟩

/-- Where the power of two jets exists: a moving base needs the next lower
power as well, and a moving exponent a positive base. -/
def PowerDefined (j k : Jet) : Prop :=
  Fluxion.PowerDefined j.value k.value ∧ (k.moves = true → 0 < j.value) ∧
    (j.moves = true → Fluxion.PowerDefined j.value (k.value - 1))

/-- The power.  The second part of the slope vanishes for an exponent that
stands still. -/
noncomputable def pow (j k : Jet) : Jet :=
  ⟨j.value ^ k.value,
    k.value * j.value ^ (k.value - 1) * j.slope
      + j.value ^ k.value * Real.log j.value * k.slope,
    j.moves || k.moves, fun stands => by
      rw [Bool.or_eq_false_iff] at stands
      rw [j.slope_eq_zero stands.1, k.slope_eq_zero stands.2, mul_zero, mul_zero, add_zero]⟩

/-- Where a function of a jet exists. -/
def CallDefined (f : Elementary) (j : Jet) : Prop :=
  f.Defined j.value ∧ (j.moves = true → f.Smooth j.value)

/-- A function of a jet, by the chain rule.  A jet that stands still does not
ask for a derivative. -/
noncomputable def call (f : Elementary) (j : Jet) : Jet :=
  ⟨f.real j.value, f.slope j.value * j.slope, j.moves, fun stands => by
    rw [j.slope_eq_zero stands, mul_zero]⟩

section Projections

variable (j k : Jet) (f : Elementary)

@[simp] theorem add_value : (j + k).value = j.value + k.value := rfl
@[simp] theorem add_slope : (j + k).slope = j.slope + k.slope := rfl
@[simp] theorem add_moves : (j + k).moves = (j.moves || k.moves) := rfl
@[simp] theorem sub_value : (j - k).value = j.value - k.value := rfl
@[simp] theorem sub_slope : (j - k).slope = j.slope - k.slope := rfl
@[simp] theorem sub_moves : (j - k).moves = (j.moves || k.moves) := rfl
@[simp] theorem mul_value : (j * k).value = j.value * k.value := rfl
@[simp] theorem mul_slope : (j * k).slope = j.slope * k.value + j.value * k.slope := rfl
@[simp] theorem mul_moves : (j * k).moves = (j.moves || k.moves) := rfl
@[simp] theorem div_value : (j / k).value = j.value / k.value := rfl
@[simp] theorem div_slope :
    (j / k).slope = (j.slope * k.value - k.slope * j.value) / k.value ^ 2 := rfl
@[simp] theorem div_moves : (j / k).moves = (j.moves || k.moves) := rfl
@[simp] theorem pow_value : (j.pow k).value = j.value ^ k.value := rfl
@[simp] theorem pow_slope : (j.pow k).slope = k.value * j.value ^ (k.value - 1) * j.slope
    + j.value ^ k.value * Real.log j.value * k.slope := rfl
@[simp] theorem pow_moves : (j.pow k).moves = (j.moves || k.moves) := rfl
@[simp] theorem call_value : (j.call f).value = f.real j.value := rfl
@[simp] theorem call_slope : (j.call f).slope = f.slope j.value * j.slope := rfl
@[simp] theorem call_moves : (j.call f).moves = j.moves := rfl

end Projections

end Jet

/-- The jet of a number that does not change. -/
def Exact.jet : Exact → Option Jet
  | undefined => none
  | real c => some (.still c)

/-- A number that exists has the jet that stands still at it. -/
@[simp] theorem Exact.jet_eq_some {c : Exact} {j : Jet} :
    c.jet = some j ↔ ∃ v, c = real v ∧ .still v = j := by
  cases c <;> simp [Exact.jet]

namespace Expr

/-! ### Jets of trees -/

open Classical in
/-- The jet of a tree whose variables have the assigned jets.  It is a second
way to evaluate trees, which carries the slope along. -/
noncomputable def jet (a : String → Option Jet) : Expr Exact → Option Jet
  | var name => a name
  | const c => c.jet
  | named c => some (.still c.real)
  | add u v => (u.jet a).bind fun j => (v.jet a).map fun k => j + k
  | sub u v => (u.jet a).bind fun j => (v.jet a).map fun k => j - k
  | mul u v => (u.jet a).bind fun j => (v.jet a).map fun k => j * k
  | div u v => (u.jet a).bind fun j => (v.jet a).bind fun k =>
      if k.value ≠ 0 then some (j / k) else none
  | pow u v => (u.jet a).bind fun j => (v.jet a).bind fun k =>
      if j.PowerDefined k then some (j.pow k) else none
  | call f u => (u.jet a).bind fun j => if j.CallDefined f then some (j.call f) else none

section Inversion

variable {a : String → Option Jet} {u v : Expr Exact} {r : Jet}

attribute [local simp] jet Option.bind_eq_some_iff

/-- The jet of a variable is the one it is assigned. -/
@[simp] theorem jet_var (name : String) : (var name).jet a = a name := rfl

/-- The jet of a constant does not move, and there is none of what is no
real number. -/
@[simp] theorem jet_const {c : Exact} :
    (const c).jet a = some r ↔ ∃ y, c = .real y ∧ .still y = r :=
  Exact.jet_eq_some

@[simp] theorem jet_named (c : Constant) : (named c).jet a = some (.still c.real) := rfl

/-- A sum has a jet exactly if both terms do.  The lemmas of the other nodes
invert their jets in the same way. -/
@[simp] theorem jet_add : (add u v).jet a = some r ↔
    ∃ j k, u.jet a = some j ∧ v.jet a = some k ∧ j + k = r := by
  simp

@[simp] theorem jet_sub : (sub u v).jet a = some r ↔
    ∃ j k, u.jet a = some j ∧ v.jet a = some k ∧ j - k = r := by
  simp

@[simp] theorem jet_mul : (mul u v).jet a = some r ↔
    ∃ j k, u.jet a = some j ∧ v.jet a = some k ∧ j * k = r := by
  simp

/-- A quotient has a jet exactly if both operands do and the divisor
does not vanish. -/
@[simp] theorem jet_div : (div u v).jet a = some r ↔
    ∃ j k, u.jet a = some j ∧ v.jet a = some k ∧ k.value ≠ 0 ∧ j / k = r := by
  simp

/-- A power has a jet exactly if both operands do and the power of the
jets is defined. -/
@[simp] theorem jet_pow : (pow u v).jet a = some r ↔
    ∃ j k, u.jet a = some j ∧ v.jet a = some k ∧ j.PowerDefined k ∧ j.pow k = r := by
  simp

/-- A call has a jet exactly if its argument does and the function is defined
there, and smooth where the argument moves. -/
@[simp] theorem jet_call {f : Elementary} : (call f u).jet a = some r ↔
    ∃ j, u.jet a = some j ∧ j.CallDefined f ∧ j.call f = r := by
  simp

end Inversion

section Values

variable {a : String → Option Jet} {b : String → Exact} {e : Expr Exact} {y : ℝ} {j : Jet}

/-- The jet of a tree does not depend on variables that do not occur in it. -/
theorem jet_update_of_not_mentions {name : String} (absent : e.mentions name = false)
    (a : String → Option Jet) (x : Option Jet) :
    e.jet (Function.update a name x) = e.jet a := by
  induction e with
  | var other =>
      have different : other ≠ name := by simpa [mentions] using absent
      simp [Function.update_of_ne different]
  | const | named => rfl
  | add u v ihu ihv | sub u v ihu ihv | mul u v ihu ihv | div u v ihu ihv | pow u v ihu ihv =>
      simp only [mentions, Bool.or_eq_false_iff] at absent
      simp only [jet, ihu absent.1, ihv absent.2]
  | call f u ih => simp only [jet, ih absent]

/-- The value of a jet is the value under the assigned values.  Jets only add
a slope to the evaluation of trees. -/
theorem valueIn_of_jet (values : ∀ name j, a name = some j → b name = .real j.value)
    (h : e.jet a = some j) : e.valueIn b = .real j.value := by
  induction e generalizing j with
  | var name => exact values name j h
  | const c =>
      obtain ⟨y, rfl, rfl⟩ := jet_const.1 h
      rfl
  | named c =>
      cases h
      exact valueIn_named c
  | add u v ihu ihv =>
      obtain ⟨p, q, hu, hv, rfl⟩ := jet_add.1 h
      exact valueIn_add.2 ⟨_, _, ihu hu, ihv hv, rfl⟩
  | sub u v ihu ihv =>
      obtain ⟨p, q, hu, hv, rfl⟩ := jet_sub.1 h
      exact valueIn_sub.2 ⟨_, _, ihu hu, ihv hv, rfl⟩
  | mul u v ihu ihv =>
      obtain ⟨p, q, hu, hv, rfl⟩ := jet_mul.1 h
      exact valueIn_mul.2 ⟨_, _, ihu hu, ihv hv, rfl⟩
  | div u v ihu ihv =>
      obtain ⟨p, q, hu, hv, nonzero, rfl⟩ := jet_div.1 h
      exact valueIn_div.2 ⟨_, _, ihu hu, ihv hv, nonzero, rfl⟩
  | pow u v ihu ihv =>
      obtain ⟨p, q, hu, hv, defined, rfl⟩ := jet_pow.1 h
      exact valueIn_pow.2 ⟨_, _, ihu hu, ihv hv, defined.1, rfl⟩
  | call f u ih =>
      obtain ⟨p, hu, defined, rfl⟩ := jet_call.1 h
      exact valueIn_call.2 ⟨_, ih hu, defined.1, rfl⟩

/-- With variables that stand still, a tree with a value has a jet that
stands still. -/
theorem jet_of_valueIn (h : e.valueIn b = .real y) :
    e.jet (fun name => (b name).jet) = some (.still y) := by
  -- a jet that does not move asks for nothing beyond its value
  have same : ∀ {j : Jet} {v : ℝ}, j.value = v → j.moves = false → j = .still v := by
    rintro j v rfl stands
    exact Jet.eq_still stands
  induction e generalizing y with
  | var name => exact Exact.jet_eq_some.2 ⟨y, h, rfl⟩
  | const c => exact jet_const.2 ⟨y, h, rfl⟩
  | named c =>
      cases (valueIn_named c).symm.trans h
      rfl
  | add u v ihu ihv =>
      obtain ⟨p, q, hu, hv, rfl⟩ := valueIn_add.1 h
      exact jet_add.2 ⟨_, _, ihu hu, ihv hv, same rfl rfl⟩
  | sub u v ihu ihv =>
      obtain ⟨p, q, hu, hv, rfl⟩ := valueIn_sub.1 h
      exact jet_sub.2 ⟨_, _, ihu hu, ihv hv, same rfl rfl⟩
  | mul u v ihu ihv =>
      obtain ⟨p, q, hu, hv, rfl⟩ := valueIn_mul.1 h
      exact jet_mul.2 ⟨_, _, ihu hu, ihv hv, same rfl rfl⟩
  | div u v ihu ihv =>
      obtain ⟨p, q, hu, hv, nonzero, rfl⟩ := valueIn_div.1 h
      exact jet_div.2 ⟨_, _, ihu hu, ihv hv, nonzero, same rfl rfl⟩
  | pow u v ihu ihv =>
      obtain ⟨p, q, hu, hv, defined, rfl⟩ := valueIn_pow.1 h
      exact jet_pow.2 ⟨_, _, ihu hu, ihv hv, ⟨defined, nofun, nofun⟩, same rfl rfl⟩
  | call f u ih =>
      obtain ⟨p, hu, defined, rfl⟩ := valueIn_call.1 h
      exact jet_call.2 ⟨_, ih hu, ⟨defined, nofun⟩, same rfl rfl⟩

/-- With variables that stand still, jets are values.  Results about jets then
speak of evaluation as well. -/
theorem jet_eq_some_still :
    e.jet (fun name => (b name).jet) = some (.still y) ↔ e.valueIn b = .real y := by
  refine ⟨fun h => valueIn_of_jet (fun name j assigned => ?_) h, jet_of_valueIn⟩
  obtain ⟨v, hv, rfl⟩ := Exact.jet_eq_some.1 assigned
  exact hv

end Values

end Expr

end Fluxion
