import Mathlib.Data.Set.Insert
import Mathlib.Logic.Function.Iterate
import Fluxion.Expr.Antiderivative
import Fluxion.Proofs.Leaves
import Fluxion.Proofs.Rendering
import Fluxion.Proofs.SignedDigit
import Fluxion.Proofs.Simplification

/-!
# Variables

Which variables a tree is `Over`.  The calculus takes trees apart and puts their parts together again:
whatever simplification, differentiation and integration answer with is over the variables of what
they were given, and an integral over the variable of integration besides.  This needs neither exact
arithmetic nor a value, since no rule looks at a name except to compare it.

For simplification this is so because being over some names is told by the leaves (`Over.hereditary`),
for integration it takes one lemma for each rule and an induction on the budget of integrations by
parts.  Formulas are over the one variable, so whatever is made of them compiles
(`Expr.Over.exists_compile`).
-/

namespace Fluxion

namespace Expr

variable {K : Type}

/-- Every variable of the tree is among some names.  The family is closed
under everything that calculus does. -/
def Over (names : Set String) (e : Expr K) : Prop := ∀ name, e.mentions name = true → name ∈ names

section Trees

variable {names : Set String} {e u v : Expr K} {name : String}

@[simp] theorem over_var : (var name : Expr K).Over names ↔ name ∈ names := by
  simp [Over, mentions]

@[simp] theorem over_const (c : K) : (const c).Over names := by simp [Over, mentions]

@[simp] theorem over_named (c : Constant) : (named c : Expr K).Over names := by
  simp [Over, mentions]

@[simp] theorem over_add : (add u v).Over names ↔ u.Over names ∧ v.Over names := by
  simp [Over, mentions, or_imp, forall_and]

@[simp] theorem over_sub : (sub u v).Over names ↔ u.Over names ∧ v.Over names := by
  simp [Over, mentions, or_imp, forall_and]

@[simp] theorem over_mul : (mul u v).Over names ↔ u.Over names ∧ v.Over names := by
  simp [Over, mentions, or_imp, forall_and]

@[simp] theorem over_div : (div u v).Over names ↔ u.Over names ∧ v.Over names := by
  simp [Over, mentions, or_imp, forall_and]

@[simp] theorem over_pow : (pow u v).Over names ↔ u.Over names ∧ v.Over names := by
  simp [Over, mentions, or_imp, forall_and]

@[simp] theorem over_call (f : Elementary) : (call f u).Over names ↔ u.Over names := Iff.rfl

/-- A tree is over its own variables. -/
theorem over_mentions (e : Expr K) : e.Over {name | e.mentions name = true} := fun _ => id

theorem Over.mono {more : Set String} (h : e.Over names) (sub : names ⊆ more) : e.Over more :=
  fun name occurs => sub (h name occurs)

theorem over_singleton : e.Over {name} ↔ e.foreignVariable? name = none :=
  foreignVariable?_eq_none_iff.symm

end Trees

variable [Scalar K] {names : Set String} {e u v F : Expr K} {name : String}

/-- A tree over the one variable compiles. -/
theorem Over.exists_compile (h : e.Over {variableName}) : ∃ c, e.compile = .ok c :=
  Expr.exists_compile (over_singleton.1 h)

/-! ### Simplification -/

/-- Whatever rules bring in has no variables. -/
theorem Over.hereditary (names : Set String) : Hereditary (K := K) (Over names) where
  add := over_add
  sub := over_sub
  mul := over_mul
  div := over_div
  pow := over_pow
  call f := over_call f
  int _ := over_const _
  e := over_named _
  sum _ _ := over_const _
  difference _ _ := over_const _
  product _ _ := over_const _
  opposite _ := over_const _
  quotient _ _ _ := over_const _
  power _ _ _ := over_const _

theorem Over.simplify (h : e.Over names) : e.simplify.Over names :=
  (Over.hereditary names).closed.simplify h

/-! ### Differentiation -/

theorem Over.chainRule (f : Elementary) {u' : Expr K} (argument : u.Over names)
    (slope : u'.Over names) : (chainRule f u u').Over names := by
  cases f <;>
    simp [Expr.chainRule, add_def, sub_def, mul_def, div_def, neg_def, argument, slope]

/-- Differentiation brings no variable, one case for each node. -/
theorem Over.diff (h : e.Over names) : (e.diff name).Over names := by
  induction e with
  | var other =>
      rw [Expr.diff]
      split <;> exact over_const _
  | const | named => exact over_const _
  | add u v left right | sub u v left right =>
      simp only [over_add, over_sub] at h
      simp [Expr.diff, add_def, sub_def, left h.1, right h.2]
  | mul u v left right =>
      simp only [over_mul] at h
      simp [Expr.diff, add_def, mul_def, h.1, h.2, left h.1, right h.2]
  | div u v left right =>
      simp only [over_div] at h
      simp [Expr.diff, sub_def, mul_def, div_def, h.1, h.2, left h.1, right h.2]
  | pow u v left right =>
      simp only [over_pow] at h
      rw [Expr.diff]
      split
      · split
        · simp [add_def, mul_def, div_def, pow_def, h.1, h.2, left h.1, right h.2]
        · simp [mul_def, pow_def, h.1, h.2, right h.2]
      · simp [sub_def, mul_def, pow_def, h.1, h.2, left h.1]
  | call f u argument => exact Over.chainRule f h (argument h)

theorem Over.derivative (h : e.Over names) : (e.derivative name).Over names := h.diff.simplify

/-- However often a tree is differentiated, no variable is brought. -/
theorem Over.derivatives (n : Nat) (h : e.Over names) :
    ((Expr.derivative name)^[n] e).Over names := by
  induction n with
  | zero => exact h
  | succ n ih =>
      rw [Function.iterate_succ_apply']
      exact ih.derivative

/-! ### Integration -/

theorem Over.dividedBy (a : K) (h : e.Over names) : (e.dividedBy a).Over names := by
  unfold Expr.dividedBy
  split
  · exact h
  · split
    · exact over_mul.2 ⟨over_const _, h⟩
    · exact over_div.2 ⟨h, over_const _⟩

/-- A rule for integration by parts that adds no variable. -/
def Confined (names : Set String) (byParts : PartsRule K) : Prop :=
  ∀ ⦃c n g F⦄, g.Over names → byParts c n g = .ok F → F.Over names

section Rules

variable (here : name ∈ names)

include here

theorem over_monomial (c : K) (n : Int) : (monomial name c n).Over names := by
  have power : (if n = 1 then var name else pow (var name) (int n) : Expr K).Over names := by
    split
    · exact over_var.2 here
    · exact over_pow.2 ⟨over_var.2 here, over_const _⟩
  unfold monomial
  dsimp only
  split
  · exact over_const _
  · split
    · exact power
    · exact over_mul.2 ⟨over_const _, power⟩

/-- The integral of a power brings no variable.  The rules below are treated alike. -/
theorem over_integratePower (base : u.Over names) (exponent : v.Over names)
    (ok : integratePower name u v = .ok F) : F.Over names := by
  have power : (pow u v).Over names := over_pow.2 ⟨base, exponent⟩
  unfold integratePower at ok
  dsimp only at ok
  split at ok
  · split at ok
    · cases ok
    · split at ok
      · cases ok
      · split at ok
        · cases ok
          exact Over.dividedBy _ base
        · cases ok
          exact over_div.2 ⟨over_pow.2 ⟨base, over_const _⟩, over_const _⟩
  · split at ok
    · split at ok
      · cases ok
      · split at ok
        · cases ok
          exact power.dividedBy _
        · split at ok
          · cases ok
          · split at ok
            · cases ok
              exact over_var.2 here
            · split at ok
              · cases ok
                exact over_div.2 ⟨power, base⟩
              · cases ok
                exact over_div.2 ⟨power, over_mul.2 ⟨over_const _, base⟩⟩
    · cases ok

theorem over_integrateCall {f : Elementary} (argument : u.Over names)
    (ok : integrateCall name f u = .ok F) : F.Over names := by
  unfold integrateCall at ok
  split at ok
  · exact over_integratePower here argument (over_const _) ok
  · cases ok
  all_goals
    cases ok
    refine Over.dividedBy _ ?_
    simp [add_def, sub_def, mul_def, div_def, neg_def, argument]

theorem over_integrateTimesLogarithm? (found : integrateTimesLogarithm? name u v = some F) :
    F.Over names := by
  unfold integrateTimesLogarithm? at found
  split at found
  · split at found
    · cases found
    · rw [Option.map_eq_some_iff] at found
      obtain ⟨⟨c, n⟩, -, integral⟩ := found
      subst integral
      dsimp only
      split
      · simp [mul_def, div_def, here]
      · simp [sub_def, mul_def, div_def, here, over_monomial here]
  · cases found

theorem over_integrateReciprocal? (numerator : u.Over names) (denominator : v.Over names)
    (found : integrateReciprocal? name u v = some (.ok F)) : F.Over names := by
  have product : ∀ {w : Expr K}, w.Over names → (mul u w).Over names := fun factor =>
    over_mul.2 ⟨numerator, factor⟩
  have x : (var name : Expr K).Over names := over_var.2 here
  unfold integrateReciprocal? at found
  dsimp only at found
  split at found
  · cases found
    exact product (Over.dividedBy _ denominator)
  · split at found
    · rw [Option.some.injEq] at found
      obtain ⟨P, power, rfl⟩ := map_eq_ok found
      have raised := over_integratePower here x (over_const _) power
      exact over_mul.2 ⟨over_div.2 ⟨numerator, over_const _⟩, raised⟩
    · split at found
      · obtain ⟨base, exponent⟩ := over_pow.1 denominator
        split at found
        · rw [Option.some.injEq] at found
          obtain ⟨P, power, rfl⟩ := map_eq_ok found
          have opposite := over_mul.2 ⟨over_const (Scalar.ofInt (-1)), exponent⟩
          exact product (over_integratePower here base opposite.simplify power)
        · split at found
          · cases found
            exact product x
          · split at found
            · cases found
              exact product x
            · cases found
      · split at found
        · cases found
          exact product x
        · split at found
          · cases found
            exact product x
          · split at found
            · rw [Option.some.injEq] at found
              obtain ⟨P, power, rfl⟩ := map_eq_ok found
              have radicand := (over_call .sqrt).1 denominator
              exact product (over_integratePower here radicand (over_const _) power)
            · cases found

theorem over_integrateQuotient (numerator : u.Over names) (denominator : v.Over names)
    (ok : integrateQuotient name u v = .ok F) : F.Over names := by
  unfold integrateQuotient at ok
  split at ok
  · next result reciprocal =>
      subst ok
      split at reciprocal
      · exact over_integrateReciprocal? here numerator denominator reciprocal
      · cases reciprocal
  · dsimp only at ok
    split at ok
    · next result logarithmic =>
        cases ok
        obtain ⟨⟨c, n⟩, -, found⟩ := Option.bind_eq_some_iff.1 logarithmic
        exact over_integrateTimesLogarithm? here found
    · split at ok
      · cases ok
        exact Over.dividedBy _ (over_mul.2 ⟨over_const _, denominator⟩)
      · cases ok

variable {byParts : PartsRule K}

/-- The integral of a product brings no variable, if integration by
parts brings none. -/
theorem over_integrateProduct (confined : Confined names byParts) (left : u.Over names)
    (right : v.Over names) (ok : integrateProduct byParts name u v = .ok F) : F.Over names := by
  unfold integrateProduct at ok
  split at ok
  · next result logarithmic =>
      cases ok
      cases first : integrateTimesLogarithm? name u v with
      | some G =>
          rw [first] at logarithmic
          cases logarithmic
          exact over_integrateTimesLogarithm? here first
      | none =>
          rw [first] at logarithmic
          exact over_integrateTimesLogarithm? here logarithmic
  · dsimp only at ok
    split at ok
    · next result parts =>
        subst ok
        split at parts
        · split at parts
          · exact confined right (Option.some.inj parts)
          · cases parts
        · cases parts
    · split at ok
      · next result parts =>
          subst ok
          split at parts
          · split at parts
            · exact confined left (Option.some.inj parts)
            · cases parts
          · cases parts
      · cases ok

/-- Integration with a rule for parts brings no variable, if the rule brings none. -/
theorem over_integrateUsing (confined : Confined names byParts) (h : e.Over names)
    (ok : integrateUsing byParts name e = .ok F) : F.Over names := by
  induction e using integrateUsing.induct name generalizing F with
  | case1 e absent =>
      rw [integrateUsing.eq_def, if_pos absent] at ok
      cases ok
      exact over_mul.2 ⟨h, over_var.2 here⟩
  | case2 other occurs =>
      rw [integrateUsing, if_neg occurs] at ok
      cases ok
      exact over_div.2 ⟨over_pow.2 ⟨over_var.2 here, over_const _⟩, over_const _⟩
  | case3 | case4 => simp [mentions] at *
  | case5 u v occurs ihu ihv =>
      rw [integrateUsing, if_neg occurs] at ok
      obtain ⟨left, right⟩ := over_add.1 h
      obtain ⟨U, V, integralU, integralV, join⟩ := bind₂_eq_ok ok
      cases join
      exact over_add.2 ⟨ihu left integralU, ihv right integralV⟩
  | case6 u v occurs ihu ihv =>
      rw [integrateUsing, if_neg occurs] at ok
      obtain ⟨left, right⟩ := over_sub.1 h
      obtain ⟨U, V, integralU, integralV, join⟩ := bind₂_eq_ok ok
      cases join
      exact over_sub.2 ⟨ihu left integralU, ihv right integralV⟩
  | case7 u v absent occurs ih =>
      rw [integrateUsing, if_neg occurs, if_pos absent] at ok
      obtain ⟨left, right⟩ := over_mul.1 h
      obtain ⟨V, integral, ok⟩ := bind_eq_ok ok
      cases ok
      exact over_mul.2 ⟨left, ih right integral⟩
  | case8 u v occursLeft absent occurs ih =>
      rw [integrateUsing, if_neg occurs, if_neg occursLeft, if_pos absent] at ok
      obtain ⟨left, right⟩ := over_mul.1 h
      obtain ⟨U, integral, ok⟩ := bind_eq_ok ok
      cases ok
      exact over_mul.2 ⟨right, ih left integral⟩
  | case9 u v occursLeft occursRight occurs =>
      rw [integrateUsing, if_neg occurs, if_neg occursLeft, if_neg occursRight] at ok
      obtain ⟨left, right⟩ := over_mul.1 h
      exact over_integrateProduct here confined left right ok
  | case10 u v absent occurs ih =>
      rw [integrateUsing, if_neg occurs, if_pos absent] at ok
      obtain ⟨left, right⟩ := over_div.1 h
      obtain ⟨U, integral, ok⟩ := bind_eq_ok ok
      cases ok
      exact over_div.2 ⟨ih left integral, right⟩
  | case11 u v occursRight occurs =>
      rw [integrateUsing, if_neg occurs, if_neg occursRight] at ok
      obtain ⟨left, right⟩ := over_div.1 h
      exact over_integrateQuotient here left right ok
  | case12 u v occurs =>
      rw [integrateUsing, if_neg occurs] at ok
      obtain ⟨base, exponent⟩ := over_pow.1 h
      exact over_integratePower here base exponent ok
  | case13 f u occurs =>
      rw [integrateUsing, if_neg occurs] at ok
      exact over_integrateCall here ((over_call f).1 h) ok

/-- Each integration by parts leaves an integrand over the same names. -/
theorem over_integrateWithin (budget : Nat) (h : e.Over names)
    (ok : integrateWithin name budget e = .ok F) : F.Over names := by
  induction budget generalizing e F with
  | zero =>
      refine over_integrateUsing here ?_ h ok
      intro c n g F _ refused
      cases refused
  | succ budget ih =>
      refine over_integrateUsing here ?_ h ok
      intro c n g F factor parts
      obtain ⟨I, integral, parts⟩ := bind_eq_ok parts
      obtain ⟨R, remaining, parts⟩ := bind_eq_ok parts
      cases parts
      have simplified := (ih factor integral).simplify
      have rest := ih (over_mul.2 ⟨over_monomial here _ _, simplified⟩) remaining
      exact over_sub.2 ⟨over_mul.2 ⟨over_monomial here c n, simplified⟩, rest⟩

/-- Integration brings no variable. -/
theorem over_integrate (h : e.Over names) (ok : e.integrate name = .ok F) : F.Over names :=
  over_integrateWithin here degreeLimit h ok

/-- The antiderivative has no variable that the tree has not. -/
theorem over_antiderivative (h : e.Over names) (ok : e.antiderivative name = .ok F) :
    F.Over names := by
  obtain ⟨I, integral, rfl⟩ := map_eq_ok ok
  exact (over_integrate here h integral).simplify

end Rules

end Expr

/-! ### Formulas -/

variable {K : Type} [Scalar K] [Numeral K] {text : String} {tree : Expr K}

/-- A tree that knows no name it could not be evaluated with: it compiles, and
it can be called. -/
def Expr.IsClosed (e : Expr K) : Prop :=
  (∃ c, e.compile = .ok c) ∧ ∃ f : Callable K, Callable.ofExpr e = .ok f ∧ f.tree = e

/-- What is over the one variable can be called. -/
theorem Expr.Over.isClosed (h : tree.Over {variableName}) : tree.IsClosed := by
  have closed := Expr.over_singleton.1 h
  obtain ⟨f, made, -, same⟩ := Callable.exists_ofTree tree.text closed
  exact ⟨Expr.exists_compile closed, f, made, same⟩

/-- What is read in normal form is over the one variable. -/
theorem over_of_parse (parsed : Formula.parse text = .ok tree) : tree.Over {variableName} := by
  obtain ⟨lexemes, -, read⟩ := bind_eq_ok parsed
  obtain ⟨d, -, -, rfl⟩ := exists_derivation_of_parseLexemes read
  exact Expr.over_singleton.2 d.foreignVariable?_tree

/-- What is read in user notation is over the one variable. -/
theorem over_of_normalize {normal : Formula.Normal K} (read : Formula.normalize text = .ok normal) :
    normal.tree.Over {variableName} := by
  obtain ⟨d, -, -, -, rfl⟩ := exists_of_normalize read
  exact Expr.over_singleton.2 d.foreignVariable?_tree

/-- The only variable of a formula is `x`, in user notation as in normal form.
Simplifying and differentiating a tree adds no variable to it, and integrating it none
but the variable of integration.  So all derivatives of a formula can be evaluated,
and so can their integrals, before and after these are simplified. -/
theorem calculus_adds_no_variable :
    (∀ text (normal : Formula.Normal K), Formula.normalize text = .ok normal →
      ∀ name, normal.tree.mentions name = true → name = variableName) ∧
    (∀ text (tree : Expr K), Formula.parse text = .ok tree →
      ∀ name, tree.mentions name = true → name = variableName) ∧
    (∀ (e : Expr K) (v name : String),
      (e.simplify.mentions name = true → e.mentions name = true) ∧
      ((e.diff v).mentions name = true → e.mentions name = true) ∧
      ∀ F, e.integrate v = .ok F → F.mentions name = true → e.mentions name = true ∨ name = v) ∧
    ∀ text (tree : Expr K),
      (Formula.parse text = .ok tree ∨
        ∃ normal, Formula.normalize text = .ok normal ∧ normal.tree = tree) →
      ∀ n, ((Expr.derivative variableName)^[n] tree).IsClosed ∧
        ∀ F, ((Expr.derivative variableName)^[n] tree).integrate variableName = .ok F ∨
            ((Expr.derivative variableName)^[n] tree).antiderivative variableName = .ok F →
          F.IsClosed := by
  refine ⟨?_, ?_, ?_, ?_⟩
  · intro text normal read
    exact over_of_normalize read
  · intro text tree parsed
    exact over_of_parse parsed
  · intro e v name
    have own := e.over_mentions
    refine ⟨own.simplify name, own.diff name, ?_⟩
    intro F ok occurs
    have more := own.mono (Set.subset_insert v {name | e.mentions name = true})
    exact (Expr.over_integrate (Set.mem_insert _ _) more ok name occurs).symm
  · intro text tree read n
    have formula : tree.Over {variableName} := by
      rcases read with parsed | ⟨normal, normalized, rfl⟩
      · exact over_of_parse parsed
      · exact over_of_normalize normalized
    have derivative : ((Expr.derivative variableName)^[n] tree).Over {variableName} :=
      formula.derivatives n
    refine ⟨derivative.isClosed, ?_⟩
    intro F integral
    rcases integral with ok | ok
    · exact (Expr.over_integrate (Set.mem_singleton _) derivative ok).isClosed
    · exact (Expr.over_antiderivative (Set.mem_singleton _) derivative ok).isClosed

/-- A product that goes by parts, in either notation, and an integrand with a
further variable. -/
theorem calculus_adds_no_variable_of_parts :
    (∃ normal : Formula.Normal SignedDigit, Formula.normalize "x*exp(x)" = .ok normal ∧
      (∀ name, normal.tree.mentions name = true → name = variableName) ∧
      ((Expr.derivative variableName)^[3] normal.tree).IsClosed) ∧
    (∃ tree F : Expr SignedDigit, Formula.parse "x*math.exp(x)" = .ok tree ∧
      (∀ name, tree.mentions name = true → name = variableName) ∧
      tree.antiderivative variableName = .ok F ∧ F.IsClosed) ∧
    ∃ F : Expr SignedDigit, (Expr.mul (.var "t") (.var "x")).integrate "x" = .ok F ∧
      F.mentions "t" = true ∧ F.mentions "y" = false := by
  obtain ⟨formulas, normalForms, calculus, closed⟩ := calculus_adds_no_variable (K := SignedDigit)
  refine ⟨?_, ?_, ?_⟩
  · have read : (Formula.normalize (K := SignedDigit) "x*exp(x)").isOk = true := by decide +kernel
    obtain ⟨normal, done⟩ := exists_of_isOk read
    exact ⟨normal, done, formulas _ normal done, (closed _ _ (.inr ⟨normal, done, rfl⟩) 3).1⟩
  · have read : ((Formula.parse (K := SignedDigit) "x*math.exp(x)").toOption.bind
        fun tree => (tree.antiderivative variableName).toOption).isSome = true := by decide +kernel
    obtain ⟨F, both⟩ := Option.isSome_iff_exists.1 read
    obtain ⟨tree, parsed, integral⟩ := Option.bind_eq_some_iff.1 both
    have done := eq_ok_of_toOption parsed
    have ok := eq_ok_of_toOption integral
    exact ⟨tree, F, done, normalForms _ tree done, ok, (closed _ _ (.inl done) 0).2 F (.inr ok)⟩
  · have ok : (Expr.mul (.var "t") (.var "x") : Expr SignedDigit).integrate "x" =
        .ok (.mul (.var "t") (.div (.pow (.var "x") (.int 2)) (.int 2))) := by rfl
    refine ⟨_, ok, by decide, ?_⟩
    by_contra occurs
    have known := (calculus _ "x" "y").2.2 _ ok (Bool.eq_true_of_not_eq_false occurs)
    exact absurd known (by decide)

end Fluxion
