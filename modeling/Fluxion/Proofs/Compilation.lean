import Fluxion.Callable
import Fluxion.Proofs.Outcome

/-!
# Compiled formulas

A tree compiles exactly if `x` is its only variable, and otherwise fails with the first other one
(`Expr.compile_eq_error_iff`).  Where a compiled formula has a value, each of its operations has
operands and a result (`Compiled.evaluate_add` to `Compiled.evaluate_call`), and these are the
operands and the result of the same operation of the tree in the carrier's own arithmetic: checked
evaluation differs from the plain one only in what it refuses (`Expr.valueAt_of_evaluate`).
-/

namespace Fluxion

variable {K : Type}

/-- Two steps, one after the other, that succeeded, and what was made of
their results. -/
theorem bind₂_eq_ok {ε α β : Type} {r s : Except ε α} {f : α → α → Except ε β} {y : β}
    (h : (do f (← r) (← s)) = .ok y) : ∃ a b, r = .ok a ∧ s = .ok b ∧ f a b = .ok y := by
  obtain ⟨a, ha, h⟩ := bind_eq_ok h
  obtain ⟨b, hb, h⟩ := bind_eq_ok h
  exact ⟨a, b, ha, hb, h⟩

variable [Scalar K]

namespace Expr

variable {u v : Expr K} {c : Compiled K} {name : String}

/-! ### Compilation -/

/-- An operation compiles as its operands do, from left to right. -/
theorem compile_operands_eq_error_iff {join : Compiled K → Compiled K → Compiled K}
    (left : ∀ name, u.compile = .error name ↔ u.foreignVariable? variableName = some name)
    (right : ∀ name, v.compile = .error name ↔ v.foreignVariable? variableName = some name) :
    (do return join (← u.compile) (← v.compile)) = Except.error name ↔
      (match u.foreignVariable? variableName with
        | some other => some other
        | none => v.foreignVariable? variableName) = some name := by
  cases first : u.compile with
  | error other =>
      rw [(left other).1 first]
      simp only [bind, Except.bind, Except.error.injEq, Option.some.injEq]
  | ok a =>
      have closed : u.foreignVariable? variableName = none :=
        Option.eq_none_iff_forall_ne_some.2 fun other foreign => by
          cases first.symm.trans ((left other).2 foreign)
      rw [closed]
      refine Iff.trans ?_ (right name)
      cases v.compile with
      | error other => rfl
      | ok b => exact ⟨fun h => (by cases h), fun h => by cases h⟩

/-- Compilation fails with the first variable that is not `x`, and with
nothing else. -/
theorem compile_eq_error_iff {e : Expr K} :
    e.compile = .error name ↔ e.foreignVariable? variableName = some name := by
  induction e generalizing name with
  | var other =>
      rw [compile, foreignVariable?]
      split <;> simp
  | const c => simp [compile, foreignVariable?]
  | named c => simp [compile, foreignVariable?]
  | add u v left right => exact compile_operands_eq_error_iff (fun _ => left) (fun _ => right)
  | sub u v left right => exact compile_operands_eq_error_iff (fun _ => left) (fun _ => right)
  | mul u v left right => exact compile_operands_eq_error_iff (fun _ => left) (fun _ => right)
  | div u v left right => exact compile_operands_eq_error_iff (fun _ => left) (fun _ => right)
  | pow u v left right => exact compile_operands_eq_error_iff (fun _ => left) (fun _ => right)
  | call f u argument =>
      refine Iff.trans ?_ argument
      rw [compile]
      cases u.compile with
      | error other => rfl
      | ok a => exact ⟨fun h => (by cases h), fun h => by cases h⟩

/-- A tree whose only variable is `x` compiles.  There is no other obstacle,
so such a tree can always be called. -/
theorem exists_compile {e : Expr K} (closed : e.foreignVariable? variableName = none) :
    ∃ c, e.compile = .ok c := by
  cases compiles : e.compile with
  | ok c => exact ⟨c, rfl⟩
  | error name => cases closed.symm.trans (compile_eq_error_iff.1 compiles)

end Expr

/-- A tree whose only variable is `x` can be called under any name, and the
callable has that name and that tree. -/
theorem Callable.exists_ofTree (source : String) {tree : Expr K}
    (closed : tree.foreignVariable? variableName = none) :
    ∃ f : Callable K, Callable.ofTree source tree = .ok f ∧ f.source = source ∧ f.tree = tree := by
  obtain ⟨compiled, compiles⟩ := Expr.exists_compile closed
  refine ⟨⟨source, tree, compiled, compiles⟩, ?_, rfl, rfl⟩
  unfold Callable.ofTree
  split
  · next other done =>
    cases compiles.symm.trans done
    rfl
  · next name failed => cases compiles.symm.trans failed

/-! ### Values of operations -/

namespace Compiled

variable {x w a b : K} {f : Elementary} {u v : Compiled K}

theorem checkedQuotient_eq_ok (h : checkedQuotient a b = .ok w) : a / b = w := by
  unfold checkedQuotient at h
  split at h
  · cases h
  · exact Except.ok.inj h

theorem checkedPower_eq_ok (h : checkedPower a b = .ok w) : Scalar.pow a b = w := by
  unfold checkedPower at h
  split at h
  · cases h
  · split at h
    · cases h
    · dsimp only at h
      split at h
      · cases h
      · exact Except.ok.inj h

/-- The value of a function that is handed out is the plain one, of an
argument in the domain. -/
theorem checkedCall_eq_ok (h : checkedCall f a = .ok w) : f.inDomain a = true ∧ f.value a = w := by
  unfold checkedCall at h
  split at h
  · cases h
  · next inside =>
    dsimp only at h
    split at h
    · cases h
    · exact ⟨by simpa using inside, Except.ok.inj h⟩

/-- A sum has a value only if both terms have one.  Differences, products,
quotients and powers follow the same pattern. -/
theorem evaluate_add (h : (add u v).evaluate x = .ok w) :
    ∃ a b, u.evaluate x = .ok a ∧ v.evaluate x = .ok b ∧ a + b = w := by
  obtain ⟨a, b, ha, hb, sum⟩ := bind₂_eq_ok h
  exact ⟨a, b, ha, hb, Except.ok.inj sum⟩

theorem evaluate_sub (h : (sub u v).evaluate x = .ok w) :
    ∃ a b, u.evaluate x = .ok a ∧ v.evaluate x = .ok b ∧ a - b = w := by
  obtain ⟨a, b, ha, hb, difference⟩ := bind₂_eq_ok h
  exact ⟨a, b, ha, hb, Except.ok.inj difference⟩

theorem evaluate_mul (h : (mul u v).evaluate x = .ok w) :
    ∃ a b, u.evaluate x = .ok a ∧ v.evaluate x = .ok b ∧ a * b = w := by
  obtain ⟨a, b, ha, hb, product⟩ := bind₂_eq_ok h
  exact ⟨a, b, ha, hb, Except.ok.inj product⟩

theorem evaluate_div (h : (div u v).evaluate x = .ok w) :
    ∃ a b, u.evaluate x = .ok a ∧ v.evaluate x = .ok b ∧ a / b = w := by
  obtain ⟨a, b, ha, hb, quotient⟩ := bind₂_eq_ok h
  exact ⟨a, b, ha, hb, checkedQuotient_eq_ok quotient⟩

theorem evaluate_pow (h : (pow u v).evaluate x = .ok w) :
    ∃ a b, u.evaluate x = .ok a ∧ v.evaluate x = .ok b ∧ Scalar.pow a b = w := by
  obtain ⟨a, b, ha, hb, power⟩ := bind₂_eq_ok h
  exact ⟨a, b, ha, hb, checkedPower_eq_ok power⟩

/-- A call has a value only if its argument has one that lies in the domain. -/
theorem evaluate_call (h : (call f u).evaluate x = .ok w) :
    ∃ a, u.evaluate x = .ok a ∧ f.inDomain a = true ∧ f.value a = w := by
  obtain ⟨a, ha, called⟩ := bind_eq_ok h
  exact ⟨a, ha, checkedCall_eq_ok called⟩

end Compiled

/-- A call that succeeds hands out the value of the compiled formula,
and this is finite. -/
theorem Callable.eval_eq_ok {f : Callable K} {x v : K} (value : f.eval x = .ok v) :
    f.compiled.evaluate x = .ok v ∧ Scalar.isFinite v = true := by
  unfold Callable.eval at value
  split at value
  · next result evaluates =>
    split at value
    · next finite =>
      cases value
      exact ⟨evaluates, finite⟩
    · cases value
  all_goals cases value

/-- A call hands out what the compiled formula comes to, if that is finite. -/
theorem Callable.eval_eq_ok_iff {f : Callable K} {x v : K} :
    f.eval x = .ok v ↔ f.compiled.evaluate x = .ok v ∧ Scalar.isFinite v = true := by
  refine ⟨eval_eq_ok, ?_⟩
  rintro ⟨evaluates, finite⟩
  rw [eval, evaluates]
  exact if_pos finite

/-- What a formula goes by has no influence on its values.  Two callables of
one tree differ in their messages only. -/
theorem Callable.eval_eq_ok_of_tree_eq {f g : Callable K} (same : f.tree = g.tree) {x v : K} :
    f.eval x = .ok v ↔ g.eval x = .ok v := by
  have compiled : f.compiled = g.compiled :=
    Except.ok.inj (f.compile_tree.symm.trans (same ▸ g.compile_tree))
  rw [eval_eq_ok_iff, eval_eq_ok_iff, compiled]

namespace Expr

variable {e u v : Expr K} {c : Compiled K} {x w : K}

/-- Checked evaluation performs the operations of the tree, on the same
operands.  The induction is on the tree, one case for each node. -/
theorem valueAt_of_evaluate (compiles : e.compile = .ok c) (value : c.evaluate x = .ok w) :
    e.valueAt variableName x = w := by
  induction e generalizing c w with
  | var name =>
      rw [compile] at compiles
      split at compiles
      · next same =>
        cases compiles
        rw [valueAt, if_pos same]
        exact Except.ok.inj value
      · cases compiles
  | const a =>
      cases compiles
      exact Except.ok.inj value
  | named a =>
      cases compiles
      exact Except.ok.inj value
  | add u v left right =>
      obtain ⟨cu, cv, hu, hv, join⟩ := bind₂_eq_ok compiles
      cases join
      obtain ⟨a, b, ha, hb, rfl⟩ := Compiled.evaluate_add value
      rw [valueAt, left hu ha, right hv hb]
  | sub u v left right =>
      obtain ⟨cu, cv, hu, hv, join⟩ := bind₂_eq_ok compiles
      cases join
      obtain ⟨a, b, ha, hb, rfl⟩ := Compiled.evaluate_sub value
      rw [valueAt, left hu ha, right hv hb]
  | mul u v left right =>
      obtain ⟨cu, cv, hu, hv, join⟩ := bind₂_eq_ok compiles
      cases join
      obtain ⟨a, b, ha, hb, rfl⟩ := Compiled.evaluate_mul value
      rw [valueAt, left hu ha, right hv hb]
  | div u v left right =>
      obtain ⟨cu, cv, hu, hv, join⟩ := bind₂_eq_ok compiles
      cases join
      obtain ⟨a, b, ha, hb, rfl⟩ := Compiled.evaluate_div value
      rw [valueAt, left hu ha, right hv hb]
  | pow u v left right =>
      obtain ⟨cu, cv, hu, hv, join⟩ := bind₂_eq_ok compiles
      cases join
      obtain ⟨a, b, ha, hb, rfl⟩ := Compiled.evaluate_pow value
      rw [valueAt, left hu ha, right hv hb]
  | call f u argument =>
      obtain ⟨cu, hu, join⟩ := bind_eq_ok compiles
      cases join
      obtain ⟨a, ha, -, rfl⟩ := Compiled.evaluate_call value
      rw [valueAt, argument hu ha]

end Expr

end Fluxion
