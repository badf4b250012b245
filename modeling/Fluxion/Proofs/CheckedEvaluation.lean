import Mathlib
import Fluxion.Plot.Figures
import Fluxion.Expr.Pole
import Fluxion.Proofs.Compilation
import Fluxion.Proofs.Sampling
import Fluxion.Proofs.Variables

/-!
# Checked and plain values

A formula is evaluated in two ways.  Curves and quadrature call it, which is checked and can be
refused; definite integrals evaluate its tree in plain machine numbers.  Where a call succeeds the two
agree to the last bit (`Callable.valueAt_of_eval`), so what is built on them can differ only at
points where a call is refused.

For each of the three this is a statement of its own.  A curve has a sample for every abscissa, and
the sample is the value of a call, or a gap exactly where the call is refused (`Callable.IsSample`).
For quadrature it is a matter of the points it asks at: integrands that agree there have the same
integral (`integrate_congr`).  A definite integral looks at an antiderivative at the two limits, once
no singularity was found between them, so it is the difference of two calls unless one of the two is
refused (`Callable.definiteIntegral_of_eval`).

Derivatives and antiderivatives enter as formulas of their own.  They have no variable that the
formula has not, so each of them can be called.
-/

namespace Fluxion

open Quadrature (Integrand Settings NodeTable integral integrate)

/-- Integrands that agree where one of them is asked have the same integral.
Whatever an integrand has elsewhere does not matter. -/
theorem Quadrature.integrate_congr [NodeTable] {f g : Integrand} {settings : Settings}
    {lower upper : Float} (agree : ∀ x ∈ (integral settings lower upper).points f, g x = f x) :
    integrate g settings lower upper = integrate f settings lower upper :=
  Sampling.run_congr agree

/-! ### Definite integrals -/

namespace Expr

variable {K : Type} [Scalar K] {e F : Expr K} {name : String} {limit lower upper point v : K}

/-- An antiderivative has a value at a limit exactly if its plain value
there is finite. -/
theorem valueAtLimit_eq_ok_iff :
    F.valueAtLimit name limit = .ok v ↔
      Scalar.isFinite v = true ∧ F.valueAt name limit = v := by
  rw [valueAtLimit]
  split
  · next finite =>
    constructor
    · rintro ⟨⟩
      exact ⟨finite, rfl⟩
    · rintro ⟨-, rfl⟩
      rfl
  · next infinite =>
    constructor
    · intro none
      cases none
    · rintro ⟨finite, rfl⟩
      exact absurd finite infinite

/-- The point at which an interval is found to be singular: one without a
finite value, or else a pole. -/
def singularPoint? (name : String) (e : Expr K) (lower upper : K) : Option K :=
  (e.irregularPoint? name lower upper).or (e.pole? name lower upper)

/-- Without an antiderivative there is no definite integral, and the error is
that of the integration. -/
theorem definiteIntegral_of_error {error : SymbolicError K}
    (none : e.antiderivative name = .error error) :
    e.definiteIntegral name lower upper = .error error := by
  rw [definiteIntegral, none]
  rfl

/-- No integral is taken across a singularity.  The error names the integrand
and the point that was found. -/
theorem definiteIntegral_of_singular (integral : e.antiderivative name = .ok F)
    (found : e.singularPoint? name lower upper = some point) :
    e.definiteIntegral name lower upper = .error (.singular e point) := by
  rw [definiteIntegral, integral, ok_bind]
  rcases Option.or_eq_some_iff.1 found with irregular | ⟨regular, pole⟩
  · rw [irregular]
  · rw [regular, pole]

/-- Without a singularity the integral is the difference of the values
at the limits. -/
theorem definiteIntegral_of_regular (integral : e.antiderivative name = .ok F)
    (regular : e.singularPoint? name lower upper = none) :
    e.definiteIntegral name lower upper = do
      let top ← F.valueAtLimit name upper
      let bottom ← F.valueAtLimit name lower
      return top - bottom := by
  obtain ⟨noIrregular, noPole⟩ := Option.or_eq_none_iff.1 regular
  rw [definiteIntegral, integral, ok_bind, noIrregular, noPole]

/-- An integral is handed out only between limits with finite values, and is
their difference. -/
theorem exists_limits_of_definiteIntegral (integral : e.antiderivative name = .ok F)
    (value : e.definiteIntegral name lower upper = .ok v) :
    e.singularPoint? name lower upper = none ∧
      Scalar.isFinite (F.valueAt name lower) = true ∧
      Scalar.isFinite (F.valueAt name upper) = true ∧
      v = F.valueAt name upper - F.valueAt name lower := by
  cases found : e.singularPoint? name lower upper with
  | some point => cases (definiteIntegral_of_singular integral found).symm.trans value
  | none =>
    rw [definiteIntegral_of_regular integral found] at value
    obtain ⟨top, atUpper, value⟩ := bind_eq_ok value
    obtain ⟨bottom, atLower, value⟩ := bind_eq_ok value
    obtain ⟨finiteTop, rfl⟩ := valueAtLimit_eq_ok_iff.1 atUpper
    obtain ⟨finiteBottom, rfl⟩ := valueAtLimit_eq_ok_iff.1 atLower
    exact ⟨rfl, finiteBottom, finiteTop, (Except.ok.inj value).symm⟩

end Expr

namespace Callable

/-! ### Values of calls -/

section Values

variable {K : Type} [Scalar K] {f : Callable K} {x v : K}

/-- A call that succeeds hands out the plain value of the tree, and this is
finite.  Calls refine plain evaluation, and never correct it. -/
theorem valueAt_of_eval (value : f.eval x = .ok v) :
    Scalar.isFinite v = true ∧ f.tree.valueAt variableName x = v := by
  obtain ⟨evaluates, finite⟩ := eval_eq_ok value
  exact ⟨finite, Expr.valueAt_of_evaluate f.compile_tree evaluates⟩

/-- There is a value at a point exactly if the call there succeeds with it. -/
theorem eval?_eq_some_iff : f.eval? x = some v ↔ f.eval x = .ok v := by
  refine ⟨eq_ok_of_toOption, fun value => ?_⟩
  rw [eval?, value]
  rfl

/-- What a formula goes by has no influence on where it has which values.  It
shows in messages only. -/
theorem eval?_congr {g : Callable K} (same : f.tree = g.tree) : f.eval? = g.eval? := by
  funext x
  refine Option.ext fun v => ?_
  rw [eval?_eq_some_iff, eval?_eq_some_iff, eval_eq_ok_of_tree_eq same]

/-- A limit at which the call succeeds is accepted with the value of the call. -/
theorem valueAtLimit_of_eval (value : f.eval x = .ok v) :
    f.tree.valueAtLimit variableName x = .ok v :=
  Expr.valueAtLimit_eq_ok_iff.2 (valueAt_of_eval value)

/-- A call either hands out a value or is refused. -/
theorem exists_value_or_refused (f : Callable K) (x : K) :
    (∃ v, f.eval x = .ok v) ∨ ∃ error, f.eval x = .error error := by
  cases f.eval x with
  | ok v => exact .inl ⟨v, rfl⟩
  | error error => exact .inr ⟨error, rfl⟩

/-- Both limits have a value, or the call is refused at one of them. -/
theorem exists_values_or_refused (f : Callable K) (lower upper : K) :
    (∃ p q, f.eval lower = .ok p ∧ f.eval upper = .ok q) ∨
      ∃ limit ∈ [lower, upper], ∃ error, f.eval limit = .error error := by
  rcases f.exists_value_or_refused lower with ⟨p, bottom⟩ | refused
  · rcases f.exists_value_or_refused upper with ⟨q, top⟩ | refused
    · exact .inl ⟨p, q, bottom, top⟩
    · exact .inr ⟨upper, List.mem_cons_of_mem _ List.mem_cons_self, refused⟩
  · exact .inr ⟨lower, List.mem_cons_self, refused⟩

/-- A point without a finite plain value is one where the call is refused, so
a scan for such points finds reasons for gaps. -/
theorem refused_of_irregularPoint? {lower upper : K}
    (irregular : f.tree.irregularPoint? variableName lower upper = some x) :
    ∃ error, f.eval x = .error error := by
  rcases f.exists_value_or_refused x with ⟨v, value⟩ | refused
  · obtain ⟨finite, rfl⟩ := valueAt_of_eval value
    have infinite := List.find?_some irregular
    rw [finite] at infinite
    cases infinite
  · exact refused

/-- Where an antiderivative can be called at both limits and no singularity is found
between them, the definite integral is the difference of the two calls. -/
theorem definiteIntegral_of_eval {e : Expr K} {lower upper p q : K}
    (integral : e.antiderivative variableName = .ok f.tree)
    (regular : e.singularPoint? variableName lower upper = none)
    (bottom : f.eval lower = .ok p) (top : f.eval upper = .ok q) :
    e.definiteIntegral variableName lower upper = .ok (q - p) := by
  rw [Expr.definiteIntegral_of_regular integral regular, valueAtLimit_of_eval top, ok_bind,
    valueAtLimit_of_eval bottom]
  rfl

end Values

/-! ### Quadrature -/

/-- The tree as an integrand that never fails.  What calls of the tree make of
an integration is measured against it. -/
def plain (f : Callable Float) : Integrand := fun x => .ok (f.tree.valueAt variableName x)

/-- Integrating the calls and integrating the plain values differ only if a
call was refused. -/
theorem exists_refused_of_integrate_ne [NodeTable] {f : Callable Float} {settings : Settings}
    {lower upper : Float}
    (differ : integrate f.eval settings lower upper ≠ integrate f.plain settings lower upper) :
    ∃ x ∈ (integral settings lower upper).points f.eval, ∃ error, f.eval x = .error error := by
  by_contra accepted
  refine differ (Quadrature.integrate_congr ?_).symm
  intro x asked
  cases called : f.eval x with
  | error error => exact absurd ⟨x, asked, error, called⟩ accepted
  | ok v => exact congrArg Except.ok (valueAt_of_eval called).2

/-! ### Curves -/

/-- The sample of a curve at a point is what the call hands out there, which
is the plain value, and there is a gap exactly if the call is refused. -/
def IsSample (f : Callable Float) (x : Float) (sample : Option Float) : Prop :=
  (∀ v, sample = some v ↔ f.eval x = .ok v) ∧
    (sample = none ↔ ∃ error, f.eval x = .error error) ∧
    ∀ v, sample = some v → f.tree.valueAt variableName x = v

/-- What a call makes of a point is a sample of its curve, a gap included.
Both directions hold: a gap means that the call was refused. -/
theorem isSample_eval? (f : Callable Float) (x : Float) : f.IsSample x (f.eval? x) := by
  rw [IsSample, eval?]
  cases called : f.eval x with
  | error error => exact ⟨fun v => iff_of_false nofun nofun, iff_of_true rfl ⟨error, rfl⟩, nofun⟩
  | ok v =>
    refine ⟨fun w => ?_, iff_of_false nofun nofun, ?_⟩
    · exact ⟨fun same => congrArg Except.ok (Option.some.inj same),
        fun same => congrArg some (Except.ok.inj same)⟩
    · rintro w ⟨⟩
      exact (valueAt_of_eval called).2

/-- A curve of calls has the samples of the calls. -/
theorem forall₂_isSample (f : Callable Float) (xs : List Float) :
    List.Forall₂ f.IsSample xs (xs.map f.eval?) :=
  List.forall₂_map_right_iff.2 (List.forall₂_same.2 fun x _ => f.isSample_eval? x)

end Callable

namespace Plot

/-- The sample of a slope at a point is the value of the derivative, which is
its plain value, and the slope of a chord only where the call of the
derivative is refused. -/
def IsSlope (f derivative : Callable Float) (step x : Float) (sample : Option Float) : Prop :=
  (∀ v, derivative.eval x = .ok v →
      sample = some v ∧ derivative.tree.valueAt variableName x = v) ∧
    ∀ error, derivative.eval x = .error error → sample = Grid.slope? f.eval? step x

/-- The curve of slopes is that of the derivative with chords in its gaps.
The chords are those of any formula with the same values. -/
theorem forall₂_isSlope {f f' : Callable Float} (sameValues : f'.eval? = f.eval?)
    (derivative : Callable Float) (step : Float) (xs : List Float) :
    List.Forall₂ (IsSlope f derivative step) xs (slopes f' (some derivative) step xs) := by
  refine List.forall₂_map_right_iff.2 (List.forall₂_same.2 fun x _ => ?_)
  rw [Option.bind_some, Callable.eval?, sameValues]
  refine ⟨fun v value => ?_, fun error refused => ?_⟩
  · rw [value]
    exact ⟨rfl, (Callable.valueAt_of_eval value).2⟩
  · rw [refused]
    rfl

/-- The curves of a tree without other variables: the calls of the tree, the
calls of its derivative with slopes where these are refused, and, if there is
an antiderivative, the calls of that. -/
theorem Figures.exists_ofTree [NodeTable] (plot : PlotSettings) (quadrature : Settings)
    (function : String) {tree : Expr Float}
    (closed : tree.foreignVariable? variableName = none) :
    ∃ f derivative figures, Callable.ofExpr tree = .ok f ∧ f.tree = tree ∧
      Callable.ofExpr (tree.derivative variableName) = .ok derivative ∧
      ofTree plot quadrature function tree = .ok figures ∧
      figures.values.ys = figures.xs.map f.eval? ∧
      figures.derivative.ys = slopes f (some derivative) plot.derivativeStep figures.xs ∧
      ∀ F g, tree.antiderivative variableName = .ok F → Callable.ofExpr F = .ok g →
        figures.integral.ys = figures.xs.map g.eval? := by
  have ownVariable := Expr.over_singleton.2 closed
  obtain ⟨-, f, made, same⟩ := ownVariable.isClosed
  obtain ⟨-, derivative, derived, -⟩ := ownVariable.derivative.isClosed
  rw [ofTree, made, derived]
  refine ⟨f, derivative, _, rfl, same, rfl, rfl, rfl, rfl, ?_⟩
  intro F g integral called
  rw [integral]
  dsimp only [Except.toOption, Option.bind_some]
  rw [called]

end Plot

/-- A tree whose only variable is `x` can be called, and calls refine its plain evaluation: a value
that is handed out is finite and is the plain value.  So whatever rests on calls differs from what
rests on plain values only where a call is refused.

* The curves of the tree and of an antiderivative have the values of the calls for samples, and gaps
  exactly where a call is refused; the curve of the derivative falls back on slopes only there.
* Quadrature of the calls differs from quadrature of the plain values only if it asks at a point where
  a call is refused.
* The definite integral is the difference of an antiderivative's values at the limits, once no
  singularity is found between them.  These are the values of its calls, unless one of these is
  refused. -/
theorem Callable.checked_evaluation_refines_plain [NodeTable] (source : String) {tree : Expr Float}
    (closed : tree.foreignVariable? variableName = none) :
    ∃ f : Callable Float, Callable.ofTree source tree = .ok f ∧ f.tree = tree ∧
      (∀ x v, f.eval x = .ok v → v.isFinite = true ∧ tree.valueAt variableName x = v) ∧
      (∀ plot quadrature function, ∃ figures derivative,
        Plot.Figures.ofTree plot quadrature function tree = .ok figures ∧
        Callable.ofExpr (tree.derivative variableName) = .ok derivative ∧
        List.Forall₂ f.IsSample figures.xs figures.values.ys ∧
        List.Forall₂ (Plot.IsSlope f derivative plot.derivativeStep) figures.xs
          figures.derivative.ys ∧
        ∀ F, tree.antiderivative variableName = .ok F → ∃ g, Callable.ofExpr F = .ok g ∧
          g.tree = F ∧ List.Forall₂ g.IsSample figures.xs figures.integral.ys) ∧
      (∀ limit v, f.eval limit = .ok v → tree.valueAtLimit variableName limit = .ok v) ∧
      (∀ settings lower upper,
        integrate f.eval settings lower upper ≠
          integrate (fun x => .ok (tree.valueAt variableName x)) settings lower upper →
        ∃ x ∈ (integral settings lower upper).points f.eval, ∃ error, f.eval x = .error error) ∧
      (∀ error, tree.antiderivative variableName = .error error → ∀ lower upper,
        tree.definiteIntegral variableName lower upper = .error error) ∧
      ∀ F, tree.antiderivative variableName = .ok F → ∃ g, Callable.ofExpr F = .ok g ∧
        g.tree = F ∧ ∀ lower upper,
          let found := tree.singularPoint? variableName lower upper
          let value := tree.definiteIntegral variableName lower upper
          (∀ point, tree.irregularPoint? variableName lower upper = some point →
            ∃ error, f.eval point = .error error) ∧
          (∀ point, found = some point → value = .error (.singular tree point)) ∧
          (∀ p q, found = none → g.eval lower = .ok p → g.eval upper = .ok q →
            value = .ok (q - p)) ∧
          (∀ v, value = .ok v → found = none ∧
            v = F.valueAt variableName upper - F.valueAt variableName lower ∧
            ((∃ p q, g.eval lower = .ok p ∧ g.eval upper = .ok q ∧ v = q - p) ∨
              ∃ limit ∈ [lower, upper], ∃ error, g.eval limit = .error error)) ∧
          ∀ error, value = .error error → found = none →
            ∃ limit ∈ [lower, upper], ∃ error, g.eval limit = .error error := by
  obtain ⟨f, made, -, rfl⟩ := Callable.exists_ofTree source closed
  have ownVariable := Expr.over_singleton.2 closed
  refine ⟨f, made, rfl, ?_, ?_, ?_, ?_, ?_, ?_⟩
  · intro x v value
    exact valueAt_of_eval value
  · intro plot quadrature function
    obtain ⟨f', derivative, figures, -, same, derived, drawn, values, slopes, areas⟩ :=
      Plot.Figures.exists_ofTree plot quadrature function closed
    have sameValues : f'.eval? = f.eval? := eval?_congr same
    refine ⟨figures, derivative, drawn, derived, ?_, ?_, ?_⟩
    · rw [values, sameValues]
      exact f.forall₂_isSample figures.xs
    · rw [slopes]
      exact Plot.forall₂_isSlope sameValues derivative plot.derivativeStep figures.xs
    · intro F integral
      obtain ⟨-, g, called, sameTree⟩ :=
        (Expr.over_antiderivative (Set.mem_singleton _) ownVariable integral).isClosed
      rw [areas F g integral called]
      exact ⟨g, called, sameTree, g.forall₂_isSample figures.xs⟩
  · intro limit v value
    exact valueAtLimit_of_eval value
  · intro settings lower upper differ
    exact exists_refused_of_integrate_ne differ
  · intro error none lower upper
    exact Expr.definiteIntegral_of_error none
  · intro F integral
    obtain ⟨-, g, called, rfl⟩ :=
      (Expr.over_antiderivative (Set.mem_singleton _) ownVariable integral).isClosed
    refine ⟨g, called, rfl, ?_⟩
    intro lower upper found value
    have limits := g.exists_values_or_refused lower upper
    refine ⟨?_, ?_, ?_, ?_, ?_⟩
    · intro point irregular
      exact refused_of_irregularPoint? irregular
    · intro point singular
      exact Expr.definiteIntegral_of_singular integral singular
    · intro p q regular bottom top
      exact definiteIntegral_of_eval integral regular bottom top
    · intro v handedOut
      obtain ⟨regular, -, -, difference⟩ := Expr.exists_limits_of_definiteIntegral integral handedOut
      refine ⟨regular, difference, limits.imp_left ?_⟩
      rintro ⟨p, q, bottom, top⟩
      have same := definiteIntegral_of_eval integral regular bottom top
      exact ⟨p, q, bottom, top, Except.ok.inj (handedOut.symm.trans same)⟩
    · intro error fails regular
      refine limits.resolve_left ?_
      rintro ⟨p, q, bottom, top⟩
      cases fails.symm.trans (definiteIntegral_of_eval integral regular bottom top)

/-- The reciprocal has the value one half at two, and at zero it has a plain
value only.  The integral of a constant is the difference of two calls of its
antiderivative, and across the pole of the reciprocal there is none. -/
theorem Callable.checked_evaluation_refines_plain_of_reciprocal :
    letI := Quadrature.computedNodes
    let reciprocal : Expr Float := .div (.const 1.0) (.var variableName)
    let two : Expr Float := .const 2.0
    (∃ f : Callable Float, Callable.ofTree "1/x" reciprocal = .ok f ∧ f.eval 2.0 = .ok 0.5 ∧
      reciprocal.valueAt variableName 2.0 = 0.5 ∧
      reciprocal.valueAtLimit variableName 2.0 = .ok 0.5 ∧ (f.eval 0.0).isOk = false) ∧
    (∃ F g, two.antiderivative variableName = .ok F ∧ Callable.ofExpr F = .ok g ∧
      g.eval 0.0 = .ok 0.0 ∧ g.eval 1.0 = .ok 2.0 ∧
      two.definiteIntegral variableName 0.0 1.0 = .ok (2.0 - 0.0)) ∧
    ∃ point, reciprocal.definiteIntegral variableName (-1.0) 1.0 =
      .error (.singular reciprocal point) := by
  intro reciprocal two
  let table := Quadrature.computedNodes
  have closed : reciprocal.foreignVariable? variableName = none := by decide
  have closedTwo : two.foreignVariable? variableName = none := by decide
  obtain ⟨f, made, -, values, -, limits, -, -, overReciprocal⟩ :=
    checked_evaluation_refines_plain "1/x" closed
  obtain ⟨_, -, -, -, -, -, -, -, overTwo⟩ :=
    checked_evaluation_refines_plain "2" closedTwo
  refine ⟨?_, ?_, ?_⟩
  · have same : f = ⟨"1/x", reciprocal, .div (.const 1.0) .point, rfl⟩ :=
      Except.ok.inj (made.symm.trans rfl)
    have value : f.eval 2.0 = .ok 0.5 := by
      rw [same]
      exact eq_ok_of_toOption (by decide +kernel)
    refine ⟨f, made, value, (values _ _ value).2, limits _ _ value, ?_⟩
    rw [same]
    decide +kernel
  · have regular : two.singularPoint? variableName 0.0 1.0 = none := by decide +kernel
    have calls : ((two.antiderivative variableName).toOption.bind fun F =>
        (Callable.ofExpr F).toOption.map fun g => (g.eval? 0.0, g.eval? 1.0)) =
        some (some 0.0, some 2.0) := by
      decide +kernel
    obtain ⟨F, found, calls⟩ := Option.bind_eq_some_iff.1 calls
    have integral := eq_ok_of_toOption found
    obtain ⟨g, called, -, differences⟩ := overTwo F integral
    rw [called] at calls
    have values : (g.eval? 0.0, g.eval? 1.0) = (some 0.0, some 2.0) := Option.some.inj calls
    obtain ⟨atZero, atOne⟩ := Prod.mk.inj values
    have bottom := eval?_eq_some_iff.1 atZero
    have top := eval?_eq_some_iff.1 atOne
    obtain ⟨-, -, difference, -⟩ := differences 0.0 1.0
    exact ⟨F, g, integral, called, bottom, top, difference 0.0 2.0 regular bottom top⟩
  · obtain ⟨point, pole⟩ : ∃ point, reciprocal.singularPoint? variableName (-1.0) 1.0 = some point :=
      Option.isSome_iff_exists.1 (by decide +kernel)
    have found : (reciprocal.antiderivative variableName).isOk = true := by decide +kernel
    obtain ⟨F, integral⟩ := exists_of_isOk found
    obtain ⟨g, -, -, differences⟩ := overReciprocal F integral
    exact ⟨point, (differences (-1.0) 1.0).2.1 point pole⟩

end Fluxion
