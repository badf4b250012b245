import Mathlib
import Fluxion.Plot.Figures
import Fluxion.Proofs.AdaptiveLoop
import Fluxion.Proofs.Attribution
import Fluxion.Proofs.Binary64
import Fluxion.Proofs.CheckedEvaluation

/-!
# Cumulative integrals

The integrals up to sample points are taken together, and where that fails they are taken one by one
for a curve.  Both ways lead to the same integrals.  Taken together they are one sampling
(`cumulativeSampling`), which asks for nothing if the points are out of order; a point that is
reached only after a failure is not integrated to (`mapM_eq_error_iff`).  So they succeed together
exactly if each succeeds alone, with the same values, and otherwise fail for the first that fails.
One by one the failures are gaps, and no integral depends on whether another one fails
(`Plot.areas_eq`).

A sample below the lower limit has its limits in reverse order, which changes the sign of the value
and nothing else (`integrate_reversed`).
-/

namespace Fluxion

/-! ### Steps along a list -/

section Steps

variable {ε α β : Type} {g : α → Except ε β} {xs : List α}

/-- Steps that all succeed: each item has its result, and the results stand in
the order of the items. -/
theorem mapM_eq_ok_iff {ys : List β} :
    xs.mapM g = .ok ys ↔ List.Forall₂ (fun x y => g x = .ok y) xs ys := by
  induction xs generalizing ys with
  | nil =>
    rw [List.mapM_nil, List.forall₂_nil_left_iff]
    exact ⟨fun done => (Except.ok.inj done).symm, fun same => congrArg Except.ok same.symm⟩
  | cons x rest inductionHypothesis =>
    rw [List.mapM_cons, List.forall₂_cons_left_iff]
    constructor
    · intro ran
      obtain ⟨y, first, ran⟩ := bind_eq_ok ran
      obtain ⟨later, others, ran⟩ := bind_eq_ok ran
      exact ⟨y, later, first, inductionHypothesis.1 others, (Except.ok.inj ran).symm⟩
    · rintro ⟨y, later, first, others, rfl⟩
      rw [first, inductionHypothesis.2 others]
      rfl

/-- The first step that fails is the failure of all.  The steps before it
succeed, and those behind it are not looked at. -/
theorem mapM_eq_error_iff {error : ε} :
    xs.mapM g = .error error ↔ ∃ before x after, xs = before ++ x :: after ∧
      (∀ y ∈ before, ∃ value, g y = .ok value) ∧ g x = .error error := by
  constructor
  · intro fails
    induction xs with
    | nil => cases fails
    | cons x rest inductionHypothesis =>
      rw [List.mapM_cons] at fails
      rcases bind_eq_error fails with first | ⟨value, first, fails⟩
      · exact ⟨[], x, rest, rfl, nofun, first⟩
      · rcases bind_eq_error fails with later | ⟨values, -, fails⟩
        · obtain ⟨before, y, after, rfl, good, here⟩ := inductionHypothesis later
          exact ⟨x :: before, y, after, rfl, List.forall_mem_cons.2 ⟨⟨value, first⟩, good⟩, here⟩
        · cases fails
  · rintro ⟨before, x, after, rfl, good, fails⟩
    induction before with
    | nil =>
      rw [List.nil_append, List.mapM_cons, fails]
      rfl
    | cons y before inductionHypothesis =>
      obtain ⟨⟨value, first⟩, good⟩ := List.forall_mem_cons.1 good
      rw [List.cons_append, List.mapM_cons, first, inductionHypothesis good]
      rfl

/-- All steps succeed together exactly if each succeeds. -/
theorem exists_mapM_iff : (∃ ys, xs.mapM g = .ok ys) ↔ ∀ x ∈ xs, ∃ y, g x = .ok y := by
  constructor
  · rintro ⟨ys, ran⟩ x member
    obtain ⟨length, steps⟩ := List.forall₂_iff_get.1 (mapM_eq_ok_iff.1 ran)
    obtain ⟨i, rfl⟩ := List.get_of_mem member
    exact ⟨_, steps i i.2 (length ▸ i.2)⟩
  · intro good
    cases ran : xs.mapM g with
    | ok ys => exact ⟨ys, rfl⟩
    | error error =>
      obtain ⟨before, x, after, rfl, -, fails⟩ := mapM_eq_error_iff.1 ran
      obtain ⟨y, succeeds⟩ := good x (List.mem_append_right _ (.head _))
      cases fails.symm.trans succeeds

end Steps

namespace Quadrature

variable {f : Integrand} {settings : Settings} {lower : Option Float} {xs : List Float}

/-- The check of the order is that no point is above the next one.
Points may coincide. -/
theorem isOrdered_iff : isOrdered xs = true ↔ xs.IsChain (· ≤ ·) := by
  induction xs with
  | nil => exact iff_of_true rfl .nil
  | cons x rest inductionHypothesis =>
    cases rest with
    | nil => exact iff_of_true rfl (.singleton x)
    | cons y rest =>
      rw [isOrdered, Bool.and_eq_true, decide_eq_true_iff, inductionHypothesis,
        List.isChain_cons_cons]

/-- The limit that integrals up to some points start from: the first of the
points, unless another one is given. -/
def startOf (lower : Option Float) (xs : List Float) : Float := lower.getD (xs.headD 0.0)

section Rules

variable [NodeTable]

/-- The integrals up to some points as one sampling, for which the theory of
samplings then speaks. -/
def cumulativeSampling (settings : Settings) (lower : Option Float) (xs : List Float) :
    Sampling (List Float) :=
  if isOrdered xs then
    xs.mapM fun x => Outcome.value <$> integral settings (startOf lower xs) x
  else .fail (.bounds .unordered)

/-- Points that are in order are integrated to one after the other, each from
the common start and not from the point before. -/
theorem cumulative_of_ordered (ordered : xs.IsChain (· ≤ ·)) :
    cumulative f settings lower xs =
      xs.mapM fun x => (integrate f settings (startOf lower xs) x).map Outcome.value := by
  rw [cumulative.eq_def, isOrdered_iff.2 ordered, if_neg (by decide)]
  cases xs <;> rfl

/-- The cumulative integral is the run of one sampling, so what holds of
runs holds of it. -/
theorem cumulative_eq_run :
    cumulative f settings lower xs = (cumulativeSampling settings lower xs).run f := by
  rw [cumulativeSampling]
  split
  · next ordered =>
    rw [cumulative_of_ordered (isOrdered_iff.1 ordered), Sampling.run_mapM]
    simp only [Sampling.run_map, integrate]
  · next unordered =>
    rw [cumulative.eq_def, if_pos (by simpa using unordered)]
    rfl

/-- The order is blamed exactly for points that are out of order. -/
theorem cumulative_eq_unordered_iff :
    cumulative f settings lower xs = .error (.bounds .unordered) ↔ ¬xs.IsChain (· ≤ ·) := by
  constructor
  · intro refused ordered
    rw [cumulative_of_ordered ordered] at refused
    obtain ⟨-, x, -, -, -, fails⟩ := mapM_eq_error_iff.1 refused
    cases (integrate_eq_bounds_iff.1 (map_eq_error fails)).1
  · intro unordered
    rw [cumulative.eq_def, if_pos]
    simpa using mt isOrdered_iff.1 unordered

/-- Points that are out of order are refused before anything is sampled, so
such a list costs nothing. -/
theorem points_cumulativeSampling (unordered : ¬xs.IsChain (· ≤ ·)) :
    (cumulativeSampling settings lower xs).points f = [] := by
  rw [cumulativeSampling, if_neg (mt isOrdered_iff.1 unordered)]
  rfl

section Ordered

variable (ordered : xs.IsChain (· ≤ ·))

include ordered

/-- Points in order are integrated to exactly if each can be integrated to
from the common start, and the values are those integrals one by one. -/
theorem cumulative_eq_ok_iff {values : List Float} :
    cumulative f settings lower xs = .ok values ↔
      List.Forall₂ (fun x value => ∃ outcome,
          integrate f settings (startOf lower xs) x = .ok outcome ∧ outcome.value = value)
        xs values := by
  rw [cumulative_of_ordered ordered, mapM_eq_ok_iff]
  simp only [map_eq_ok_iff]

/-- The first point that cannot be integrated to is blamed, with the error of
that integral. -/
theorem cumulative_eq_error_iff {error : IntegrationError} :
    cumulative f settings lower xs = .error error ↔ ∃ before x after, xs = before ++ x :: after ∧
      (∀ y ∈ before, ∃ outcome, integrate f settings (startOf lower xs) y = .ok outcome) ∧
      integrate f settings (startOf lower xs) x = .error error := by
  rw [cumulative_of_ordered ordered, mapM_eq_error_iff]
  simp only [map_eq_ok_iff, map_eq_error_iff, exists_comm (α := Float), exists_eq_right']

/-- Points in order have a cumulative integral exactly if each of them
has an integral. -/
theorem exists_cumulative_iff :
    (∃ values, cumulative f settings lower xs = .ok values) ↔
      ∀ x ∈ xs, ∃ outcome, integrate f settings (startOf lower xs) x = .ok outcome := by
  rw [cumulative_of_ordered ordered, exists_mapM_iff]
  simp only [map_eq_ok_iff, exists_comm (α := Float), exists_eq_right']

end Ordered

/-! ### Reversed limits -/

section Limits

variable {a b : Float} (less : a < b)

include less

/-- Limits in reverse order are exchanged, and the sign of the value is changed. -/
theorem integral_of_gt (finite : a.isFinite = true ∧ b.isFinite = true) :
    integral settings b a = Outcome.negated <$> forwardIntegral settings a b := by
  rw [integral, finite.1, finite.2, if_neg (by decide), Binary64.beq_eq_false_of_gt less,
    if_neg Bool.false_ne_true, if_pos less, bind_pure_comp]

/-- Limits in reverse order change the sign of the value and nothing else, and
the integral fails as it would otherwise. -/
theorem integrate_reversed :
    integrate f settings b a = (integrate f settings a b).map Outcome.negated := by
  by_cases finite : a.isFinite = true ∧ b.isFinite = true
  · rw [integrate, integrate, integral_of_gt less finite, integral_of_lt less finite,
      Sampling.run_map]
  · rw [integrate, integrate, integral_eq_fail_of_not_finite finite,
      integral_eq_fail_of_not_finite (mt And.symm finite)]
    rfl

end Limits

end Rules

end Quadrature

/-! ### Curves -/

namespace Plot

open Quadrature (NodeTable integrate startOf)

variable [NodeTable]

/-- The integrals of a curve are taken point by point, whether or not they
succeed together. -/
theorem areas_eq (f : Callable Float) (settings : Quadrature.Settings) (lower : Float)
    (xs : List Float) :
    areas f settings lower xs =
      xs.map fun x => (integrate f.eval settings lower x).toOption.map (·.value) := by
  rw [areas]
  split
  · next values together =>
    have ordered : xs.IsChain (· ≤ ·) := by
      by_contra unordered
      cases (Quadrature.cumulative_eq_unordered_iff.2 unordered).symm.trans together
    have each := (Quadrature.cumulative_eq_ok_iff ordered).1 together
    rw [← List.forall₂_eq_eq_eq, List.forall₂_map_left_iff, List.forall₂_map_right_iff]
    refine (each.imp ?_).flip
    rintro x value ⟨outcome, succeeds, rfl⟩
    rw [Quadrature.startOf, Option.getD_some] at succeeds
    exact (congrArg (Option.map (·.value)) (congrArg Except.toOption succeeds)).symm
  · rfl

/-- Without an antiderivative that can be called, the third curve shows the
integrals from the left end of the range. -/
theorem Figures.integral_ys_of_ofTree {plot : PlotSettings} {settings : Quadrature.Settings}
    {function : String} {tree : Expr Float} {f : Callable Float} {figures : Figures}
    (called : Callable.ofExpr tree = .ok f)
    (none : ∀ F, tree.antiderivative variableName = .ok F → ∀ g, Callable.ofExpr F ≠ .ok g)
    (made : ofTree plot settings function tree = .ok figures) :
    figures.integral.ys =
      figures.xs.map fun x => (integrate f.eval settings plot.xMin x).toOption.map (·.value) := by
  obtain ⟨f', again, made⟩ := bind_eq_ok made
  cases called.symm.trans again
  cases made
  have uncalled : ((tree.antiderivative variableName).toOption.bind fun F =>
      (Callable.ofExpr F).toOption) = Option.none := by
    cases integral : tree.antiderivative variableName with
    | error error => rfl
    | ok F =>
      cases compiled : Callable.ofExpr F with
      | ok g => exact absurd compiled (none F integral g)
      | error error => exact congrArg Except.toOption compiled
  dsimp only
  rw [uncalled]
  exact areas_eq f settings plot.xMin _

end Plot

/-! ### Both ways -/

open Quadrature (NodeTable Integrand integrate cumulative startOf cumulativeSampling)

/-- A cumulative integral is the list of the integrals up to its points.  It is
refused exactly if two neighbouring points are out of order, and then nothing is
sampled; otherwise it has the value of each integral if all of them succeed, and fails
as the first that fails.  A curve has the value of each integral that succeeds,
whatever the others do; and where a formula has no antiderivative, this is its third
curve, with the left end of the range for lower limit.  Reversed limits change the
sign of the value and nothing else. -/
theorem cumulative_pointwise (settings : Quadrature.Settings) :
    (∀ [NodeTable] (f : Integrand) (lower : Option Float) (xs : List Float),
      let sampling := cumulativeSampling settings lower xs
      let each := integrate f settings (startOf lower xs)
      cumulative f settings lower xs = sampling.run f ∧
      (cumulative f settings lower xs = .error (.bounds .unordered) ↔ ¬xs.IsChain (· ≤ ·)) ∧
      (¬xs.IsChain (· ≤ ·) → sampling.points f = []) ∧
      (xs.IsChain (· ≤ ·) →
        ((∃ values, cumulative f settings lower xs = .ok values) ↔
          ∀ x ∈ xs, ∃ outcome, each x = .ok outcome) ∧
        (∀ values, cumulative f settings lower xs = .ok values ↔
          List.Forall₂ (fun x value => ∃ outcome, each x = .ok outcome ∧ outcome.value = value)
            xs values) ∧
        ∀ error, cumulative f settings lower xs = .error error ↔
          ∃ before x after, xs = before ++ x :: after ∧
            (∀ y ∈ before, ∃ outcome, each y = .ok outcome) ∧ each x = .error error)) ∧
    (∀ [NodeTable] (f : Callable Float) (lower : Float) (xs : List Float),
      Plot.areas f settings lower xs =
        xs.map fun x => (integrate f.eval settings lower x).toOption.map (·.value)) ∧
    (∀ [NodeTable] (plot : PlotSettings) (function : String) (tree : Expr Float) (f : Callable Float)
        (figures : Plot.Figures), Callable.ofExpr tree = .ok f →
      (∀ F, tree.antiderivative variableName = .ok F → ∀ g, Callable.ofExpr F ≠ .ok g) →
      Plot.Figures.ofTree plot settings function tree = .ok figures →
      figures.integral.ys =
        figures.xs.map fun x => (integrate f.eval settings plot.xMin x).toOption.map (·.value)) ∧
    ∀ [NodeTable] (f : Integrand) (a b : Float), a < b →
      integrate f settings b a = (integrate f settings a b).map fun outcome =>
        { outcome with value := -outcome.value } := by
  refine ⟨?_, ?_, ?_, ?_⟩
  · intro _ f lower xs sampling each
    exact ⟨Quadrature.cumulative_eq_run, Quadrature.cumulative_eq_unordered_iff,
      Quadrature.points_cumulativeSampling, fun ordered =>
        ⟨Quadrature.exists_cumulative_iff ordered,
          fun values => Quadrature.cumulative_eq_ok_iff ordered,
          fun error => Quadrature.cumulative_eq_error_iff ordered⟩⟩
  · intro _ f lower xs
    exact Plot.areas_eq f settings lower xs
  · intro _ plot function tree f figures called none made
    exact Plot.Figures.integral_ys_of_ofTree called none made
  · intro _ f a b less
    exact Quadrature.integrate_reversed less

/-- The identity has integrals from 0 to 0 and to 1.  Up to three points of which the
first is below the domain of an integrand there are none, two points out of order are
refused, and from 1 to 0 the integral is the one from 0 to 1 with its sign changed.
No rule integrates the variable to the power of itself. -/
theorem cumulative_pointwise_of_half_line :
    letI := Quadrature.computedNodes
    let settings := Quadrature.Settings.default
    let ordered := List.IsChain (· ≤ · : Float → Float → Prop)
    let f : Integrand := fun x =>
      if x < 0.0 then .error ⟨"math.sqrt(x)", .domain (.function .sqrt) x⟩ else .ok x
    let tower : Expr Float := .pow (.var variableName) (.var variableName)
    (ordered [0.0, 1.0] ∧ ∃ values, cumulative f settings none [0.0, 1.0] = .ok values) ∧
    (ordered [-1.0, 0.0, 1.0] ∧
      ¬∃ values, cumulative f settings (some 0.0) [-1.0, 0.0, 1.0] = .ok values) ∧
    (¬ordered [1.0, 0.0] ∧ cumulative f settings none [1.0, 0.0] = .error (.bounds .unordered) ∧
      (cumulativeSampling settings none [1.0, 0.0]).points f = []) ∧
    (0.0 : Float) < 1.0 ∧ ∃ outcome, integrate f settings 0.0 1.0 = .ok outcome ∧
      integrate f settings 1.0 0.0 = .ok { outcome with value := -outcome.value } ∧
    ∃ g figures, Callable.ofExpr tower = .ok g ∧
      Plot.Figures.ofTree PlotSettings.default settings "x^x" tower = .ok figures ∧
      figures.integral.ys =
        figures.xs.map fun x =>
          (integrate g.eval settings PlotSettings.default.xMin x).toOption.map (·.value) := by
  intro settings ordered f tower
  let table := Quadrature.computedNodes
  obtain ⟨together, -, curve, reversed⟩ := cumulative_pointwise settings
  have up : ordered [0.0, 1.0] := Quadrature.isOrdered_iff.1 (by decide +kernel)
  have below : ordered [-1.0, 0.0, 1.0] := Quadrature.isOrdered_iff.1 (by decide +kernel)
  have down : ¬ordered [1.0, 0.0] := mt Quadrature.isOrdered_iff.2 (by decide +kernel)
  have less : (0.0 : Float) < 1.0 := by decide +kernel
  have nothing : (integrate f settings 0.0 0.0).isOk = true := by decide +kernel
  have area : (integrate f settings 0.0 1.0).isOk = true := by decide +kernel
  have outside : (integrate f settings 0.0 (-1.0)).isOk = false := by decide +kernel
  refine ⟨⟨up, ?_⟩, ⟨below, ?_⟩, ⟨down, ?_⟩, less, ?_⟩
  · refine ((together f none [0.0, 1.0]).2.2.2 up).1.2 ?_
    rw [List.forall_mem_cons, List.forall_mem_singleton]
    exact ⟨exists_of_isOk nothing, exists_of_isOk area⟩
  · intro succeeds
    obtain ⟨outcome, ran⟩ :=
      ((together f (some 0.0) [-1.0, 0.0, 1.0]).2.2.2 below).1.1 succeeds (-1.0) (.head _)
    exact Bool.false_ne_true (outside.symm.trans (congrArg Except.isOk ran))
  · obtain ⟨-, refused, unsampled, -⟩ := together f none [1.0, 0.0]
    exact ⟨refused.2 down, unsampled down⟩
  · obtain ⟨outcome, ran⟩ := exists_of_isOk area
    refine ⟨outcome, ran, ?_, ?_⟩
    · rw [reversed f 0.0 1.0 less, ran]
      rfl
    · have closed : tower.foreignVariable? variableName = none := by decide
      obtain ⟨g, -, figures, called, -, -, made, -⟩ :=
        Plot.Figures.exists_ofTree .default settings "x^x" closed
      have noRule : (tower.antiderivative variableName).isOk = false := by decide +kernel
      refine ⟨g, figures, called, made, curve _ _ tower g figures called ?_ made⟩
      intro F integral
      rw [integral] at noRule
      cases noRule

end Fluxion
