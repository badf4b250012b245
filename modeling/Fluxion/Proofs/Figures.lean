import Fluxion.Proofs.AdaptiveLoop
import Fluxion.Proofs.CheckedEvaluation
import Fluxion.Proofs.Cumulative
import Fluxion.Proofs.History
import Fluxion.Proofs.Tables
import Fluxion.Proofs.Variables

/-!
# Figures of formulas

Everything that reads as a formula is plotted.  The samples of the three curves come from calls, from
slopes and from quadrature, and each of these may fail at a point; a failure leaves a gap and nothing
else.  So the curves keep a sample for every abscissa, and what is there is finite
(`Plot.Figures.Aligned`): a call hands out finite values, a slope is checked, and an integral that is
handed out is finite by every rule (`Quadrature.isFinite_of_integrate`).  For the table of samples this
means that it can be written, and that a reader finds the gaps in it as empty cells
(`Plot.Figures.WrittenAs`).
-/

namespace Fluxion

/-! ### Finite integrals -/

namespace Quadrature

variable {f : Integrand} {settings : Settings} {lower upper : Float} {outcome : Outcome}

/-- A run of two samplings that succeeds is made of two runs that succeed. -/
theorem Sampling.exists_of_run_bind {α β : Type} {s : Sampling α} {next : α → Sampling β}
    {result : β} (ran : (s >>= next).run f = .ok result) :
    ∃ first, s.run f = .ok first ∧ (next first).run f = .ok result := by
  rw [run_bind] at ran
  exact bind_eq_ok ran

variable [NodeTable]

/-- The rule of Gauss and Legendre hands out finite values only. -/
theorem isFinite_of_gaussLegendre {nodes : Nat}
    (ran : (gaussLegendre nodes lower upper).run f = .ok outcome) :
    outcome.value.isFinite = true := by
  obtain ⟨coarse, -, ran⟩ := Sampling.exists_of_run_bind ran
  obtain ⟨fine, -, ran⟩ := Sampling.exists_of_run_bind ran
  split at ran
  · next finite =>
    cases ran
    exact finite
  · cases ran

/-- An integral between limits in order is finite, whichever the method. -/
theorem isFinite_of_forwardIntegral
    (ran : (forwardIntegral settings lower upper).run f = .ok outcome) :
    outcome.value.isFinite = true := by
  rw [forwardIntegral] at ran
  split at ran
  · obtain ⟨bisections, s, -, -, finite, rfl⟩ := exists_tested_of_ok ran
    exact finite
  · exact isFinite_of_gaussLegendre ran

/-- An integral that is handed out is finite, whichever way the limits stand
and whichever the method. -/
theorem isFinite_of_integrate (ran : integrate f settings lower upper = .ok outcome) :
    outcome.value.isFinite = true := by
  rw [integrate, integral] at ran
  split at ran
  · cases ran
  · split at ran
    · cases ran
      decide +kernel
    · split at ran
      · obtain ⟨forward, succeeds, ran⟩ := Sampling.exists_of_run_bind ran
        cases ran
        exact (Binary64.isFinite_neg _).trans (isFinite_of_forwardIntegral succeeds)
      · exact isFinite_of_forwardIntegral ran

end Quadrature

namespace Plot

/-! ### Samples -/

/-- As many samples as there are abscissae, finite where they are not missing.
It is what tables and pictures rely on. -/
structure Sampled (xs : List Float) (ys : List (Option Float)) : Prop where
  length_eq : ys.length = xs.length
  finite : ∀ y, some y ∈ ys → y.isFinite = true

/-- Samples taken point by point. -/
theorem Sampled.map {xs : List Float} {value? : Float → Option Float}
    (finite : ∀ x y, value? x = some y → y.isFinite = true) : Sampled xs (xs.map value?) where
  length_eq := List.length_map value?
  finite y member := by
    obtain ⟨x, -, value⟩ := List.mem_map.1 member
    exact finite x y value

theorem isFinite_of_eval? {f : Callable Float} {x y : Float} (value : f.eval? x = some y) :
    y.isFinite = true :=
  (Callable.valueAt_of_eval (eq_ok_of_toOption value)).1

theorem isFinite_of_slope? {f : Float → Option Float} {step x y : Float}
    (value : Grid.slope? f step x = some y) : y.isFinite = true := by
  obtain ⟨forward, -, value⟩ := Option.bind_eq_some_iff.1 value
  obtain ⟨backward, -, value⟩ := Option.bind_eq_some_iff.1 value
  dsimp only at value
  split at value
  · next finite =>
    cases value
    exact finite
  · cases value

/-- The curve of slopes is complete, with finite samples and gaps. -/
theorem sampled_slopes (f : Callable Float) (derivative : Option (Callable Float)) (step : Float)
    (xs : List Float) : Sampled xs (slopes f derivative step xs) := by
  refine .map fun x y value => ?_
  cases symbolic : derivative.bind (·.eval? x) with
  | none =>
    rw [symbolic] at value
    exact isFinite_of_slope? value
  | some slope =>
    rw [symbolic] at value
    cases value
    obtain ⟨callable, -, evaluates⟩ := Option.bind_eq_some_iff.1 symbolic
    exact isFinite_of_eval? evaluates

/-- The integrals are complete whether they succeed together or one by one.  A
point whose integral fails is a gap. -/
theorem sampled_areas [Quadrature.NodeTable] (f : Callable Float)
    (settings : Quadrature.Settings) (lower : Float) (xs : List Float) :
    Sampled xs (areas f settings lower xs) := by
  rw [areas_eq]
  refine .map fun x y value => ?_
  obtain ⟨outcome, integrated, rfl⟩ := Option.map_eq_some_iff.1 value
  exact Quadrature.isFinite_of_integrate (eq_ok_of_toOption integrated)

namespace Figures

variable {figures : Figures}

/-- The three curves have the abscissae of the figures, as many as were asked
for, and a sample for each. -/
structure Aligned (figures : Figures) (samples : Nat) : Prop where
  length_eq : figures.xs.length = samples
  common : ∀ view, (figures.series view).xs = figures.xs
  sampled : ∀ view, Sampled figures.xs (figures.series view).ys

/-- The figures of a tree are aligned, whichever source its third curve has. -/
theorem aligned_of_ofTree [Quadrature.NodeTable] {plot : PlotSettings}
    {settings : Quadrature.Settings} {function : String} {tree : Expr Float}
    (made : ofTree plot settings function tree = .ok figures) :
    figures.Aligned plot.samples := by
  obtain ⟨f, -, made⟩ := bind_eq_ok made
  cases made
  refine ⟨Grid.length_points _ _ _, ?_, ?_⟩
  · intro view
    cases view <;> rfl
  · intro view
    cases view with
    | function => exact .map fun x y => isFinite_of_eval?
    | derivative => exact sampled_slopes f _ _ _
    | integral =>
      dsimp only [series]
      split
      · exact .map fun x y => isFinite_of_eval?
      · exact sampled_areas f _ _ _

/-! ### Tables -/

/-- The text is read as a header and a row for each abscissa, in which a cell
is empty exactly if its sample is missing. -/
def WrittenAs (figures : Figures) (text : String) : Prop :=
  ∃ body : List (List String), splitRows text = ["x", "f", "df", "F"] :: (body ++ [[""]]) ∧
    body.length = figures.xs.length ∧
    ∀ (i : Nat) (x : Float), figures.xs[i]? = some x → ∃ cell : View → String,
      body[i]? = some (Numeral.text x :: View.all.map cell) ∧
      ∀ view, (cell view = "" ↔ (figures.series view).ys[i]? = some none) ∧
        ∀ y, (figures.series view).ys[i]? = some (some y) → cell view = Numeral.text y

/-- Aligned figures make an aligned table: no column is shorter than the abscissae. -/
theorem isAligned_table {samples : Nat} (aligned : figures.Aligned samples) :
    figures.table.isAligned = true := by
  have length (view : View) := (aligned.sampled view).length_eq
  rw [Table.isAligned, Bool.and_eq_true, List.all_eq_true]
  refine ⟨rfl, ?_⟩
  intro column member
  rw [table] at member
  simp only [List.mem_cons, List.not_mem_nil, or_false] at member
  rw [beq_iff_eq]
  rcases member with rfl | rfl | rfl
  · exact length .function
  · exact length .derivative
  · exact length .integral

/-- Aligned figures have a table, and its text says what the figures say. -/
theorem exists_writtenAs {samples : Nat} (aligned : figures.Aligned samples) :
    ∃ text, figures.table.text? = some text ∧ figures.WrittenAs text := by
  have plain : ∀ header ∈ ["f", "df", "F"], needsQuotes header = false := by decide
  obtain ⟨text, written, read⟩ := Table.exists_text (isAligned_table aligned) plain
  refine ⟨text, written, _, read, Table.length_rows _ _, ?_⟩
  intro i x here
  have below : i < figures.xs.length := (List.getElem?_eq_some_iff.1 here).1
  refine ⟨fun view => Table.sampleText ((figures.series view).ys[i]?.getD none), ?_, ?_⟩
  · rw [Table.rows_getElem?]
    exact congrArg (Option.map _) here
  · intro view
    have inside : i < (figures.series view).ys.length := (aligned.sampled view).length_eq ▸ below
    dsimp only
    rw [List.getElem?_eq_getElem inside, Option.getD_some, Table.sampleText_eq_empty_iff,
      Option.some.injEq]
    refine ⟨Iff.rfl, fun y present => ?_⟩
    rw [Option.some.inj present]
    rfl

/-! ### Formulas -/

/-- The function that stands in for an empty input can be read. -/
theorem exists_normalize_defaultFunction :
    ∃ normal, Formula.normalize (K := Float) defaultFunction = .ok normal :=
  exists_of_isOk (by decide +kernel)

/-- What is plotted is a formula, unless it is refused for not being one.
Nothing else keeps figures from being made. -/
theorem ofText_eq [Quadrature.NodeTable] (config : Config) (text : String) :
    (∃ fault, Formula.isUntouched text = false ∧
      Formula.normalize (K := Float) text = .error fault ∧
      ofText config text = .error (.parsing fault)) ∨
    ((Formula.isUntouched text = true ∨ ∃ normal, Formula.normalize (K := Float) text = .ok normal) ∧
      ∃ figures, ofText config text = .ok figures ∧ figures.Aligned config.plot.samples) := by
  have plotted {function : String} {normal : Formula.Normal Float}
      (read : Formula.normalize function = .ok normal) :
      ∃ figures, ofTree config.plot config.quadrature function normal.tree = .ok figures ∧
        figures.Aligned config.plot.samples := by
    obtain ⟨-, -, figures, -, -, -, made, -⟩ := exists_ofTree config.plot config.quadrature function
      (Expr.over_singleton.1 (over_of_normalize read))
    exact ⟨figures, made, aligned_of_ofTree made⟩
  cases touched : Formula.isUntouched text with
  | true =>
    obtain ⟨normal, read⟩ := exists_normalize_defaultFunction
    obtain ⟨figures, made, aligned⟩ := plotted read
    refine .inr ⟨.inl rfl, figures, ?_, aligned⟩
    rw [ofText, touched, if_pos rfl, read]
    exact congrArg (Except.mapError Failure.evaluation) made
  | false =>
    cases read : Formula.normalize (K := Float) text with
    | error fault =>
      refine .inl ⟨fault, rfl, rfl, ?_⟩
      rw [ofText, touched, if_neg Bool.false_ne_true, read]
      rfl
    | ok normal =>
      obtain ⟨figures, made, aligned⟩ := plotted read
      refine .inr ⟨.inr ⟨normal, rfl⟩, figures, ?_, aligned⟩
      rw [ofText, touched, if_neg Bool.false_ne_true, read]
      exact congrArg (Except.mapError Failure.evaluation) made

end Figures

end Plot

namespace Session

section Requests

variable [Quadrature.NodeTable]

/-- Everything that reads as a formula is plotted, and so is an empty input;
what was entered and does not read as a formula fails with the fault of
reading it.  The curves are aligned: they share the abscissae, as many as are
configured, and each has a sample for every abscissa, which is a gap or
finite.  So the figures have a table, with a header and a row for each
abscissa, whose empty cells are the gaps.  Its text is what an export creates
a file with, and no export finds it ragged. -/
theorem plots_aligned (session : Session) (function : String) :
    (∀ failure, session.plots function = .error failure ↔
      Formula.isUntouched function = false ∧
        ∃ fault, Formula.normalize (K := Float) function = .error fault ∧
          failure = .parsing fault) ∧
    ∀ figures, session.plots function = .ok figures →
      figures.Aligned session.config.plot.samples ∧
      (∃ text, figures.table.text? = some text ∧ figures.WrittenAs text ∧
        ∀ {World : Type} (surroundings : Surroundings (StateM World)) (path : String) (now : World),
          let created := (surroundings.create path text).run.run now
          ((session.updatePlots function).2.exportTable surroundings path).run.run now =
            (created.1.mapError fun reason => .file (.refused reason), created.2)) ∧
      ∀ {World : Type} (surroundings : Surroundings (StateM World)) (path : String) (now : World),
        (((session.updatePlots function).2.exportTable surroundings path).run.run now).1 ≠
          .error (.file .ragged) := by
  rw [plots]
  rcases Plot.Figures.ofText_eq session.config function with
    ⟨fault, touched, refused, made⟩ | ⟨accepted, figures, made, aligned⟩
  · rw [made, touched, refused]
    constructor
    · intro failure
      constructor
      · rintro ⟨⟩
        exact ⟨rfl, fault, rfl, rfl⟩
      · rintro ⟨-, _, ⟨⟩, rfl⟩
        rfl
    · intro figures succeeds
      cases succeeds
  · constructor
    · intro failure
      rw [made]
      constructor
      · intro fails
        cases fails
      · rintro ⟨touched, fault, refused, -⟩
        rcases accepted with untouched | ⟨normal, read⟩
        · cases touched.symm.trans untouched
        · cases refused.symm.trans read
    · intro other same
      cases made.symm.trans same
      obtain ⟨text, table, written⟩ := Plot.Figures.exists_writtenAs aligned
      have kept : (session.updatePlots function).2.lastPlots = .ok figures := made
      have exported {World : Type} (surroundings : Surroundings (StateM World)) (path : String)
          (now : World) :
          ((session.updatePlots function).2.exportTable surroundings path).run.run now =
            (((surroundings.create path text).run.run now).1.mapError fun reason =>
                .file (.refused reason),
              ((surroundings.create path text).run.run now).2) := by
        rw [exportTable_of_ok kept, Plot.Figures.run_saveTable_of_some table]
      refine ⟨aligned, ⟨text, table, written, exported⟩, fun surroundings path now => ?_⟩
      rw [exported]
      -- what the system says about a file is not what a ragged table is told from
      cases ((surroundings.create path text).run.run now).1 with
      | error reason => exact nofun
      | ok _ => exact nofun

end Requests

/-- An empty input is plotted at a thousand points, and half a quotient
is not plotted. -/
theorem plots_aligned_of_blank :
    letI := Quadrature.computedNodes
    let session := start Config.default
    (∃ figures text, session.plots " " = .ok figures ∧ figures.xs.length = 1000 ∧
      figures.table.text? = some text ∧ figures.WrittenAs text) ∧
    ∃ fault, session.plots "2/" = .error (.parsing fault) := by
  intro session
  let table := Quadrature.computedNodes
  obtain ⟨refused, plotted⟩ := plots_aligned session " "
  constructor
  · cases made : session.plots " " with
    | error failure =>
      have untouched : Formula.isUntouched " " = true := by decide +kernel
      cases untouched.symm.trans ((refused failure).1 made).1
    | ok figures =>
      obtain ⟨aligned, ⟨text, shown, written, -⟩, -⟩ := plotted figures made
      exact ⟨figures, text, rfl, aligned.length_eq, shown, written⟩
  · have incomplete : (Formula.normalize (K := Float) "2/").isOk = false := by decide +kernel
    cases read : Formula.normalize (K := Float) "2/" with
    | ok normal => cases incomplete.symm.trans (congrArg Except.isOk read)
    | error fault =>
      exact ⟨fault, ((plots_aligned session "2/").1 _).2 ⟨by decide +kernel, fault, read, rfl⟩⟩

end Session

end Fluxion
