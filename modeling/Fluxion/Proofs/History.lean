import Mathlib.Logic.Basic
import Fluxion.Proofs.Exports
import Fluxion.Proofs.Outcome
import Fluxion.Session.Request

/-!
# Histories of sessions

A session remembers two things, and requests overwrite them: the last analysis, which one kind of
request makes, and the outcome of the last plotting, which two kinds do, one of them besides making an
analysis.  What a request overwrites depends on the request and the configuration alone
(`Session.perform_session`).  So the session after a history holds what the latest requests of the
right kinds have made, whether that was figures or a failure (`Session.performAll_session`), and a
request is answered from no more than that (`Session.perform_answer_congr`).

A history takes place in a world, and the exports ask something of the world and change it.  Nothing
of this comes back into the session: whatever the surroundings answer, and whatever they refuse, the
session after a history is the same.  What does depend on the world is the answer of an export, and
it depends on the world that the requests before have left (`Session.performAll_answers_getElem?`).
-/

namespace Fluxion

/-- What the latest request of a history has made, among those that make
something.  Earlier ones leave no trace. -/
def latest? {α : Type} (made? : Request → Option α) (history : List Request) : Option α :=
  history.reverse.findSome? made?

/-- The latest is looked for behind the first request, and that one counts
only if nothing is found there. -/
theorem latest?_cons {α : Type} (made? : Request → Option α) (request : Request)
    (rest : List Request) :
    latest? made? (request :: rest) = (latest? made? rest).or (made? request) := by
  rw [latest?, List.reverse_cons, List.findSome?_append, List.findSome?_singleton]
  rfl

namespace Request

variable [Quadrature.NodeTable]

/-- The analysis that a request makes.  Only a request for everything makes one. -/
def analysis? (config : Config) : Request → Option Analysis
  | .analyse function lower upper =>
    some ⟨function, Derivative.messageOf function,
      Integral.ofTexts config.quadrature function lower upper⟩
  | _ => none

/-- Whether a request is an export, which is what asks something of the
surroundings. -/
def isExport : Request → Bool
  | .exportTable _ | .exportPlots _ => true
  | _ => false

/-- The outcome of the plotting that a request has made for keeping.  Requests
that only show figures make none. -/
def plotting? (config : Config) : Request → Option (Except Failure Plot.Figures)
  | .updatePlots function | .analyse function _ _ => some (Plot.Figures.ofText config function)
  | _ => none

end Request

section Kept

variable [Quadrature.NodeTable]

/-- The analysis that is the last one after a history. -/
def analysisAfter (config : Config) (history : List Request) : Option Analysis :=
  latest? (Request.analysis? config) history

/-- The outcome of the last plotting after a history; there need not have been any. -/
def plottingAfter (config : Config) (history : List Request) : Except Failure Plot.Figures :=
  (latest? (Request.plotting? config) history).getD (.error .nothingCalculated)

end Kept

namespace Session

variable {World : Type} {surroundings : Surroundings (StateM World)} {session other : Session}
  {request : Request}

/-! ### Exports -/

section Exports

variable {failure : Failure} {figures : Plot.Figures} {path text directory : String}

/-- Without figures a table fails with what kept them from being made. -/
theorem exportTable_of_error (fails : session.lastPlots = .error failure) (now : World) :
    (session.exportTable surroundings path).run.run now = (.error failure, now) := by
  rw [exportTable, fails]
  rfl

/-- Without figures pictures fail with what kept the figures from being made. -/
theorem exportPlots_of_error (fails : session.lastPlots = .error failure) (now : World) :
    (session.exportPlots surroundings directory).run.run now = (.error failure, now) := by
  rw [exportPlots, fails]
  rfl

/-- With figures kept, the export of a table saves theirs. -/
theorem exportTable_of_ok (kept : session.lastPlots = .ok figures) :
    session.exportTable surroundings path = figures.saveTable surroundings path := by
  rw [exportTable, kept]
  rfl

/-- With figures kept, the export of pictures saves theirs, at the size that
is configured. -/
theorem exportPlots_of_ok (kept : session.lastPlots = .ok figures) :
    session.exportPlots surroundings directory =
      figures.savePictures surroundings session.config.plot directory := by
  rw [exportPlots, kept]
  rfl

end Exports

section Requests

variable [Quadrature.NodeTable]

/-! ### One request -/

/-- A request overwrites what it makes, and leaves the rest as it is.  The
surroundings have no influence on it. -/
theorem perform_session (session : Session) (request : Request) (now : World) :
    ((session.perform surroundings request).run now).1.2 =
      ⟨session.config, (request.analysis? session.config).or session.lastAnalysis,
        (request.plotting? session.config).or session.plotted⟩ := by
  cases request <;> rfl

/-- Of a session, an answer is made from its configuration, its last analysis and its
last figures, or the failure to make them; and so is what becomes of the world. -/
theorem perform_answer_congr (sameConfig : session.config = other.config)
    (sameAnalysis : session.lastAnalysis = other.lastAnalysis)
    (samePlots : session.lastPlots = other.lastPlots) (now : World) :
    ((session.perform surroundings request).run now).1.1 =
        ((other.perform surroundings request).run now).1.1 ∧
      ((session.perform surroundings request).run now).2 =
        ((other.perform surroundings request).run now).2 := by
  obtain ⟨config, lastAnalysis, plotted⟩ := session
  obtain ⟨_, _, plotted'⟩ := other
  cases sameConfig
  cases sameAnalysis
  -- what is left to differ is how the outcome of the plotting is stored
  cases request with
  | lastPlots => exact ⟨congrArg Answer.figures samePlots, rfl⟩
  | exportTable path =>
    simp only [perform, exportTable, samePlots]
    exact ⟨rfl, rfl⟩
  | exportPlots directory =>
    simp only [perform, exportPlots, samePlots]
    exact ⟨rfl, rfl⟩
  | _ => exact ⟨rfl, rfl⟩

/-- Only exports ask anything of the world.  Every other request has the same
answer everywhere. -/
theorem perform_elsewhere (inside : request.isExport = false) (now : World) {Other : Type}
    (there : Surroundings (StateM Other)) (elsewhere : Other) :
    ((session.perform surroundings request).run now).2 = now ∧
      ((session.perform there request).run elsewhere).1 =
        ((session.perform surroundings request).run now).1 := by
  cases request with
  | exportTable path => cases inside
  | exportPlots directory => cases inside
  | _ => exact ⟨rfl, rfl⟩

/-! ### Histories -/

/-- A history is its first request and then the rest, in the session and the
world that the request leaves. -/
theorem performAll_cons (session : Session) (request : Request) (rest : List Request)
    (now : World) :
    (session.performAll surroundings (request :: rest)).run now =
      let first := (session.perform surroundings request).run now
      let later := (first.1.2.performAll surroundings rest).run first.2
      ((first.1.1 :: later.1.1, later.1.2), later.2) :=
  rfl

/-- The session after a history has the configuration it began with, and keeps
what was made last.  The induction generalises over the session, as the rest
starts from another one. -/
theorem performAll_session (session : Session) (history : List Request) (now : World) :
    ((session.performAll surroundings history).run now).1.2 =
      ⟨session.config,
        (latest? (Request.analysis? session.config) history).or session.lastAnalysis,
        (latest? (Request.plotting? session.config) history).or session.plotted⟩ := by
  induction history generalizing session now with
  | nil => rfl
  | cons request rest inductionHypothesis =>
    rw [performAll_cons]
    dsimp only
    -- what the first request has made counts where the rest makes nothing of the kind
    rw [inductionHypothesis, perform_session, latest?_cons, latest?_cons, Option.or_assoc,
      Option.or_assoc]

/-- The session after a history holds what the history has made last, since it
starts with nothing. -/
theorem performAll_start (config : Config) (history : List Request) (now : World) :
    (((start config).performAll surroundings history).run now).1.2 =
      ⟨config, analysisAfter config history, latest? (Request.plotting? config) history⟩ := by
  rw [performAll_session, start, Option.or_none, Option.or_none]
  rfl

/-- Each answer is given by the session that the requests before have left, in
the world that they have left. -/
theorem performAll_answers_getElem? (session : Session) (history : List Request) (i : Nat)
    (now : World) :
    ((session.performAll surroundings history).run now).1.1[i]? =
      history[i]?.map fun request =>
        let before := (session.performAll surroundings (history.take i)).run now
        ((before.1.2.perform surroundings request).run before.2).1.1 := by
  induction history generalizing session i now with
  | nil => rfl
  | cons request rest inductionHypothesis =>
    cases i with
    | zero => rfl
    | succ i =>
      rw [List.take_succ_cons, performAll_cons]
      exact inductionHypothesis _ i _

/-- The world after one more request is the one that the request leaves.
Answers are therefore given one at a time. -/
theorem performAll_take_succ (session : Session) {history : List Request} {i : Nat}
    (asked : history[i]? = some request) (now : World) :
    let before := (session.performAll surroundings (history.take i)).run now
    ((session.performAll surroundings (history.take (i + 1))).run now).2 =
      ((before.1.2.perform surroundings request).run before.2).2 := by
  induction history generalizing session i now with
  | nil => cases asked
  | cons first rest inductionHypothesis =>
    cases i with
    | zero =>
      cases asked
      rfl
    | succ i =>
      rw [List.take_succ_cons, List.take_succ_cons, performAll_cons, performAll_cons]
      exact inductionHypothesis _ asked _

/-- There is one answer for each request. -/
theorem length_performAll_answers (session : Session) (history : List Request) (now : World) :
    ((session.performAll surroundings history).run now).1.1.length = history.length := by
  induction history generalizing session now with
  | nil => rfl
  | cons request rest inductionHypothesis =>
    rw [performAll_cons]
    exact congrArg (· + 1) (inductionHypothesis _ _)

/-- What a session remembers is decided by its history, whatever the surroundings do.  The last figures
are those of the latest request that had figures made for keeping, or the failure to make them; the
last analysis is the latest that was made.

Exports act on these figures.  Where there are none, every export fails with the failure to make them
and leaves the world alone.  Where there are some, their table is the text of the file that is
created, and their pictures are saved one after the other; what the system refuses is what the export
fails with.  No request that makes nothing to be kept changes what is kept, exports among them, and no
request but an export asks anything of the world.

An answer is the one that any session gives with the same configuration, the same last analysis and
the same last figures, in the world that the requests before have left. -/
theorem determined_by_history (surroundings : Surroundings (StateM World)) (config : Config)
    (history : List Request) (now : World) :
    let ran := ((start config).performAll surroundings history).run now
    let answers := ran.1.1
    let session := ran.1.2
    session.config = config ∧
    session.lastPlots = plottingAfter config history ∧
    session.lastAnalysis = analysisAfter config history ∧
    (∀ failure, plottingAfter config history = .error failure → ∀ here : World,
      (∀ path, (session.exportTable surroundings path).run.run here = (.error failure, here)) ∧
        ∀ directory,
          (session.exportPlots surroundings directory).run.run here = (.error failure, here)) ∧
    (∀ figures, plottingAfter config history = .ok figures → ∀ here : World,
      (∀ path, figures.table.text? = none →
        (session.exportTable surroundings path).run.run here = (.error (.file .ragged), here)) ∧
      (∀ path text, figures.table.text? = some text →
        let created := (surroundings.create path text).run.run here
        (session.exportTable surroundings path).run.run here =
          (created.1.mapError fun reason => .file (.refused reason), created.2)) ∧
      ∀ directory,
        let saved := (session.exportPlots surroundings directory).run.run here
        Plot.Figures.Saves surroundings config.plot figures directory here saved.1 saved.2) ∧
    (∀ (request : Request) (here : World),
      let next := (session.perform surroundings request).run here
      next.1.2.config = config ∧
      (request.plotting? config = none → next.1.2.lastPlots = session.lastPlots) ∧
      (request.analysis? config = none → next.1.2.lastAnalysis = session.lastAnalysis) ∧
      (request.isExport = false → next.2 = here ∧
        ∀ {Other : Type} (there : Surroundings (StateM Other)) (elsewhere : Other),
          ((session.perform there request).run elsewhere).1 = next.1)) ∧
    answers.length = history.length ∧
    ∀ i request, history[i]? = some request → ∀ other : Session, other.config = config →
      other.lastPlots = plottingAfter config (history.take i) →
      other.lastAnalysis = analysisAfter config (history.take i) →
      let before := (((start config).performAll surroundings (history.take i)).run now).2
      let after := (((start config).performAll surroundings (history.take (i + 1))).run now).2
      let next := (other.perform surroundings request).run before
      answers[i]? = some next.1.1 ∧ after = next.2 := by
  intro ran answers session
  have after : session = _ := performAll_start config history now
  have sameConfig : session.config = config := by rw [after]
  have sameAnalysis : session.lastAnalysis = analysisAfter config history := by rw [after]
  have samePlots : session.lastPlots = plottingAfter config history := by
    rw [after]
    rfl
  refine ⟨sameConfig, samePlots, sameAnalysis, ?_, ?_, ?_, ?_, ?_⟩
  · intro failure fails here
    rw [← samePlots] at fails
    exact ⟨fun path => exportTable_of_error fails here,
      fun directory => exportPlots_of_error fails here⟩
  · intro figures kept here
    rw [← samePlots] at kept
    refine ⟨fun path ragged => ?_, fun path text written => ?_, fun directory => ?_⟩
    · rw [exportTable_of_ok kept, Plot.Figures.run_saveTable_of_none ragged]
    · rw [exportTable_of_ok kept, Plot.Figures.run_saveTable_of_some written]
    · rw [exportPlots_of_ok kept, sameConfig]
      exact Plot.Figures.saves_savePictures here
  · intro request here
    dsimp only
    rw [perform_session, sameConfig]
    refine ⟨rfl, ?_, ?_, ?_⟩
    · intro nothing
      rw [nothing, Option.none_or]
      rfl
    · intro nothing
      rw [nothing, Option.none_or]
    · intro inside
      exact ⟨(perform_elsewhere inside here surroundings here).1,
        fun there elsewhere => (perform_elsewhere inside here there elsewhere).2⟩
  · exact length_performAll_answers (start config) history now
  · intro i request asked other otherConfig otherPlots otherAnalysis before last next
    let left := ((start config).performAll surroundings (history.take i)).run now
    have leaves : left.1.2 = _ := performAll_start config (history.take i) now
    obtain ⟨answer, world⟩ : ((left.1.2.perform surroundings request).run left.2).1.1 = next.1.1 ∧
        ((left.1.2.perform surroundings request).run left.2).2 = next.2 := by
      refine perform_answer_congr ?_ ?_ ?_ left.2
      · rw [leaves, otherConfig]
      · rw [leaves, otherAnalysis]
      · rw [leaves, otherPlots]
        rfl
    refine ⟨?_, (performAll_take_succ _ asked now).trans world⟩
    rw [← answer]
    exact (performAll_answers_getElem? _ history i now).trans (congrArg _ asked)

end Requests

/-- An update that fails replaces the figures of an analysis, and the analysis
stays.  The exports that follow fail as the update does, and nothing is made:
in a world that counts what is made, the count stays at zero.  Where the
update succeeds, it is the figures of the update that are exported. -/
theorem determined_by_history_of_failed_update :
    letI := Quadrature.computedNodes
    let counting : Surroundings (StateM Nat) :=
      { read := fun _ => throw "there is nothing to read", create := fun _ _ => modify (· + 1)
        makeDirectory := fun _ => modify (· + 1), now := return ⟨1970, 1, 1, 0, 0, 0⟩
        draw := fun _ _ => modify (· + 1) }
    let history : List Request :=
      [.analyse "2" "0" "1", .updatePlots "2/", .exportPlots "pictures", .exportTable "table"]
    let ran := ((start Config.default).performAll counting history).run 0
    let plotted := ((start Config.default).performAll counting [.updatePlots "2"]).run 0
    (∃ fault, ran.1.2.lastPlots = .error (.parsing fault) ∧
      ran.1.2.lastAnalysis.map Analysis.function = some "2" ∧
      ran.1.1[2]? = some (.pictures (.error (.parsing fault))) ∧
      ran.1.1[3]? = some (.table (.error (.parsing fault))) ∧ ran.2 = 0) ∧
    ∃ figures, plotted.1.2.lastPlots = .ok figures ∧
      let saved := (plotted.1.2.exportPlots counting "pictures").run.run 0
      Plot.Figures.Saves counting Config.default.plot figures "pictures" 0 saved.1 saved.2 := by
  intro counting history ran plotted
  let table := Quadrature.computedNodes
  constructor
  · have incomplete : (Formula.normalize (K := Float) "2/").isOk = false := by decide +kernel
    cases read : Formula.normalize (K := Float) "2/" with
    | ok normal => cases incomplete.symm.trans (congrArg Except.isOk read)
    | error fault =>
      have touched : Formula.isUntouched "2/" = false := by decide +kernel
      have fails : Plot.Figures.ofText Config.default "2/" = .error (.parsing fault) := by
        rw [Plot.Figures.ofText, touched, if_neg (by decide), read]
        rfl
      obtain ⟨-, plots, analysis, -, -, -, -, answered⟩ :=
        determined_by_history counting Config.default history 0
      let failed : Session :=
        ⟨Config.default, analysisAfter Config.default history, some (.error (.parsing fault))⟩
      obtain ⟨pictures, afterPictures⟩ :=
        answered 2 (.exportPlots "pictures") rfl failed rfl fails.symm rfl
      obtain ⟨written, afterTable⟩ :=
        answered 3 (.exportTable "table") rfl failed rfl fails.symm rfl
      refine ⟨fault, plots.trans fails, ?_, pictures, written, afterTable.trans afterPictures⟩
      rw [analysis]
      rfl
  · have succeeds : (Plot.Figures.ofText Config.default "2").isOk = true := by decide +kernel
    obtain ⟨figures, made⟩ := exists_of_isOk succeeds
    obtain ⟨-, plots, -, -, kept, -⟩ :=
      determined_by_history counting Config.default [.updatePlots "2"] 0
    exact ⟨figures, plots.trans made, (kept figures made 0).2.2 "pictures"⟩

end Session

end Fluxion
