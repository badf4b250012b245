import Mathlib.Data.List.Forall2
import Fluxion.Plot.Export

/-!
# Exports

What an export of figures asks of its surroundings, and in which order.  Nothing is known of the
surroundings but that they answer: they are a world of any type, and whatever is asked in one world
leads to an answer and to another world.  So a theorem about all worlds and all surroundings covers
every system, whatever its files and its clock are like and whatever it refuses.

The pictures of some curves are a run of steps, one for each curve (`Figures.Draws`).  A step looks at
the clock, and then draws unless there is nothing to draw.  The run goes on from the world that the
step before has left, and stops at the first failure (`Figures.DrawsAll`); what was drawn until then
is not taken back.  A whole export makes the directory first (`Figures.Saves`).
-/

namespace Fluxion

/-! ### Steps in a world -/

section Steps

variable {World ε ε' α β : Type} {action : ExceptT ε (StateM World) α}
  {next : α → ExceptT ε (StateM World) β} {now after : World}

/-- After a step that succeeds the rest is done, in the world that the
step has left. -/
theorem run_bind_of_ok {result : α} (ran : action.run.run now = (.ok result, after)) :
    (action >>= next).run.run now = (next result).run.run after := by
  change (ExceptT.bindCont next (action.run.run now).1) (action.run.run now).2 = _
  rw [ran]
  rfl

/-- After a step that fails nothing else is done, and the world is the one
that this step has left. -/
theorem run_bind_of_error {error : ε} (ran : action.run.run now = (.error error, after)) :
    (action >>= next).run.run now = (.error error, after) := by
  change (ExceptT.bindCont next (action.run.run now).1) (action.run.run now).2 = _
  rw [ran]
  rfl

/-- What is made of the result of a step changes nothing in the world. -/
theorem run_bind_pure (made : α → β) (now : World) :
    (action >>= fun result => pure (made result)).run.run now =
      ((action.run.run now).1.map made, (action.run.run now).2) := by
  cases ran : action.run.run now with
  | mk outcome after =>
    cases outcome with
    | error error => exact run_bind_of_error ran
    | ok result => exact run_bind_of_ok ran

/-- To call a failure by another name changes nothing in the world. -/
theorem run_adapt (name : ε → ε') (now : World) :
    (action.adapt name).run.run now =
      ((action.run.run now).1.mapError name, (action.run.run now).2) :=
  rfl

end Steps

namespace Plot

/-! ### One curve -/

namespace Series

variable {World : Type} {surroundings : Surroundings (StateM World)} {plot : PlotSettings}
  {series : Series Float}

/-- A curve without a value is not drawn, and the world stays as it is. -/
theorem run_savePicture_of_none (empty : Picture.ofSeries? plot series = none) (path : String)
    (now : World) :
    (series.savePicture surroundings plot path).run.run now =
      (.error (.noValues series.view), now) := by
  unfold savePicture
  rw [empty]
  rfl

/-- A curve with a picture is drawn as the renderer pleases, and what it
objects is passed on. -/
theorem run_savePicture_of_some {picture : Picture}
    (shown : Picture.ofSeries? plot series = some picture) (path : String) (now : World) :
    (series.savePicture surroundings plot path).run.run now =
      (((surroundings.draw picture path).run.run now).1.mapError Failure.undrawn,
        ((surroundings.draw picture path).run.run now).2) := by
  unfold savePicture
  rw [shown]
  exact run_adapt Failure.undrawn now

end Series

namespace Figures

variable {World : Type} (surroundings : Surroundings (StateM World)) (plot : PlotSettings)
  (figures : Figures) (directory : String)

/-- One curve is drawn, or why it is not, from one world to the next.  The
cases are those in which the surroundings can answer differently. -/
inductive Draws : View → World → Except Failure String → World → Prop
  /-- there is nothing to draw, so nothing is drawn -/
  | noValues {view : View} {moment : Moment} {now after : World}
      (clock : surroundings.now.run now = (moment, after))
      (empty : Picture.ofSeries? plot (figures.series view) = none) :
      Draws view now (.error (.noValues (figures.series view).view)) after
  | refused {view : View} {moment : Moment} {picture : Picture} {reason : String}
      {now after last : World} (clock : surroundings.now.run now = (moment, after))
      (shown : Picture.ofSeries? plot (figures.series view) = some picture)
      (drawn : (surroundings.draw picture (pathIn directory (view.fileName moment))).run.run after =
        (.error reason, last)) :
      Draws view now (.error (.undrawn reason)) last
  | drawn {view : View} {moment : Moment} {picture : Picture} {now after last : World}
      (clock : surroundings.now.run now = (moment, after))
      (shown : Picture.ofSeries? plot (figures.series view) = some picture)
      (drawn : (surroundings.draw picture (pathIn directory (view.fileName moment))).run.run after =
        (.ok (), last)) :
      Draws view now (.ok (pathIn directory (view.fileName moment))) last

/-- Some curves are drawn one after the other, up to the first that is not.
Files drawn before that one stay, as the world only goes on. -/
inductive DrawsAll : List View → World → Except Failure (List String) → World → Prop
  | nothing {now : World} : DrawsAll [] now (.ok []) now
  | stops {view : View} {rest : List View} {failure : Failure} {now last : World}
      (fails : Draws surroundings plot figures directory view now (.error failure) last) :
      DrawsAll (view :: rest) now (.error failure) last
  | goesOn {view : View} {rest : List View} {path : String} {outcome : Except Failure (List String)}
      {now after last : World}
      (first : Draws surroundings plot figures directory view now (.ok path) after)
      (later : DrawsAll rest after outcome last) :
      DrawsAll (view :: rest) now (outcome.map (path :: ·)) last

/-- The pictures of all curves are saved, or why they are not.  Without a
directory to hold them nothing is drawn. -/
inductive Saves : World → Except Failure (List String) → World → Prop
  | refused {reason : String} {now last : World}
      (made : (surroundings.makeDirectory directory).run.run now = (.error reason, last)) :
      Saves now (.error (.file (.refused reason))) last
  | made {outcome : Except Failure (List String)} {now after last : World}
      (made : (surroundings.makeDirectory directory).run.run now = (.ok (), after))
      (drawn : DrawsAll surroundings plot figures directory View.all after outcome last) :
      Saves now outcome last

variable {surroundings plot figures directory}

/-! ### Tables -/

/-- A ragged table is refused before anything is written. -/
theorem run_saveTable_of_none (ragged : figures.table.text? = none) (path : String) (now : World) :
    (figures.saveTable surroundings path).run.run now = (.error (.file .ragged), now) := by
  rw [saveTable, ragged]
  rfl

/-- A table that is aligned is written as it is, or refused by the system.
Nothing is read and nothing else is written. -/
theorem run_saveTable_of_some {text : String} (written : figures.table.text? = some text)
    (path : String) (now : World) :
    (figures.saveTable surroundings path).run.run now =
      (((surroundings.create path text).run.run now).1.mapError fun reason =>
          .file (.refused reason),
        ((surroundings.create path text).run.run now).2) := by
  rw [saveTable, written]
  exact run_adapt _ now

/-! ### Pictures -/

/-- The curve is drawn after a look at the clock, and its path is told
if that succeeds. -/
theorem run_savePicture {view : View} {moment : Moment} {now after : World}
    (clock : surroundings.now.run now = (moment, after)) :
    (figures.savePicture surroundings plot directory view).run.run now =
      let path := pathIn directory (view.fileName moment)
      let drawn := ((figures.series view).savePicture surroundings plot path).run.run after
      (drawn.1.map fun _ => path, drawn.2) := by
  have begun : (figures.savePicture surroundings plot directory view).run.run now =
      let path := pathIn directory (view.fileName (surroundings.now.run now).1)
      ((figures.series view).savePicture surroundings plot path >>= fun _ => pure path).run.run
        (surroundings.now.run now).2 := rfl
  rw [begun, clock]
  exact run_bind_pure _ after

/-- Drawing one curve is a step of the relation, in every world and for every view. -/
theorem draws_savePicture (view : View) (now : World) :
    let saved := (figures.savePicture surroundings plot directory view).run.run now
    Draws surroundings plot figures directory view now saved.1 saved.2 := by
  cases clock : surroundings.now.run now with
  | mk moment after =>
    rw [run_savePicture clock]
    dsimp only
    cases shown : Picture.ofSeries? plot (figures.series view) with
    | none =>
      rw [Series.run_savePicture_of_none shown]
      exact .noValues clock shown
    | some picture =>
      rw [Series.run_savePicture_of_some shown]
      let path := pathIn directory (view.fileName moment)
      cases drawn : (surroundings.draw picture path).run.run after with
      | mk outcome last =>
        cases outcome with
        | error reason => exact .refused clock shown drawn
        | ok _ => exact .drawn clock shown drawn

/-- Drawing some curves is a run of steps.  The induction is on the curves; a
step that fails leaves the curves behind it alone. -/
theorem drawsAll_mapM (views : List View) (now : World) :
    let saved := (views.mapM (figures.savePicture surroundings plot directory)).run.run now
    DrawsAll surroundings plot figures directory views now saved.1 saved.2 := by
  induction views generalizing now with
  | nil => exact .nothing
  | cons view rest inductionHypothesis =>
    have first : Draws surroundings plot figures directory view now _ _ :=
      draws_savePicture view now
    rw [List.mapM_cons]
    cases ran : (figures.savePicture surroundings plot directory view).run.run now with
    | mk outcome after =>
      rw [ran] at first
      cases outcome with
      | error failure =>
        rw [run_bind_of_error ran]
        exact .stops first
      | ok path =>
        rw [run_bind_of_ok ran, run_bind_pure]
        exact .goesOn first (inductionHypothesis after)

/-- The pictures of all curves are saved as they should be, in every world.  What the
surroundings do is theirs; the order of what they are asked is fixed. -/
theorem saves_savePictures (now : World) :
    let saved := (figures.savePictures surroundings plot directory).run.run now
    Saves surroundings plot figures directory now saved.1 saved.2 := by
  let refusal (reason : String) : Failure := .file (.refused reason)
  cases made : (surroundings.makeDirectory directory).run.run now with
  | mk outcome after =>
    have begun : ((surroundings.makeDirectory directory).adapt refusal).run.run now =
        (outcome.mapError refusal, after) := by
      rw [run_adapt, made]
    rw [savePictures]
    cases outcome with
    | error reason =>
      rw [run_bind_of_error begun]
      exact .refused made
    | ok _ =>
      rw [run_bind_of_ok begun]
      exact .made made (drawsAll_mapM View.all after)

/-! ### Exports that succeed -/

/-- A curve that is drawn has something to draw, and its file is in the
directory and has a name of the curve. -/
theorem Draws.exists_moment {view : View} {path : String} {now last : World}
    (drawn : Draws surroundings plot figures directory view now (.ok path) last) :
    (Picture.ofSeries? plot (figures.series view)).isSome = true ∧
      ∃ moment, path = pathIn directory (view.fileName moment) := by
  cases drawn with
  | drawn clock shown _ => exact ⟨Option.isSome_of_eq_some shown, _, rfl⟩

/-- An export that succeeds has one file for each curve, and something
to draw in each. -/
theorem DrawsAll.forall₂_of_ok {views : List View} {outcome : Except Failure (List String)}
    {now last : World} (drawn : DrawsAll surroundings plot figures directory views now outcome last)
    {paths : List String} (succeeds : outcome = .ok paths) :
    List.Forall₂ (fun view path => (Picture.ofSeries? plot (figures.series view)).isSome = true ∧
      ∃ moment, path = pathIn directory (view.fileName moment)) views paths := by
  induction drawn generalizing paths with
  | nothing =>
    cases succeeds
    exact .nil
  | stops fails => cases succeeds
  | @goesOn view rest path outcome now after last first later inductionHypothesis =>
    cases outcome with
    | error failure => cases succeeds
    | ok more =>
      cases succeeds
      exact .cons first.exists_moment (inductionHypothesis rfl)

end Figures

end Plot

end Fluxion
