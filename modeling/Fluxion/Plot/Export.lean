import Fluxion.Plot.Figures
import Fluxion.Surroundings

/-!
# Exports

Figures leave the calculator as a table of samples or as pictures.  The table is one file with a text.
The pictures are three files in a directory, which is made if need be: one file for each curve, named
for the curve and for the moment at which it is begun.  They are drawn in order, and the first that
fails ends the export; what was drawn before it stays.
-/

namespace Fluxion.Plot

/-- The name of the file that a curve is drawn into. -/
def View.fileName (view : View) (moment : Moment) : String :=
  view.fileStem ++ "_" ++ moment.stamp ++ ".png"

variable {m : Type → Type} [Monad m]

/-- Draws a curve into a file.  A curve without a value fails before
anything is drawn. -/
def Series.savePicture (surroundings : Surroundings m) (plot : PlotSettings)
    (series : Series Float) (path : String) : ExceptT Failure m Unit :=
  match Picture.ofSeries? plot series with
  | none => throw (.noValues series.view)
  | some picture => (surroundings.draw picture path).adapt .undrawn

namespace Figures

/-- Writes the samples of the curves into a file. -/
def saveTable (surroundings : Surroundings m) (figures : Figures) (path : String) :
    ExceptT Failure m Unit :=
  match figures.table.text? with
  | none => throw (.file .ragged)
  | some text => (surroundings.create path text).adapt fun reason => .file (.refused reason)

/-- Draws one curve into a directory, and tells the path of the file. -/
def savePicture (surroundings : Surroundings m) (plot : PlotSettings) (figures : Figures)
    (directory : String) (view : View) : ExceptT Failure m String := do
  let moment ← surroundings.now
  let path := pathIn directory (view.fileName moment)
  (figures.series view).savePicture surroundings plot path
  return path

/-- Draws all curves into a directory, and tells the paths of the files. -/
def savePictures (surroundings : Surroundings m) (plot : PlotSettings) (figures : Figures)
    (directory : String) : ExceptT Failure m (List String) := do
  (surroundings.makeDirectory directory).adapt fun reason => .file (.refused reason)
  View.all.mapM (figures.savePicture surroundings plot directory)

end Figures

end Fluxion.Plot
