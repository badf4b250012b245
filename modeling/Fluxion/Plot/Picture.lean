import Fluxion.Config
import Fluxion.Plot.Series

/-!
# Pictures

What a picture of a curve shows, in the form in which it is handed to whatever draws it.  A picture
has a range of abscissae and one of ordinates, and lines that are drawn over each other in order:
first those through zero, where the ranges reach it, and then the runs of the curve.  All pictures
have the same frame, so two of them differ in their size, their texts, their ranges and their lines.
-/

namespace Fluxion.Plot

/-- How a picture looks around its curve.  Lengths and the sizes of letters
are in pixels, and shares of the ink lie between zero and one. -/
structure Frame where
  background : Colour
  /-- the colour of letters, axes and grid -/
  ink : Colour
  typeface : String
  captionSize : Nat
  margin : Nat
  /-- the room for numbers and names below the curve, and the room beside it -/
  roomBelow : Nat
  roomBeside : Nat
  /-- the size of the numbers along the axes, and that of the names of the axes -/
  numberSize : Nat
  nameSize : Nat
  /-- how much of the ink the lines of the fine grid and of the coarse grid have -/
  fineGrid : Float
  coarseGrid : Float

/-- The frame of every picture: white on blue.  It depends neither on the
curve nor on the settings. -/
def Frame.common : Frame where
  background := ⟨0x31, 0x59, 0xEE⟩
  ink := ⟨0xFF, 0xFF, 0xFF⟩
  typeface := "sans-serif"
  captionSize := 32
  margin := 15
  roomBelow := 40
  roomBeside := 60
  numberSize := 14
  nameSize := 18
  fineGrid := 0.08
  coarseGrid := 0.2

/-- A line from point to point, with its colour and its width. -/
structure Line where
  points : List (Float × Float)
  colour : Colour
  /-- how much of the colour the line has: nothing at zero, all of it at one -/
  opacity : Float
  /-- the width in pixels -/
  width : Nat

/-- A curve as it is drawn: everything that whatever draws it has to know, and
nothing else.  Where it is drawn to is no part of it. -/
structure Picture where
  /-- the size in pixels -/
  width : Nat
  height : Nat
  frame : Frame
  caption : String
  /-- what the abscissae are called, and what the ordinates are called -/
  abscissaName : String
  ordinateName : String
  /-- the least and the greatest abscissa, and the least and the greatest ordinate -/
  abscissae : Float × Float
  ordinates : Float × Float
  /-- what is drawn, the first line below all others -/
  lines : List Line

/-- Whether zero is in a range, ends included. -/
def hasZero (range : Float × Float) : Bool := decide (range.1 ≤ 0.0) && decide (0.0 ≤ range.2)

/-- A line through zero, thin and faint. -/
def zeroLine (first last : Float × Float) : Line := ⟨[first, last], Frame.common.ink, 0.6, 1⟩

/-- The lines through zero that the ranges reach: the level one, then
the upright one. -/
def zeroLines (abscissae ordinates : Float × Float) : List Line :=
  (if hasZero ordinates then [zeroLine (abscissae.1, 0.0) (abscissae.2, 0.0)] else [])
    ++ if hasZero abscissae then [zeroLine (0.0, ordinates.1) (0.0, ordinates.2)] else []

/-- The runs of a curve as lines in the colour of the curve.  Between two runs
nothing is drawn, so a gap is seen as one. -/
def curveLines (series : Series Float) : List Line :=
  series.segments.map fun points => ⟨points, series.view.colour, 1.0, 2⟩

/-- The picture of a curve.  There is none of a curve without a value, for it
has no range of ordinates.  The abscissae are those of the settings, even if
the curve has gaps at the ends. -/
def Picture.ofSeries? (plot : PlotSettings) (series : Series Float) : Option Picture :=
  series.range?.map fun ordinates =>
    let abscissae := (plot.xMin, plot.xMax)
    { width := plot.width, height := plot.height, frame := .common
      caption := series.view.title, abscissaName := "x", ordinateName := series.view.label
      abscissae, ordinates
      lines := zeroLines abscissae ordinates ++ curveLines series }

end Fluxion.Plot
