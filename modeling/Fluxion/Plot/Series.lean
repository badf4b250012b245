import Fluxion.Scalar

/-!
# Sampled curves

A curve is sampled at some points; a sample without a finite value is a gap.  A curve is drawn as
its `segments`, the runs of consecutive samples between the gaps, inside a range of ordinates with
some room above and below.
-/

namespace Fluxion.Plot

/-- The three curves drawn of a function, each in a picture of its own. -/
inductive View where
  | function
  | derivative
  | integral
  deriving DecidableEq, Repr

/-- A colour by its share of red, green and blue, each between nothing
and all of it. -/
structure Colour where
  red : UInt8
  green : UInt8
  blue : UInt8
  deriving DecidableEq, Repr

namespace View

/-- The curves in the order they are drawn, which is also the order of their files. -/
def all : List View := [function, derivative, integral]

/-- What a picture says above its curve. -/
def title : View → String
  | function => "Original Function"
  | derivative => "First Derivative"
  | integral => "Integral"

/-- What the ordinates are called. -/
def label : View → String
  | function => "f(x)"
  | derivative => "f'(x)"
  | integral => "∫f(x)dx"

/-- What the name of a picture's file begins with, before the moment at which
it was drawn. -/
def fileStem : View → String
  | function => "original_function"
  | derivative => "derivative"
  | integral => "integral"

/-- The colour of a curve, by which the three pictures are told apart. -/
def colour : View → Colour
  | function => ⟨0xFF, 0xAB, 0x4C⟩
  | derivative => ⟨0x69, 0xF5, 0xFF⟩
  | integral => ⟨0x69, 0xFF, 0x8A⟩

end View

/-- The maximal runs of present values, in order.  A missing value ends a run,
and several of them in a row end it only once. -/
def runs {α : Type} : List (Option α) → List (List α)
  | [] => []
  | none :: rest => runs rest
  | some a :: rest =>
    match rest, runs rest with
    | some _ :: _, run :: later => (a :: run) :: later
    | _, later => [a] :: later

/-- A sampled curve: its abscissae, and a value or a gap for each of them. -/
structure Series (K : Type) where
  view : View
  xs : List K
  ys : List (Option K)

namespace Series

variable {K : Type} [Scalar K]

/-- A value that can be drawn.  A number that is not finite counts as missing. -/
def drawable? (y : Option K) : Option K := y.filter Scalar.isFinite

/-- The drawable values, in order. -/
def values (series : Series K) : List K := series.ys.filterMap drawable?

/-- How many samples can be drawn. -/
def defined (series : Series K) : Nat := series.values.length

/-- The samples as points of the plane, with the gaps between them.  A sample
without an abscissa is left out. -/
def samples (series : Series K) : List (Option (K × K)) :=
  List.zipWith (fun x y => (drawable? y).map (x, ·)) series.xs series.ys

/-- The runs of consecutive points that are drawn as one line each.  No line
crosses a gap. -/
def segments (series : Series K) : List (List (K × K)) := runs series.samples

/-- The least and the greatest of some numbers; there are none among no numbers. -/
def extent? : List K → Option (K × K)
  | [] => none
  | y :: rest =>
    some (rest.foldl (fun (low, high) y => (Scalar.smaller low y, Scalar.larger high y)) (y, y))

/-- How much room is left above and below a curve, as a share of its height. -/
def margin : K := Scalar.ofInt 1 / Scalar.ofInt 20

/-- The range of ordinates that is drawn.  A level curve has a unit of room
above and below. -/
def range? (series : Series K) : Option (K × K) :=
  (extent? series.values).map fun (low, high) =>
    if low == high then (low - Scalar.ofInt 1, high + Scalar.ofInt 1)
    else
      let room := margin * (high - low)
      (low - room, high + room)

end Series

end Fluxion.Plot
