import Fluxion.Decimal.Layout

/-!
# Tables of samples

Sampled curves as text with one row to a line and commas between the cells: a column of abscissae
called `x`, then one column to a curve.  A missing sample is an empty cell.
-/

namespace Fluxion.Plot

/-- Whether a cell can only be written between quotes, as it holds a character
that has a meaning in a table. -/
def needsQuotes (cell : String) : Bool :=
  cell.toList.any fun c => c = ',' ∨ c = '"' ∨ c = '\n' ∨ c = '\r'

/-- A cell as it is written: between quotes where need be, its own quotes doubled. -/
def cellText (cell : String) : String :=
  if needsQuotes cell then
    "\"" ++ String.ofList (cell.toList.flatMap fun c => if c = '"' then [c, c] else [c]) ++ "\""
  else cell

/-- A row as it is written: its cells between commas, and a line break. -/
def rowText (cells : List String) : String := ",".intercalate (cells.map cellText) ++ "\n"

/-- Columns of samples over common abscissae, with a header for each column. -/
structure Table where
  xs : List Float
  headers : List String
  columns : List (List (Option Float))

namespace Table

/-- Whether every column has a header and a cell in every row.  Only such a
table is written. -/
def isAligned (table : Table) : Bool :=
  table.columns.length == table.headers.length
    && table.columns.all fun column => column.length == table.xs.length

/-- A sample as it is written; a gap is an empty cell. -/
def sampleText : Option Float → String
  | some value => Decimal.Layout.plain.text value
  | none => ""

/-- The rows below the header.  A column that has ended leaves its cells empty. -/
def rows : List Float → List (List (Option Float)) → List (List String)
  | [], _ => []
  | x :: xs, columns =>
    (Decimal.Layout.plain.text x :: columns.map fun column => sampleText (column.headD none))
      :: rows xs (columns.map List.tail)

/-- The table as text, if it is aligned: the header first, the column of the abscissae
in front of the others.  Every line ends with a line break, the last one too. -/
def text? (table : Table) : Option String :=
  if table.isAligned then
    some (String.join
      (rowText ("x" :: table.headers) :: (rows table.xs table.columns).map rowText))
  else none

end Table

end Fluxion.Plot
