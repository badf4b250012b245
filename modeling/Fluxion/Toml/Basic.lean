/-!
# Settings documents

A TOML document is a table of named values.  Tables come about in four ways, and the way decides
what may still be added:

* a table with a header of its own, `[a]`, is closed to a second header and to dotted keys from
  outside;
* a table that only the header of a table inside it mentions may still get its header;
* a table made by a dotted key, `a.b = 1`, takes more dotted keys but no header;
* a table written between braces takes nothing.

`insert?`, `openTable?` and `openElement?` add to a document and fail where these rules are
broken, so that no name is ever given twice.
-/

namespace Fluxion.Toml

/-- How a table came about, which decides whether later statements may
still add to it. -/
inductive Origin where
  | header
  /-- mentioned by the header of a table inside it -/
  | implied
  | dottedKey
  | braces
  deriving DecidableEq, Repr

/-- A value of a document.  Tables keep how they came about, since that decides what
later lines may add; nothing is kept of a date, as no setting is one. -/
inductive Value where
  | text (value : String)
  | integer (value : Int)
  | number (value : Float)
  | flag (value : Bool)
  /-- a date, a time or both -/
  | moment
  | list (items : List Value)
  | table (origin : Origin) (entries : List (String × Value))
  /-- tables under a repeated header `[[a]]`, the newest first -/
  | tables (newest : List (String × Value)) (older : List (List (String × Value)))

/-- Named values in the order they were given. -/
abbrev Table : Type := List (String × Value)

namespace Table

/-- The table with a value under a name, in place of the one that was there.
The order of the names stays, and a new name comes last. -/
def put (table : Table) (name : String) (value : Value) : Table :=
  if table.any (·.1 == name) then
    table.map fun entry => if entry.1 == name then (name, value) else entry
  else table ++ [(name, value)]

/-- Gives a value to a name that has none.  A name is given a value once. -/
def define? (table : Table) (name : String) (value : Value) : Option Table :=
  match table.lookup name with
  | none => some (table.put name value)
  | some _ => none

/-- Gives a value to a dotted key: the steps of a path through tables, then a
name.  The last table on the path must be one that dotted keys make, or not be
there yet.  It fails where a step leads to a value that is no table. -/
def insert? (table : Table) (name : String) (value : Value) : List String → Option Table
  | [] => table.define? name value
  | step :: path =>
    match table.lookup step with
    | none => do
      let inner ← insert? [] name value path
      return table.put step (.table .dottedKey inner)
    | some (.table .dottedKey inner) => do
      let inner ← insert? inner name value path
      return table.put step (.table .dottedKey inner)
    | some (.table .implied inner) => do
      guard (!path.isEmpty)
      let inner ← insert? inner name value path
      return table.put step (.table .implied inner)
    | some _ => none

/-- Changes the table that a header's path leads to.  Tables on the way that
are not there yet are implied; of tables under a repeated header the newest is
meant.  A table between braces is closed, so no path leads into it. -/
def within? (change : Table → Option Table) (table : Table) : List String → Option Table
  | [] => change table
  | step :: path =>
    match table.lookup step with
    | none => do
      let inner ← within? change [] path
      return table.put step (.table .implied inner)
    | some (.table origin inner) => do
      guard (origin ≠ .braces)
      let inner ← within? change inner path
      return table.put step (.table origin inner)
    | some (.tables newest older) => do
      let newest ← within? change newest path
      return table.put step (.tables newest older)
    | some _ => none

/-- Opens the table of a header.  A table may be opened once, unless it was
only implied before. -/
def openTable? (name : String) (table : Table) : Option Table :=
  match table.lookup name with
  | none => some (table.put name (.table .header []))
  | some (.table .implied inner) => some (table.put name (.table .header inner))
  | some _ => none

/-- Opens one more table under a repeated header, behind the tables that are
there.  It becomes the newest, so later lines add to it. -/
def openElement? (name : String) (table : Table) : Option Table :=
  match table.lookup name with
  | none => some (table.put name (.tables [] []))
  | some (.tables newest older) => some (table.put name (.tables [] (newest :: older)))
  | some _ => none

end Table

/-- A line of a document: a header, a repeated header, or a key with its value. -/
inductive Statement where
  | entry (path : List String) (name : String) (value : Value)
  | header (path : List String) (name : String)
  | element (path : List String) (name : String)

/-- A document under construction: what it holds, and the path of the header
in force.  Entries before the first header belong to the document itself. -/
structure Draft where
  root : Table
  path : List String

namespace Draft

/-- The document before its first statement. -/
def empty : Draft := ⟨[], []⟩

/-- Takes one more statement.  An entry goes to the table of the header in
force, and a header takes its place.  A statement that disagrees with earlier
ones is refused. -/
def add? (draft : Draft) : Statement → Option Draft
  | .entry path name value => do
    let root ← draft.root.within? (fun table => table.insert? name value path) draft.path
    return { draft with root }
  | .header path name => do
    let root ← draft.root.within? (Table.openTable? name) path
    return ⟨root, path ++ [name]⟩
  | .element path name => do
    let root ← draft.root.within? (Table.openElement? name) path
    return ⟨root, path ++ [name]⟩

end Draft

/-- The document that statements make, if they agree with each other.  The
first that does not makes the document malformed, whatever follows. -/
def ofStatements? (statements : List Statement) : Option Table :=
  (statements.foldlM Draft.add? Draft.empty).map (·.root)

end Fluxion.Toml
