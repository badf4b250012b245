import Fluxion.Plot.Picture

/-!
# Surroundings

What the calculator needs from the system it runs in: files, the time, and something that draws.  The
calculator reaches them through a `Surroundings` only, so the same definitions run on a system of any
kind, among them one that is no more than a value.  Nothing is assumed of the surroundings.  Whatever
they are asked for may be refused, with a text that says why, and may change them all the same: a
picture that fails halfway can leave half a file.
-/

namespace Fluxion

/-- A moment on the local calendar and clock, to the second. -/
structure Moment where
  year : Int
  month : Nat
  day : Nat
  hour : Nat
  minute : Nat
  second : Nat

namespace Moment

/-- A number with zeros in front of it, up to so many digits. -/
def padded (width n : Nat) : String :=
  let digits := toString n
  "".pushn '0' (width - digits.length) ++ digits

/-- A year in four digits.  A year that needs more, or lies before the year
zero, has a sign. -/
def yearText (year : Int) : String :=
  let digits := padded 4 year.natAbs
  if 0 ≤ year ∧ year ≤ 9999 then digits else (if year < 0 then "-" else "+") ++ digits

/-- The moment as part of a file name: the date, then the time of day,
without any marks. -/
def stamp (moment : Moment) : String :=
  yearText moment.year ++ padded 2 moment.month ++ padded 2 moment.day ++ "_"
    ++ padded 2 moment.hour ++ padded 2 moment.minute ++ padded 2 moment.second

end Moment

/-- The path of a file in a directory.  The empty path is the directory the
program is in. -/
def pathIn (directory name : String) : String :=
  match directory.toList.getLast? with
  | none => name
  | some '/' => directory ++ name
  | some _ => directory ++ "/" ++ name

/-- What the calculator needs from around it.  The steps may be of any kind:
those of a real system, or functions of a world that is a value.  Each may be
refused with a text, except that there is always a time. -/
structure Surroundings (m : Type → Type) where
  /-- the text of a file -/
  read : String → ExceptT String m String
  /-- makes a file with a text, in place of any file that is there -/
  create : String → String → ExceptT String m Unit
  /-- makes a directory, and those it is in, unless they are there -/
  makeDirectory : String → ExceptT String m Unit
  /-- the time -/
  now : m Moment
  /-- draws a picture into a file -/
  draw : Plot.Picture → String → ExceptT String m Unit

end Fluxion
