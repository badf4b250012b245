import Mathlib.Logic.Basic
import Fluxion.Command.Run

/-!
# The calculator as a program

Reads the command line, runs it on the system, and prints what it comes to.  There is nothing here
that draws, so pictures are refused.
-/

open Fluxion Fluxion.Command

/-- What the system does, or what it says when it refuses. -/
def attempt {α : Type} (action : IO α) : ExceptT String IO α := do
  match ← action.toBaseIO with
  | .ok result => return result
  | .error error => throw (toString error)

/-- The local time of the system. -/
def localTime : IO Moment := do
  let time ← Std.Time.PlainDateTime.now
  return {
    year := time.year, month := time.month.toNat, day := time.day.toNat
    hour := time.hour.toNat, minute := time.minute.toNat, second := time.second.toNat }

/-- The system as the surroundings of the calculator. -/
def system : Surroundings IO where
  read path := attempt (IO.FS.readFile path)
  create path text := attempt (IO.FS.writeFile path text)
  makeDirectory path := attempt (IO.FS.createDirAll path)
  now := localTime
  draw _ _ := throw "there is nothing to draw with"

/-- Runs the calculator on the words of its command line. -/
def main (arguments : List String) : IO UInt32 := do
  let _rules := Quadrature.computedNodes
  let report ← run system arguments
  IO.print report.output
  if let some complaint := report.complaint then
    IO.eprint complaint.lines
  return report.status
