import Fluxion.Quadrature.Basic
import Fluxion.Toml.Reader

/-!
# Configuration

Settings of plots, quadrature and the log.  Every setting has a default, so a document need not
mention it; what a document does mention must have the right type, and `Config.parse` refuses
settings with which nothing could be calculated.  Names that are no settings are ignored.
-/

namespace Fluxion

/-- Where and how curves are sampled and drawn: the range and number of the
abscissae, the size of a picture in dots, and the step to either side that a
slope is taken over. -/
structure PlotSettings where
  xMin : Float
  xMax : Float
  /-- how many points the range is sampled at -/
  samples : Nat
  /-- the size of a picture, in pixels -/
  width : Nat
  height : Nat
  /-- the step of the slopes that are taken from values -/
  derivativeStep : Float

/-- What holds where a configuration says nothing of plots. -/
def PlotSettings.default : PlotSettings := ⟨-5.0, 5.0, 1000, 900, 900, 1e-4⟩

/-- How much the log tells.  Each level tells what the ones before it do, and more. -/
inductive LogLevel where
  | off
  | error
  | warn
  | info
  | debug
  | trace
  deriving DecidableEq, Repr

namespace LogLevel

/-- The levels from the most silent to the most talkative. -/
def all : List LogLevel := [off, error, warn, info, debug, trace]

/-- The name of a level as the log writes it. -/
def name : LogLevel → String
  | off => "OFF"
  | error => "ERROR"
  | warn => "WARN"
  | info => "INFO"
  | debug => "DEBUG"
  | trace => "TRACE"

/-- The level of a name.  Capital and small letters count as the same. -/
def ofName? (text : String) : Option LogLevel :=
  let capitals := String.ofList (text.toList.map Char.toUpper)
  all.find? (·.name == capitals)

end LogLevel

/-- What the log tells and where it is kept.  The level stays a text until the
settings are validated, so that a bad one can be quoted in the objection. -/
structure LogSettings where
  level : String
  /-- a file that gets the log too -/
  file : Option String

/-- What holds where a configuration says nothing of the log. -/
def LogSettings.default : LogSettings := ⟨"info", none⟩

/-- All settings.  Every section may be left out of a document, and every
entry of a section too.  A value of this type need not be usable: that is
checked by `Config.validate`. -/
structure Config where
  plot : PlotSettings
  quadrature : Quadrature.Settings
  log : LogSettings

/-- The settings of a calculator without a configuration. -/
def Config.default : Config := ⟨.default, .default, .default⟩

/-! ### Errors -/

/-- Settings with which nothing could be calculated.  Each case carries the
values that are objected to, as its message quotes them. -/
inductive Unusable where
  | emptyRange (xMin xMax : Float)
  | tooFewSamples (samples : Nat)
  | emptyPicture
  | noStep (step : Float)
  | noTolerance (absolute relative : Float)
  | noParts
  | tooFewNodes (nodes : Nat)
  | unknownLevel (name : String)

/-- Why there is no configuration: the file cannot be read, its text means no
settings, or its settings are unusable.  The three are looked for in this order. -/
inductive ConfigError where
  /-- the file cannot be read, and the system says why -/
  | unreadable (reason : String)
  /-- the text is no document, or a setting has the wrong type -/
  | malformed
  | invalid (cause : Unusable)

/-- The text of an objection to settings, with the values objected to.
Numbers are written with the fewest digits that read back. -/
def Unusable.message : Unusable → String
  | emptyRange xMin xMax =>
    "plot range [" ++ Numeral.text xMin ++ ", " ++ Numeral.text xMax ++ "] is empty"
  | tooFewSamples samples => "at least 2 plot samples are needed, got " ++ toString samples
  | emptyPicture => "plot size must be positive"
  | noStep step => "derivative step " ++ Numeral.text step ++ " must be positive"
  | noTolerance absolute relative =>
    "tolerances must be positive (abs_tol = " ++ Numeral.text absolute ++ ", rel_tol = "
      ++ Numeral.text relative ++ ")"
  | noParts => "quadrature limit must be at least 1"
  | tooFewNodes nodes => "Gauss-Legendre needs at least 2 nodes, got " ++ toString nodes
  | unknownLevel name => "unknown log level " ++ Formula.quoted name

/-- The text of a refusal of a configuration.  A document that cannot be read
as settings is called malformed, without the place. -/
def ConfigError.message : ConfigError → String
  | unreadable reason => "cannot read configuration: " ++ reason
  | malformed => "malformed configuration"
  | invalid cause => "invalid configuration: " ++ cause.message

/-! ### Checks -/

/-- The level of the log, if it is one. -/
def LogSettings.level? (settings : LogSettings) : Except ConfigError LogLevel :=
  match LogLevel.ofName? settings.level with
  | some level => .ok level
  | none => .error (.invalid (.unknownLevel settings.level))

/-- The first thing wrong with the settings of plots: the range, the number of
samples, the size of a picture, the step.  A range is wrong if an end is not
finite or if it has no width, and a step that is no number is not positive. -/
def PlotSettings.problem? (settings : PlotSettings) : Option Unusable :=
  if !settings.xMin.isFinite || !settings.xMax.isFinite || settings.xMax ≤ settings.xMin then
    some (.emptyRange settings.xMin settings.xMax)
  else if settings.samples < 2 then some (.tooFewSamples settings.samples)
  else if settings.width = 0 ∨ settings.height = 0 then some .emptyPicture
  else if !(0.0 < settings.derivativeStep) then some (.noStep settings.derivativeStep)
  else none

/-- The first thing wrong with the settings of quadrature: tolerances that are
not positive, no room for a part, or a rule of Gauss and Legendre with fewer
than two nodes. -/
def Quadrature.Settings.problem? (settings : Quadrature.Settings) : Option Unusable :=
  if !(0.0 < settings.absoluteTolerance) || !(0.0 < settings.relativeTolerance) then
    some (.noTolerance settings.absoluteTolerance settings.relativeTolerance)
  else if settings.partLimit = 0 then some .noParts
  else
    match settings.method with
    | .adaptive => none
    | .gaussLegendre nodes => if nodes < 2 then some (.tooFewNodes nodes) else none

/-- The first thing wrong with the settings: plots, then quadrature, then the
log.  Only one thing is reported, so a corrected document may have another. -/
def Config.validate (config : Config) : Except ConfigError Unit :=
  match config.plot.problem?, config.quadrature.problem? with
  | some cause, _ => .error (.invalid cause)
  | none, some cause => .error (.invalid cause)
  | none, none => config.log.level?.map fun _ => ()

/-! ### Reading -/

namespace Config

open Toml (Value Table)

/-- The values that a section gives to names.  A section may also be written
as a list, which gives its items to the names in order; a date counts as a
section that says nothing. -/
def section? (names : List String) : Value → Option Table
  | .table _ entries => some entries
  | .list items => some (names.zip items)
  | .tables newest older =>
    some (names.zip ((older.reverse ++ [newest]).map (Value.table .header)))
  | .moment => some []
  | _ => none

/-- The section of a name; one that is not there gives no values, and one that
is no section makes the document malformed. -/
def sectionOf? (document : Table) (name : String) (names : List String) : Option Table :=
  match document.lookup name with
  | some value => section? names value
  | none => some []

/-- The setting of a name, or its default.  A value of the wrong kind is not
replaced by the default: it makes the document malformed. -/
def setting? {α : Type} (entries : Table) (name : String) (read? : Value → Option α)
    (default : α) : Option α :=
  match entries.lookup name with
  | some value => read? value
  | none => some default

/-- Numbers; integers of 64 bits, with or without a sign, are numbers too.
They are rounded to the nearest machine number like any other digits. -/
def number? : Value → Option Float
  | .number x => some x
  | .integer n =>
    if -Int.ofNat (Decimal.twoTo 63) ≤ n ∧ n < Int.ofNat (Decimal.twoTo 64) then
      some (Decimal.withSign (n < 0) (Decimal.nearestFloat n.natAbs 0))
    else none
  | _ => none

/-- Integers from zero up, of so many bits.  A number with a point is none,
even if it is whole. -/
def count? (bits : Nat) : Value → Option Nat
  | .integer n => if 0 ≤ n ∧ n < Int.ofNat (Decimal.twoTo bits) then some n.toNat else none
  | _ => none

/-- Texts. -/
def text? : Value → Option String
  | .text value => some value
  | _ => none

/-- Whether a value is a table or a list without entries. -/
def isEmpty : Value → Bool
  | .table _ entries => entries.isEmpty
  | .list items => items.isEmpty
  | _ => false

/-- A method is a word, or a table that gives the word a value: nothing for
the adaptive one, the number of its nodes for the other one. -/
def method? : Value → Option Quadrature.Method
  | .text "adaptive" => some .adaptive
  | .table _ [("adaptive", value)] => if isEmpty value then some .adaptive else none
  | .table _ [("gauss_legendre", value)] => (count? 64 value).map .gaussLegendre
  | _ => none

/-- The section about plots. -/
def plot? (document : Table) : Option PlotSettings := do
  let default := PlotSettings.default
  let entries ← sectionOf? document "plot"
    ["x_min", "x_max", "samples", "width", "height", "derivative_step"]
  let xMin ← setting? entries "x_min" number? default.xMin
  let xMax ← setting? entries "x_max" number? default.xMax
  let samples ← setting? entries "samples" (count? 64) default.samples
  let width ← setting? entries "width" (count? 32) default.width
  let height ← setting? entries "height" (count? 32) default.height
  let derivativeStep ← setting? entries "derivative_step" number? default.derivativeStep
  return { xMin, xMax, samples, width, height, derivativeStep }

/-- The section about quadrature. -/
def quadrature? (document : Table) : Option Quadrature.Settings := do
  let default := Quadrature.Settings.default
  let entries ← sectionOf? document "quadrature" ["abs_tol", "rel_tol", "limit", "method"]
  let absoluteTolerance ← setting? entries "abs_tol" number? default.absoluteTolerance
  let relativeTolerance ← setting? entries "rel_tol" number? default.relativeTolerance
  let partLimit ← setting? entries "limit" (count? 64) default.partLimit
  let method ← setting? entries "method" method? default.method
  return { absoluteTolerance, relativeTolerance, partLimit, method }

/-- The section about the log. -/
def log? (document : Table) : Option LogSettings := do
  let default := LogSettings.default
  let entries ← sectionOf? document "log" ["level", "file"]
  let level ← setting? entries "level" text? default.level
  let file ← setting? entries "file" (fun value => (text? value).map some) default.file
  return { level, file }

/-- The settings that a document gives.  Names that mean nothing are passed
over, in the document as well as in its sections. -/
def ofDocument? (document : Table) : Option Config := do
  return ⟨← plot? document, ← quadrature? document, ← log? document⟩

/-- Reads settings from the text of a document, and validates them. -/
def parse (text : String) : Except ConfigError Config :=
  match (Toml.parse? text).bind ofDocument? with
  | none => .error .malformed
  | some config => config.validate.map fun _ => config

/-- Reads settings from a file, of which `contents` is the text or the reason
why it cannot be read. -/
def load (contents : Except String String) : Except ConfigError Config :=
  match contents with
  | .error reason => .error (.unreadable reason)
  | .ok text => parse text

end Config

end Fluxion
