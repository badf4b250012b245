import Fluxion.Command.Help
import Fluxion.Session.Basic

/-!
# Running a command line

From the words of a command line to what is printed and the exit status.

The order of the work is fixed: configuration, overrides, their validation, the log, and then the
task.  The first thing that goes wrong ends it.  Status 0 is success, 1 a failure and 2 a misused
command line.  A task that fails in a way its user should read, such as a formula that cannot be
read, prints that as its result; everything else is a complaint.
-/

namespace Fluxion.Command

/-- What is said about a failure: its text, and what is behind it, the nearest
cause first.  It is written apart from the result, so that a result can be
used without it. -/
structure Complaint where
  text : String
  causes : List String

/-- What a command line comes to: an exit status, what is printed as the
result, and what is said about a failure apart from it.  Running a command
line does nothing else but what its surroundings are asked for. -/
structure Report where
  status : UInt32
  output : String
  complaint : Option Complaint

namespace Report

/-- A success with some output. -/
def success (output : String) : Report := ⟨0, output, none⟩

/-- A failure that the output tells about, so nothing else is said. -/
def unsuccessful (output : String) : Report := ⟨1, output, none⟩

/-- A failure after some output.  What was printed before stays printed. -/
def failure (output : String) (complaint : Complaint) : Report := ⟨1, output, some complaint⟩

/-- A command line that means nothing.  It has a status of its own, and
nothing is printed as a result. -/
def misuse : Report := ⟨2, "", some ⟨"the command line is not understood", []⟩⟩

end Report

/-- A failure as it is complained about.  Its message says everything, so
there is nothing behind it. -/
def Complaint.ofFailure (failure : Failure) : Complaint := ⟨failure.message, []⟩

/-- A text as it is printed. -/
def line (text : String) : String := text ++ "\n"

/-! ### Preparation -/

/-- The configuration with some settings replaced.  Only the log can be
overridden from the command line. -/
def Overrides.applied (overrides : Overrides) (config : Config) : Config :=
  let level := overrides.logLevel.getD config.log.level
  let file := overrides.logFile.or config.log.file
  { config with log := ⟨level, file⟩ }

/-- What is behind a configuration that cannot be had: the error, and behind
an unreadable file the reason of the system.  The system's reason is thus told
twice, in the message and as a cause of it. -/
def causesOf : ConfigError → List String
  | .unreadable reason => [(ConfigError.unreadable reason).message, reason]
  | error => [error.message]

section Preparation

variable {m : Type → Type} [Monad m]

/-- Loads the configuration and applies what overrides it.  Without a file the
defaults hold.  The result is validated once more, since an override may be
unusable even if the file was in order. -/
def loadConfig (surroundings : Surroundings m) (overrides : Overrides) :
    ExceptT Complaint m Config := do
  let config ←
    match overrides.config with
    | none => pure Config.default
    | some path =>
      match Config.load (← (surroundings.read path).run) with
      | .ok config => pure config
      | .error error => throw ⟨"Failed to load configuration from " ++ path, causesOf error⟩
  let config := overrides.applied config
  match config.validate with
  | .ok _ => return config
  | .error error => throw ⟨error.message, []⟩

/-- Starts the log, whose level must be one and whose file must be one that can be
created.  The level is looked at first, so a bad level leaves no file behind. -/
def startLog (surroundings : Surroundings m) (settings : LogSettings) :
    ExceptT Complaint m Unit := do
  let complaint (error : ConfigError) : Complaint := ⟨"Failed to initialize logging", causesOf error⟩
  match settings.level?, settings.file with
  | .error error, _ => throw (complaint error)
  | .ok _, none => return
  | .ok _, some path =>
    (surroundings.create path "").adapt fun reason => complaint (.unreadable reason)

/-- Everything that comes before the task.  Nothing is calculated unless
the configuration and the log are in order, and the session starts with
nothing to remember. -/
def prepare (surroundings : Surroundings m) (overrides : Overrides) :
    ExceptT Complaint m Session := do
  let config ← loadConfig surroundings overrides
  startLog surroundings config.log
  return Session.start config

end Preparation

/-! ### Tasks -/

/-- Prints the normal form of a formula.  A text that is no formula is
complained about, without a result. -/
def runNormalize (function : String) : Report :=
  match (Formula.normalize function : Except Formula.ParseFault (Formula.Normal Float)) with
  | .ok normal => .success (line normal.text)
  | .error fault => .failure "" ⟨fault.message, []⟩

/-- Prints a derivative, and if that is wanted also how it is typeset.  What
is no formula has its message printed as the result. -/
def runDerive (function : String) (latex : Bool) : Report :=
  match Derivative.ofText function with
  | .ok derivative =>
    .success (line derivative.text ++ if latex then line derivative.tree.latex else "")
  | .error _ => .unsuccessful (line (Derivative.messageOf function))

/-- Prints an integral, as a document if that is wanted and there is a record.
Without a record the text is printed in both cases.  The exit status tells
whether there is a value. -/
def printIntegral (record : Option Record) (text : String) (json : Bool) : Report :=
  let shown :=
    match record, json with
    | some record, true => record.toJson
    | _, _ => text
  if record.any (·.isSuccess) then .success (line shown) else .unsuccessful (line shown)

variable [Quadrature.NodeTable]

/-- Integrates, by an antiderivative where there is one.  Limits that are none
are reported as a result, unlike those of quadrature alone. -/
def runIntegrate (session : Session) (function lower upper : String) (json : Bool) : Report :=
  let integral := session.integral function lower upper
  printIntegral integral.record? integral.text json

/-- Integrates by quadrature alone.  Limits that are none are complained about, the
lower one first, and the function is not looked at until both are numbers. -/
def runQuadrature (session : Session) (function lower upper : String) (json : Bool) : Report :=
  match readLimit lower with
  | .error error => .failure "" ⟨"lower limit " ++ Formula.quoted lower, [error.message]⟩
  | .ok a =>
    match readLimit upper with
    | .error error => .failure "" ⟨"upper limit " ++ Formula.quoted upper, [error.message]⟩
    | .ok b =>
      let record := Record.ofQuadrature function a b session.config.quadrature
      printIntegral (some record) record.displayText json

section Tasks

variable {m : Type → Type} [Monad m]

/-- Exports the figures of a session after some output: the pictures, whose
paths are printed once all are drawn, and then the table.  If a picture fails,
no path is printed and no table is written. -/
def exportFigures (surroundings : Surroundings m) (session : Session) (output pictures : String)
    (table : Option String) : m Report := do
  match ← (session.exportPlots surroundings pictures).run with
  | .error failure => return .failure output (.ofFailure failure)
  | .ok paths =>
    let output := output ++ String.join (paths.map line)
    match table with
    | none => return .success output
    | some path =>
      match ← (session.exportTable surroundings path).run with
      | .ok _ => return .success output
      | .error failure =>
        return .failure output ⟨"Failed to write " ++ path, [failure.message]⟩

/-- Plots a function and exports the figures.  Where there are no figures
nothing is exported, and the failure is a complaint.  A function that is left
out is plotted as an empty text. -/
def runPlot (surroundings : Surroundings m) (session : Session) (function : Option String)
    (pictures : String) (table : Option String) : m Report :=
  let (outcome, session) := session.updatePlots (function.getD "")
  match outcome with
  | .ok _ => exportFigures surroundings session "" pictures table
  | .error failure => return .failure "" (.ofFailure failure)

/-- Shows derivative and integral, and exports the figures.  Where there are
none, the reason is part of the output and the status is that of a success, as
derivative and integral were shown. -/
def runAnalyse (surroundings : Surroundings m) (session : Session) (function lower upper : String)
    (pictures : String) (table : Option String) : m Report :=
  let (analysis, session) := session.analyse function lower upper
  let output := line analysis.derivativeText ++ line analysis.integral.text
  match session.lastPlots with
  | .ok _ => exportFigures surroundings session output pictures table
  | .error failure => return .success (output ++ line (Record.errorText failure.message))

/-- Does what a command line asks for.  Only plots and analyses ask the surroundings
for something; all else is settled by the session and the words. -/
def runTask (surroundings : Surroundings m) (session : Session) : Task → m Report
  | .normalize function => return runNormalize function
  | .derive function latex => return runDerive function latex
  | .integrate function lower upper json numeric =>
    return if numeric then runQuadrature session function lower upper json
      else runIntegrate session function lower upper json
  | .plot function pictures table => runPlot surroundings session function pictures table
  | .analyse function lower upper pictures table =>
    runAnalyse surroundings session function lower upper pictures table

/-- Runs a command line from its words to its report.  Help and version need
no configuration, so they succeed even with a broken one.  There is a report
in any case, and nothing is printed before it is made. -/
def run (surroundings : Surroundings m) (arguments : List String) : m Report := do
  match read? arguments with
  | none => return .misuse
  | some (.help verb) => return .success (helpText verb)
  | some .version => return .success versionText
  | some (.run overrides task) =>
    match ← (prepare surroundings overrides).run with
    | .error complaint => return .failure "" complaint
    | .ok session => runTask surroundings session task

end Tasks

/-- The causes as they are listed; more than one are numbered from zero. -/
def causeLines : List String → List String
  | [cause] => ["    " ++ cause]
  | causes => causes.mapIdx fun i cause => "    " ++ toString i ++ ": " ++ cause

/-- What is written about a complaint: its text, and below it the causes if
there are any. -/
def Complaint.lines (complaint : Complaint) : String :=
  let behind :=
    if complaint.causes.isEmpty then ""
    else "\nCaused by:\n" ++ String.join ((causeLines complaint.causes).map line)
  "Error: " ++ complaint.text ++ "\n" ++ behind

end Fluxion.Command
