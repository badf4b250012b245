import Fluxion.Command.Arguments

/-!
# Help

What the calculator tells about itself and its verbs.
-/

namespace Fluxion.Command

/-- The word that starts the calculator. -/
def programName : String := "fluxion"

/-- What asking for the version shows. -/
def versionText : String := programName ++ " 0.1.0\n"

/-- What a verb is for, in one line of help. -/
def Verb.summary : Verb → String
  | .normalize => "Print the canonical form of a function"
  | .derive => "Symbolic first derivative"
  | .integrate => "Antiderivative and definite integral"
  | .plot => "Plot the function, its derivative and its integral"
  | .analyse => "Derivative, integral and plots in one go"

/-- The operands of a verb as usage lines show them.  Operands that may be
left out stand between brackets. -/
def Verb.operandText : Verb → String
  | .normalize | .derive => "<FUNCTION>"
  | .integrate | .analyse => "<FUNCTION> <LOWER> <UPPER>"
  | .plot => "[FUNCTION]"

/-- What an option with a value is for, in one line of help. -/
def Setting.summary : Setting → String
  | .config => "Path to a TOML configuration file"
  | .logLevel => "Overrides the configured log level (off, error, warn, info, debug, trace)"
  | .logFile => "Also write the log to this file"
  | .pictures => "Directory for the pictures"
  | .table => "Also save the samples as CSV"

/-- What an option without a value is for, in one line of help. -/
def Switch.summary : Switch → String
  | .latex => "Also print the derivative as LaTeX"
  | .json => "Print the result record as JSON"
  | .numeric => "Skip the symbolic engine and use quadrature only"

/-- Terms and what they mean, one to a line, the meanings below each other.  The
column of the meanings is set by the longest term, two blanks behind it. -/
def glossary (entries : List (String × String)) : String :=
  let width := entries.foldl (fun width entry => max width entry.1.length) 0
  String.join (entries.map fun (term, meaning) =>
    "  " ++ term ++ "".pushn ' ' (width - term.length + 2) ++ meaning ++ "\n")

/-- The options that go with a verb, or with every verb. -/
def optionEntries (verb : Option Verb) : List (String × String) :=
  let takesSwitch (switch : Switch) : Bool := verb.any (·.takesSwitch switch)
  let takesSetting (setting : Setting) : Bool :=
    setting.isCommon || verb.any (·.takesSetting setting)
  (Switch.all.filter takesSwitch).map (fun switch => ("--" ++ switch.name, switch.summary))
    ++ (Setting.all.filter takesSetting).map fun setting =>
      ("--" ++ setting.name ++ " <VALUE>", setting.summary)

/-- An overview of the verbs, or what there is to know of one.  The options
listed are those that may stand at the place where help was asked for. -/
def helpText (verb : Option Verb) : String :=
  let options := "\nOptions:\n" ++ glossary (optionEntries verb)
  match verb with
  | none =>
    "Single-variable calculus calculator\n\nUsage: " ++ programName
      ++ " [OPTIONS] <COMMAND>\n\nCommands:\n"
      ++ glossary (Verb.all.map fun verb => (verb.name, verb.summary)) ++ options
  | some verb =>
    verb.summary ++ "\n\nUsage: " ++ programName ++ " " ++ verb.name ++ " [OPTIONS] "
      ++ verb.operandText ++ "\n" ++ options

end Fluxion.Command
