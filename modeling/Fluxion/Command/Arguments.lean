/-!
# Arguments of the command line

A command line is a verb with operands and options.  Three options go with every verb and may also
stand before it; where both places set one, the place behind the verb wins.  An option is given
once at a place, with its value in the next word or behind an equals sign.

Functions and limits may begin with a hyphen.  So as long as an operand is outstanding, a word
that is no option is taken for the operand rather than refused, and the word `--` makes operands
of all words after it.
-/

namespace Fluxion.Command

/-- What a command line asks for.  Each verb has a task of its own; the word
`help` is none of them. -/
inductive Verb where
  | normalize
  | derive
  | integrate
  | plot
  | analyse
  deriving DecidableEq, Repr

/-- An option with a value, which stands in the next word or behind an equals sign. -/
inductive Setting where
  | config
  | logLevel
  | logFile
  | pictures
  | table
  deriving DecidableEq, Repr

/-- An option without a value.  It goes with one verb each, and is never given
before the verb. -/
inductive Switch where
  | latex
  | json
  | numeric
  deriving DecidableEq, Repr

namespace Setting

/-- The options with a value, in the order in which help lists them. -/
def all : List Setting := [config, logLevel, logFile, pictures, table]

/-- The long name of an option, without its hyphens. -/
def name : Setting → String
  | config => "config"
  | logLevel => "log-level"
  | logFile => "log-file"
  | pictures => "out-dir"
  | table => "csv"

/-- Whether an option goes with every verb.  Only such an option may also
stand before the verb. -/
def isCommon : Setting → Bool
  | config | logLevel | logFile => true
  | pictures | table => false

/-- Whether a value names a file or directory, which an empty text does not. -/
def isPath : Setting → Bool
  | config | pictures | table => true
  | logLevel | logFile => false

end Setting

namespace Switch

/-- The options without a value, in the order in which help lists them. -/
def all : List Switch := [latex, json, numeric]

/-- The long name of an option, without its hyphens. -/
def name : Switch → String
  | latex => "latex"
  | json => "json"
  | numeric => "numeric"

end Switch

namespace Verb

/-- The verbs, in the order in which help lists them. -/
def all : List Verb := [normalize, derive, integrate, plot, analyse]

/-- The word for a verb. -/
def name : Verb → String
  | normalize => "normalize"
  | derive => "derive"
  | integrate => "integrate"
  | plot => "plot"
  | analyse => "all"

/-- The verb a word is for. -/
def ofName? (name : String) : Option Verb := all.find? (·.name == name)

/-- How many operands a verb takes.  Up to that number a word that looks like
an option, but is none, counts as an operand. -/
def mostOperands : Verb → Nat
  | normalize | derive | plot => 1
  | integrate | analyse => 3

/-- Whether an option with a value goes with a verb.  The options about
pictures and tables go with the two verbs that draw. -/
def takesSetting (verb : Verb) (setting : Setting) : Bool :=
  setting.isCommon || verb == plot || verb == analyse

/-- Whether an option without a value goes with a verb. -/
def takesSwitch : Verb → Switch → Bool
  | derive, .latex => true
  | integrate, .json | integrate, .numeric => true
  | _, _ => false

end Verb

/-! ### Words -/

/-- What a word is where it stands.  The same word can be an option at one place and
an operand at another, so a word is not classified before its place is known. -/
inductive Word where
  | setting (setting : Setting) (value : Option String)
  | switch (switch : Switch)
  | help
  | version
  /-- a value or an operand -/
  | plain
  /-- an option that is not known here, or is given a value it does not take -/
  | misplaced
  deriving DecidableEq, Repr

/-- Where a word stands: before the verb, or behind it with so many operands. -/
inductive Place where
  | beforeVerb
  | behind (verb : Verb) (operands : Nat)
  deriving DecidableEq, Repr

namespace Place

/-- Whether an option with a value may stand at a place.  Before the verb only
those that go with every verb may. -/
def takesSetting : Place → Setting → Bool
  | beforeVerb, setting => setting.isCommon
  | behind verb _, setting => verb.takesSetting setting

/-- Whether an option without a value may stand at a place, which it may only
behind its verb. -/
def takesSwitch : Place → Switch → Bool
  | beforeVerb, _ => false
  | behind verb _, switch => verb.takesSwitch switch

/-- Whether an operand is outstanding, so that a negative number or a formula
with a sign in front is not mistaken for an option. -/
def awaitsOperand : Place → Bool
  | beforeVerb => false
  | behind verb operands => decide (operands < verb.mostOperands)

/-- What becomes of a word that looks like an option and is none. -/
def otherwise (place : Place) : Word := if place.awaitsOperand then .plain else .misplaced

/-- The options of one letter: the configuration, help, and before the verb
the version.  Behind a verb there are fewer, so more words that begin with a
hyphen are operands there. -/
def letters : Place → List Char
  | beforeVerb => ['c', 'h', 'V']
  | behind _ _ => ['c', 'h']

/-- A long option: what stands before and behind the equals sign.  An option
without a value is misplaced if it is given one, and a name that is known at
another place only is handled like an unknown one. -/
def longOption (place : Place) (name : String) (value : Option String) : Word :=
  let setting := Setting.all.find? fun s => s.name == name && place.takesSetting s
  let switch := Switch.all.find? fun s => s.name == name && place.takesSwitch s
  let bare (word : Word) : Word := if value.isSome then .misplaced else word
  match setting, switch with
  | some setting, _ => .setting setting value
  | none, some switch => bare (.switch switch)
  | none, none =>
    if name == "help" then bare .help
    else if name == "version" && place == beforeVerb then bare .version
    else place.otherwise

/-- Options of one letter, the last of which may have its value attached.  While an
operand is outstanding the whole word is the operand unless all its letters are
options, as negative numbers and formulas begin with a hyphen too. -/
def shortOptions (place : Place) (letters : List Char) : Word :=
  if place.awaitsOperand && letters.any (fun c => !place.letters.contains c) then .plain
  else
    match letters with
    | 'h' :: _ => .help
    | 'V' :: _ => if place == beforeVerb then .version else .misplaced
    | ['c'] => .setting .config none
    | 'c' :: '=' :: value => .setting .config (some (String.ofList value))
    | 'c' :: value => .setting .config (some (String.ofList value))
    | _ => .misplaced

/-- What a word is at a place: an option with two hyphens, options with one
hyphen, or a plain word.  A single hyphen is a plain word too.  Only the first
equals sign separates a name from its value. -/
def classify (place : Place) (word : String) : Word :=
  match word.toList with
  | '-' :: '-' :: option =>
    let name := String.ofList (option.takeWhile (· ≠ '='))
    match option.dropWhile (· ≠ '=') with
    | '=' :: value => place.longOption name (some (String.ofList value))
    | _ => place.longOption name none
  | '-' :: c :: more => place.shortOptions (c :: more)
  | _ => .plain

end Place

/-! ### Lines -/

/-- What was found at one place: options with their values, options without,
and operands in their order.  The place before the verb and the one behind it
are kept apart, since each may give an option once. -/
structure Found where
  settings : List (Setting × String)
  switches : List Switch
  operands : List String

namespace Found

/-- Nothing found yet. -/
def none : Found := ⟨[], [], []⟩

/-- Takes one more option with its value.  A path is not empty, and no option
is given twice at one place. -/
def withSetting? (found : Found) (setting : Setting) (value : String) : Option Found := do
  guard (!(setting.isPath && value.isEmpty))
  guard ((found.settings.lookup setting).isNone)
  return { found with settings := found.settings ++ [(setting, value)] }

/-- Takes one more option without a value, which is not given twice either. -/
def withSwitch? (found : Found) (switch : Switch) : Option Found := do
  guard (!found.switches.contains switch)
  return { found with switches := found.switches ++ [switch] }

/-- Takes more operands.  How many a verb may have is only checked once all
words are read. -/
def withOperands (found : Found) (operands : List String) : Found :=
  { found with operands := found.operands ++ operands }

end Found

/-- How the words at one place end.  A request for help or for the version
ends the reading at once, whatever follows. -/
inductive Ending where
  | help
  | version
  /-- all words are read -/
  | complete (found : Found)

/-- Reads the words behind a verb; `pending` is an option whose value is the
next word.  Such a value may be any plain word but no option, and two hyphens
make operands of all words after them. -/
def readBehind (verb : Verb) (pending : Option Setting) (found : Found) :
    List String → Option Ending
  | [] => if pending.isSome then none else some (.complete found)
  | word :: rest =>
    if word = "--" then
      if pending.isSome then none else some (.complete (found.withOperands rest))
    else
      match (Place.behind verb found.operands.length).classify word, pending with
      | .plain, some setting => do
        readBehind verb none (← found.withSetting? setting word) rest
      | .plain, none => readBehind verb none (found.withOperands [word]) rest
      | .setting setting (some value), none => do
        readBehind verb none (← found.withSetting? setting value) rest
      | .setting setting none, none => readBehind verb (some setting) found rest
      | .switch switch, none => do readBehind verb none (← found.withSwitch? switch) rest
      | .help, none => some .help
      | .version, none => some .version
      | _, _ => none

/-- What a calculator is asked to do, with everything that its verb allows to
be said about it. -/
inductive Task where
  | normalize (function : String)
  | derive (function : String) (latex : Bool)
  | integrate (function lower upper : String) (json numeric : Bool)
  /-- the pictures go to a directory, and the table, if there is to be one, to a file; without a
  function, the default one is plotted -/
  | plot (function : Option String) (pictures : String) (table : Option String)
  | analyse (function lower upper : String) (pictures : String) (table : Option String)

/-- Settings that replace those of the configuration, and the file to read the
configuration from. -/
structure Overrides where
  config : Option String
  logLevel : Option String
  logFile : Option String

/-- What a command line means: a task with its overrides, or one of the two
requests that need no session.  These two are answered whatever the
configuration is. -/
inductive Invocation where
  | run (overrides : Overrides) (task : Task)
  | help (verb : Option Verb)
  | version

/-- The task of a verb with its operands, if it has as many as it needs.
Pictures go to the directory of the program unless another is given, and a
table is only written if a file is named for it. -/
def task? (verb : Verb) (found : Found) : Option Task :=
  let has (switch : Switch) : Bool := found.switches.contains switch
  let pictures := (found.settings.lookup .pictures).getD "."
  let table := found.settings.lookup .table
  match verb, found.operands with
  | .normalize, [function] => some (.normalize function)
  | .derive, [function] => some (.derive function (has .latex))
  | .integrate, [function, lower, upper] =>
    some (.integrate function lower upper (has .json) (has .numeric))
  | .plot, [] => some (.plot none pictures table)
  | .plot, [function] => some (.plot (some function) pictures table)
  | .analyse, [function, lower, upper] => some (.analyse function lower upper pictures table)
  | _, _ => none

/-- The settings of both places; those behind the verb win. -/
def overrides (before behind : Found) : Overrides :=
  let value (setting : Setting) : Option String :=
    (behind.settings.lookup setting).or (before.settings.lookup setting)
  ⟨value .config, value .logLevel, value .logFile⟩

/-- Reads what stands behind a verb, and joins it with what was found before.
A request for help ends in the help of this verb, whatever follows it. -/
def readTask (before : Found) (verb : Verb) (words : List String) : Option Invocation := do
  match ← readBehind verb none Found.none words with
  | .help => return .help (some verb)
  | .version => return .version
  | .complete behind => return .run (overrides before behind) (← task? verb behind)

/-- What the verb `help` asks about. -/
def readHelp : List String → Option Invocation
  | [] => some (.help none)
  | [name] =>
    if name = "help" then some (.help none) else (Verb.ofName? name).map fun v => .help (some v)
  | _ => none

/-- Reads a command line up to its verb, and the rest; `pending` is an option
whose value is the next word.  A line without a verb means nothing, unless it
asks for help or for the version. -/
def readLine (pending : Option Setting) (found : Found) : List String → Option Invocation
  | [] => none
  | word :: rest =>
    match Place.beforeVerb.classify word, pending with
    | .plain, some setting => do readLine none (← found.withSetting? setting word) rest
    | .plain, none =>
      if word = "help" then readHelp rest
      else (Verb.ofName? word).bind fun verb => readTask found verb rest
    | .setting setting (some value), none => do
      readLine none (← found.withSetting? setting value) rest
    | .setting setting none, none => readLine (some setting) found rest
    | .help, none => some (.help none)
    | .version, none => some .version
    | _, _ => none

/-- What a command line means; there is none where it is misused, be it by an unknown
option, a missing value or too many operands.  Then no part of it is carried out. -/
def read? (arguments : List String) : Option Invocation := readLine none Found.none arguments

end Fluxion.Command
