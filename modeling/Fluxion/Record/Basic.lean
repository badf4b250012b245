import Fluxion.Formula.Normal
import Fluxion.Quadrature.Integral
import Fluxion.Record.Document

/-!
# Integration records

What became of one request to integrate: the formula and limits as they were given, and either a
value with an error estimate or the reason there is none.  A success has finite numbers and a
failure has a message: `Record.success` and `Record.failure` see to it.

`Record.ofQuadrature` is the numeric way from a text to a record.  It never fails; whatever goes
wrong becomes a record whose message starts with the stage that failed.
-/

namespace Fluxion

open Quadrature (BoundsError IntegrationError NodeTable Settings)

/-- How an integration ended: with a value and an estimate of its error, or
with nothing but a message. -/
inductive Verdict where
  | success (value estimate : Float)
  | failure

/-- One request to integrate and its end.  The function is kept as it was
entered, the limits as numbers.  Limits that are none have no record. -/
structure Record where
  function : String
  lower : Float
  upper : Float
  verdict : Verdict
  message : String

namespace Record

/-! ### Texts -/

/-- What a user is shown of a derivative. -/
def derivativeText (function derivative : String) : String :=
  "d/dx(" ++ function ++ ") = " ++ derivative

/-- What a user is shown of an antiderivative, with the constant of integration. -/
def antiderivativeText (function antiderivative : String) : String :=
  "∫(" ++ function ++ ")dx = " ++ antiderivative ++ " + C"

/-- What a user is shown of a definite integral.  The limits keep a point, the
value does not. -/
def definiteText (function : String) (lower upper value : Float) : String :=
  "∫(" ++ function ++ ")dx from " ++ Decimal.Layout.pointed.text lower ++ " to "
    ++ Decimal.Layout.pointed.text upper ++ " = " ++ Decimal.Layout.plain.text value

/-- A numeric result, with six decimals.  The record itself keeps all digits. -/
def numericText (value : Float) : String := "Numerical result: " ++ Decimal.fixedText 6 value

/-- What a user is shown of a failure. -/
def errorText (message : String) : String := "Error: " ++ message

/-! ### Making records -/

/-- The message of a successful quadrature. -/
def quadratureMessage : String := "Integration successful using quad method."

/-- The message of an integral in closed form. -/
def symbolicMessage : String := "Integration successful using symbolic engine."

/-- A failure with a message, which is never blank: a message of blanks is replaced.
So a record always says something, whatever the error had to say. -/
def failure (function : String) (lower upper : Float) (message : String) : Record :=
  let message :=
    if (Text.trim message.toList).isEmpty then "Integration failed: unknown error" else message
  ⟨function, lower, upper, .failure, message⟩

/-- A success; numbers that are not finite make it a failure, with the message
of such an integral. -/
def success (function : String) (lower upper value estimate : Float) (message : String) : Record :=
  if value.isFinite && estimate.isFinite then
    ⟨function, lower, upper, .success value estimate, message⟩
  else
    failure function lower upper ("Integration failed: " ++ IntegrationError.notFinite.message)

/-- The record of a quadrature, with the error that it estimates. -/
def numeric (function : String) (lower upper : Float) (outcome : Quadrature.Outcome) : Record :=
  success function lower upper outcome.value outcome.estimate quadratureMessage

/-- The record of an exact integral, whose error estimate is zero. -/
def symbolic (function : String) (lower upper value : Float) : Record :=
  success function lower upper value 0.0 symbolicMessage

/-! ### Reading records off -/

/-- Whether an integration gave a value. -/
def isSuccess (record : Record) : Bool :=
  match record.verdict with
  | .success _ _ => true
  | .failure => false

/-- The value of an integration, if it gave one. -/
def value? (record : Record) : Option Float :=
  match record.verdict with
  | .success value _ => some value
  | .failure => none

/-- The error estimate of an integration, if it gave a value. -/
def estimate? (record : Record) : Option Float :=
  match record.verdict with
  | .success _ estimate => some estimate
  | .failure => none

/-- What a user is shown of a record: the value with six decimals, or the
message of the failure. -/
def displayText (record : Record) : String :=
  match record.verdict with
  | .success value _ => numericText value
  | .failure => errorText record.message

/-- The record as a document; a failure has no numbers.  The fields always
come in the same order. -/
def document (record : Record) : Document :=
  [("success", .flag record.isSuccess), ("function", .text record.function),
   ("lower_bound", .number record.lower), ("upper_bound", .number record.upper)]
    ++ (match record.verdict with
        | .success value estimate => [("result", .number value), ("error", .number estimate)]
        | .failure => [])
    ++ [("message", .text record.message)]

/-- The record as text. -/
def toJson (record : Record) : String := render record.document

/-- The verdict that a document's flag and numbers make.  A success needs both
numbers and a failure must have none.  A value that is there but is no number
fits neither. -/
def verdictOf? : Bool → Option Value → Option Value → Option Verdict
  | true, some (.number value), some (.number estimate) => some (.success value estimate)
  | false, none, none => some .failure
  | _, _, _ => none

/-- The record that a document describes.  Fields that mean nothing are passed
over, and their order does not matter.  A field of the wrong kind is no better
than a missing one. -/
def ofDocument? (document : Document) : Option Record := do
  let .flag isSuccess ← document.lookup "success" | none
  let .text function ← document.lookup "function" | none
  let .number lower ← document.lookup "lower_bound" | none
  let .number upper ← document.lookup "upper_bound" | none
  let verdict ← verdictOf? isSuccess (document.lookup "result") (document.lookup "error")
  let .text message ← document.lookup "message" | none
  return ⟨function, lower, upper, verdict, message⟩

/-- The record that a text describes. -/
def ofJson? (text : String) : Option Record := (read? text).bind ofDocument?

/-- Equality of records, by the comparison of numbers.  A number that is none
makes a record differ from itself. -/
def same (first second : Record) : Bool :=
  let sameVerdict :=
    match first.verdict, second.verdict with
    | .success value estimate, .success value' estimate' => value == value' && estimate == estimate'
    | .failure, .failure => true
    | _, _ => false
  first.function == second.function && first.lower == second.lower && first.upper == second.upper
    && sameVerdict && first.message == second.message

/-! ### From text to record -/

/-- The message of a failed quadrature, which names the stage at fault and
then says what the error says. -/
def failureMessage (error : IntegrationError) : String :=
  match error with
  | .eval _ => "Evaluation failed: " ++ error.message
  | .bounds _ => "Invalid bounds: " ++ error.message
  | _ => "Integration failed: " ++ error.message

/-- The record of a text that is no formula, which says so and why. -/
def unreadable (text : String) (lower upper : Float) (fault : Formula.ParseFault) : Record :=
  failure text lower upper ("Parsing failed: " ++ fault.message)

/-- Integrates a formula in user notation by quadrature.  It always ends in a
record, however the integration ends.  The normal form is read once more as a
text, and errors quote it rather than what was entered. -/
def ofQuadrature [NodeTable] (text : String) (lower upper : Float) (settings : Settings) : Record :=
  match (Formula.normalize text : Except Formula.ParseFault (Formula.Normal Float)) with
  | .error fault => unreadable text lower upper fault
  | .ok normal =>
    match (Callable.ofNormalText normal.text : Except (EvalError Float) (Callable Float)) with
    | .error error => failure text lower upper ("Evaluation failed: " ++ error.message)
    | .ok f =>
      match Quadrature.integrate f.eval settings lower upper with
      | .ok outcome => numeric text lower upper outcome
      | .error error => failure text lower upper (failureMessage error)

/-- How far quadrature is from an exact value, when quadrature gives a value.
It is a check that nothing depends on. -/
def discrepancy? [NodeTable] (text : String) (lower upper exact : Float) (settings : Settings) :
    Option Float :=
  (ofQuadrature text lower upper settings).value?.map fun value => (value - exact).abs

end Record

/-! ### Limits -/

/-- The value of a formula without the variable.  A formula that mentions the
variable has none, even if the variable cancels. -/
def constantValue? (text : String) : Option Float :=
  match (Formula.normalize text : Except Formula.ParseFault (Formula.Normal Float)) with
  | .error _ => none
  | .ok normal =>
    match (Callable.ofNormalText normal.text : Except (EvalError Float) (Callable Float)) with
    | .error _ => none
    | .ok f => if f.tree.mentions variableName then none else f.eval? 0.0

/-- Reads an integration limit: a number, or a formula without the variable
such as `pi/2`.  Blanks around it do not count, and messages quote it without
them.  An infinite limit is refused with a reason of its own. -/
def readLimit (text : String) : Except BoundsError Float :=
  let trimmed := Text.trim text.toList
  let value? := (Decimal.number? trimmed).orElse fun _ => constantValue? (String.ofList trimmed)
  match value? with
  | none => .error (.notANumber (String.ofList trimmed))
  | some value =>
    if value.isNaN then .error (.notANumber (String.ofList trimmed))
    else if value.isInf then .error .notFinite
    else .ok value

end Fluxion
