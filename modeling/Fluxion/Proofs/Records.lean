import Mathlib.Logic.Basic
import Fluxion.Proofs.Attribution
import Fluxion.Proofs.Rendering
import Fluxion.Proofs.SurfaceReading
import Fluxion.Record.Basic

/-!
# Integration records

The record of an integration is well formed, and its message begins with the stage that is to blame.
There are four of these beginnings, and no two can stand in front of the same text
(`startsWith_heading_append_iff`); so a message that was made for one stage names no other.

A text that is accepted can always be called (`exists_ofNormalText`).  From there on a record is a
function of how the quadrature ended (`Record.ofEnd`): a value and an estimate that are finite make a
success, and everything else has one stage to blame (`blameOf?`).
-/

namespace Fluxion

open Quadrature (IntegrationError Outcome Settings integrate)

/-! ### Stages -/

/-- What an integration that fails is blamed on.  A message names one of them
at its beginning. -/
inductive Blame where
  | formula
  | limits
  | integrand
  | quadrature
  deriving DecidableEq

namespace Blame

/-- How the message of a failure begins. -/
def heading : Blame → String
  | formula => "Parsing failed: "
  | limits => "Invalid bounds: "
  | integrand => "Evaluation failed: "
  | quadrature => "Integration failed: "

/-- No heading begins with another one, so a message blames one party only. -/
theorem eq_of_isPrefix {a b : Blame} (h : a.heading.toList <+: b.heading.toList) : a = b := by
  revert h
  cases a <;> cases b <;> decide

/-- A message with a heading begins with that heading and with no other. -/
theorem startsWith_heading_append_iff {a b : Blame} {rest : String} :
    (a.heading ++ rest).startsWith b.heading = true ↔ b = a := by
  rw [String.startsWith_string_iff, String.toList_append]
  constructor
  · intro starts
    -- of two headings in front of one text, one is in front of the other
    rcases List.prefix_or_prefix_of_prefix starts (List.prefix_append _ _) with shorter | longer
    · exact eq_of_isPrefix shorter
    · exact (eq_of_isPrefix longer).symm
  · rintro rfl
    exact List.prefix_append _ _

/-- A heading begins with a letter. -/
theorem exists_heading_eq (blame : Blame) :
    ∃ c rest, blame.heading.toList = c :: rest ∧ Text.isBlank c = false := by
  cases blame <;> exact ⟨_, _, rfl, by decide⟩

end Blame

/-- Trimming leaves something of a text that begins with a visible character. -/
theorem trim_ne_nil {c : Char} {rest : List Char} (visible : Text.isBlank c = false) :
    Text.trim (c :: rest) ≠ [] := by
  intro nothing
  obtain ⟨blanks, whole, blank⟩ := exists_trimStart_eq (c :: rest)
  rw [nothing, List.nil_append, Text.trimStart, List.dropWhile_cons_of_neg (by simp [visible])]
    at whole
  cases visible.symm.trans (blank c (whole ▸ List.mem_cons_self))

/-! ### Records -/

namespace Record

variable {function : String} {lower upper : Float}

/-- A record has a value exactly if it is a success. -/
theorem isSome_value? (record : Record) : record.value?.isSome = record.isSuccess := by
  obtain ⟨function, lower, upper, verdict, message⟩ := record
  cases verdict <;> rfl

/-- The message of a record names a stage. -/
def Blames (record : Record) (blame : Blame) : Prop :=
  record.message.startsWith blame.heading = true

/-- A success has finite numbers, a failure has a message.  No record is made
any other way. -/
def WellFormed (record : Record) : Prop :=
  match record.verdict with
  | .success value estimate => value.isFinite = true ∧ estimate.isFinite = true
  | .failure => record.message ≠ ""

/-- A well-formed success has a finite value and a finite estimate. -/
theorem WellFormed.of_isSuccess {record : Record} (wellFormed : record.WellFormed)
    (succeeds : record.isSuccess = true) :
    ∃ value estimate, record.value? = some value ∧ record.estimate? = some estimate ∧
      value.isFinite = true ∧ estimate.isFinite = true := by
  obtain ⟨function, lower, upper, verdict, message⟩ := record
  cases verdict with
  | success value estimate => exact ⟨value, estimate, rfl, rfl, wellFormed⟩
  | failure => cases succeeds

/-- A well-formed failure has no numbers, and a message. -/
theorem WellFormed.of_not_isSuccess {record : Record} (wellFormed : record.WellFormed)
    (fails : record.isSuccess = false) :
    record.value? = none ∧ record.estimate? = none ∧ record.message ≠ "" := by
  obtain ⟨function, lower, upper, verdict, message⟩ := record
  cases verdict with
  | success value estimate => cases fails
  | failure => exact ⟨rfl, rfl, wellFormed⟩

/-- A failure is well-formed whatever its message, as a blank one is replaced. -/
theorem wellFormed_failure (message : String) :
    (failure function lower upper message).WellFormed := by
  intro empty
  simp only [failure] at empty
  split at empty
  · exact absurd empty (by decide)
  · next visible =>
    subst empty
    exact visible rfl

/-- The record is about a function and two limits, exactly as they were given. -/
def Concerns (record : Record) (function : String) (lower upper : Float) : Prop :=
  record.function = function ∧ record.lower = lower ∧ record.upper = upper

theorem concerns_failure (message : String) :
    (failure function lower upper message).Concerns function lower upper := ⟨rfl, rfl, rfl⟩

/-- A message that names a stage is kept. -/
theorem failure_heading (blame : Blame) (rest : String) :
    failure function lower upper (blame.heading ++ rest) =
      ⟨function, lower, upper, .failure, blame.heading ++ rest⟩ := by
  obtain ⟨c, letters, spelled, visible⟩ := blame.exists_heading_eq
  have kept : ¬(Text.trim (blame.heading ++ rest).toList).isEmpty = true := by
    rw [String.toList_append, spelled, List.cons_append, List.isEmpty_iff]
    exact trim_ne_nil visible
  rw [failure, if_neg kept]

/-- A failure blames the party whose heading its message has. -/
theorem blames_failure_iff {a b : Blame} {rest : String} :
    (failure function lower upper (a.heading ++ rest)).Blames b ↔ b = a := by
  rw [failure_heading]
  exact Blame.startsWith_heading_append_iff

/-! ### Ends of a quadrature -/

/-- The stage that a failed quadrature is blamed on. -/
def blameOf : IntegrationError → Blame
  | .eval _ => .integrand
  | .bounds _ => .limits
  | _ => .quadrature

/-- The message of a failed quadrature is the heading of the party to blame
and the text of the error. -/
theorem failureMessage_eq (error : IntegrationError) :
    failureMessage error = (blameOf error).heading ++ error.message := by
  cases error <;> rfl

/-- The stage to blame for how a quadrature ended, unless it gave
numbers that count. -/
def blameOf? : Except IntegrationError Outcome → Option Blame
  | .ok outcome =>
    if outcome.value.isFinite && outcome.estimate.isFinite then none else some .quadrature
  | .error error => some (blameOf error)

/-- The record of how a quadrature ended, success or failure. -/
def ofEnd (function : String) (lower upper : Float) : Except IntegrationError Outcome → Record
  | .ok outcome => numeric function lower upper outcome
  | .error error => failure function lower upper (failureMessage error)

variable {ended : Except IntegrationError Outcome}

/-- Numbers that count are recorded, and all else is a failure with a
stage to blame. -/
theorem ofEnd_eq (function : String) (lower upper : Float)
    (ended : Except IntegrationError Outcome) :
    (blameOf? ended = none ∧ ∃ outcome, ended = .ok outcome ∧ outcome.value.isFinite = true ∧
        outcome.estimate.isFinite = true ∧ ofEnd function lower upper ended =
          ⟨function, lower, upper, .success outcome.value outcome.estimate, quadratureMessage⟩) ∨
      ∃ blame rest, blameOf? ended = some blame ∧
        ofEnd function lower upper ended =
          failure function lower upper (blame.heading ++ rest) := by
  cases ended with
  | error error =>
    refine .inr ⟨blameOf error, error.message, rfl, ?_⟩
    rw [ofEnd, failureMessage_eq]
  | ok outcome =>
    cases finite : outcome.value.isFinite && outcome.estimate.isFinite with
    | true =>
      obtain ⟨value, estimate⟩ := Bool.and_eq_true_iff.1 finite
      refine .inl ⟨by rw [blameOf?, if_pos finite], outcome, rfl, value, estimate, ?_⟩
      rw [ofEnd, numeric, success, if_pos finite]
    | false =>
      have infinite := ne_true_of_eq_false finite
      refine .inr ⟨.quadrature, IntegrationError.notFinite.message, ?_, ?_⟩
      · rw [blameOf?, if_neg infinite]
      · rw [ofEnd, numeric, success, if_neg infinite]
        rfl

/-- The message of a success names no stage. -/
theorem quadratureMessage_not_startsWith (blame : Blame) :
    ¬quadratureMessage.startsWith blame.heading = true := by
  cases blame <;> decide +kernel

/-- The record of an integration blames a party exactly if the integration
ended by its fault. -/
theorem blames_ofEnd_iff {blame : Blame} :
    (ofEnd function lower upper ended).Blames blame ↔ blameOf? ended = some blame := by
  rcases ofEnd_eq function lower upper ended with
    ⟨none, outcome, -, -, -, made⟩ | ⟨other, rest, some, made⟩
  · rw [made, none]
    exact iff_of_false (quadratureMessage_not_startsWith blame) (Option.some_ne_none blame).symm
  · rw [made, some, blames_failure_iff, Option.some.injEq, eq_comm]

/-- The record of an integration is well-formed, however it ended. -/
theorem wellFormed_ofEnd : (ofEnd function lower upper ended).WellFormed := by
  rcases ofEnd_eq function lower upper ended with
    ⟨-, outcome, -, value, estimate, made⟩ | ⟨blame, rest, -, made⟩
  · rw [made]
    exact ⟨value, estimate⟩
  · rw [made]
    exact wellFormed_failure _

theorem concerns_ofEnd : (ofEnd function lower upper ended).Concerns function lower upper := by
  rcases ofEnd_eq function lower upper ended with
    ⟨-, outcome, -, -, -, made⟩ | ⟨blame, rest, -, made⟩
  · rw [made]
    exact ⟨rfl, rfl, rfl⟩
  · rw [made]
    exact concerns_failure _

/-- Without a stage to blame, the numbers of the quadrature are recorded. -/
theorem ofEnd_of_blameOf?_eq_none (faultless : blameOf? ended = none) :
    ∃ outcome, ended = .ok outcome ∧
      (ofEnd function lower upper ended).value? = some outcome.value ∧
      (ofEnd function lower upper ended).estimate? = some outcome.estimate := by
  rcases ofEnd_eq function lower upper ended with
    ⟨-, outcome, succeeds, -, -, made⟩ | ⟨blame, rest, some, -⟩
  · exact ⟨outcome, succeeds, by rw [made]; rfl, by rw [made]; rfl⟩
  · cases faultless.symm.trans some

/-- An integration is recorded as a failure exactly if somebody is to blame. -/
theorem isSuccess_ofEnd_eq_false_iff :
    (ofEnd function lower upper ended).isSuccess = false ↔ ∃ blame, blameOf? ended = some blame := by
  rcases ofEnd_eq function lower upper ended with
    ⟨none, outcome, -, -, -, made⟩ | ⟨blame, rest, some, made⟩
  · rw [made, none]
    exact iff_of_false nofun nofun
  · rw [made]
    exact iff_of_true rfl ⟨blame, some⟩

/-- A quadrature is past reading the formula. -/
theorem blameOf?_ne_formula : blameOf? ended ≠ some .formula := by
  rcases ended with error | outcome
  · cases error <;> exact nofun
  · rw [blameOf?]
    split <;> exact nofun

/-- The limits are to blame exactly for errors of the limits. -/
theorem blameOf?_eq_limits_iff :
    blameOf? ended = some .limits ↔ ∃ error, ended = .error (.bounds error) := by
  rcases ended with error | outcome
  · cases error <;> simp [blameOf?, blameOf]
  · simp [blameOf?]

/-- The integrand is to blame exactly for errors of an evaluation. -/
theorem blameOf?_eq_integrand_iff :
    blameOf? ended = some .integrand ↔ ∃ error, ended = .error (.eval error) := by
  rcases ended with error | outcome
  · cases error <;> simp [blameOf?, blameOf]
  · simp [blameOf?]

/-- Where neither the limits nor the integrand are at fault, the
quadrature itself is. -/
theorem blameOf?_eq_quadrature_iff (noLimits : ∀ error, ended ≠ .error (.bounds error))
    (noIntegrand : ∀ error, ended ≠ .error (.eval error)) :
    blameOf? ended = some .quadrature ↔
      (∃ error, ended = .error error) ∨ ∃ outcome, ended = .ok outcome ∧
        ¬(outcome.value.isFinite = true ∧ outcome.estimate.isFinite = true) := by
  rcases ended with error | outcome
  · refine iff_of_true ?_ (.inl ⟨error, rfl⟩)
    cases error with
    | bounds error => exact absurd rfl (noLimits error)
    | eval error => exact absurd rfl (noIntegrand error)
    | _ => rfl
  · simp [blameOf?]

/-- Where no stage is at fault, there is none to blame. -/
theorem blameOf?_eq_none (noLimits : ∀ error, ended ≠ .error (.bounds error))
    (noIntegrand : ∀ error, ended ≠ .error (.eval error))
    (noQuadrature : blameOf? ended ≠ some .quadrature) : blameOf? ended = none := by
  cases blamed : blameOf? ended with
  | none => rfl
  | some blame =>
    cases blame with
    | formula => exact absurd blamed blameOf?_ne_formula
    | limits =>
      obtain ⟨error, fails⟩ := blameOf?_eq_limits_iff.1 blamed
      exact absurd fails (noLimits error)
    | integrand =>
      obtain ⟨error, fails⟩ := blameOf?_eq_integrand_iff.1 blamed
      exact absurd fails (noIntegrand error)
    | quadrature => exact absurd blamed noQuadrature

end Record

/-! ### Records of a quadrature -/

variable {text : String} {lower upper : Float} {settings : Settings}

/-- A text that is accepted as user notation can be called by its normal form. -/
theorem Callable.exists_ofNormalText {K : Type} [Scalar K] [Numeral K] {normal : Formula.Normal K}
    (read : Formula.normalize text = .ok normal) :
    ∃ f : Callable K, ofNormalText normal.text = .ok f ∧ f.source = normal.text ∧
      f.tree = normal.tree := by
  obtain ⟨d, -, numerals, within, rfl⟩ := exists_of_normalize read
  rw [ofNormalText, d.parse_render numerals within]
  exact exists_ofTree _ d.foreignVariable?_tree

namespace Record

section Rules

variable [Quadrature.NodeTable]

/-- What is no formula is recorded as unreadable, and nothing is sampled. -/
theorem ofQuadrature_of_error {fault : Formula.ParseFault}
    (refused : Formula.normalize (K := Float) text = .error fault) :
    ofQuadrature text lower upper settings =
      failure text lower upper (Blame.formula.heading ++ fault.message) := by
  rw [ofQuadrature, refused]
  rfl

/-- Of a text that is accepted, the record tells how the quadrature of its
function ended. -/
theorem ofQuadrature_of_ok {normal : Formula.Normal Float} {f : Callable Float}
    (read : Formula.normalize text = .ok normal) (called : Callable.ofNormalText normal.text = .ok f) :
    ofQuadrature text lower upper settings =
      ofEnd text lower upper (integrate f.eval settings lower upper) := by
  rw [ofQuadrature, read]
  dsimp only
  rw [called]
  dsimp only
  cases integrate f.eval settings lower upper <;> rfl

/-- The record is that of an unreadable text or of how the integration of the
formula ended. -/
theorem ofQuadrature_eq (text : String) (lower upper : Float) (settings : Settings) :
    (∃ fault, Formula.normalize (K := Float) text = .error fault ∧
      ofQuadrature text lower upper settings =
        failure text lower upper (Blame.formula.heading ++ fault.message)) ∨
    ∃ normal, Formula.normalize (K := Float) text = .ok normal ∧ ∃ ended,
      ofQuadrature text lower upper settings = ofEnd text lower upper ended := by
  cases read : Formula.normalize (K := Float) text with
  | error fault => exact .inl ⟨fault, rfl, ofQuadrature_of_error read⟩
  | ok normal =>
    obtain ⟨f, called, -, -⟩ := Callable.exists_ofNormalText read
    exact .inr ⟨normal, rfl, _, ofQuadrature_of_ok read called⟩

/-- The record keeps the text and the limits that it was asked for. -/
theorem concerns_ofQuadrature :
    (ofQuadrature text lower upper settings).Concerns text lower upper := by
  rcases ofQuadrature_eq text lower upper settings with ⟨fault, -, made⟩ | ⟨-, -, ended, made⟩
  · rw [made]
    exact concerns_failure _
  · rw [made]
    exact concerns_ofEnd

/-- The record of a quadrature is well-formed. -/
theorem wellFormed_ofQuadrature : (ofQuadrature text lower upper settings).WellFormed := by
  rcases ofQuadrature_eq text lower upper settings with ⟨fault, -, made⟩ | ⟨-, -, ended, made⟩
  · rw [made]
    exact wellFormed_failure _
  · rw [made]
    exact wellFormed_ofEnd

/-- A failure names a stage, and a success names none. -/
theorem isSuccess_ofQuadrature_eq_false_iff :
    (ofQuadrature text lower upper settings).isSuccess = false ↔
      ∃ blame, (ofQuadrature text lower upper settings).Blames blame := by
  rcases ofQuadrature_eq text lower upper settings with ⟨fault, -, made⟩ | ⟨-, -, ended, made⟩
  · rw [made]
    exact iff_of_true rfl ⟨.formula, blames_failure_iff.2 rfl⟩
  · rw [made, isSuccess_ofEnd_eq_false_iff]
    exact exists_congr fun blame => blames_ofEnd_iff.symm

/-- The formula is to blame exactly where the text is none. -/
theorem blames_formula_ofQuadrature_iff :
    (ofQuadrature text lower upper settings).Blames .formula ↔
      ∃ fault, Formula.normalize (K := Float) text = .error fault := by
  rcases ofQuadrature_eq text lower upper settings with
    ⟨fault, fails, made⟩ | ⟨normal, read, ended, made⟩
  · rw [made, blames_failure_iff]
    exact iff_of_true rfl ⟨fault, fails⟩
  · rw [made, blames_ofEnd_iff, read]
    exact iff_of_false blameOf?_ne_formula nofun

/-- The record of a quadrature is about what was asked, has finite numbers if
it is a success, and begins with the one stage that failed if it is none.  The
stages come in order: the text, the limits, the function at a sample, and at
last the quadrature, which can also have ended on numbers that are not finite.
Where no stage failed, the record has the numbers of the quadrature. -/
theorem ofQuadrature_blames_stage (text : String) (lower upper : Float) (settings : Settings) :
    let record := ofQuadrature text lower upper settings
    (record.function = text ∧ record.lower = lower ∧ record.upper = upper) ∧
    (record.isSuccess = true → ∃ value estimate, record.value? = some value ∧
      record.estimate? = some estimate ∧ value.isFinite = true ∧ estimate.isFinite = true) ∧
    (record.isSuccess = false →
      record.value? = none ∧ record.estimate? = none ∧ record.message ≠ "") ∧
    (record.isSuccess = false ↔ ∃ blame, record.Blames blame) ∧
    (record.Blames .formula ↔ ∃ fault, Formula.normalize (K := Float) text = .error fault) ∧
    ∀ normal, Formula.normalize (K := Float) text = .ok normal →
      ∃ f, Callable.ofNormalText normal.text = .ok f ∧ f.tree = normal.tree ∧
        (record.Blames .limits ↔ ¬(lower.isFinite = true ∧ upper.isFinite = true)) ∧
        (lower.isFinite = true ∧ upper.isFinite = true →
          let ended := integrate f.eval settings lower upper
          (record.Blames .integrand ↔ ∃ error, ended = .error (.eval error)) ∧
          ((∀ error, ended ≠ .error (.eval error)) →
            (record.Blames .quadrature ↔ (∃ error, ended = .error error) ∨
              ∃ outcome, ended = .ok outcome ∧
                ¬(outcome.value.isFinite = true ∧ outcome.estimate.isFinite = true)) ∧
            (¬record.Blames .quadrature → ∃ outcome, ended = .ok outcome ∧
              record.value? = some outcome.value ∧ record.estimate? = some outcome.estimate))) := by
  intro record
  have wellFormed : record.WellFormed := wellFormed_ofQuadrature
  refine ⟨concerns_ofQuadrature, wellFormed.of_isSuccess, wellFormed.of_not_isSuccess,
    isSuccess_ofQuadrature_eq_false_iff, blames_formula_ofQuadrature_iff, ?_⟩
  intro normal read
  obtain ⟨f, called, -, same⟩ := Callable.exists_ofNormalText read
  have made : record = ofEnd text lower upper (integrate f.eval settings lower upper) :=
    ofQuadrature_of_ok read called
  refine ⟨f, called, same, ?_, fun finite => ?_⟩
  · rw [made, blames_ofEnd_iff, blameOf?_eq_limits_iff]
    simp only [Quadrature.integrate_eq_bounds_iff, exists_eq_left]
  · have noLimits : ∀ error, integrate f.eval settings lower upper ≠ .error (.bounds error) :=
      fun error fails => (Quadrature.integrate_eq_bounds_iff.1 fails).2 finite
    refine ⟨?_, fun noIntegrand => ⟨?_, fun faultless => ?_⟩⟩
    · rw [made, blames_ofEnd_iff, blameOf?_eq_integrand_iff]
    · rw [made, blames_ofEnd_iff, blameOf?_eq_quadrature_iff noLimits noIntegrand]
    · rw [made, blames_ofEnd_iff] at faultless
      rw [made]
      exact ofEnd_of_blameOf?_eq_none (blameOf?_eq_none noLimits noIntegrand faultless)

end Rules

/-- No text is no formula.  The reciprocal is not integrated to infinity, has
no value in the middle of an interval around zero, and its integral from a
point to itself is recorded. -/
theorem ofQuadrature_blames_stage_of_reciprocal :
    letI := Quadrature.computedNodes
    (ofQuadrature "" 0.0 1.0 Settings.default).Blames .formula ∧
      (ofQuadrature "1/x" 0.0 (1.0 / 0.0) Settings.default).Blames .limits ∧
      ∃ normal f, Formula.normalize (K := Float) "1/x" = .ok normal ∧
        Callable.ofNormalText normal.text = .ok f ∧
        (∃ error, integrate f.eval Settings.default (-1.0) 1.0 = .error (.eval error)) ∧
        ∃ outcome, integrate f.eval Settings.default 1.0 1.0 = .ok outcome ∧
          (ofQuadrature "1/x" 1.0 1.0 Settings.default).value? = some outcome.value := by
  let table := Quadrature.computedNodes
  have accepted : (Formula.normalize (K := Float) "1/x").isOk = true := by decide +kernel
  obtain ⟨normal, read⟩ := exists_of_isOk accepted
  obtain ⟨-, -, -, -, noText, -⟩ := ofQuadrature_blames_stage "" 0.0 1.0 Settings.default
  obtain ⟨-, -, -, -, -, toInfinity⟩ :=
    ofQuadrature_blames_stage "1/x" 0.0 (1.0 / 0.0) Settings.default
  obtain ⟨-, -, -, -, -, acrossPole⟩ := ofQuadrature_blames_stage "1/x" (-1.0) 1.0 Settings.default
  obtain ⟨-, -, -, -, -, onPoint⟩ := ofQuadrature_blames_stage "1/x" 1.0 1.0 Settings.default
  refine ⟨noText.2 ⟨.empty, rfl⟩, ?_, ?_⟩
  · obtain ⟨f, -, -, limits, -⟩ := toInfinity normal read
    exact limits.2 (by decide +kernel)
  · obtain ⟨f, called, -, -, within⟩ := acrossPole normal read
    refine ⟨normal, f, read, called, ?_, ?_⟩
    · refine (within (by decide +kernel)).1.1 ?_
      show String.startsWith _ _ = true
      decide +kernel
    · obtain ⟨g, again, -, -, within⟩ := onPoint normal read
      cases called.symm.trans again
      obtain ⟨integrand, rest⟩ := within (by decide +kernel)
      have zero : integrate f.eval Settings.default 1.0 1.0 = .ok ⟨0.0, 0.0, 0⟩ := by
        rw [integrate, Quadrature.integral, if_neg (by decide +kernel), if_pos (by decide +kernel)]
        rfl
      have faultless : ¬(ofQuadrature "1/x" 1.0 1.0 Settings.default).Blames .quadrature := by
        show ¬String.startsWith _ _ = true
        decide +kernel
      have noIntegrand (error : EvalError Float) :
          integrate f.eval Settings.default 1.0 1.0 ≠ .error (.eval error) := by
        intro fails
        cases zero.symm.trans fails
      obtain ⟨outcome, ended, value, -⟩ := (rest noIntegrand).2 faultless
      exact ⟨outcome, ended, value⟩

end Record

end Fluxion
