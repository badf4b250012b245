import Mathlib.Logic.ExistsUnique
import Fluxion.Proofs.Messages
import Fluxion.Proofs.Records
import Fluxion.Session.Basic

/-!
# Integrals as they are shown

A request for an integral goes one of four ways.  It is refused where there is no function or a limit
is no number; a text that is no formula is recorded as a failure; an antiderivative with a finite value
between the limits is shown with this value; and whatever is left is a matter of quadrature alone.
Each way has data of its own (`Route`), and exactly one way with its data is open to a request
(`Route.existsUnique_applies`).

What is shown has exact parts on one of these ways only, and then all of them.  When quadrature stands
in, the text was read already, and so its message finds fault with a value, never with the text
(`Record.message_ofQuadrature_ne`).
-/

namespace Fluxion

open Quadrature (NodeTable Settings integrate)

variable {function lower upper : String} {a b : Float} {settings : Settings}

/-! ### Exact values -/

/-- A tree has an antiderivative, and with it a finite integral between two
limits.  Requests with such a tree go the exact way. -/
def ExactValue (tree : Expr Float) (a b : Float) (antiderivative : Expr Float) (value : Float) :
    Prop :=
  tree.antiderivative variableName = .ok antiderivative ∧
    tree.definiteIntegral variableName a b = .ok value ∧ value.isFinite = true

/-- There is at most one antiderivative and one value, as both are computed. -/
theorem ExactValue.unique {tree F F' : Expr Float} {value value' : Float}
    (found : ExactValue tree a b F value) (again : ExactValue tree a b F' value') :
    F = F' ∧ value = value' :=
  ⟨Except.ok.inj (found.1.symm.trans again.1), Except.ok.inj (found.2.1.symm.trans again.2.1)⟩

section Rules

variable [NodeTable]

/-- An exact integral is shown exactly for trees with an exact value, with all
its fields decided by that value. -/
theorem ExactIntegral.ofTree?_eq_some_iff {tree : Expr Float} {shown : ExactIntegral} :
    ofTree? settings function a b tree = some shown ↔
      ∃ F value, ExactValue tree a b F value ∧ shown =
        ⟨function, a, b, F, value, Record.discrepancy? function a b value settings⟩ := by
  unfold ofTree? ExactValue
  cases tree.antiderivative variableName with
  | error error => simp [Except.toOption]
  | ok F =>
    cases tree.definiteIntegral variableName a b with
    | error error => simp [Except.toOption]
    | ok value =>
      cases finite : value.isFinite with
      | true => simpa [Except.toOption, finite] using eq_comm
      | false => simp [Except.toOption, finite]

/-- No exact integral is shown exactly for trees without an exact value. -/
theorem ExactIntegral.ofTree?_eq_none_iff {tree : Expr Float} :
    ofTree? settings function a b tree = none ↔ ∀ F value, ¬ExactValue tree a b F value := by
  rw [Option.eq_none_iff_forall_ne_some]
  constructor
  · intro none F value exact
    exact none _ (ofTree?_eq_some_iff.2 ⟨F, value, exact, rfl⟩)
  · intro none shown found
    obtain ⟨F, value, exact, -⟩ := ofTree?_eq_some_iff.1 found
    exact none F value exact

/-! ### Messages of quadrature -/

/-- A text that is accepted is not to blame for a failure at a sample. -/
theorem Record.message_ofQuadrature_ne {normal : Formula.Normal Float} {error : EvalError Float}
    (read : Formula.normalize function = .ok normal) (inText : ¬error.cause.AtPoint) :
    (ofQuadrature function a b settings).message ≠ Blame.integrand.heading ++ error.message := by
  obtain ⟨f, called, -, -⟩ := Callable.exists_ofNormalText read
  rw [ofQuadrature_of_ok read called]
  intro same
  have blamed : (ofEnd function a b (integrate f.eval settings a b)).Blames .integrand := by
    rw [Blames, same, Blame.startsWith_heading_append_iff]
  obtain ⟨own, fails⟩ := blameOf?_eq_integrand_iff.1 (blames_ofEnd_iff.1 blamed)
  obtain ⟨x, -, refused⟩ := Quadrature.exists_sample_of_integrate fails
  -- the quadrature has stopped at a sample, and its error is the one that the message tells
  have message : Blame.integrand.heading ++ own.message =
      Blame.integrand.heading ++ error.message := by
    rw [← same, fails, ofEnd, failureMessage_eq, failure_heading]
    rfl
  exact EvalError.message_ne (Callable.atPoint_of_eval refused) inText (by simpa using message)

end Rules

/-! ### Ways of a request -/

/-- There is a function, and the texts of the limits denote numbers.  Whatever
is not entered is refused before anything is read. -/
def Entered (function lower upper : String) (a b : Float) : Prop :=
  Formula.isUntouched function = false ∧ readLimit lower = .ok a ∧ readLimit upper = .ok b

theorem Entered.iff {a' b' : Float} (entered : Entered function lower upper a b) :
    Entered function lower upper a' b' ↔ a = a' ∧ b = b' := by
  obtain ⟨touched, readLower, readUpper⟩ := entered
  simp [Entered, touched, readLower, readUpper]

/-- The ways that a request for an integral can go, each with what is
decided on it. -/
inductive Route where
  /-- nothing is integrated -/
  | refused
  /-- the text between the limits is no formula -/
  | unreadable (a b : Float) (fault : Formula.ParseFault)
  /-- the antiderivative gives a finite value -/
  | exact (a b : Float) (antiderivative : Expr Float) (value : Float)
  /-- there is nothing but quadrature -/
  | numeric (a b : Float)

namespace Route

/-- Whether a way is open to a request.  That exactly one is, is a theorem and
no part of the definition. -/
def Applies (function lower upper : String) : Route → Prop
  | refused => Formula.isUntouched function = true ∨ (∃ error, readLimit lower = .error error) ∨
      ∃ error, readLimit upper = .error error
  | unreadable a b fault => Entered function lower upper a b ∧
      Formula.normalize (K := Float) function = .error fault
  | exact a b F value => Entered function lower upper a b ∧
      ∃ normal, Formula.normalize function = .ok normal ∧ ExactValue normal.tree a b F value
  | numeric a b => Entered function lower upper a b ∧
      ∃ normal, Formula.normalize function = .ok normal ∧
        ∀ F value, ¬ExactValue normal.tree a b F value

variable {route : Route} {normal : Formula.Normal Float}

theorem applies_iff_of_refused (h : refused.Applies function lower upper) :
    route.Applies function lower upper ↔ refused = route := by
  have notEntered (a b : Float) : ¬Entered function lower upper a b := by
    rintro ⟨touched, readLower, readUpper⟩
    simp [Applies, touched, readLower, readUpper] at h
  cases route with
  | refused => exact iff_of_true h rfl
  | _ => exact iff_of_false (fun applies => notEntered _ _ applies.1) nofun

/-- A request with a function and with limits is not refused. -/
theorem not_applies_refused (entered : Entered function lower upper a b) :
    ¬refused.Applies function lower upper := by
  obtain ⟨touched, readLower, readUpper⟩ := entered
  simp [Applies, touched, readLower, readUpper]

/-- A request whose function cannot be read goes the way of that fault only. -/
theorem applies_iff_of_unreadable (entered : Entered function lower upper a b)
    {fault : Formula.ParseFault} (fails : Formula.normalize (K := Float) function = .error fault) :
    route.Applies function lower upper ↔ unreadable a b fault = route := by
  cases route with
  | refused => exact iff_of_false (not_applies_refused entered) nofun
  | _ => simp [Applies, entered.iff, fails, and_assoc]

/-- A request with an exact value goes the exact way only, with that value. -/
theorem applies_iff_of_exactValue (entered : Entered function lower upper a b)
    (read : Formula.normalize function = .ok normal) {F : Expr Float} {value : Float}
    (found : ExactValue normal.tree a b F value) :
    route.Applies function lower upper ↔ exact a b F value = route := by
  cases route with
  | refused => exact iff_of_false (not_applies_refused entered) nofun
  | unreadable a' b' fault => simp [Applies, read]
  | exact a' b' F' value' =>
    rw [Applies, entered.iff]
    constructor
    · rintro ⟨⟨rfl, rfl⟩, other, again, alike⟩
      cases read.symm.trans again
      obtain ⟨rfl, rfl⟩ := found.unique alike
      rfl
    · rintro ⟨⟩
      exact ⟨⟨rfl, rfl⟩, normal, read, found⟩
  | numeric a' b' =>
    refine iff_of_false ?_ nofun
    rintro ⟨again, other, same, none⟩
    obtain ⟨rfl, rfl⟩ := entered.iff.1 again
    cases read.symm.trans same
    exact none F value found

/-- A request without an exact value goes the numeric way only. -/
theorem applies_iff_of_no_exactValue (entered : Entered function lower upper a b)
    (read : Formula.normalize function = .ok normal)
    (none : ∀ F value, ¬ExactValue normal.tree a b F value) :
    route.Applies function lower upper ↔ numeric a b = route := by
  cases route with
  | refused => exact iff_of_false (not_applies_refused entered) nofun
  | unreadable a' b' fault => simp [Applies, read]
  | exact a' b' F' value' =>
    refine iff_of_false ?_ nofun
    rintro ⟨again, other, same, found⟩
    obtain ⟨rfl, rfl⟩ := entered.iff.1 again
    cases read.symm.trans same
    exact none F' value' found
  | numeric a' b' =>
    rw [Applies, entered.iff, numeric.injEq]
    refine and_iff_left_of_imp ?_
    rintro ⟨rfl, rfl⟩
    exact ⟨normal, read, none⟩

/-- A request that is not refused has a function and limits. -/
theorem exists_entered (h : ¬refused.Applies function lower upper) :
    ∃ a b, Entered function lower upper a b := by
  rw [Applies, not_or, not_or, Bool.not_eq_true] at h
  obtain ⟨touched, noLower, noUpper⟩ := h
  cases readLower : readLimit lower with
  | error error => exact absurd ⟨error, readLower⟩ noLower
  | ok a =>
    cases readUpper : readLimit upper with
    | error error => exact absurd ⟨error, readUpper⟩ noUpper
    | ok b => exact ⟨a, b, touched, readLower, readUpper⟩

/-- There is a way that alone is open to a request. -/
theorem exists_applies_iff (function lower upper : String) :
    ∃ only : Route, ∀ route : Route, route.Applies function lower upper ↔ only = route := by
  by_cases refusal : refused.Applies function lower upper
  · exact ⟨refused, fun _ => applies_iff_of_refused refusal⟩
  · obtain ⟨a, b, entered⟩ := exists_entered refusal
    cases read : Formula.normalize (K := Float) function with
    | error fault => exact ⟨unreadable a b fault, fun _ => applies_iff_of_unreadable entered read⟩
    | ok normal =>
      by_cases found : ∃ F value, ExactValue normal.tree a b F value
      · obtain ⟨F, value, found⟩ := found
        exact ⟨exact a b F value, fun _ => applies_iff_of_exactValue entered read found⟩
      · simp only [not_exists] at found
        exact ⟨numeric a b, fun _ => applies_iff_of_no_exactValue entered read found⟩

/-- Each request goes one way. -/
theorem existsUnique_applies (function lower upper : String) :
    ∃! route : Route, route.Applies function lower upper := by
  obtain ⟨only, applies⟩ := exists_applies_iff function lower upper
  simp only [applies]
  exact existsUnique_eq'

end Route

/-! ### What is shown -/

namespace Integral

/-- The parts that stem from an antiderivative are absent: the antiderivative,
its markup, and the comparison with quadrature. -/
def NothingExact (shown : Integral) : Prop :=
  shown.antiderivative? = none ∧ shown.latex? = none ∧ shown.discrepancy? = none

/-- A record between limits is shown, and every part of what is shown is that
of the record. -/
def ShowsRecord (shown : Integral) (record : Record) (function : String) (a b : Float) : Prop :=
  shown.record? = some record ∧ record.Concerns function a b ∧ shown.lower? = some a ∧
    shown.upper? = some b

variable {shown : Integral} {record : Record} {normal : Formula.Normal Float}

/-- What shows a record and nothing else shows nothing exact. -/
theorem nothingExact_recorded (record : Record) : (recorded record).NothingExact := ⟨rfl, rfl, rfl⟩

/-- What shows a record of a request shows it between the limits of the request. -/
theorem showsRecord_recorded (concerns : record.Concerns function a b) :
    (recorded record).ShowsRecord record function a b :=
  ⟨rfl, concerns, congrArg some concerns.2.1, congrArg some concerns.2.2⟩

section Requests

variable [NodeTable]

/-- What is shown is right for the way that a request has gone.  All parts are
fixed, so nothing else can be shown. -/
def Shows (settings : Settings) (function : String) (shown : Integral) : Route → Prop
  | .refused => shown.lower? = none ∧ shown.upper? = none ∧ shown.record? = none ∧
      shown.NothingExact
  | .unreadable a b _ => shown.NothingExact ∧ ∃ record, shown.ShowsRecord record function a b ∧
      record.isSuccess = false ∧ record.Blames .formula
  | .exact a b F value => shown.antiderivative? = some F ∧ shown.latex? = some F.latex ∧
      (∃ record, shown.ShowsRecord record function a b ∧ record.isSuccess = true ∧
        record.value? = some value ∧ record.estimate? = some 0.0) ∧
      let numeric := Record.ofQuadrature function a b settings
      (shown.discrepancy?.isSome = true ↔ numeric.isSuccess = true) ∧
        ∀ distance, shown.discrepancy? = some distance →
          ∃ approximation, numeric.value? = some approximation ∧
            distance = (approximation - value).abs
  | .numeric a b => shown.NothingExact ∧ ∃ record, shown.ShowsRecord record function a b ∧
      record = Record.ofQuadrature function a b settings ∧ ¬record.Blames .formula ∧
      ∀ error : EvalError Float, ¬error.cause.AtPoint →
        record.message ≠ Blame.integrand.heading ++ error.message

theorem shows_refused (refusal : Route.refused.Applies function lower upper) :
    (ofTexts settings function lower upper).Shows settings function .refused := by
  unfold ofTexts
  split
  · exact ⟨rfl, rfl, rfl, rfl, rfl, rfl⟩
  · next touched =>
    split
    · next a b readLower readUpper =>
      exact absurd refusal
        (Route.not_applies_refused ⟨Bool.eq_false_of_not_eq_true touched, readLower, readUpper⟩)
    · exact ⟨rfl, rfl, rfl, rfl, rfl, rfl⟩

/-- With limits that denote numbers, the request is answered between those numbers. -/
theorem ofTexts_of_entered (entered : Entered function lower upper a b) :
    ofTexts settings function lower upper = between settings function a b := by
  obtain ⟨touched, readLower, readUpper⟩ := entered
  rw [ofTexts, if_neg (ne_true_of_eq_false touched), readLower, readUpper]

/-- A request that cannot be read is shown the fault. -/
theorem shows_unreadable {fault : Formula.ParseFault}
    (fails : Formula.normalize (K := Float) function = .error fault) :
    (between settings function a b).Shows settings function (.unreadable a b fault) := by
  have made : Record.unreadable function a b fault =
      Record.failure function a b (Blame.formula.heading ++ fault.message) := rfl
  rw [between, fails]
  dsimp only
  rw [made]
  exact ⟨nothingExact_recorded _, _, showsRecord_recorded (Record.concerns_failure _), rfl,
    Record.blames_failure_iff.2 rfl⟩

/-- A request with an exact value is shown the antiderivative, the value, and
how far quadrature is from it. -/
theorem shows_exact (read : Formula.normalize function = .ok normal) {F : Expr Float} {value : Float}
    (found : ExactValue normal.tree a b F value) :
    (between settings function a b).Shows settings function (.exact a b F value) := by
  rw [between, read]
  dsimp only
  rw [ExactIntegral.ofTree?_eq_some_iff.2 ⟨F, value, found, rfl⟩]
  have made : Record.symbolic function a b value =
      ⟨function, a, b, .success value 0.0, Record.symbolicMessage⟩ := by
    rw [Record.symbolic, Record.success, found.2.2, if_pos (by decide +kernel)]
  refine ⟨rfl, rfl, ⟨_, ⟨congrArg some made, ⟨rfl, rfl, rfl⟩, ?_, ?_⟩, rfl, rfl, rfl⟩, ?_, ?_⟩
  · exact congrArg (fun record => some record.lower) made
  · exact congrArg (fun record => some record.upper) made
  · rw [discrepancy?, Record.discrepancy?, Option.isSome_map, Record.isSome_value?]
  · intro distance present
    obtain ⟨approximation, answered, rfl⟩ := Option.map_eq_some_iff.1 present
    exact ⟨approximation, answered, rfl⟩

/-- A request without an exact value is shown the record of the quadrature. -/
theorem shows_numeric (read : Formula.normalize function = .ok normal)
    (none : ∀ F value, ¬ExactValue normal.tree a b F value) :
    (between settings function a b).Shows settings function (.numeric a b) := by
  rw [between, read]
  dsimp only
  rw [ExactIntegral.ofTree?_eq_none_iff.2 none]
  refine ⟨nothingExact_recorded _, _, showsRecord_recorded Record.concerns_ofQuadrature, rfl, ?_, ?_⟩
  · rw [Record.blames_formula_ofQuadrature_iff, read]
    exact nofun
  · intro error inText
    exact Record.message_ofQuadrature_ne read inText

/-- For every request exactly one way is open, and what is shown is right for
it.  Without a function or a limit there is neither a record nor anything
else; a text that is no formula is a failure of the formula; a finite value of
an antiderivative is recorded as it is, with the antiderivative and, where
quadrature succeeds, its distance from that; and quadrature alone is recorded
as it ends, and finds no fault with the text. -/
theorem shows_of_route (session : Session) (function lower upper : String) :
    (∃! route : Route, route.Applies function lower upper) ∧
      ∀ route : Route, route.Applies function lower upper →
        (session.integral function lower upper).Shows session.config.quadrature function route := by
  refine ⟨Route.existsUnique_applies function lower upper, ?_⟩
  intro route applies
  rw [Session.integral]
  cases route with
  | refused => exact shows_refused applies
  | unreadable a b fault =>
    rw [ofTexts_of_entered applies.1]
    exact shows_unreadable applies.2
  | exact a b F value =>
    obtain ⟨entered, normal, read, found⟩ := applies
    rw [ofTexts_of_entered entered]
    exact shows_exact read found
  | numeric a b =>
    obtain ⟨entered, normal, read, none⟩ := applies
    rw [ofTexts_of_entered entered]
    exact shows_numeric read none

end Requests

/-- A limit that is no number, a text that is no formula, a constant and a
reciprocal across its pole. -/
theorem shows_of_route_of_reciprocal :
    letI := Quadrature.computedNodes
    let session := Session.start Config.default
    let settings := session.config.quadrature
    (session.integral "2" "0" "one").Shows settings "2" .refused ∧
      (∃ fault, (session.integral "2/" "0" "1").Shows settings "2/" (.unreadable 0.0 1.0 fault)) ∧
      (∃ F value, (session.integral "2" "0" "1").Shows settings "2" (.exact 0.0 1.0 F value)) ∧
      (session.integral "1/x" "-1" "1").Shows settings "1/x" (.numeric (-1.0) 1.0) := by
  intro session settings
  let table := Quadrature.computedNodes
  have zero : readLimit "0" = .ok 0.0 := eq_ok_of_toOption (by decide +kernel)
  have one : readLimit "1" = .ok 1.0 := eq_ok_of_toOption (by decide +kernel)
  have minusOne : readLimit "-1" = .ok (-1.0) := eq_ok_of_toOption (by decide +kernel)
  refine ⟨?_, ?_, ?_, ?_⟩
  · have refused : (readLimit "one").isOk = false := by decide +kernel
    refine (shows_of_route session "2" "0" "one").2 .refused (.inr (.inr ?_))
    cases read : readLimit "one" with
    | error error => exact ⟨error, rfl⟩
    | ok value => cases refused.symm.trans (congrArg Except.isOk read)
  · have incomplete : (Formula.normalize (K := Float) "2/").isOk = false := by decide +kernel
    cases read : Formula.normalize (K := Float) "2/" with
    | ok normal => cases incomplete.symm.trans (congrArg Except.isOk read)
    | error fault =>
      exact ⟨fault, (shows_of_route session "2/" "0" "1").2 (.unreadable 0.0 1.0 fault)
        ⟨⟨by decide +kernel, zero, one⟩, read⟩⟩
  · have finite : ((Formula.normalize (K := Float) "2").toOption.bind fun normal =>
        (normal.tree.antiderivative variableName).toOption.bind fun _ =>
          (normal.tree.definiteIntegral variableName 0.0 1.0).toOption.map Float.isFinite) =
        some true := by
      decide +kernel
    obtain ⟨normal, read, finite⟩ := Option.bind_eq_some_iff.1 finite
    obtain ⟨F, antiderivative, finite⟩ := Option.bind_eq_some_iff.1 finite
    obtain ⟨value, integral, finite⟩ := Option.map_eq_some_iff.1 finite
    exact ⟨F, value, (shows_of_route session "2" "0" "1").2 (.exact 0.0 1.0 F value)
      ⟨⟨by decide +kernel, zero, one⟩, normal, eq_ok_of_toOption read,
        eq_ok_of_toOption antiderivative, eq_ok_of_toOption integral, finite⟩⟩
  · have accepted : (Formula.normalize (K := Float) "1/x").isOk = true := by decide +kernel
    have pole : ((Formula.normalize (K := Float) "1/x").toOption.bind fun normal =>
        (normal.tree.definiteIntegral variableName (-1.0) 1.0).toOption).isNone = true := by
      decide +kernel
    obtain ⟨normal, read⟩ := exists_of_isOk accepted
    refine (shows_of_route session "1/x" "-1" "1").2 (.numeric (-1.0) 1.0)
      ⟨⟨by decide +kernel, minusOne, one⟩, normal, read, ?_⟩
    rintro F value ⟨-, integral, -⟩
    simp [read, integral, Except.toOption] at pole

end Integral

end Fluxion
