import Mathlib.Logic.Basic
import Fluxion.Callable

/-!
# Messages of failed evaluations

An evaluation fails for the text of a formula or for a value at a point, and its message tells which
(`EvalError.message_ne`).  Most kinds of messages have a beginning of their own.  An unknown name and
a value that is not finite are both announced with a quoted text, which can be anything; there it is
the end that differs, the last of the available names or a number.  Numbers are written with few
characters (`Decimal.Layout.numeric_text`), and the last letter of that name is none of them.
-/

namespace Fluxion

/-! ### The characters of numbers -/

namespace Decimal.Layout

/-- All characters of the text are of one kind.  Texts that are put together
of such texts are such texts. -/
def Uniform (kind : Char → Prop) (text : String) : Prop := ∀ c ∈ text.toList, kind c

namespace Uniform

variable {kind : Char → Prop} {first second : String}

theorem append (one : Uniform kind first) (other : Uniform kind second) :
    Uniform kind (first ++ second) := by
  intro c member
  rw [String.toList_append, List.mem_append] at member
  exact member.elim (one c) (other c)

theorem take (text : Uniform kind first) (count : Nat) :
    Uniform kind (first.take count).toString := by
  intro c member
  rw [String.Slice.toString_eq, String.toList_copy_take] at member
  exact text c (List.mem_of_mem_take member)

theorem drop (text : Uniform kind first) (count : Nat) :
    Uniform kind (first.drop count).toString := by
  intro c member
  rw [String.Slice.toString_eq, String.toList_copy_drop] at member
  exact text c (List.mem_of_mem_drop member)

theorem singleton {c : Char} (member : kind c) : Uniform kind (String.singleton c) := by
  intro d same
  rw [String.toList_singleton, List.mem_singleton] at same
  exact same ▸ member

variable (digits : ∀ c, c.isDigit = true → kind c)

include digits

/-- A whole number is of every kind that contains the digits. -/
theorem nat (n : Nat) : Uniform kind (toString n) := by
  intro c member
  rw [Nat.toString_eq_repr, Nat.toList_repr] at member
  exact digits c (Nat.isDigit_of_mem_toDigits (by decide) (by decide) member)

theorem zeros (count : Nat) : Uniform kind ("".pushn '0' count) := by
  induction count with
  | zero => exact nofun
  | succ count inductionHypothesis =>
    change Uniform kind (("".pushn '0' count).push '0')
    intro c member
    rw [String.toList_push, List.mem_append, List.mem_singleton] at member
    obtain earlier | rfl := member
    · exact inductionHypothesis c earlier
    · exact digits _ (by decide)

/-- Positional notation is made of digits and a point. -/
theorem positionalText (point : kind '.') (number : Digits) :
    Uniform kind (plain.positionalText number) := by
  have whole := nat digits number.digits
  have dot : Uniform kind "." := singleton point
  have leading : Uniform kind "0." := (singleton (digits '0' (by decide))).append dot
  unfold Layout.positionalText
  split
  · exact (whole.append (zeros digits _)).append nofun
  · dsimp only
    split
    · exact ((whole.take _).append dot).append (whole.drop _)
    · exact (leading.append (zeros digits _)).append whole

end Uniform

/-- The text has no characters but those that formulas and messages write
numbers with. -/
def Numeric (text : String) : Prop :=
  ∀ c ∈ text.toList, c.isDigit = true ∨ c ∈ ['.', '-', 'i', 'n', 'f', 'N', 'a']

/-- It is decided character by character. -/
instance (text : String) : Decidable (Numeric text) := List.decidableBAll _ text.toList

/-- A machine number is written with the characters of numbers only. -/
theorem numeric_text (value : Float) : Numeric (Numeral.text value) := by
  have sign : ∀ negative, Numeric (signText negative) := by decide +kernel
  have positional (number : Digits) : Numeric (plain.positionalText number) :=
    Uniform.positionalText (fun _ => .inl) (.inr (by simp)) number
  change Numeric (plain.text value)
  unfold text
  split
  · exact Uniform.append (sign _) (positional _)
  · have infinite : Numeric "inf" := by decide +kernel
    exact Uniform.append (sign _) infinite
  · decide +kernel

end Decimal.Layout

/-! ### Causes -/

/-- The cause lies in a value at a point, and not in the text of the formula. -/
def EvalCause.AtPoint {K : Type} : EvalCause K → Prop
  | .malformed _ | .unknownName _ => False
  | .divisionByZero _ | .domain _ _ | .notFinite _ => True

/-- A formula that can be called fails for values only.  The faults of its
text were found when it was made callable. -/
theorem Callable.atPoint_of_eval {K : Type} [Scalar K] [Numeral K] {f : Callable K} {x : K}
    {error : EvalError K} (fails : f.eval x = .error error) : error.cause.AtPoint := by
  unfold eval at fails
  split at fails
  · split at fails <;> cases fails
    trivial
  all_goals
    cases fails
    trivial

/-- How a message begins, as far as it does not depend on the formula.  Two
causes can be told apart by it. -/
def EvalCause.opening {K : Type} : EvalCause K → String
  | .malformed _ => "cannot evaluate "
  | .unknownName _ => "'"
  | .divisionByZero _ => "division by zero in "
  | .domain operation _ => operation.name ++ " is undefined for argument "
  | .notFinite _ => "'"

/-- No function has a name with which another kind of message begins, so a
message about a domain is recognised by its start. -/
theorem not_alike_of_domain (operation : Partial) : ∀ text ∈ ["cannot evaluate ", "'"],
    ¬((operation.name ++ " is undefined for argument ").toList <+: text.toList ∨
      text.toList <+: (operation.name ++ " is undefined for argument ").toList) := by
  cases operation with
  | power => decide
  | function f => cases f <;> decide

/-- Of a cause at a point and one in the text, the messages can begin alike only if
the one is a value that is not finite and the other an unknown name. -/
theorem EvalCause.exists_of_opening {K : Type} {cause other : EvalCause K} (atPoint : cause.AtPoint)
    (inText : ¬other.AtPoint) (alike : cause.opening.toList <+: other.opening.toList ∨
      other.opening.toList <+: cause.opening.toList) :
    (∃ x, cause = .notFinite x) ∧ ∃ name, other = .unknownName name := by
  cases other with
  | malformed fault =>
    cases cause with
    | divisionByZero x => exact absurd alike (by dsimp only [opening]; decide)
    | domain operation argument =>
      exact absurd alike (not_alike_of_domain operation _ (by simp [opening]))
    | notFinite x => exact absurd alike (by dsimp only [opening]; decide)
    | _ => cases atPoint
  | unknownName name =>
    cases cause with
    | divisionByZero x => exact absurd alike (by dsimp only [opening]; decide)
    | domain operation argument =>
      exact absurd alike (not_alike_of_domain operation _ (by simp [opening]))
    | notFinite x => exact ⟨⟨x, rfl⟩, name, rfl⟩
    | _ => cases atPoint
  | _ => exact absurd trivial inText

namespace EvalError

variable {error other : EvalError Float}

theorem opening_isPrefix (error : EvalError Float) :
    error.cause.opening.toList <+: error.message.toList := by
  obtain ⟨formula, cause⟩ := error
  cases cause <;>
    simp only [EvalCause.opening, message, Formula.quoted, String.toList_append, List.append_assoc,
      List.prefix_append, List.prefix_append_right_inj]

/-- The message of an unknown name ends with the last name that is known. -/
theorem getLast?_of_unknownName (formula name : String) :
    (message (⟨formula, .unknownName name⟩ : EvalError Float)).toList.getLast? = some 't' := by
  have known : availableNames.toList.getLast? = some 't' := by decide +kernel
  rw [message, String.toList_append, List.getLast?_append, known, Option.some_or]

/-- A value that is not finite is announced with a point, and ends with it. -/
theorem getLast?_of_notFinite (formula : String) (x : Float) :
    (message (⟨formula, .notFinite x⟩ : EvalError Float)).toList.getLast? ≠ some 't' := by
  intro last
  have blank : " is not finite at x = ".toList.getLast? = some ' ' := by decide +kernel
  rw [message, String.toList_append, List.getLast?_append] at last
  cases ending : (Numeral.text x).toList.getLast? with
  | none =>
    rw [ending, Option.none_or, String.toList_append, List.getLast?_append, blank] at last
    cases last
  | some c =>
    rw [ending, Option.some_or] at last
    have numeric := Decimal.Layout.numeric_text x c (List.mem_of_getLast? ending)
    cases last
    exact absurd numeric (by decide)

/-- Whether the cause of a failed evaluation lies in a value can be told
from the message. -/
theorem message_ne (atPoint : error.cause.AtPoint) (inText : ¬other.cause.AtPoint) :
    error.message ≠ other.message := by
  intro same
  have alike := List.prefix_or_prefix_of_prefix error.opening_isPrefix
    (same ▸ other.opening_isPrefix)
  obtain ⟨formula, cause⟩ := error
  obtain ⟨formula', cause'⟩ := other
  -- both messages begin with a quoted text, so their ends have to differ
  obtain ⟨⟨x, rfl⟩, name, rfl⟩ := EvalCause.exists_of_opening atPoint inText alike
  exact getLast?_of_notFinite formula x (same ▸ getLast?_of_unknownName formula' name)

end EvalError

end Fluxion
