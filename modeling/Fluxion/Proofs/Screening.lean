import Fluxion.Formula.Normal
import Fluxion.Proofs.Lexing

/-!
# Checks before reading

User notation is checked character by character before it is cut into lexemes: it may not be the
text of an input field left alone, its characters have to be known and its parentheses have to match
with at most `Formula.openLimit` of them open at once.  A text that starts as an operand does and is
put together of known characters and groups (`Formula.Composed`) passes the first two checks, and
the third exactly if it nests no deeper (`Formula.Composed.checkParentheses_eq`).
-/

namespace Fluxion

open Fluxion.Text (isBlank isDigit isLetter)

namespace Formula

/-- The largest number of parentheses that are open at once in a text that
some precede. -/
def nesting (opened : Nat) : List Char → Nat
  | [] => opened
  | '(' :: rest => nesting (opened + 1) rest
  | ')' :: rest => max opened (nesting (opened - 1) rest)
  | _ :: rest => nesting opened rest

/-- The greatest depth is at least the depth at the start. -/
theorem le_nesting (opened : Nat) (text : List Char) : opened ≤ nesting opened text := by
  fun_induction nesting opened text with
  | case1 => exact le_rfl
  | case2 opened rest ih => omega
  | case3 opened rest ih => exact le_max_left _ _
  | case4 opened c rest _ _ ih => exact ih

section Characters

variable {c : Char} (noOpening : c ≠ '(') (noClosing : c ≠ ')') (rest : List Char)
include noOpening noClosing

theorem nesting_cons (opened : Nat) : nesting opened (c :: rest) = nesting opened rest := by
  rw [nesting]
  · exact noOpening
  · exact noClosing

/-- A character that is no parenthesis moves the check on. -/
theorem checkParentheses_cons (opened : List Nat) (position : Nat) :
    checkParentheses opened position (c :: rest) =
      checkParentheses opened (position + 1) rest := by
  rw [checkParentheses]
  · exact noOpening
  · exact noClosing

end Characters

/-- What passes the check of parentheses nests no deeper than they may be open. -/
theorem nesting_le_of_checkParentheses {opened : List Nat} {position : Nat} {text : List Char}
    (passed : checkParentheses opened position text = .ok ()) (le : opened.length ≤ openLimit) :
    nesting opened.length text ≤ openLimit := by
  fun_induction checkParentheses opened position text with
  | case1 => exact le
  | case2 => cases passed
  | case3 => cases passed
  | case4 opened position rest room ih => exact ih passed (Nat.lt_of_not_le room)
  | case5 => cases passed
  | case6 position rest last outer ih =>
      exact max_le le (ih passed (Nat.le_of_succ_le le))
  | case7 opened position c rest noOpening noClosing ih =>
      rw [nesting_cons noOpening noClosing]
      exact ih passed le

/-- Where the check finds too many groups open, the depth exceeds the limit. -/
theorem lt_nesting_of_tooManyOpen {opened : List Nat} {position place : Nat} {text : List Char}
    (failed : checkParentheses opened position text = .error (.tooManyOpen place)) :
    openLimit < nesting opened.length text := by
  fun_induction checkParentheses opened position text with
  | case1 => cases failed
  | case2 => cases failed
  | case3 opened position rest full =>
      exact Nat.lt_of_lt_of_le (Nat.lt_succ_of_le full) (le_nesting (opened.length + 1) rest)
  | case4 opened position rest room ih => exact ih failed
  | case5 => cases failed
  | case6 position rest last outer ih => exact lt_max_of_lt_right (ih failed)
  | case7 opened position c rest noOpening noClosing ih =>
      rw [nesting_cons noOpening noClosing]
      exact ih failed

/-! ### Texts made of known characters and matching parentheses -/

/-- Known characters, one text after another, and texts in parentheses.
Everything that is printed is composed like this. -/
inductive Composed : List Char → Prop
  | plain {text : List Char} (h : ∀ c ∈ text, isAllowed c = true ∧ c ≠ '(' ∧ c ≠ ')') :
      Composed text
  | append {first second : List Char} (hfirst : Composed first) (hsecond : Composed second) :
      Composed (first ++ second)
  | group {text : List Char} (h : Composed text) : Composed ('(' :: (text ++ [')']))

/-- The characters of numbers and names are allowed and no parentheses. -/
theorem IsPlain.allowed {c : Char} (h : IsPlain c) : isAllowed c = true ∧ c ≠ '(' ∧ c ≠ ')' := by
  rcases h with digit | letter | rfl
  · refine ⟨by simp [isAllowed, digit], ?_, ?_⟩
    all_goals
      rintro rfl
      exact absurd digit (by decide)
  · refine ⟨by simp [isAllowed, letter], ?_, ?_⟩
    all_goals
      rintro rfl
      exact absurd letter (by decide)
  · decide

namespace Composed

variable {text : List Char}

theorem of_all (h : text.all (fun c => isAllowed c && c != '(' && c != ')') = true) :
    Composed text := by
  refine .plain fun c hc => ?_
  simpa [and_assoc] using List.all_eq_true.1 h c hc

theorem of_plain (h : ∀ c ∈ text, IsPlain c) : Composed text := .plain fun c hc => (h c hc).allowed

theorem of_numeral (h : IsNumeral text) : Composed text := .of_plain h.plain

theorem of_name (h : IsName text) : Composed text := .of_plain h.plain

theorem isAllowed_of_mem (h : Composed text) : ∀ c ∈ text, isAllowed c = true := by
  induction h with
  | plain h => exact fun c hc => (h c hc).1
  | append _ _ ihfirst ihsecond =>
      intro c hc
      rcases List.mem_append.1 hc with hc | hc
      · exact ihfirst c hc
      · exact ihsecond c hc
  | group _ ih =>
      intro c hc
      rcases List.mem_cons.1 hc with rfl | hc
      · decide
      · rcases List.mem_append.1 hc with hc | hc
        · exact ih c hc
        · rw [List.mem_singleton.1 hc]
          decide

/-- Such a text passes the check of characters. -/
theorem checkCharacters_eq (h : Composed text) (position : Nat) :
    checkCharacters position text = .ok () := by
  have allowed := h.isAllowed_of_mem
  clear h
  induction text generalizing position with
  | nil => rfl
  | cons c rest ih =>
      rw [checkCharacters, if_pos (allowed c List.mem_cons_self)]
      exact ih _ fun d hd => allowed d (List.mem_cons_of_mem c hd)

/-- The check of parentheses passes over the text and leaves open what was
open before, unless too many are open. -/
theorem checkParentheses_append (h : Composed text) (opened : List Nat) (position : Nat)
    (rest : List Char) :
    checkParentheses opened position (text ++ rest) =
        checkParentheses opened (position + text.length) rest ∨
      ∃ place, checkParentheses opened position (text ++ rest) = .error (.tooManyOpen place) := by
  induction h generalizing opened position rest with
  | @plain text h =>
      induction text generalizing position with
      | nil => exact .inl rfl
      | cons c others ih =>
          obtain ⟨-, noOpening, noClosing⟩ := h c List.mem_cons_self
          rw [List.cons_append, checkParentheses_cons noOpening noClosing, List.length_cons,
            Nat.add_comm others.length, ← Nat.add_assoc]
          exact ih (fun d hd => h d (List.mem_cons_of_mem c hd)) (position + 1)
  | append _ _ ihfirst ihsecond =>
      rw [List.append_assoc, List.length_append, ← Nat.add_assoc]
      rcases ihfirst opened position _ with first | failed
      · rw [first]
        exact ihsecond opened _ rest
      · exact .inr failed
  | @group text h ih =>
      rw [List.cons_append, List.append_assoc, List.singleton_append, checkParentheses]
      split
      · exact .inr ⟨position, rfl⟩
      · rcases ih (position :: opened) (position + 1) (')' :: rest) with inside | failed
        · rw [inside, checkParentheses]
          refine .inl (congrArg (checkParentheses opened · rest) ?_)
          simp only [List.length_cons, List.length_append, List.length_nil]
          omega
        · exact .inr failed

/-- The parentheses match, with as many open at once as the text nests. -/
theorem checkParentheses_eq (h : Composed text) :
    (nesting 0 text ≤ openLimit → checkParentheses [] 0 text = .ok ()) ∧
      (openLimit < nesting 0 text →
        ∃ place, checkParentheses [] 0 text = .error (.tooManyOpen place)) := by
  have cases := h.checkParentheses_append [] 0 []
  rw [List.append_nil] at cases
  rcases cases with passed | ⟨place, failed⟩
  · have done : checkParentheses [] 0 text = .ok () := passed
    refine ⟨fun _ => done, fun beyond => ?_⟩
    exact absurd (nesting_le_of_checkParentheses done (Nat.zero_le _)) (Nat.not_le.2 beyond)
  · refine ⟨fun within => ?_, fun _ => ⟨place, failed⟩⟩
    exact absurd (lt_nesting_of_tooManyOpen failed) (Nat.not_lt.2 within)

end Composed

/-! ### Fields left alone -/

/-- A text that starts with an operand is neither empty nor that of an
empty input field. -/
theorem isUntouched_eq_false {text : String} (opens : Opens text.toList) :
    isUntouched text = false := by
  obtain ⟨c, rest, form, opener⟩ := opens
  have visible : isBlank c = false := by
    apply isBlank_eq_false_of_visible
    rcases opener with digit | small | symbol
    · rw [isDigit_iff] at digit
      omega
    · omega
    · fin_cases symbol <;> decide
  have trimmed : (Text.trim text.toList).head? = some c := by
    have front : Text.trimStart (c :: rest) = c :: rest :=
      List.dropWhile_cons_of_neg (by simp [visible])
    -- trimming the end cannot reach a first character that is no blank
    rw [form, Text.trim, front, List.reverse_cons, Text.trimStart, List.dropWhile_append]
    split
    · simp [visible]
    · simp
  have other : Text.trim text.toList ≠ placeholder.toList := by
    intro same
    rw [same] at trimmed
    cases trimmed
    revert opener
    decide
  have nonempty : Text.trim text.toList ≠ [] := by
    intro empty
    rw [empty] at trimmed
    cases trimmed
  simp [isUntouched, other, nonempty]

end Formula

end Fluxion
