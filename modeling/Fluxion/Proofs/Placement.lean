import Fluxion.Proofs.Lexing
import Fluxion.Proofs.Outcome

/-!
# Lexemes in their places

What it means that lexemes are those of a text is a relation: blanks and the written forms of tokens
follow each other, each token as long as it can be (`Laid`).  It is what the lexer computes
(`lexemesFrom_eq_ok_iff`), and everything about places is read off it: the lexemes without their
places are the text without its blanks, each stands where its position says, and nothing but blanks
is left between them (`Laid.inPlace`).

The lexer gives up only at a character that no token starts with.  What stands before it is cut on
its own, for the last token before it goes on no farther when the text ends there
(`stuck_of_lexemesFrom`).
-/

namespace Fluxion

open Fluxion.Text (isBlank isDigit isLetter)

namespace Formula

/-! ### Written tokens -/

namespace Token

variable {token : Token} {rest : List Char}

/-- What a token ends before it also ends before a shorter text. -/
theorem StopsBefore.of_isPrefix {shorter : List Char} (stops : token.StopsBefore rest)
    (front : shorter <+: rest) : token.StopsBefore shorter := by
  rcases shorter with _ | ⟨c, shorter⟩
  · cases token <;> simp [StopsBefore, NumeralStops, NameStops]
  · obtain ⟨behind, rfl⟩ := front
    cases token with
    | number text => exact stops
    | ident name =>
        rintro _ ⟨⟩
        obtain ⟨noLetter, pointed⟩ := stops c rfl
        refine ⟨noLetter, fun point => (pointed point).imp_right fun letters d hd => ?_⟩
        obtain ⟨others, form⟩ := List.head?_eq_some_iff.1 hd
        apply letters
        simp_all
    | star => exact stops
    | _ => trivial

theorem Spelled.ne_nil (h : token.Spelled) : token.text.toList ≠ [] := by
  cases token with
  | number text =>
      obtain ⟨c, others, form, -⟩ := IsNumeral.exists_cons h
      exact fun empty => List.cons_ne_nil c others (form.symm.trans empty)
  | ident name =>
      obtain ⟨c, others, form, -⟩ := IsName.exists_cons h
      exact fun empty => List.cons_ne_nil c others (form.symm.trans empty)
  | _ => decide

/-- No token contains a blank. -/
theorem Spelled.visible (h : token.Spelled) : ∀ c ∈ token.text.toList, isBlank c = false := by
  cases token with
  | number text => exact fun c hc => (IsNumeral.plain h c hc).isBlank_eq_false
  | ident name => exact fun c hc => (IsName.plain h c hc).isBlank_eq_false
  | _ =>
      intro c hc
      exact beq_iff_eq.1 ((List.all_eq_true (p := fun c => isBlank c == false)).1 (by decide) c hc)

/-- Where the written form of a token stands, a token is read that is no shorter. -/
theorem Spelled.exists_token? (h : token.Spelled) (rest : List Char) :
    ∃ other width, token? (token.text.toList ++ rest) = some (other, width) ∧
      token.text.toList.length ≤ width := by
  have stopped (stops : token.StopsBefore rest) :
      ∃ other width, token? (token.text.toList ++ rest) = some (other, width) ∧
        token.text.toList.length ≤ width :=
    ⟨_, _, token?_append h stops, Nat.le_refl _⟩
  cases token with
  | number text =>
      have far := length_le_numberWidth h rest
      obtain ⟨n, width⟩ := Nat.exists_eq_succ_of_ne_zero
        (Nat.ne_of_gt (Nat.lt_of_lt_of_le (List.length_pos_iff.2 h.ne_nil) far))
      rw [width] at far
      refine ⟨.number (String.ofList ((text.toList ++ rest).take (n + 1))), n + 1, ?_, far⟩
      rw [token?, Token.text, width]
  | ident name =>
      have far := length_le_identWidth h rest
      obtain ⟨n, width⟩ := Nat.exists_eq_succ_of_ne_zero
        (Nat.ne_of_gt (Nat.lt_of_lt_of_le (List.length_pos_iff.2 h.ne_nil) far))
      obtain ⟨c, others, form, letter⟩ := IsName.exists_cons h
      have noNumber : numberWidth (name.toList ++ rest) = 0 := by
        rw [form]
        exact numberWidth_of_letter _ letter
      rw [width] at far
      refine ⟨.ident (String.ofList ((name.toList ++ rest).take (n + 1))), n + 1, ?_, far⟩
      rw [token?, Token.text, noNumber, width]
  | star =>
      have written : Token.star.text.toList = ['*'] := by decide
      -- the star may be the first of two
      by_cases another : rest.head? = some '*'
      · obtain ⟨behind, rfl⟩ := List.head?_eq_some_iff.1 another
        refine ⟨.power, 2, ?_, by decide⟩
        rw [written]
        exact token?_symbol (by decide)
      · exact stopped another
  | _ => exact stopped trivial

end Token

/-! ### Laying lexemes out -/

/-- Lexemes of a text whose first character has the given position: blanks
belong to none, and every token is as long as it can be. -/
inductive Laid : Nat → List Char → List Lexeme → Prop
  | nil (position : Nat) : Laid position [] []
  | blank {position : Nat} {c : Char} {text : List Char} {lexemes : List Lexeme}
      (hc : isBlank c = true) (h : Laid (position + 1) text lexemes) :
      Laid position (c :: text) lexemes
  | token {position : Nat} {token : Token} {text : List Char} {lexemes : List Lexeme}
      (spelled : token.Spelled) (stops : token.StopsBefore text)
      (h : Laid (position + token.text.toList.length) text lexemes) :
      Laid position (token.text.toList ++ text) (⟨token, position⟩ :: lexemes)

section Lexer

variable {position : Nat} {text : List Char} {lexemes : List Lexeme}

/-- What the lexer makes of a text that starts with a token. -/
theorem lexemesFrom_append {token : Token} {rest : List Char} (position : Nat)
    (spelled : token.Spelled) (stops : token.StopsBefore rest) :
    lexemesFrom position (token.text.toList ++ rest) =
      (lexemesFrom (position + token.text.toList.length) rest).map (⟨token, position⟩ :: ·) :=
  lexemesFrom_token position rest (fun c hc => spelled.visible c (List.mem_of_mem_head? hc))
    spelled.ne_nil (token?_append spelled stops)

/-- What the lexer takes for a token, and where it goes on. -/
theorem exists_behind_of_token? {c : Char} {rest : List Char} {token : Token} {width : Nat}
    (found : token? (c :: rest) = some (token, width + 1)) :
    c :: rest = token.text.toList ++ rest.drop width ∧ width + 1 = token.text.toList.length ∧
      token.Spelled ∧ token.StopsBefore (rest.drop width) := by
  obtain ⟨after, form, length, spelled, stops⟩ := exists_of_token? found
  have dropped : rest.drop width = after := by
    rw [← List.drop_succ_cons (a := c), form, length, List.drop_left]
  rw [dropped]
  exact ⟨form, length, spelled, stops⟩

/-- Lexemes that are cut from a text are laid out in it.  The induction is on
the length of what is left. -/
theorem laid_of_lexemesFrom (cut : lexemesFrom position text = .ok lexemes) :
    Laid position text lexemes := by
  fun_induction lexemesFrom position text generalizing lexemes with
  | case1 =>
      cases cut
      exact .nil _
  | case2 position c rest blank ih => exact .blank blank (ih cut)
  | case3 position c rest visible token width found ih =>
      obtain ⟨others, behind, same⟩ := bind_eq_ok cut
      cases same
      obtain ⟨form, length, spelled, stops⟩ := exists_behind_of_token? found
      have laid := ih behind
      rw [length] at laid
      rw [form]
      exact .token spelled stops laid
  | case4 => cases cut

/-- Lexemes that are laid out in a text are those it is cut into. -/
theorem lexemesFrom_of_laid (h : Laid position text lexemes) :
    lexemesFrom position text = .ok lexemes := by
  induction h with
  | nil => rw [lexemesFrom]
  | blank hc _ ih => rw [lexemesFrom, if_pos hc, ih]
  | token spelled stops _ ih =>
      rw [lexemesFrom_append _ spelled stops, ih]
      rfl

/-- The lexer lays the lexemes of a text out. -/
theorem lexemesFrom_eq_ok_iff : lexemesFrom position text = .ok lexemes ↔ Laid position text lexemes :=
  ⟨laid_of_lexemesFrom, lexemesFrom_of_laid⟩

/-- The lexer gives up at a character that no token starts with, and what
stands before it can be cut on its own. -/
theorem stuck_of_lexemesFrom {fault : GrammarFault}
    (failed : lexemesFrom position text = .error fault) :
    ∃ front c rest, text = front ++ c :: rest ∧
      fault = .unexpectedCharacter c (position + front.length) ∧
      (∃ lexemes, Laid position front lexemes) ∧ isBlank c = false ∧
      ∀ token : Token, token.Spelled → ¬ token.text.toList <+: c :: rest := by
  fun_induction lexemesFrom position text with
  | case1 => cases failed
  | case2 position c rest blank ih =>
      obtain ⟨front, d, after, rfl, rfl, ⟨lexemes, laid⟩, nothing⟩ := ih failed
      refine ⟨c :: front, d, after, rfl, ?_, ⟨lexemes, .blank blank laid⟩, nothing⟩
      rw [List.length_cons, Nat.add_assoc, Nat.add_comm 1]
  | case3 position c rest visible token width found ih =>
      cases behind : lexemesFrom (position + (width + 1)) (rest.drop width) with
      | ok others =>
          rw [behind] at failed
          cases failed
      | error fault' =>
          rw [behind] at failed
          cases failed
          obtain ⟨form, length, spelled, stops⟩ := exists_behind_of_token? found
          obtain ⟨front, d, last, split, rfl, ⟨lexemes, laid⟩, nothing⟩ := ih behind
          rw [length] at laid
          have fits := stops.of_isPrefix ⟨d :: last, split.symm⟩
          refine ⟨token.text.toList ++ front, d, last, ?_, ?_, ⟨_, .token spelled fits laid⟩, nothing⟩
          · rw [form, split, List.append_assoc]
          · rw [List.length_append, length, Nat.add_assoc]
  | case4 position c rest visible unread =>
      cases failed
      refine ⟨[], c, rest, rfl, rfl, ⟨[], .nil _⟩, by simpa using visible, fun token spelled front => ?_⟩
      obtain ⟨behind, form⟩ := front
      -- the token has a width, so the lexer would have gone on
      obtain ⟨other, width, found, wide⟩ := spelled.exists_token? behind
      have positive := Nat.lt_of_lt_of_le (List.length_pos_iff.2 spelled.ne_nil) wide
      obtain ⟨n, rfl⟩ := Nat.exists_eq_succ_of_ne_zero (Nat.ne_of_gt positive)
      rw [form] at found
      exact unread other n found

end Lexer

/-! ### What is read off -/

/-- The characters that a lexeme stands on. -/
def Lexeme.Covers (lexeme : Lexeme) (i : Nat) : Prop :=
  lexeme.position ≤ i ∧ i < lexeme.position + lexeme.token.text.toList.length

namespace Laid

variable {position : Nat} {text : List Char} {lexemes : List Lexeme}

/-- Lexemes come at or behind the place where the layout begins. -/
theorem le_position (h : Laid position text lexemes) :
    ∀ lexeme ∈ lexemes, position ≤ lexeme.position := by
  induction h with
  | nil => simp
  | blank _ _ ih => exact fun lexeme member => Nat.le_of_succ_le (ih lexeme member)
  | token _ _ _ ih =>
      refine List.forall_mem_cons.2 ⟨Nat.le_refl _, fun lexeme member => ?_⟩
      exact Nat.le_trans (Nat.le_add_right _ _) (ih lexeme member)

/-- Every lexeme ends before the next one starts. -/
theorem apart (h : Laid position text lexemes) :
    lexemes.Pairwise fun first second =>
      first.position + first.token.text.toList.length ≤ second.position := by
  induction h with
  | nil => exact .nil
  | blank _ _ ih => exact ih
  | token _ _ after ih => exact .cons after.le_position ih

/-- The written forms of the lexemes are the text without its blanks. -/
theorem render_eq (h : Laid position text lexemes) :
    (render lexemes).toList = text.filter fun c => !isBlank c := by
  induction h with
  | nil => rfl
  | blank hc _ ih => rw [ih, List.filter_cons_of_neg (by simp [hc])]
  | @token position token text lexemes spelled _ _ ih =>
      have kept : token.text.toList.filter (fun c => !isBlank c) = token.text.toList :=
        List.filter_eq_self.2 fun c hc => by simp [spelled.visible c hc]
      rw [toList_render_cons, ih, List.filter_append, kept]

/-- Every lexeme is written at its position, and nothing behind goes on with it. -/
theorem written (h : Laid position text lexemes) :
    ∀ lexeme ∈ lexemes, lexeme.token.Spelled ∧ ∃ front rest,
      text = front ++ (lexeme.token.text.toList ++ rest) ∧
        lexeme.position = position + front.length ∧ lexeme.token.StopsBefore rest := by
  induction h with
  | nil => simp
  | @blank position c text lexemes _ _ ih =>
      intro lexeme member
      obtain ⟨spelled, front, rest, rfl, place, stops⟩ := ih lexeme member
      refine ⟨spelled, c :: front, rest, rfl, ?_, stops⟩
      rw [place, List.length_cons, Nat.add_assoc, Nat.add_comm 1]
  | @token position token text lexemes spelled stops _ ih =>
      refine List.forall_mem_cons.2 ⟨⟨spelled, [], text, rfl, rfl, stops⟩, fun lexeme member => ?_⟩
      obtain ⟨spelled, front, rest, rfl, place, stops⟩ := ih lexeme member
      refine ⟨spelled, token.text.toList ++ front, rest, by rw [List.append_assoc], ?_, stops⟩
      rw [place, List.length_append, Nat.add_assoc]

/-- What no lexeme stands on is blank. -/
theorem isBlank_of_not_covered (h : Laid position text lexemes) {i : Nat} {c : Char}
    (there : text[i]? = some c) (free : ∀ lexeme ∈ lexemes, ¬ lexeme.Covers (position + i)) :
    isBlank c = true := by
  induction h generalizing i with
  | nil => cases there
  | @blank position d text lexemes hd _ ih =>
      cases i with
      | zero =>
          cases there
          exact hd
      | succ i =>
          refine ih there ?_
          rwa [Nat.add_assoc, Nat.add_comm 1]
  | @token position token text lexemes _ _ _ ih =>
      obtain ⟨first, others⟩ := List.forall_mem_cons.1 free
      -- the place is behind the first lexeme
      have behind : token.text.toList.length ≤ i := by
        by_contra within
        exact first ⟨Nat.le_add_right _ _, Nat.add_lt_add_left (Nat.lt_of_not_le within) _⟩
      obtain ⟨j, rfl⟩ := Nat.exists_eq_add_of_le behind
      have there' : text[j]? = some c := by
        rwa [List.getElem?_append_right behind, Nat.add_sub_cancel_left] at there
      refine ih there' fun lexeme member => ?_
      rw [Nat.add_assoc]
      exact others lexeme member

end Laid

/-- What it means that lexemes are those of a text: they are written there in
order, each as long as it can be, with nothing but blanks between them. -/
structure InPlace (text : List Char) (lexemes : List Lexeme) : Prop where
  /-- nothing is lost but the blanks -/
  rendered : (render lexemes).toList = text.filter fun c => !isBlank c
  increasing : lexemes.Pairwise fun first second => first.position < second.position
  /-- no lexeme reaches into the next one -/
  apart : lexemes.Pairwise fun first second =>
    first.position + first.token.text.toList.length ≤ second.position
  /-- every lexeme is written at its position -/
  written : ∀ lexeme ∈ lexemes, lexeme.token.text.toList <+: text.drop lexeme.position
  /-- no longer token is written there -/
  longest : ∀ lexeme ∈ lexemes, ∀ token : Token, token.Spelled →
    token.text.toList <+: text.drop lexeme.position →
      token.text.toList.length ≤ lexeme.token.text.toList.length
  blank_between : ∀ i c, text[i]? = some c → (∀ lexeme ∈ lexemes, ¬ lexeme.Covers i) →
    isBlank c = true

/-- Lexemes that are laid out in a text stand in it in order, each at its
place and as it is written. -/
theorem Laid.inPlace {text : List Char} {lexemes : List Lexeme} (h : Laid 0 text lexemes) :
    InPlace text lexemes where
  rendered := h.render_eq
  increasing := by
    refine h.apart.imp_of_mem fun {first second} member _ apart => ?_
    have width := List.length_pos_iff.2 (h.written first member).1.ne_nil
    omega
  apart := h.apart
  written lexeme member := by
    obtain ⟨-, front, rest, form, place, -⟩ := h.written lexeme member
    rw [place, Nat.zero_add, form, List.drop_left]
    exact List.prefix_append _ _
  longest lexeme member token spelled := by
    obtain ⟨own, front, rest, form, place, stops⟩ := h.written lexeme member
    rw [place, Nat.zero_add, form, List.drop_left]
    rintro ⟨behind, same⟩
    obtain ⟨other, width, found, wide⟩ := spelled.exists_token? behind
    rw [same, token?_append own stops] at found
    cases found
    exact wide
  blank_between i c there free :=
    h.isBlank_of_not_covered there fun lexeme member => by
      rw [Nat.zero_add]
      exact free lexeme member

/-- What it means that a text cannot be cut at a place: what is before can be,
and no token starts there. -/
structure StuckAt (text : List Char) (c : Char) (position : Nat) : Prop where
  character : text[position]? = some c
  /-- what stands before can be cut on its own -/
  before : ∃ lexemes, Formula.lexemes (String.ofList (text.take position)) = .ok lexemes
  /-- no token starts there -/
  noToken : ∀ token : Token, token.Spelled → ¬ token.text.toList <+: text.drop position
  visible : isBlank c = false

/-- Every text is cut into lexemes that stand in their places, or the lexer
names the first character that no token starts with.  In the second case what
stands before that character can be cut by itself, so the fault is not one of
an earlier place. -/
theorem lexemes_places_or_stuck (text : String) :
    (∃ lexemes, Formula.lexemes text = .ok lexemes ∧ InPlace text.toList lexemes) ∨
      ∃ c position, Formula.lexemes text = .error (.unexpectedCharacter c position) ∧
        StuckAt text.toList c position := by
  cases cut : Formula.lexemes text with
  | ok lexemes => exact .inl ⟨lexemes, rfl, (laid_of_lexemesFrom cut).inPlace⟩
  | error fault =>
      obtain ⟨front, c, rest, form, rfl, ⟨lexemes, laid⟩, visible, nothing⟩ :=
        stuck_of_lexemesFrom cut
      refine .inr ⟨c, front.length, by rw [Nat.zero_add], ?_, ⟨lexemes, ?_⟩, ?_, visible⟩
      · rw [form, List.getElem?_append_right (Nat.le_refl _), Nat.sub_self]
        rfl
      · rw [form, List.take_left, Formula.lexemes, String.toList_ofList]
        exact lexemesFrom_of_laid laid
      · rw [form, List.drop_left]
        exact nothing

end Formula

end Fluxion
