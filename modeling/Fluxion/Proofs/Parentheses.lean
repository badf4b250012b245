import Fluxion.Proofs.Balance
import Fluxion.Proofs.Placement
import Fluxion.Proofs.Screening

/-!
# Parentheses of texts and of lexemes

Whether parentheses match depends on nothing but their order (`Parenthesis.openBehind`), and cutting a
text into lexemes keeps it (`Formula.Laid.parentheses_eq`).  So the check on characters speaks for the
lexemes as well: behind it their parentheses match (`balanced_iff`), and every group that opens is
closed (`GroupsClose`), in a part of the lexemes too.

The check itself is right: the texts that pass it are those whose parentheses match
(`Formula.Nested`), and the parenthesis that it blames has no partner (`Formula.Unmatched`).  What
carries it along a text is that the text read so far is matched but for the parentheses that are
still open (`Formula.Opened`).
-/

namespace Fluxion

open Formula (Token Lexeme)

/-! ### Parentheses without what stands between them -/

/-- A parenthesis, which is all that matters of a text for its groups. -/
inductive Parenthesis where
  | opening
  | closing
  deriving DecidableEq

namespace Parenthesis

/-- The parenthesis that a character is. -/
def ofChar? : Char → Option Parenthesis
  | '(' => some .opening
  | ')' => some .closing
  | _ => none

/-- The parenthesis that a token is. -/
def ofToken? : Token → Option Parenthesis
  | .opening => some .opening
  | .closing => some .closing
  | _ => none

/-- The parentheses of a text, in order. -/
def ofText (text : List Char) : List Parenthesis := text.filterMap ofChar?

/-- The parentheses of some lexemes, in order. -/
def ofLexemes (lexemes : List Lexeme) : List Parenthesis :=
  lexemes.filterMap fun lexeme => ofToken? lexeme.token

/-- How many parentheses are open behind some, where a number of them is open
before; none if one of them closes nothing. -/
def openBehind : Nat → List Parenthesis → Option Nat
  | depth, [] => some depth
  | depth, opening :: rest => openBehind (depth + 1) rest
  | 0, closing :: _ => none
  | depth + 1, closing :: rest => openBehind depth rest

section OpenBehind

variable {depth behind : Nat} {first second : List Parenthesis}

theorem openBehind_append (depth : Nat) (first second : List Parenthesis) :
    openBehind depth (first ++ second) = (openBehind depth first).bind (openBehind · second) := by
  fun_induction openBehind depth first with
  | case1 => rfl
  | case2 depth rest ih => exact ih
  | case3 => rfl
  | case4 depth rest ih => exact ih

/-- With more groups open before, as many more are open behind. -/
theorem openBehind_add (h : openBehind depth first = some behind) (more : Nat) :
    openBehind (depth + more) first = some (behind + more) := by
  fun_induction openBehind depth first with
  | case1 =>
      cases h
      rfl
  | case2 depth rest ih =>
      rw [openBehind, Nat.add_right_comm]
      exact ih h
  | case3 => cases h
  | case4 depth rest ih =>
      show openBehind (depth + 1 + more) (closing :: rest) = some (behind + more)
      rw [Nat.add_right_comm, openBehind]
      exact ih h

/-- Parentheses that match are passed over. -/
theorem openBehind_append_of_match (h : openBehind 0 first = some 0) (depth : Nat)
    (second : List Parenthesis) : openBehind depth (first ++ second) = openBehind depth second := by
  have passed := openBehind_add h depth
  rw [Nat.zero_add] at passed
  rw [openBehind_append, passed]
  rfl

/-- The parentheses of joined lexemes are those of the parts. -/
theorem ofLexemes_append (first second : List Lexeme) :
    ofLexemes (first ++ second) = ofLexemes first ++ ofLexemes second :=
  List.filterMap_append

/-- The parentheses of joined texts are those of the parts. -/
theorem ofText_append (first second : List Char) :
    ofText (first ++ second) = ofText first ++ ofText second :=
  List.filterMap_append

theorem ofLexemes_cons (lexeme : Lexeme) (rest : List Lexeme) :
    ofLexemes (lexeme :: rest) = (ofToken? lexeme.token).toList ++ ofLexemes rest := by
  rw [ofLexemes, List.filterMap_cons]
  cases ofToken? lexeme.token <;> rfl

end OpenBehind

end Parenthesis

open Parenthesis (openBehind ofLexemes ofText)

/-! ### Groups of lexemes -/

section Groups

variable {depth behind : Nat} {lexemes : List Lexeme}

/-- A lexeme ends the group, or stands inside and changes what is open. -/
theorem cutGroup_cons_cases (depth : Nat) (lexeme : Lexeme) :
    (depth = 0 ∧ lexeme.token = .closing) ∨
      ∃ depth',
        (∀ rest, Formula.cutGroup depth (lexeme :: rest) = (Formula.cutGroup depth' rest).map
            fun group => { group with inside := lexeme :: group.inside }) ∧
          ∀ more rest, openBehind (depth + more) (ofLexemes (lexeme :: rest)) =
            openBehind (depth' + more) (ofLexemes rest) := by
  obtain ⟨token, position⟩ := lexeme
  cases token with
  | opening =>
      refine .inr ⟨depth + 1, fun _ => rfl, fun more _ => ?_⟩
      rw [Nat.add_right_comm]
      rfl
  | closing =>
      cases depth with
      | zero => exact .inl ⟨rfl, rfl⟩
      | succ depth =>
          refine .inr ⟨depth, fun _ => rfl, fun more _ => ?_⟩
          rw [Nat.add_right_comm]
          rfl
  | _ => exact .inr ⟨depth, fun _ => rfl, fun _ _ => rfl⟩

/-- A closing parenthesis ends the group at once, and has no partner by itself. -/
theorem cutGroup_closing {lexeme : Lexeme} (h : lexeme.token = .closing) (rest : List Lexeme) :
    Formula.cutGroup 0 (lexeme :: rest) = some ⟨[], lexeme, rest⟩ ∧
      openBehind 0 (ofLexemes (lexeme :: rest)) = none := by
  obtain ⟨token, position⟩ := lexeme
  obtain rfl : token = .closing := h
  exact ⟨rfl, rfl⟩

/-- A group is still to be cut behind lexemes that leave it open. -/
theorem cutGroup_append_of_openBehind (h : openBehind depth (ofLexemes lexemes) = some behind)
    (rest : List Lexeme) :
    Formula.cutGroup depth (lexemes ++ rest) =
      (Formula.cutGroup behind rest).map fun group =>
        { group with inside := lexemes ++ group.inside } := by
  induction lexemes generalizing depth with
  | nil =>
      cases h
      exact Option.map_id'.symm
  | cons lexeme others ih =>
      rcases cutGroup_cons_cases depth lexeme with ⟨rfl, closing⟩ | ⟨depth', cut, counted⟩
      · cases h.symm.trans (cutGroup_closing closing others).2
      · have later : openBehind depth' (ofLexemes others) = some behind :=
          (counted 0 others).symm.trans h
        rw [List.cons_append, cut, ih later, Option.map_map]
        rfl

/-- A group closes among lexemes that leave less open.  Counting is thereby
enough to know that a search succeeds. -/
theorem exists_cutGroup (more : Nat)
    (h : openBehind (depth + (more + 1)) (ofLexemes lexemes) = some behind) (less : behind ≤ more) :
    ∃ group, Formula.cutGroup depth lexemes = some group := by
  induction lexemes generalizing depth with
  | nil =>
      cases h
      omega
  | cons lexeme others ih =>
      rcases cutGroup_cons_cases depth lexeme with ⟨rfl, closing⟩ | ⟨depth', cut, counted⟩
      · exact ⟨_, (cutGroup_closing closing others).1⟩
      · obtain ⟨group, found⟩ := ih ((counted _ others).symm.trans h)
        exact ⟨_, by rw [cut, found]; rfl⟩

/-- Lexemes that close more than they open have a place where the group ends. -/
theorem exists_cutGroup_of_openBehind_eq_none (h : openBehind depth (ofLexemes lexemes) = none) :
    ∃ group, Formula.cutGroup depth lexemes = some group := by
  induction lexemes generalizing depth with
  | nil => cases h
  | cons lexeme others ih =>
      rcases cutGroup_cons_cases depth lexeme with ⟨rfl, closing⟩ | ⟨depth', cut, counted⟩
      · exact ⟨_, (cutGroup_closing closing others).1⟩
      · have later : openBehind depth' (ofLexemes others) = none :=
          (counted 0 others).symm.trans h
        obtain ⟨group, found⟩ := ih later
        exact ⟨_, by rw [cut, found]; rfl⟩

/-- Lexemes whose parentheses match, by counting: nothing is closed that is
not open, and in the end nothing is. -/
theorem balanced_iff : Balanced lexemes ↔ openBehind 0 (ofLexemes lexemes) = some 0 := by
  constructor
  · intro matched
    have whole := matched.cutGroup_eq 0 []
    cases counted : openBehind 0 (ofLexemes lexemes) with
    | some depth =>
        rw [cutGroup_append_of_openBehind counted] at whole
        cases depth with
        | zero => rfl
        | succ depth => cases whole
    | none =>
        -- the group would end before the lexemes do
        obtain ⟨group, cut⟩ := exists_cutGroup_of_openBehind_eq_none counted
        obtain ⟨closed, -, inside, form⟩ := exists_of_cutGroup cut
        have early := inside.cutGroup_eq closed (group.after ++ [⟨.closing, 0⟩])
        rw [← List.cons_append, ← List.append_assoc, ← form, whole] at early
        have short := congrArg List.length form
        have same := congrArg List.length (congrArg Formula.Group.inside (Option.some.inj early))
        simp only [List.length_append, List.length_cons] at short same
        omega
  · intro counted depth rest
    have passed := Parenthesis.openBehind_add counted depth
    rw [Nat.zero_add] at passed
    exact cutGroup_append_of_openBehind passed rest

instance (lexemes : List Lexeme) : Decidable (Balanced lexemes) :=
  decidable_of_iff _ balanced_iff.symm

/-- Lexemes whose groups all end. -/
def GroupsClose (lexemes : List Lexeme) : Prop :=
  ∀ before position inner, lexemes = before ++ ⟨.opening, position⟩ :: inner →
    ∃ group, Formula.cutGroup 0 inner = some group

namespace GroupsClose

theorem of_append {first second : List Lexeme} (h : GroupsClose (first ++ second)) :
    GroupsClose second := by
  rintro before position inner rfl
  exact h (first ++ before) position inner (List.append_assoc _ _ _).symm

/-- Without its first lexeme it closes its groups as well. -/
theorem of_cons {lexeme : Lexeme} {rest : List Lexeme} (h : GroupsClose (lexeme :: rest)) :
    GroupsClose rest := by
  rw [← List.singleton_append] at h
  exact h.of_append

/-- What follows a group that has been cut. -/
theorem after {lexemes : List Lexeme} {group : Formula.Group} (h : GroupsClose lexemes)
    (cut : Formula.cutGroup 0 lexemes = some group) : GroupsClose group.after := by
  rw [Formula.eq_of_cutGroup cut] at h
  exact h.of_append.of_cons

end GroupsClose

/-- Balanced lexemes close every group that they open. -/
theorem Balanced.groupsClose (h : Balanced lexemes) : GroupsClose lexemes := by
  rintro before position inner rfl
  have counted := balanced_iff.1 h
  rw [Parenthesis.ofLexemes_append, Parenthesis.openBehind_append] at counted
  obtain ⟨depth, -, last⟩ := Option.bind_eq_some_iff.1 counted
  refine exists_cutGroup depth ?_ (Nat.zero_le depth)
  rw [Nat.zero_add]
  exact last

end Groups

/-! ### The check of a text -/

namespace Formula

/-- Texts whose parentheses match, built the way such texts are built.  The
check is proved to accept exactly these. -/
inductive Nested : List Char → Prop
  | nil : Nested []
  | plain {c : Char} {rest : List Char} (hc : c ≠ '(' ∧ c ≠ ')') (h : Nested rest) :
      Nested (c :: rest)
  | group {inside rest : List Char} (hinside : Nested inside) (h : Nested rest) :
      Nested ('(' :: (inside ++ ')' :: rest))

/-- The parentheses at two places of a text close a group: what stands between
them is nested. -/
def Matches (text : List Char) (opened closed : Nat) : Prop :=
  ∃ before inside after, Nested inside ∧ text = before ++ '(' :: (inside ++ ')' :: after) ∧
    opened = before.length ∧ closed = before.length + 1 + inside.length

/-- A place where a parenthesis stands that closes no group with another one,
to the right or to the left. -/
structure Unmatched (text : List Char) (position : Nat) : Prop where
  parenthesis : text[position]? = some '(' ∨ text[position]? = some ')'
  alone : ∀ other, ¬ Matches text position other ∧ ¬ Matches text other position

/-- Texts whose parentheses match but for those that are open at some places,
the last first. -/
inductive Opened : List Char → List Nat → Prop
  | none {text : List Char} (h : Nested text) : Opened text []
  | cons {before after : List Char} {places : List Nat} (hbefore : Opened before places)
      (hafter : Nested after) : Opened (before ++ '(' :: after) (before.length :: places)

theorem ofChar?_plain {c : Char} (h : c ≠ '(' ∧ c ≠ ')') : Parenthesis.ofChar? c = none := by
  rw [Parenthesis.ofChar?]
  · exact h.1
  · exact h.2

theorem apart_of_isBlank {c : Char} (h : Text.isBlank c = true) : c ≠ '(' ∧ c ≠ ')' := by
  constructor
  all_goals
    rintro rfl
    exact absurd h (by decide)

namespace Nested

variable {text first second : List Char} {position : Nat}

theorem of_plain (h : ∀ c ∈ text, c ≠ '(' ∧ c ≠ ')') : Nested text := by
  induction text with
  | nil => exact .nil
  | cons c rest ih =>
      exact .plain (h c List.mem_cons_self) (ih fun d hd => h d (List.mem_cons_of_mem c hd))

theorem append (hfirst : Nested first) (hsecond : Nested second) : Nested (first ++ second) := by
  induction hfirst with
  | nil => exact hsecond
  | plain hc _ ih => exact .plain hc ih
  | @group inside rest hinside _ _ ih =>
      rw [List.cons_append, List.append_assoc, List.cons_append]
      exact .group hinside ih

theorem openBehind_eq (h : Nested text) : openBehind 0 (ofText text) = some 0 := by
  induction h with
  | nil => rfl
  | plain hc _ ih =>
      rw [ofText, List.filterMap_cons, ofChar?_plain hc]
      exact ih
  | @group inside rest _ _ ihinside ih =>
      show openBehind 1 (ofText (inside ++ ')' :: rest)) = some 0
      rw [Parenthesis.ofText_append, Parenthesis.openBehind_append_of_match ihinside]
      exact ih

end Nested

namespace Matches

variable {text : List Char} {opened closed : Nat}

/-- Partners stay partners behind other text, with their places moved on. -/
theorem append_left (h : Matches text opened closed) (front : List Char) :
    Matches (front ++ text) (front.length + opened) (front.length + closed) := by
  obtain ⟨before, inside, after, nested, rfl, rfl, rfl⟩ := h
  refine ⟨front ++ before, inside, after, nested, (List.append_assoc _ _ _).symm, ?_, ?_⟩
  · exact List.length_append.symm
  · rw [List.length_append, Nat.add_assoc, Nat.add_assoc, Nat.add_assoc]

theorem append_right (h : Matches text opened closed) (rest : List Char) :
    Matches (text ++ rest) opened closed := by
  obtain ⟨before, inside, after, nested, rfl, rfl, rfl⟩ := h
  exact ⟨before, inside, after ++ rest, nested, by simp, rfl, rfl⟩

end Matches

/-- Every parenthesis of a nested text has a partner, by induction on how the
text is nested. -/
theorem Nested.exists_match {text : List Char} {position : Nat} (h : Nested text)
    (parenthesis : text[position]? = some '(' ∨ text[position]? = some ')') :
    ∃ other, Matches text position other ∨ Matches text other position := by
  induction h generalizing position with
  | nil => simp at parenthesis
  | @plain c rest hc _ ih =>
      cases position with
      | zero => simp [hc] at parenthesis
      | succ position =>
          obtain ⟨other, h⟩ := ih parenthesis
          rw [Nat.add_comm]
          exact ⟨1 + other, h.imp (·.append_left [c]) (·.append_left [c])⟩
  | @group inside rest hinside hrest ihinside ih =>
      have outer : Matches ('(' :: (inside ++ ')' :: rest)) 0 (1 + inside.length) :=
        ⟨[], inside, rest, hinside, rfl, rfl, by simp⟩
      rcases position with _ | position
      · exact ⟨_, .inl outer⟩
      · rw [List.getElem?_cons_succ] at parenthesis
        rcases Nat.lt_trichotomy position inside.length with within | rfl | beyond
        · rw [List.getElem?_append_left within] at parenthesis
          obtain ⟨other, h⟩ := ihinside parenthesis
          have wider {opened closed : Nat} (h : Matches inside opened closed) :=
            (h.append_right (')' :: rest)).append_left ['(']
          rw [Nat.add_comm]
          exact ⟨1 + other, h.imp wider wider⟩
        · rw [Nat.add_comm]
          exact ⟨0, .inr outer⟩
        · obtain ⟨behind, rfl⟩ := Nat.exists_eq_add_of_le (Nat.succ_le_of_lt beyond)
          have form : '(' :: (inside ++ ')' :: rest) = ('(' :: (inside ++ [')'])) ++ rest := by simp
          have place : inside.length.succ + behind + 1 =
              ('(' :: (inside ++ [')'])).length + behind := by simp; omega
          rw [List.getElem?_append_right (by omega),
            show inside.length.succ + behind - inside.length = behind + 1 by omega,
            List.getElem?_cons_succ] at parenthesis
          obtain ⟨other, h⟩ := ih parenthesis
          rw [form, place]
          exact ⟨_, h.imp (·.append_left _) (·.append_left _)⟩

/-- No parenthesis of a nested text is unmatched, as its partner would
close or open it. -/
theorem Nested.not_unmatched {text : List Char} {position : Nat} (h : Nested text) :
    ¬ Unmatched text position := by
  rintro ⟨parenthesis, alone⟩
  obtain ⟨other, first | second⟩ := h.exists_match parenthesis
  · exact (alone other).1 first
  · exact (alone other).2 second

/-- A closing parenthesis behind a text whose parentheses match has no partner. -/
theorem unmatched_closing {front : List Char} (h : Nested front) (rest : List Char) :
    Unmatched (front ++ ')' :: rest) front.length := by
  refine ⟨.inr (by simp), fun other => ⟨?_, ?_⟩⟩
  · rintro ⟨before, inside, after, -, form, place, -⟩
    cases (List.append_inj form place).2
  · rintro ⟨before, inside, after, nested, form, -, place⟩
    have split : front ++ ')' :: rest = (before ++ '(' :: inside) ++ ')' :: after := by
      rw [form, List.append_assoc, List.cons_append]
    obtain rfl := List.append_inj_left split (by simp; omega)
    -- the group would leave a parenthesis open in the text before its end
    have counted := h.openBehind_eq
    rw [Parenthesis.ofText_append, Parenthesis.openBehind_append] at counted
    obtain ⟨depth, -, last⟩ := Option.bind_eq_some_iff.1 counted
    have more := Parenthesis.openBehind_add nested.openBehind_eq (depth + 1)
    rw [Nat.zero_add] at more
    cases more.symm.trans last

/-- An opening parenthesis before a text whose parentheses match has no partner. -/
theorem unmatched_opening {after : List Char} (h : Nested after) (before : List Char) :
    Unmatched (before ++ '(' :: after) before.length := by
  refine ⟨.inl (by simp), fun other => ⟨?_, ?_⟩⟩
  · rintro ⟨before', inside, after', nested, form, place, -⟩
    have rest := (List.cons.inj (List.append_inj_right form place)).2
    -- the end of the group would close nothing in the text behind its start
    have counted := h.openBehind_eq
    rw [rest, Parenthesis.ofText_append,
      Parenthesis.openBehind_append_of_match nested.openBehind_eq] at counted
    cases counted
  · rintro ⟨before', inside, after', -, form, -, place⟩
    have split : before ++ '(' :: after = (before' ++ '(' :: inside) ++ ')' :: after' := by
      rw [form, List.append_assoc, List.cons_append]
    have head := List.append_inj_right split (by simp; omega)
    cases head

namespace Opened

variable {text : List Char} {place : Nat} {places : List Nat}

theorem append {rest : List Char} (h : Opened text places) (hrest : Nested rest) :
    Opened (text ++ rest) places := by
  cases h with
  | none h => exact .none (h.append hrest)
  | cons hbefore hafter =>
      rw [List.append_assoc, List.cons_append]
      exact .cons hbefore (hafter.append hrest)

theorem opening (h : Opened text places) : Opened (text ++ ['(']) (text.length :: places) :=
  .cons h .nil

/-- A closing parenthesis closes the group that was opened last. -/
theorem closing (h : Opened text (place :: places)) : Opened (text ++ [')']) places := by
  cases h with
  | cons hbefore hafter =>
      rw [List.append_assoc, List.cons_append]
      exact hbefore.append (.group hafter .nil)

end Opened

/-- What the check finds out about a text of which some is read: it passes, or
it blames a place, and then that place is unmatched or one too deep. -/
theorem checkParentheses_cases_of_opened {front rest : List Char} {places : List Nat}
    (h : Opened front places) :
    (checkParentheses places front.length rest = .ok () ∧ Nested (front ++ rest)) ∨
      (∃ position, checkParentheses places front.length rest = .error (.unbalanced position) ∧
        Unmatched (front ++ rest) position) ∨
      ∃ position, checkParentheses places front.length rest = .error (.tooManyOpen position) := by
  induction rest generalizing front places with
  | nil =>
      rw [List.append_nil]
      cases h with
      | none h => exact .inl ⟨rfl, h⟩
      | cons _ hafter => exact .inr (.inl ⟨_, rfl, unmatched_opening hafter _⟩)
  | cons c rest ih =>
      have further {places' : List Nat} (h' : Opened (front ++ [c]) places') := ih h'
      rw [List.length_append, List.append_assoc] at further
      by_cases opening : c = '('
      · subst opening
        rw [checkParentheses]
        by_cases full : openLimit ≤ places.length
        · rw [if_pos full]
          exact .inr (.inr ⟨_, rfl⟩)
        · rw [if_neg full]
          exact further h.opening
      by_cases closing : c = ')'
      · subst closing
        cases h with
        | none h => exact .inr (.inl ⟨_, rfl, unmatched_closing h rest⟩)
        | cons hbefore hafter =>
            rw [checkParentheses]
            exact further (Opened.cons hbefore hafter).closing
      · rw [checkParentheses_cons opening closing]
        exact further (h.append (.plain ⟨opening, closing⟩ .nil))

/-- The check lets a text pass whose parentheses match, blames a parenthesis
that has no partner, or gives up where too many are open. -/
theorem checkParentheses_cases (text : List Char) :
    (checkParentheses [] 0 text = .ok () ∧ Nested text) ∨
      (∃ position, checkParentheses [] 0 text = .error (.unbalanced position) ∧
        Unmatched text position) ∨
      ∃ position, checkParentheses [] 0 text = .error (.tooManyOpen position) :=
  checkParentheses_cases_of_opened (.none .nil)

/-- What the check passes is nested. -/
theorem nested_of_checkParentheses {text : List Char}
    (passed : checkParentheses [] 0 text = .ok ()) : Nested text := by
  rcases checkParentheses_cases text with ⟨-, nested⟩ | ⟨_, failed, -⟩ | ⟨_, failed⟩
  · exact nested
  all_goals cases passed.symm.trans failed

/-- The texts that pass the check are those whose parentheses match, unless
too many are open. -/
theorem checkParentheses_eq_ok_iff {text : List Char} (within : nesting 0 text ≤ openLimit) :
    checkParentheses [] 0 text = .ok () ↔ Nested text := by
  refine ⟨nested_of_checkParentheses, fun nested => ?_⟩
  rcases checkParentheses_cases text with ⟨passed, -⟩ | ⟨_, -, unmatched⟩ | ⟨_, failed⟩
  · exact passed
  · cases nested.not_unmatched unmatched
  · exact absurd (lt_nesting_of_tooManyOpen failed) (Nat.not_lt.2 within)

end Formula

/-! ### From the text to its lexemes -/

theorem ofText_of_plain {text : List Char} (h : ∀ c ∈ text, Formula.IsPlain c) : ofText text = [] :=
  List.filterMap_eq_nil_iff.2 fun c hc => Formula.ofChar?_plain (h c hc).allowed.2

/-- The parentheses in the written form of a token are those of the token. -/
theorem Formula.Token.Spelled.parentheses_eq {token : Token} (h : token.Spelled) :
    ofText token.text.toList = (Parenthesis.ofToken? token).toList := by
  cases token with
  | number text => exact ofText_of_plain (IsNumeral.plain h)
  | ident name => exact ofText_of_plain (IsName.plain h)
  | _ => decide

/-- The parentheses of the lexemes of a text are those of the text, so a check
of one is a check of the other. -/
theorem Formula.Laid.parentheses_eq {position : Nat} {text : List Char} {lexemes : List Lexeme}
    (h : Formula.Laid position text lexemes) : ofLexemes lexemes = ofText text := by
  induction h with
  | nil => rfl
  | blank hc _ ih =>
      rw [ih, ofText, ofText, List.filterMap_cons,
        Formula.ofChar?_plain (Formula.apart_of_isBlank hc)]
  | token spelled _ _ ih =>
      rw [Parenthesis.ofText_append, Parenthesis.ofLexemes_cons, ih, spelled.parentheses_eq]

/-- The lexemes of a text whose parentheses match do so as well, since no
token contains half a group. -/
theorem Formula.Nested.balanced {text : String} {lexemes : List Lexeme}
    (h : Formula.Nested text.toList) (cut : Formula.lexemes text = .ok lexemes) :
    Balanced lexemes := by
  rw [balanced_iff, (Formula.laid_of_lexemesFrom cut).parentheses_eq]
  exact h.openBehind_eq

end Fluxion
