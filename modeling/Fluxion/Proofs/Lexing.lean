import Fluxion.Formula.Lexer
import Fluxion.Proofs.Meaning
import Mathlib.Data.List.TakeWhile

/-!
# Runs of lexemes

Where a text can be cut.  Numbers and names end only where a character follows that belongs to
neither (`Ends`); with such a character behind it, a piece of text is read as the same lexemes
whatever comes later (`Reads`), and pieces that are read next to each other are read together
(`Reads.join`).
-/

namespace Fluxion

open Fluxion.Text (isBlank isDigit isLetter)

namespace Formula

/-! ### Classes of characters -/

/-- The visible characters of the basic set are not blank. -/
theorem isBlank_eq_false_of_visible {c : Char} (h : 0x21 ≤ c.toNat ∧ c.toNat ≤ 0x7E) :
    isBlank c = false := by
  have outside : ∀ range ∈ Text.blankRanges, range.2 < 0x21 ∨ 0x7E < range.1 := by decide
  rw [isBlank, List.any_eq_false]
  intro range hrange
  have := outside range hrange
  rw [decide_eq_true_eq]
  omega

theorem isDigit_iff {c : Char} : isDigit c = true ↔ 0x30 ≤ c.toNat ∧ c.toNat ≤ 0x39 :=
  decide_eq_true_iff

theorem isLetter_iff {c : Char} :
    isLetter c = true ↔
      0x61 ≤ c.toNat ∧ c.toNat ≤ 0x7A ∨ 0x41 ≤ c.toNat ∧ c.toNat ≤ 0x5A :=
  decide_eq_true_iff

/-- A character of numbers and names. -/
def IsPlain (c : Char) : Prop := isDigit c = true ∨ isLetter c = true ∨ c = '.'

theorem IsPlain.isBlank_eq_false {c : Char} (h : IsPlain c) : isBlank c = false := by
  rcases h with digit | letter | rfl
  · rw [isDigit_iff] at digit
    exact isBlank_eq_false_of_visible (by omega)
  · rw [isLetter_iff] at letter
    exact isBlank_eq_false_of_visible (by omega)
  · decide

/-- A text that no number and no name in front of it runs into.  The texts of
operators and parentheses all end what is before them. -/
def Ends (text : List Char) : Prop :=
  ∀ c ∈ text.head?, isDigit c = false ∧ isLetter c = false ∧ c ≠ '.'

theorem ends_nil : Ends [] := by simp [Ends]

theorem ends_cons {c : Char} {text : List Char}
    (h : isDigit c = false ∧ isLetter c = false ∧ c ≠ '.') : Ends (c :: text) := by
  simpa [Ends] using h

/-- A run of characters of a class is cut where the next character is of
another class. -/
theorem takeWhile_append_of_ends {p : Char → Bool} {run rest : List Char}
    (all : ∀ c ∈ run, p c = true) (stops : ∀ c ∈ rest.head?, p c = false) :
    (run ++ rest).takeWhile p = run ∧ (run ++ rest).dropWhile p = rest := by
  rw [List.takeWhile_append_of_pos all, List.dropWhile_append_of_pos all]
  cases rest with
  | nil => simp
  | cons c rest =>
      have stop : p c = false := stops c rfl
      simp [stop]

/-! ### Numbers and names -/

/-- What is read as a number: a decimal, or digits behind a point.  A sign is
no part of it. -/
def IsNumeral (text : List Char) : Prop :=
  IsDecimal text ∨
    ∃ fraction, fraction ≠ [] ∧ (∀ c ∈ fraction, isDigit c = true) ∧ text = '.' :: fraction

theorem IsNumeral.exists_cons {text : List Char} (h : IsNumeral text) :
    ∃ c rest, text = c :: rest ∧ (isDigit c = true ∨ c = '.') := by
  rcases h with decimal | ⟨fraction, -, -, rfl⟩
  · obtain ⟨c, rest, rfl, digit⟩ := decimal.exists_cons
    exact ⟨c, rest, rfl, .inl digit⟩
  · exact ⟨'.', fraction, rfl, .inr rfl⟩

theorem IsNumeral.plain {text : List Char} (h : IsNumeral text) : ∀ c ∈ text, IsPlain c := by
  have fractional {fraction : List Char} (digits : ∀ c ∈ fraction, isDigit c = true) :
      ∀ c ∈ '.' :: fraction, IsPlain c := by
    intro c hc
    rcases List.mem_cons.1 hc with rfl | hc
    · exact .inr (.inr rfl)
    · exact .inl (digits c hc)
  intro c hc
  rcases h with ⟨whole, -, hwhole, rfl | ⟨fraction, hfraction, rfl⟩⟩ |
    ⟨fraction, -, hfraction, rfl⟩
  · exact .inl (hwhole c hc)
  · rcases List.mem_append.1 hc with hc | hc
    · exact .inl (hwhole c hc)
    · exact fractional hfraction c hc
  · exact fractional hfraction c hc

/-- Nothing at the start of a text goes on with the number before it. -/
def NumeralStops (digits rest : List Char) : Prop :=
  ∀ c ∈ rest.head?, isDigit c = false ∧ (c = '.' → '.' ∈ digits)

theorem Ends.numeralStops {rest : List Char} (ends : Ends rest) (digits : List Char) :
    NumeralStops digits rest :=
  fun c hc => ⟨(ends c hc).1, fun point => absurd point (ends c hc).2.2⟩

/-- A number is as wide as its numeral if nothing goes on with it. -/
theorem numberWidth_numeral {digits rest : List Char} (numeral : IsNumeral digits)
    (stops : NumeralStops digits rest) : numberWidth (digits ++ rest) = digits.length := by
  have noDigit : ∀ c ∈ rest.head?, isDigit c = false := fun c hc => (stops c hc).1
  have point : isDigit '.' = false := by decide
  rcases numeral with ⟨whole, nonempty, hwhole, rfl | ⟨fraction, hfraction, rfl⟩⟩ |
    ⟨fraction, nonempty, hfraction, rfl⟩
  · have split := takeWhile_append_of_ends hwhole noDigit
    obtain ⟨n, length⟩ := Nat.exists_eq_succ_of_ne_zero (mt List.length_eq_zero_iff.1 nonempty)
    rw [numberWidth, split.1, split.2]
    cases rest with
    | nil => simp [length]
    | cons c rest =>
        have noPoint : c ≠ '.' := fun same => by
          have digit := hwhole '.' ((stops c rfl).2 same)
          rw [point] at digit
          cases digit
        simp [noPoint, length]
  · have stops : ∀ c ∈ ('.' :: (fraction ++ rest)).head?, isDigit c = false := by simp [point]
    have split := takeWhile_append_of_ends hwhole stops
    have behind := takeWhile_append_of_ends hfraction noDigit
    obtain ⟨n, length⟩ := Nat.exists_eq_succ_of_ne_zero (mt List.length_eq_zero_iff.1 nonempty)
    rw [List.append_assoc, List.cons_append, numberWidth, split.1, split.2]
    simp [length, behind.1]
  · have behind := takeWhile_append_of_ends hfraction noDigit
    simp [numberWidth, point, behind.1, nonempty]

/-- A numeral is read as far as it goes, or farther.  The lexer takes the
longest number there is. -/
theorem length_le_numberWidth {digits : List Char} (numeral : IsNumeral digits) (rest : List Char) :
    digits.length ≤ numberWidth (digits ++ rest) := by
  have point : isDigit '.' = false := by decide
  rcases numeral with ⟨whole, nonempty, hwhole, rfl | ⟨fraction, hfraction, rfl⟩⟩ |
    ⟨fraction, nonempty, hfraction, rfl⟩
  · rw [numberWidth, List.takeWhile_append_of_pos hwhole, List.length_append]
    split <;> omega
  · have stops : ∀ c ∈ ('.' :: (fraction ++ rest)).head?, isDigit c = false := by simp [point]
    have split := takeWhile_append_of_ends hwhole stops
    obtain ⟨n, length⟩ := Nat.exists_eq_succ_of_ne_zero (mt List.length_eq_zero_iff.1 nonempty)
    rw [List.append_assoc, List.cons_append, numberWidth, split.1, split.2]
    simp [length, List.takeWhile_append_of_pos hfraction]
  · simp [numberWidth, point, List.takeWhile_append_of_pos hfraction, nonempty]

/-- What begins with neither a digit nor a point has no number in front. -/
theorem numberWidth_cons {c : Char} (text : List Char) (digit : isDigit c = false)
    (point : c ≠ '.') : numberWidth (c :: text) = 0 := by
  simp [numberWidth, digit, point]

theorem numberWidth_of_letter {c : Char} (text : List Char) (letter : isLetter c = true) :
    numberWidth (c :: text) = 0 := by
  rw [isLetter_iff] at letter
  refine numberWidth_cons text ?_ ?_
  · rw [Bool.eq_false_iff, Ne, isDigit_iff]
    omega
  · rintro rfl
    revert letter
    decide

/-- What is read as a name: letters, and more letters behind a point, as in a
qualified name. -/
def IsName (text : List Char) : Prop :=
  ∃ first, first ≠ [] ∧ (∀ c ∈ first, isLetter c = true) ∧
    (text = first ∨ ∃ second, second ≠ [] ∧ (∀ c ∈ second, isLetter c = true) ∧
      text = first ++ '.' :: second)

theorem IsName.of_letters {text : List Char} (nonempty : text ≠ [])
    (letters : text.all isLetter = true) : IsName text :=
  ⟨text, nonempty, List.all_eq_true.1 letters, .inl rfl⟩

theorem IsName.exists_cons {text : List Char} (h : IsName text) :
    ∃ c rest, text = c :: rest ∧ isLetter c = true := by
  obtain ⟨first, nonempty, hfirst, form⟩ := h
  obtain ⟨c, others, rfl⟩ := List.exists_cons_of_ne_nil nonempty
  have letter : isLetter c = true := hfirst c List.mem_cons_self
  rcases form with rfl | ⟨second, -, -, rfl⟩
  · exact ⟨c, others, rfl, letter⟩
  · exact ⟨c, others ++ '.' :: second, rfl, letter⟩

theorem IsName.plain {text : List Char} (h : IsName text) : ∀ c ∈ text, IsPlain c := by
  intro c hc
  obtain ⟨first, -, hfirst, rfl | ⟨second, -, hsecond, rfl⟩⟩ := h
  · exact .inr (.inl (hfirst c hc))
  · rcases List.mem_append.1 hc with hc | hc
    · exact .inr (.inl (hfirst c hc))
    · rcases List.mem_cons.1 hc with rfl | hc
      · exact .inr (.inr rfl)
      · exact .inr (.inl (hsecond c hc))

/-- Nothing at the start of a text goes on with the name before it. -/
def NameStops (name rest : List Char) : Prop :=
  ∀ c ∈ rest.head?, isLetter c = false ∧
    (c = '.' → '.' ∈ name ∨ ∀ d ∈ rest.tail.head?, isLetter d = false)

theorem Ends.nameStops {rest : List Char} (ends : Ends rest) (name : List Char) :
    NameStops name rest :=
  fun c hc => ⟨(ends c hc).2.1, fun point => absurd point (ends c hc).2.2⟩

/-- A name is as wide as it is written if nothing goes on with it. -/
theorem identWidth_name {name rest : List Char} (h : IsName name) (stops : NameStops name rest) :
    identWidth (name ++ rest) = name.length := by
  have noLetter : ∀ c ∈ rest.head?, isLetter c = false := fun c hc => (stops c hc).1
  have point : isLetter '.' = false := by decide
  obtain ⟨first, nonempty, hfirst, rfl | ⟨second, nonempty', hsecond, rfl⟩⟩ := h
  · have split := takeWhile_append_of_ends hfirst noLetter
    rw [identWidth, split.1, split.2, if_neg (mt List.length_eq_zero_iff.1 nonempty)]
    cases rest with
    | nil => rfl
    | cons c rest =>
        by_cases pointed : c = '.'
        · subst pointed
          have pointless : '.' ∉ name := fun member => by
            have letter := hfirst '.' member
            rw [point] at letter
            cases letter
          -- the point belongs to the name only if a letter follows
          have behind : ∀ d ∈ rest.head?, isLetter d = false :=
            ((stops '.' rfl).2 rfl).resolve_left pointless
          have nothing : ([] ++ rest).takeWhile isLetter = [] :=
            (takeWhile_append_of_ends (by simp) behind).1
          rw [List.nil_append] at nothing
          simp [nothing]
        · simp [pointed]
  · have stops : ∀ c ∈ ('.' :: (second ++ rest)).head?, isLetter c = false := by simp [point]
    have split := takeWhile_append_of_ends hfirst stops
    have behind := takeWhile_append_of_ends hsecond noLetter
    rw [List.append_assoc, List.cons_append, identWidth, split.1, split.2,
      if_neg (mt List.length_eq_zero_iff.1 nonempty)]
    simp [behind.1, nonempty', Nat.add_assoc, Nat.add_comm 1]

/-- A name is read as far as it goes, or farther. -/
theorem length_le_identWidth {name : List Char} (h : IsName name) (rest : List Char) :
    name.length ≤ identWidth (name ++ rest) := by
  have point : isLetter '.' = false := by decide
  obtain ⟨first, nonempty, hfirst, rfl | ⟨second, nonempty', hsecond, rfl⟩⟩ := h
  · have positive : 0 < name.length := List.length_pos_iff.2 nonempty
    rw [identWidth, List.takeWhile_append_of_pos hfirst, List.length_append, if_neg (by omega)]
    split
    · dsimp only
      split <;> omega
    · omega
  · have stops : ∀ c ∈ ('.' :: (second ++ rest)).head?, isLetter c = false := by simp [point]
    have split := takeWhile_append_of_ends hfirst stops
    rw [List.append_assoc, List.cons_append, identWidth, split.1, split.2,
      if_neg (mt List.length_eq_zero_iff.1 nonempty)]
    simp [List.takeWhile_append_of_pos hsecond, nonempty', Nat.add_assoc, Nat.add_comm 1]

/-- What does not begin with a letter has no name in front. -/
theorem identWidth_cons {c : Char} (text : List Char) (letter : isLetter c = false) :
    identWidth (c :: text) = 0 := by
  simp [identWidth, letter]

/-- A text is a run of characters of a class, and then a text that starts with
no such character. -/
theorem exists_run (p : Char → Bool) (text : List Char) :
    ∃ run rest, text = run ++ rest ∧ (∀ c ∈ run, p c = true) ∧ (∀ c ∈ rest.head?, p c = false) ∧
      text.takeWhile p = run ∧ text.dropWhile p = rest := by
  refine ⟨_, _, List.takeWhile_append_dropWhile.symm, fun c => List.mem_takeWhile_imp, ?_, rfl, rfl⟩
  intro c hc
  have stop := List.head?_dropWhile_not p text
  rw [Option.mem_def.1 hc] at stop
  exact stop

/-- The width of a number is that of a numeral which nothing behind it
goes on with. -/
theorem exists_numeral_of_width {text : List Char} {n : Nat} (width : numberWidth text = n + 1) :
    ∃ digits rest, text = digits ++ rest ∧ digits.length = n + 1 ∧ IsNumeral digits ∧
      NumeralStops digits rest := by
  obtain ⟨front, behind, rfl, digits, stops, front_eq, behind_eq⟩ := exists_run isDigit text
  rw [numberWidth, front_eq, behind_eq] at width
  by_cases pointed : ∃ after, behind = '.' :: after
  · obtain ⟨after, rfl⟩ := pointed
    obtain ⟨decimals, rest, rfl, hdecimals, ends, decimals_eq, -⟩ := exists_run isDigit after
    simp only [decimals_eq] at width
    refine ⟨front ++ '.' :: decimals, rest, by simp, ?_, ?_, fun c hc => ⟨ends c hc, by simp⟩⟩
    · cases front with
      | nil => cases decimals <;> simp_all
      | cons c front =>
          simp only [List.length_cons, List.length_append] at width ⊢
          omega
    · cases front with
      | nil =>
          cases decimals with
          | nil => cases width
          | cons d decimals => exact .inr ⟨_, List.cons_ne_nil _ _, hdecimals, rfl⟩
      | cons c front =>
          exact .inl ⟨_, List.cons_ne_nil _ _, digits, .inr ⟨decimals, hdecimals, rfl⟩⟩
  · have whole : front.length = n + 1 := by
      cases behind with
      | nil => cases front with
        | nil => simp at width
        | cons c front => simpa using width
      | cons c rest =>
          have noPoint : c ≠ '.' := fun same => pointed ⟨rest, by rw [same]⟩
          cases front with
          | nil => simp [noPoint] at width
          | cons c front => simpa [noPoint] using width
    have nonempty : front ≠ [] := by
      rintro rfl
      cases whole
    refine ⟨front, behind, rfl, whole, .inl ⟨front, nonempty, digits, .inl rfl⟩, fun c hc => ?_⟩
    refine ⟨stops c hc, ?_⟩
    rintro rfl
    exact absurd (List.head?_eq_some_iff.1 hc) pointed

/-- The width of a name is that of a name which nothing behind it goes on with. -/
theorem exists_name_of_width {text : List Char} {n : Nat} (width : identWidth text = n + 1) :
    ∃ name rest, text = name ++ rest ∧ name.length = n + 1 ∧ IsName name ∧
      NameStops name rest := by
  obtain ⟨first, behind, rfl, letters, stops, first_eq, behind_eq⟩ := exists_run isLetter text
  rw [identWidth, first_eq, behind_eq] at width
  have nonempty : first ≠ [] := by
    rintro rfl
    cases width
  rw [if_neg (mt List.length_eq_zero_iff.1 nonempty)] at width
  by_cases pointed : ∃ after, behind = '.' :: after
  · obtain ⟨after, rfl⟩ := pointed
    obtain ⟨second, rest, rfl, hsecond, ends, second_eq, -⟩ := exists_run isLetter after
    simp only [second_eq] at width
    by_cases alone : second = []
    · subst alone
      refine ⟨first, _, rfl, width, ⟨first, nonempty, letters, .inl rfl⟩, ?_⟩
      rintro _ ⟨⟩
      exact ⟨stops _ rfl, fun _ => .inr ends⟩
    · rw [if_neg (mt List.length_eq_zero_iff.1 alone)] at width
      refine ⟨first ++ '.' :: second, rest, by simp, ?_, ?_, fun c hc => ⟨ends c hc, by simp⟩⟩
      · rw [List.length_append, List.length_cons, ← width]
        omega
      · exact ⟨first, nonempty, letters, .inr ⟨second, alone, hsecond, rfl⟩⟩
  · have alone : first.length = n + 1 := by
      split at width
      · exact absurd ⟨_, rfl⟩ pointed
      · exact width
    refine ⟨first, behind, rfl, alone, ⟨first, nonempty, letters, .inl rfl⟩, fun c hc => ?_⟩
    refine ⟨stops c hc, ?_⟩
    rintro rfl
    exact absurd (List.head?_eq_some_iff.1 hc) pointed

/-! ### Symbols -/

/-- The operators and parentheses of one character. -/
def symbols : List (Char × Token) :=
  [('+', .plus), ('-', .minus), ('*', .star), ('/', .slash), ('^', .caret), ('(', .opening),
    (')', .closing)]

/-- Symbols are neither blanks nor parts of numbers and names. -/
theorem apart_of_mem_symbols : ∀ entry ∈ symbols,
    isBlank entry.1 = false ∧ isDigit entry.1 = false ∧ isLetter entry.1 = false ∧
      entry.1 ≠ '.' := by
  decide

/-- A symbol is read before everything, but for a star before another, which
together are the power sign. -/
theorem symbol?_cons {c : Char} {token : Token} {rest : List Char} (h : (c, token) ∈ symbols)
    (noStar : c = '*' → rest.head? ≠ some '*') : symbol? (c :: rest) = some (token, 1) := by
  simp only [symbols, List.mem_cons, List.not_mem_nil, or_false, Prod.mk.injEq] at h
  rcases h with ⟨rfl, rfl⟩ | ⟨rfl, rfl⟩ | ⟨rfl, rfl⟩ | ⟨rfl, rfl⟩ | ⟨rfl, rfl⟩ | ⟨rfl, rfl⟩ |
    ⟨rfl, rfl⟩
  -- only a star can be the start of a longer operator
  case inr.inr.inl =>
    cases rest with
    | nil => rfl
    | cons d rest =>
        have other : d ≠ '*' := fun same => noStar rfl (congrArg some same)
        simp [symbol?, other]
  all_goals rfl

/-- A symbol that is read is the power sign, or one of the others and no star
before another star. -/
theorem symbol?_cases {text : List Char} {token : Token} {width : Nat}
    (h : symbol? text = some (token, width)) :
    (∃ rest, text = '*' :: '*' :: rest ∧ token = .power ∧ width = 2) ∨
      ∃ c rest, text = c :: rest ∧ (c, token) ∈ symbols ∧ width = 1 ∧
        (c = '*' → rest.head? ≠ some '*') := by
  unfold symbol? at h
  split at h
  case h_1 rest =>
    cases h
    exact .inl ⟨rest, rfl, rfl, rfl⟩
  case h_5 rest other =>
    cases h
    refine .inr ⟨_, rest, rfl, by decide, rfl, fun _ star => ?_⟩
    obtain ⟨behind, rfl⟩ := List.head?_eq_some_iff.1 star
    exact other behind rfl
  case h_9 => cases h
  all_goals
    cases h
    exact .inr ⟨_, _, rfl, by decide, rfl, fun star => absurd star (by decide)⟩

/-! ### Single tokens -/

/-- The forms that tokens are written in.  A token that has no such form
is never read. -/
def Token.Spelled : Token → Prop
  | .number text => IsNumeral text.toList
  | .ident name => IsName name.toList
  | _ => True

/-- Nothing at the start of a text goes on with the token before it. -/
def Token.StopsBefore (rest : List Char) : Token → Prop
  | .number text => NumeralStops text.toList rest
  | .ident name => NameStops name.toList rest
  | .star => rest.head? ≠ some '*'
  | _ => True

theorem toList_text_of_mem_symbols : ∀ entry ∈ symbols, entry.2.text.toList = [entry.1] := by
  decide

/-- A symbol is a written form of its token, and ends before what follows it
unless two stars meet. -/
theorem spelled_of_mem_symbols {c : Char} {token : Token} {rest : List Char}
    (h : (c, token) ∈ symbols) (noStar : c = '*' → rest.head? ≠ some '*') :
    token.Spelled ∧ token.StopsBefore rest := by
  simp only [symbols, List.mem_cons, List.not_mem_nil, or_false, Prod.mk.injEq] at h
  rcases h with ⟨rfl, rfl⟩ | ⟨rfl, rfl⟩ | ⟨rfl, rfl⟩ | ⟨rfl, rfl⟩ | ⟨rfl, rfl⟩ | ⟨rfl, rfl⟩ |
    ⟨rfl, rfl⟩
  case inr.inr.inl => exact ⟨trivial, noStar rfl⟩
  all_goals exact ⟨trivial, trivial⟩

theorem token?_number {digits rest : List Char} (numeral : IsNumeral digits)
    (stops : NumeralStops digits rest) :
    token? (digits ++ rest) = some (.number (String.ofList digits), digits.length) := by
  have nonempty : digits ≠ [] := by
    obtain ⟨c, others, rfl, -⟩ := numeral.exists_cons
    exact List.cons_ne_nil _ _
  obtain ⟨n, length⟩ := Nat.exists_eq_succ_of_ne_zero (mt List.length_eq_zero_iff.1 nonempty)
  rw [token?, numberWidth_numeral numeral stops, length]
  dsimp only
  rw [← Nat.succ_eq_add_one, ← length, List.take_left]

theorem token?_name {name rest : List Char} (h : IsName name) (stops : NameStops name rest) :
    token? (name ++ rest) = some (.ident (String.ofList name), name.length) := by
  have width := identWidth_name h stops
  obtain ⟨c, others, rfl, letter⟩ := h.exists_cons
  rw [List.cons_append] at width ⊢
  rw [token?, numberWidth_of_letter _ letter, width]
  simp

/-- What begins no number and no name is read as a symbol or not at all. -/
theorem token?_symbol {c : Char} {text : List Char}
    (h : isDigit c = false ∧ isLetter c = false ∧ c ≠ '.') :
    token? (c :: text) = symbol? (c :: text) := by
  rw [token?, numberWidth_cons text h.1 h.2.2, identWidth_cons text h.2.1]

theorem token?_of_mem_symbols {c : Char} {token : Token} {rest : List Char}
    (h : (c, token) ∈ symbols) (noStar : c = '*' → rest.head? ≠ some '*') :
    token? (c :: rest) = some (token, 1) := by
  rw [token?_symbol (apart_of_mem_symbols _ h).2, symbol?_cons h noStar]

/-- A token is read wherever nothing behind it goes on with it, whatever
else follows. -/
theorem token?_append {token : Token} {rest : List Char} (spelled : token.Spelled)
    (stops : token.StopsBefore rest) :
    token? (token.text.toList ++ rest) = some (token, token.text.toList.length) := by
  have symbol {c : Char} (h : (c, token) ∈ symbols) (noStar : c = '*' → rest.head? ≠ some '*') :
      token? (token.text.toList ++ rest) = some (token, token.text.toList.length) := by
    rw [toList_text_of_mem_symbols _ h]
    exact token?_of_mem_symbols h noStar
  cases token with
  | number text =>
      have read := token?_number spelled stops
      rwa [String.ofList_toList] at read
  | ident name =>
      have read := token?_name spelled stops
      rwa [String.ofList_toList] at read
  | power =>
      have written : Token.power.text.toList = ['*', '*'] := by decide
      rw [written]
      exact token?_symbol (by decide)
  | plus => exact symbol (c := '+') (by decide) fun star => absurd star (by decide)
  | minus => exact symbol (c := '-') (by decide) fun star => absurd star (by decide)
  | star => exact symbol (c := '*') (by decide) fun _ => stops
  | slash => exact symbol (c := '/') (by decide) fun star => absurd star (by decide)
  | caret => exact symbol (c := '^') (by decide) fun star => absurd star (by decide)
  | opening => exact symbol (c := '(') (by decide) fun star => absurd star (by decide)
  | closing => exact symbol (c := ')') (by decide) fun star => absurd star (by decide)

/-- What is read is the written form of the token, and nothing behind it
goes on with it. -/
theorem exists_of_token? {text : List Char} {token : Token} {width : Nat}
    (h : token? text = some (token, width)) :
    ∃ rest, text = token.text.toList ++ rest ∧ width = token.text.toList.length ∧
      token.Spelled ∧ token.StopsBefore rest := by
  unfold token? at h
  split at h
  · next found =>
    cases h
    obtain ⟨digits, rest, rfl, length, numeral, stops⟩ := exists_numeral_of_width found
    rw [← length, List.take_left]
    refine ⟨rest, ?_⟩
    simp [Token.text, Token.Spelled, Token.StopsBefore, numeral, stops]
  · split at h
    · next found =>
      cases h
      obtain ⟨name, rest, rfl, length, spelled, stops⟩ := exists_name_of_width found
      rw [← length, List.take_left]
      refine ⟨rest, ?_⟩
      simp [Token.text, Token.Spelled, Token.StopsBefore, spelled, stops]
    · rcases symbol?_cases h with ⟨rest, rfl, rfl, rfl⟩ | ⟨c, rest, rfl, known, rfl, noStar⟩
      · have written : Token.power.text.toList = ['*', '*'] := by decide
        rw [written]
        exact ⟨rest, rfl, rfl, trivial, trivial⟩
      · rw [toList_text_of_mem_symbols _ known]
        exact ⟨rest, rfl, rfl, spelled_of_mem_symbols known noStar⟩

/-! ### One lexeme and the rest -/

/-- A text in front of which a token is read has that token first, and
goes on behind it. -/
theorem lexemesFrom_token {text : List Char} {token : Token} (position : Nat) (rest : List Char)
    (visible : ∀ c ∈ text.head?, isBlank c = false) (nonempty : text ≠ [])
    (h : token? (text ++ rest) = some (token, text.length)) :
    lexemesFrom position (text ++ rest) =
      (lexemesFrom (position + text.length) rest).map (⟨token, position⟩ :: ·) := by
  obtain ⟨c, others, rfl⟩ := List.exists_cons_of_ne_nil nonempty
  have shown : isBlank c = false := visible c rfl
  rw [List.cons_append] at h ⊢
  rw [lexemesFrom, h]
  simp only [shown, Bool.false_eq_true, if_false, List.length_cons, List.drop_left]
  rfl

theorem lexemesFrom_blank (position : Nat) (text : List Char) :
    lexemesFrom position (' ' :: text) = lexemesFrom (position + 1) text := by
  rw [lexemesFrom]
  rfl

/-! ### Pieces of text -/

theorem ends_symbol {c : Char} {token : Token} (h : (c, token) ∈ symbols) (text : List Char) :
    Ends (c :: text) :=
  ends_cons (apart_of_mem_symbols _ h).2

/-- A text that starts as an operand does: with a digit or a point, a small
letter, a parenthesis or a sign. -/
def Opens (text : List Char) : Prop :=
  ∃ c rest, text = c :: rest ∧
    (isDigit c = true ∨ 0x61 ≤ c.toNat ∧ c.toNat ≤ 0x7A ∨ c ∈ ['(', '-', '+', '.'])

theorem Opens.ne_nil {text : List Char} (h : Opens text) : text ≠ [] := by
  obtain ⟨c, rest, rfl, -⟩ := h
  exact List.cons_ne_nil c rest

/-- A star begins no operand, so two stars never meet by writing one
behind the other. -/
theorem Opens.head?_ne_star {text : List Char} (h : Opens text) : text.head? ≠ some '*' := by
  obtain ⟨c, rest, rfl, opener⟩ := h
  intro star
  cases star
  revert opener
  decide

/-- A text that starts as an operand does starts so whatever follows. -/
theorem Opens.append {text : List Char} (h : Opens text) (rest : List Char) :
    Opens (text ++ rest) := by
  obtain ⟨c, others, rfl, opener⟩ := h
  exact ⟨c, others ++ rest, rfl, opener⟩

/-- A piece of text that is read as the same lexemes before every text
of some kind. -/
def Reads (before : List Char → Prop) (position : Nat) (text : List Char)
    (lexemes : List Lexeme) : Prop :=
  ∀ rest, before rest →
    lexemesFrom position (text ++ rest) =
      (lexemesFrom (position + text.length) rest).map (lexemes ++ ·)

section Pieces

variable {p q : List Char → Prop} {position : Nat} {first second : List Char}
variable {left right : List Lexeme}

/-- Two pieces are read one after the other, if the second is what the first
may stand before. -/
theorem Reads.append
    (hfirst : Reads p position first left)
    (hsecond : Reads q (position + first.length) second right)
    (follows : ∀ rest, q rest → p (second ++ rest)) :
    Reads q position (first ++ second) (left ++ right) := by
  intro rest hrest
  rw [List.append_assoc, hfirst _ (follows rest hrest), hsecond rest hrest, List.length_append,
    ← Nat.add_assoc]
  cases lexemesFrom (position + first.length + second.length) rest with
  | error fault => rfl
  | ok lexemes => exact congrArg Except.ok (List.append_assoc left right lexemes).symm

theorem Reads.mono (h : Reads p position first left) (weaker : ∀ rest, q rest → p rest) :
    Reads q position first left :=
  fun rest hrest => h rest (weaker rest hrest)

theorem reads_number {digits : List Char} (position : Nat) (numeral : IsNumeral digits) :
    Reads Ends position digits [⟨.number (String.ofList digits), position⟩] := by
  intro rest ends
  have token := token?_number numeral (ends.numeralStops digits)
  obtain ⟨c, others, rfl, digit⟩ := numeral.exists_cons
  refine lexemesFrom_token position rest ?_ (List.cons_ne_nil _ _) token
  rintro _ ⟨⟩
  rcases digit with digit | rfl
  · rw [isDigit_iff] at digit
    exact isBlank_eq_false_of_visible (by omega)
  · decide

theorem reads_name {name : String} (position : Nat) (h : IsName name.toList) :
    Reads Ends position name.toList [⟨.ident name, position⟩] := by
  intro rest ends
  have token := token?_name h (ends.nameStops name.toList)
  rw [String.ofList_toList] at token
  obtain ⟨c, others, form, letter⟩ := h.exists_cons
  rw [isLetter_iff] at letter
  refine lexemesFrom_token position rest ?_ (form ▸ List.cons_ne_nil _ _) token
  rw [form]
  rintro _ ⟨⟩
  exact isBlank_eq_false_of_visible (by omega)

/-- A symbol is read before everything, but for a star before another. -/
theorem reads_symbol (c : Char) (token : Token) (position : Nat) (h : (c, token) ∈ symbols) :
    Reads (fun rest => c = '*' → rest.head? ≠ some '*') position [c] [⟨token, position⟩] := by
  intro rest noStar
  refine lexemesFrom_token position rest ?_ (List.cons_ne_nil _ _) (token?_of_mem_symbols h noStar)
  rintro _ ⟨⟩
  exact (apart_of_mem_symbols _ h).1

theorem reads_power (position : Nat) :
    Reads (fun _ => True) position ['*', '*'] [⟨.power, position⟩] := by
  intro rest _
  refine lexemesFrom_token position rest ?_ (List.cons_ne_nil _ _) ?_
  · rintro _ ⟨⟩
    decide
  · exact token?_symbol (by decide)

/-- A text in parentheses is read before everything, as a closing parenthesis
never goes on. -/
theorem Reads.parenthesized (h : Reads Ends (position + 1) first left) :
    Reads (fun _ => True) position ('(' :: (first ++ [')']))
      (⟨.opening, position⟩ :: (left ++ [⟨.closing, position + 1 + first.length⟩])) := by
  have opening := reads_symbol '(' .opening position (by simp [symbols])
  have closing := reads_symbol ')' .closing (position + 1 + first.length) (by simp [symbols])
  have inner := h.append closing fun rest _ => ends_cons (by decide)
  have whole := opening.append inner fun rest _ => by simp
  exact whole.mono fun rest _ => by simp

theorem reads_blank (position : Nat) : Reads (fun _ => True) position [' '] [] := by
  intro rest _
  rw [List.singleton_append, lexemesFrom_blank]
  exact (congrFun Except.map_id _).symm

/-- A symbol between blanks. -/
theorem reads_spaced {c : Char} {token : Token} (position : Nat) (h : (c, token) ∈ symbols) :
    Reads (fun _ => True) position [' ', c, ' '] [⟨token, position + 1⟩] := by
  have sign := reads_symbol c token (position + 1) h
  have front := (reads_blank position).append sign fun _ _ => trivial
  exact front.append (reads_blank _) fun rest _ => by simp

/-- A piece that may stand at the end of a text is a text with those lexemes. -/
theorem Reads.lexemes_eq {text : String} (h : Reads Ends 0 text.toList left) :
    lexemes text = .ok left := by
  have whole := h [] ends_nil
  rw [List.append_nil, lexemesFrom] at whole
  exact whole.trans (congrArg Except.ok (List.append_nil left))

end Pieces

/-! ### Texts that are read wherever they stand -/

/-- A text that starts as an operand does, and that is read as lexemes of some
kind wherever it stands and whatever ends it. -/
structure Legible (kind : List Lexeme → Prop) (text : List Char) : Prop where
  opens : Opens text
  reads (position : Nat) : ∃ lexemes, kind lexemes ∧ Reads Ends position text lexemes

namespace Legible

variable {kind left right : List Lexeme → Prop} {text first second : List Char}

/-- A text of lexemes of one kind is a text of lexemes of any wider kind. -/
theorem mono (h : Legible left text) (weaker : ∀ lexemes, left lexemes → kind lexemes) :
    Legible kind text := by
  refine ⟨h.opens, fun position => ?_⟩
  obtain ⟨lexemes, own, reads⟩ := h.reads position
  exact ⟨lexemes, weaker lexemes own, reads⟩

theorem number {digits : List Char} (numeral : IsNumeral digits)
    (own : ∀ position, kind [⟨.number (String.ofList digits), position⟩]) :
    Legible kind digits := by
  refine ⟨?_, fun position => ⟨_, own position, reads_number position numeral⟩⟩
  obtain ⟨c, rest, rfl, digit | rfl⟩ := numeral.exists_cons
  · exact ⟨c, rest, rfl, .inl digit⟩
  · exact ⟨'.', rest, rfl, by simp⟩

theorem name {name : String} (spelled : IsName name.toList) (opens : Opens name.toList)
    (own : ∀ position, kind [⟨.ident name, position⟩]) : Legible kind name.toList :=
  ⟨opens, fun position => ⟨_, own position, reads_name position spelled⟩⟩

/-- Two texts with an operator between them are legible, for whatever kind the
grammar makes of them. -/
theorem join {operator : List Char} {token : Token} (offset : Nat)
    (combine : ∀ {front behind : List Lexeme} (position : Nat),
      left front → right behind → kind (front ++ ⟨token, position⟩ :: behind))
    (hoperator : ∀ position, Reads Opens position operator [⟨token, position + offset⟩])
    (ends : ∀ rest, Ends (operator ++ rest))
    (hfirst : Legible left first) (hsecond : Legible right second) :
    Legible kind (first ++ operator ++ second) := by
  refine ⟨(hfirst.opens.append operator).append second, fun position => ?_⟩
  -- the positions of the second text depend on the lengths of what stands before it
  obtain ⟨front, ownFront, readsFront⟩ := hfirst.reads position
  obtain ⟨behind, ownBehind, readsBehind⟩ := hsecond.reads (position + (first ++ operator).length)
  have operated := readsFront.append (hoperator _) fun rest _ => ends rest
  have whole := operated.append readsBehind fun rest _ => hsecond.opens.append rest
  rw [List.append_assoc front, List.singleton_append] at whole
  exact ⟨_, combine _ ownFront ownBehind, whole⟩

/-- Two texts with an operator of one character between them. -/
theorem tight (c : Char) (token : Token)
    (combine : ∀ {front behind : List Lexeme} (position : Nat),
      left front → right behind → kind (front ++ ⟨token, position⟩ :: behind))
    (symbol : (c, token) ∈ symbols) (hfirst : Legible left first)
    (hsecond : Legible right second) : Legible kind (first ++ [c] ++ second) := by
  refine join 0 combine (fun position => ?_) (ends_symbol symbol) hfirst hsecond
  exact (reads_symbol c token position symbol).mono fun rest opens _ => opens.head?_ne_star

/-- A sign in front of a text. -/
theorem signed {c : Char} {token : Token}
    (combine : ∀ {lexemes : List Lexeme} (position : Nat),
      left lexemes → kind (⟨token, position⟩ :: lexemes))
    (symbol : (c, token) ∈ symbols) (sign : c ∈ ['-', '+']) (h : Legible left text) :
    Legible kind (c :: text) := by
  refine ⟨⟨c, text, rfl, .inr (.inr ?_)⟩, fun position => ?_⟩
  · simp only [List.mem_cons, List.not_mem_nil, or_false] at sign ⊢
    tauto
  · obtain ⟨lexemes, own, reads⟩ := h.reads (position + 1)
    have front := reads_symbol c token position symbol
    refine ⟨_, combine position own, front.append reads ?_⟩
    rintro rest - rfl
    exact absurd sign (by decide)

/-- A text in parentheses, with a name or nothing in front of it. -/
theorem call {name : List Char} (head : Nat → List Lexeme)
    (combine : ∀ {lexemes : List Lexeme} (position opened closed : Nat), left lexemes →
      kind (head position ++ ⟨.opening, opened⟩ :: (lexemes ++ [⟨.closing, closed⟩])))
    (opens : Opens (name ++ '(' :: (text ++ [')'])))
    (word : ∀ position, Reads Ends position name (head position)) (h : Legible left text) :
    Legible kind (name ++ '(' :: (text ++ [')'])) := by
  refine ⟨opens, fun position => ?_⟩
  obtain ⟨lexemes, own, reads⟩ := h.reads (position + name.length + 1)
  have whole := (word position).append reads.parenthesized fun rest _ => ends_cons (by decide)
  exact ⟨_, combine position _ _ own, whole.mono fun _ _ => trivial⟩

/-- A text in parentheses is legible. -/
theorem group
    (combine : ∀ {lexemes : List Lexeme} (opened closed : Nat), left lexemes →
      kind (⟨.opening, opened⟩ :: (lexemes ++ [⟨.closing, closed⟩])))
    (h : Legible left text) : Legible kind ('(' :: (text ++ [')'])) := by
  refine ⟨⟨'(', _, rfl, by simp⟩, fun position => ?_⟩
  obtain ⟨lexemes, own, reads⟩ := h.reads (position + 1)
  exact ⟨_, combine position _ own, reads.parenthesized.mono fun _ _ => trivial⟩

end Legible

end Formula

/-! ### Rendered lexemes -/

/-- Lexemes are written one behind the other, with nothing between them. -/
theorem toList_render_cons (lexeme : Formula.Lexeme) (lexemes : List Formula.Lexeme) :
    (Formula.render (lexeme :: lexemes)).toList =
      lexeme.token.text.toList ++ (Formula.render lexemes).toList := by
  simp [Formula.render]

/-- What is written of two lists is written of one and then of the other. -/
theorem toList_render_append (first second : List Formula.Lexeme) :
    (Formula.render (first ++ second)).toList =
      (Formula.render first).toList ++ (Formula.render second).toList := by
  simp [Formula.render]

/-! ### The names of formulas -/

/-- The name of a function is made of letters and starts as an operand does. -/
theorem Elementary.name_spelled (f : Elementary) :
    f.name.toList.all isLetter = true ∧ Formula.Opens f.name.toList := by
  cases f <;> exact ⟨by decide, _, _, rfl, by decide⟩

/-- The name of a constant is made of letters and starts as an operand does. -/
theorem Constant.name_spelled (c : Constant) :
    c.name.toList.all isLetter = true ∧ Formula.Opens c.name.toList := by
  cases c <;> exact ⟨by decide, _, _, rfl, by decide⟩

/-- A run of letters behind the qualifier is a name. -/
theorem qualified_spelled {name : String}
    (spelled : name.toList.all isLetter = true ∧ Formula.Opens name.toList) :
    Formula.IsName (qualifier ++ name).toList ∧ Formula.Opens (qualifier ++ name).toList := by
  have whole : (qualifier ++ name).toList = "math".toList ++ '.' :: name.toList :=
    String.toList_append
  rw [whole]
  refine ⟨⟨_, by decide, List.all_eq_true.1 (by decide), .inr ⟨_, spelled.2.ne_nil, ?_, rfl⟩⟩, ?_⟩
  · exact List.all_eq_true.1 spelled.1
  · exact ⟨'m', _, rfl, by decide⟩

end Fluxion
