import Fluxion.Proofs.Phrase
import Fluxion.Proofs.Screening

/-!
# What printed formulas say

The text of a formula is read as a phrase of user notation that denotes what the text says
(`Expr.written`).  A text that is read as a phrase of a rank can stand wherever the grammar asks for
that rank or a higher one, and the printer sets parentheses wherever the rank of an operand is too
high: the proof goes through the cases of `Expr.text` and compares, in each, binding strength with
rank.
-/

namespace Fluxion

open Formula (Lexeme Token Legible Opens)
open Fluxion.Text (isLetter)

section Carrier

variable {K : Type} [Scalar K] [Numeral K] {reading : ExactReading K}

/-- A text that is read as a phrase.  It keeps the characters and the lexemes
together, so operators can be proved once for both. -/
abbrev Written (reading : ExactReading K) (text : List Char) (rank : Rank) (m : ℝ → Exact) :
    Prop :=
  Legible (fun lexemes => Phrase reading Style.user rank lexemes m) text

namespace Written

variable {text left right : List Char} {rank target : Rank} {m n k : ℝ → Exact}

/-- A text that says one thing says everything equal to it. -/
theorem congr
    (h : Written reading text rank m) (same : ∀ t, m t = n t) : Written reading text rank n := by
  rwa [← funext same]

theorem raise
    (h : Written reading text rank m) (le : rank.level ≤ target.level) :
    Written reading text target m :=
  h.mono fun _ phrase => phrase.raise le

theorem toSum (h : Written reading text rank m) : Written reading text .sum m :=
  raise h rank.level_le_sum

/-- A decimal is an atom, read as the number that its digits denote. -/
theorem number {digits : List Char} (decimal : IsDecimal digits) :
    Written reading digits .atom fun _ => .real (reading.real (Numeral.ofDigits digits)) :=
  Legible.number (.inl decimal) fun position => .number position decimal

theorem name {name : String} (letters : name.toList.all isLetter = true)
    (opens : Opens name.toList)
    (phrase : ∀ position, Phrase reading Style.user .atom [⟨.ident name, position⟩] m) :
    Written reading name.toList .atom m :=
  Legible.name (.of_letters opens.ne_nil letters) opens phrase

section Operators

variable {leftRank rightRank : Rank} (c : Char) (token : Token)

/-- Two texts with an operator between blanks, for whatever the grammar makes
of the operator. -/
theorem spaced
    (combine : ∀ {first second : List Lexeme} (position : Nat),
      Phrase reading Style.user leftRank first m → Phrase reading Style.user rightRank second n →
        Phrase reading Style.user rank (first ++ ⟨token, position⟩ :: second) k)
    (symbol : (c, token) ∈ Formula.symbols)
    (hleft : Written reading left leftRank m) (hright : Written reading right rightRank n) :
    Written reading (left ++ [' ', c, ' '] ++ right) rank k := by
  refine Legible.join 1 combine (fun position => ?_) (fun rest => ?_) hleft hright
  · exact (Formula.reads_spaced position symbol).mono fun _ _ => trivial
  · exact Formula.ends_cons (by decide)

/-- A sum of two texts.  The right one may be a sum, as nothing is lost by
regrouping it. -/
theorem add (hleft : Written reading left .sum m) (hright : Written reading right .sum n) :
    Written reading (left ++ " + ".toList ++ right) .sum fun t => m t + n t :=
  spaced '+' .plus Phrase.sum_append (by simp [Formula.symbols]) hleft hright

/-- A difference of two texts, the right one being a product at most. -/
theorem sub (hleft : Written reading left .sum m) (hright : Written reading right .product n) :
    Written reading (left ++ " - ".toList ++ right) .sum fun t => m t - n t :=
  spaced '-' .minus Phrase.sub (by simp [Formula.symbols]) hleft hright

theorem mul (hleft : Written reading left .product m) (hright : Written reading right .product n) :
    Written reading (left ++ "*".toList ++ right) .product fun t => m t * n t :=
  Legible.tight '*' .star Phrase.product_append (by simp [Formula.symbols]) hleft hright

/-- A quotient of two texts, the divisor being a factor. -/
theorem div (hleft : Written reading left .product m) (hright : Written reading right .factor n) :
    Written reading (left ++ "/".toList ++ right) .product fun t => m t / n t :=
  Legible.tight '/' .slash Phrase.div (by simp [Formula.symbols]) hleft hright

theorem power (hbase : Written reading left .atom m) (hexponent : Written reading right .factor n) :
    Written reading (left ++ "^".toList ++ right) .factor fun t => Scalar.pow (m t) (n t) :=
  Legible.tight '^' Style.user.power Phrase.power (by simp [Formula.symbols, Style.user])
    hbase hexponent

end Operators

/-- A minus sign in front of a text. -/
theorem minus
    (signed : ∀ {lexemes : List Lexeme} (position : Nat), Phrase reading Style.user rank lexemes m →
      Phrase reading Style.user rank (⟨.minus, position⟩ :: lexemes) fun t => -m t)
    (h : Written reading text rank m) :
    Written reading ('-' :: text) rank fun t => -m t :=
  Legible.signed signed (by simp [Formula.symbols]) (by simp) h

/-- A text in parentheses is an atom. -/
theorem group (h : Written reading text .sum m) :
    Written reading ('(' :: (text ++ [')'])) .atom m :=
  Legible.group Phrase.group h

theorem call {f : Elementary} (spelled : f.name.toList.all isLetter = true ∧ Opens f.name.toList)
    (h : Written reading text .sum m) :
    Written reading (f.name.toList ++ '(' :: (text ++ [')'])) .atom fun t => f.value (m t) := by
  refine Legible.call (fun position => [⟨.ident f.name, position⟩])
    (fun position opened closed => .call position opened closed f) (spelled.2.append _)
    (fun position => ?_) h
  exact Formula.reads_name position (.of_letters spelled.2.ne_nil spelled.1)

end Written

/-! ### Rank and binding strength -/

namespace Expr

variable {u v e : Expr K}

/-- The rank of the phrase that the text of the tree is. -/
def phraseRank : Expr K → Rank
  | add _ _ | sub _ _ => .sum
  | mul _ _ | div _ _ => .product
  | pow _ _ => .factor
  | const c => if (Numeral.text c).toList.head? = some '-' then .factor else .atom
  | _ => .atom

theorem leadingMinus_of_isMinusOne (reading : ExactReading K) (printable : u.Printable)
    (minusOne : u.isMinusOne = true) : u.leadingMinus = true := by
  cases u with
  | const c =>
      have value : reading.real c = -1 := (reading.isMinusOne_iff c printable).1 minusOne
      exact (reading.isNegative_iff c printable).2 (by linarith)
  | _ => cases minusOne

omit [Scalar K] in
/-- A constant binds as strongly as a factor at least: it may be written with
a sign in front. -/
theorem level_const_le (c : K) : (const c).phraseRank.level ≤ 1 := by
  rw [phraseRank]
  split <;> decide

/-- What binds more strongly than a sum may stand in a product. -/
theorem level_of_one_lt (strong : 1 < e.precedence) : e.phraseRank.level ≤ Rank.product.level := by
  cases e with
  | add | sub => simp [precedence] at strong
  | const c => exact (level_const_le c).trans (by decide)
  | _ => simp [phraseRank, Rank.level]

/-- What binds more strongly than a product, and starts with no sign, may
stand as a divisor. -/
theorem level_of_two_lt (reading : ExactReading K) (printable : e.Printable)
    (strong : 2 < e.precedence) (unsigned : e.leadingMinus = false) :
    e.phraseRank.level ≤ Rank.factor.level := by
  cases e with
  | add | sub | div => simp [precedence] at strong
  | mul u v =>
      -- a product binds as strong as a sign only if it is written with one
      by_cases minusOne : u.isMinusOne = true
      · have signed := leadingMinus_of_isMinusOne reading printable.1 minusOne
        rw [leadingMinus, signed] at unsigned
        cases unsigned
      · simp [precedence, minusOne] at strong
  | const c => exact level_const_le c
  | _ => simp [phraseRank, Rank.level]

/-- A power or something stronger may stand as a factor. -/
theorem level_of_four_le (strong : 4 ≤ e.precedence) :
    e.phraseRank.level ≤ Rank.factor.level := by
  cases e with
  | add | sub | div => simp [precedence] at strong
  | mul u v =>
      rw [precedence] at strong
      split at strong <;> simp at strong
  | const c => exact level_const_le c
  | _ => simp [phraseRank, Rank.level]

/-- What needs no grouping may stand as a base, unless it is a negative zero. -/
theorem level_of_five_le (strong : 5 ≤ e.precedence) (unsigned : e.isSignedZero = false) :
    e.phraseRank.level ≤ Rank.atom.level := by
  cases e with
  | add | sub | div | pow => simp [precedence] at strong
  | mul u v =>
      rw [precedence] at strong
      split at strong <;> simp at strong
  | const c =>
      have notNegative : Scalar.isNegative c = false := by
        by_contra negative
        rw [Bool.not_eq_false] at negative
        simp [precedence, negative] at strong
      have noSign : (Numeral.text c).toList.head? ≠ some '-' := by
        simpa [isSignedZero, notNegative] using unsigned
      rw [phraseRank, if_neg noSign]
  | _ => simp [phraseRank, Rank.level]

/-! ### Terms that are written with a minus sign -/

theorem spoken_of_isMinusOne (reading : ExactReading K) (printable : u.Printable)
    (minusOne : u.isMinusOne = true) (t : ℝ) : u.spoken reading t = .real (-1) := by
  cases u with
  | const c => exact congrArg Exact.real ((reading.isMinusOne_iff c printable).1 minusOne)
  | _ => cases minusOne

/-- A term without its minus sign says the opposite. -/
theorem negated?_spec (reading : ExactReading K) (printable : v.Printable)
    (h : v.negated? = some u) :
    u.Printable ∧ ∀ t, v.spoken reading t = -u.spoken reading t := by
  induction v generalizing u with
  | const c =>
      simp only [negated?, Option.ite_none_right_eq_some, Option.some.injEq] at h
      obtain ⟨-, rfl⟩ := h
      refine ⟨reading.isFinite_neg c printable, ?_⟩
      intro t
      rw [spoken, spoken, reading.real_neg, Exact.neg_real, neg_neg]
  | mul w v ihw _ =>
      by_cases minusOne : w.isMinusOne = true
      · simp only [negated?, minusOne, if_true, Option.some.injEq] at h
        subst h
        refine ⟨printable.2, ?_⟩
        intro t
        rw [spoken, spoken_of_isMinusOne reading printable.1 minusOne, Exact.neg_one_mul]
      · cases w with
        | const c =>
            rw [negated?, if_neg minusOne, Option.ite_none_right_eq_some] at h
            obtain ⟨negative, ⟨⟩⟩ := h
            have negated : (const c).negated? = some (const (-c)) := by
              rw [negated?, if_pos negative]
            obtain ⟨printableFirst, value⟩ := ihw printable.1 negated
            refine ⟨⟨printableFirst, printable.2⟩, ?_⟩
            intro t
            show (const c).spoken reading t * v.spoken reading t =
              -((const (-c)).spoken reading t * v.spoken reading t)
            rw [value, Exact.neg_mul]
        | _ => simp [negated?, minusOne] at h
  | div w v ihw ihv =>
      simp only [negated?, Option.map_eq_some_iff] at h
      obtain ⟨w', hw, rfl⟩ := h
      obtain ⟨printableFirst, value⟩ := ihw printable.1 hw
      refine ⟨⟨printableFirst, printable.2⟩, ?_⟩
      intro t
      rw [spoken, spoken, value, Exact.neg_div]
  | _ => cases h

theorem toList_parenthesized (before text : String) :
    (before ++ "(" ++ text ++ ")").toList = before.toList ++ '(' :: (text.toList ++ [')']) := by
  simp

theorem toList_grouped_true (text : String) :
    (grouped true text).toList = '(' :: (text.toList ++ [')']) :=
  toList_parenthesized "" text

/-- Parentheses make a text fit any place, and without them it has to
fit by itself. -/
theorem grouped_written {text : String} {target rank : Rank} {m : ℝ → Exact} {group : Bool}
    (h : Written reading text.toList rank m)
    (low : group = false → rank.level ≤ target.level) :
    Written reading (grouped group text).toList target m := by
  cases group with
  | false => exact h.raise (low rfl)
  | true =>
      have parenthesized := h.toSum.group
      rw [toList_grouped_true]
      exact parenthesized.raise (Nat.zero_le _)

/-- A constant is written as a decimal, with a sign in front if there is one. -/
theorem written_const (reading : ExactReading K) {c : K} (finite : Scalar.isFinite c = true) :
    Written reading (Numeral.text c).toList (const c).phraseRank
      fun _ => .real (reading.real c) := by
  obtain ⟨digits, decimal, ⟨text, value⟩ | ⟨text, value⟩⟩ := reading.text_eq c finite
  · -- digits do not start with a sign
    have unsigned : (const c).phraseRank = .atom := by
      obtain ⟨d, others, rfl, digit⟩ := decimal.exists_cons
      have noMinus : d ≠ '-' := by
        rintro rfl
        exact absurd digit (by decide)
      simp [phraseRank, text, noMinus]
    rw [unsigned, text, value]
    exact .number decimal
  · have signed : (const c).phraseRank = .factor := by simp [phraseRank, text]
    have magnitude : Written reading digits .factor _ := (Written.number decimal).raise (by decide)
    rw [signed, text, value]
    exact magnitude.minus Phrase.minus

/-- Parentheses are set around negative bases, and negative zero is none. -/
theorem grouped_base_of_isSignedZero (signed : u.isSignedZero = true) :
    grouped (decide (u.precedence < 5) || u.leadingMinus) u.text = u.text := by
  cases u with
  | const c =>
      have notNegative : Scalar.isNegative c = false := by
        simp only [isSignedZero, Bool.and_eq_true, Bool.not_eq_true'] at signed
        exact signed.1
      simp [grouped, precedence, leadingMinus, notNegative]
  | _ => cases signed

/-- The text of a signed base says the sign in front of the power. -/
theorem written_pow_of_isSignedZero {exponent : List Char} {m : ℝ → Exact}
    (printable : u.Printable) (signed : u.isSignedZero = true)
    (hexponent : Written reading exponent .factor m) :
    Written reading (u.text.toList ++ "^".toList ++ exponent) .factor
      fun t => -Scalar.pow (-u.spoken reading t) (m t) := by
  obtain ⟨c, digits, rfl, decimal, text, zero, magnitude⟩ :=
    exists_const_of_isSignedZero reading printable signed
  have base : Written reading digits .atom _ := .number decimal
  have power := base.power hexponent
  rw [Expr.text, text]
  refine (power.minus Phrase.minus).congr ?_
  intro t
  rw [spoken, zero, magnitude, Exact.neg_real, neg_zero]

/-! ### Operands with the parentheses that the printer sets -/

section Operands

variable {m : ℝ → Exact}

/-- A left operand of a product fits once sums are grouped. -/
theorem written_left (h : Written reading u.text.toList u.phraseRank m) :
    Written reading (grouped (decide (u.precedence ≤ 1)) u.text).toList .product m := by
  refine grouped_written h fun alone => level_of_one_lt ?_
  simpa using alone

/-- A right operand fits once sums and signs are grouped. -/
theorem written_right (h : Written reading u.text.toList u.phraseRank m) :
    Written reading (grouped (decide (u.precedence ≤ 1) || u.leadingMinus) u.text).toList
      .product m := by
  refine grouped_written h fun alone => level_of_one_lt ?_
  simpa using (Bool.or_eq_false_iff.1 alone).1

theorem written_divisor (printable : u.Printable)
    (h : Written reading u.text.toList u.phraseRank m) :
    Written reading (grouped (decide (u.precedence ≤ 2) || u.leadingMinus) u.text).toList
      .factor m := by
  apply grouped_written h
  intro alone
  obtain ⟨strong, unsigned⟩ := Bool.or_eq_false_iff.1 alone
  exact level_of_two_lt reading printable (by simpa using strong) unsigned

/-- An exponent fits once everything weaker than a power is grouped. -/
theorem written_exponent (h : Written reading u.text.toList u.phraseRank m) :
    Written reading (grouped (decide (u.precedence < 4) || u.leadingMinus) u.text).toList
      .factor m := by
  refine grouped_written h fun alone => level_of_four_le ?_
  simpa using (Bool.or_eq_false_iff.1 alone).1

/-- A base fits once everything but atoms is grouped.  A negative zero does
not, as its sign is not grouped. -/
theorem written_base (unsigned : u.isSignedZero = false)
    (h : Written reading u.text.toList u.phraseRank m) :
    Written reading (grouped (decide (u.precedence < 5) || u.leadingMinus) u.text).toList
      .atom m := by
  refine grouped_written h fun alone => level_of_five_le ?_ unsigned
  simpa using (Bool.or_eq_false_iff.1 alone).1

end Operands

/-- The text of a formula is a phrase of user notation that denotes what
the text says. -/
theorem written (reading : ExactReading K) (printable : e.Printable) :
    Written reading e.text.toList e.phraseRank (e.spoken reading) := by
  fun_induction text e with
  | case1 name =>
      cases printable
      refine .name (by decide) ⟨'x', [], rfl, by decide⟩ ?_
      intro position
      exact (Phrase.variable position).congr fun t => (if_pos rfl).symm
  | case2 c => exact written_const reading printable
  | case3 c => exact .name c.name_spelled.1 c.name_spelled.2 fun position => .constant position c
  | case4 u v v' negated ihu ihv =>
      -- the sign of the right term has become the operator
      obtain ⟨printable', value⟩ := negated?_spec reading printable.2 negated
      have whole := (ihu printable.1).toSum.sub (written_right (ihv printable'))
      rw [String.toList_append, String.toList_append]
      apply whole.congr
      intro t
      rw [spoken, value, Exact.sub_eq_add_neg]
  | case5 u v notNegated ihu ihv =>
      -- a sum on the right needs no parentheses: `Phrase.sum_append`
      have right : Written reading (grouped v.leadingMinus v.text).toList .sum _ :=
        grouped_written (ihv printable.2) fun _ => v.phraseRank.level_le_sum
      rw [String.toList_append, String.toList_append]
      exact (ihu printable.1).toSum.add right
  | case6 u v ihu ihv =>
      rw [String.toList_append, String.toList_append]
      exact (ihu printable.1).toSum.sub (written_right (ihv printable.2))
  | case7 u v right minusOne ihv =>
      -- the sign is that of the first factor of the right operand
      have whole := (written_right (ihv printable.2)).minus Phrase.minus_product
      rw [String.toList_append]
      apply whole.congr
      intro t
      rw [spoken, spoken_of_isMinusOne reading printable.1 minusOne, Exact.neg_one_mul]
  | case8 u v right notMinusOne ihv ihu =>
      rw [String.toList_append, String.toList_append]
      exact (written_left (ihu printable.1)).mul (written_right (ihv printable.2))
  | case9 u v ihu ihv =>
      rw [String.toList_append, String.toList_append]
      exact (written_left (ihu printable.1)).div (written_divisor printable.2 (ihv printable.2))
  | case10 u v ihu ihv =>
      have exponent := written_exponent (ihv printable.2)
      rw [String.toList_append, String.toList_append]
      by_cases signed : u.isSignedZero = true
      · rw [grouped_base_of_isSignedZero signed]
        have whole := written_pow_of_isSignedZero printable.1 signed exponent
        apply whole.congr
        intro t
        rw [spoken, if_pos signed]
      · rw [Bool.not_eq_true] at signed
        have whole := (written_base signed (ihu printable.1)).power exponent
        apply whole.congr
        intro t
        rw [spoken, signed]
        rfl
  | case11 f u ih =>
      have whole := (ih printable).toSum.call f.name_spelled
      rw [toList_parenthesized]
      exact whole

/-! ### Characters of printed formulas -/

section Characters

open Formula (Composed)

variable {e : Expr K}

omit [Scalar K] [Numeral K] in
theorem composed_grouped {text : String} (h : Composed text.toList) (group : Bool) :
    Composed (grouped group text).toList := by
  cases group with
  | false => exact h
  | true =>
      rw [toList_grouped_true]
      exact h.group

/-- A printed formula is made of known characters and groups. -/
theorem composed (reading : ExactReading K) (printable : e.Printable) :
    Composed e.text.toList := by
  have symbols (text : String) (h : text.toList.all
      (fun c => Formula.isAllowed c && c != '(' && c != ')') = true) : Composed text.toList :=
    .of_all h
  have name (text : String) (h : text.toList.all isLetter = true) (opens : Opens text.toList) :
      Composed text.toList :=
    .of_name (.of_letters opens.ne_nil h)
  fun_induction text e with
  | case1 name =>
      cases printable
      exact symbols "x" (by decide)
  | case2 c =>
      obtain ⟨digits, decimal, ⟨text, -⟩ | ⟨text, -⟩⟩ := reading.text_eq c printable
      · rw [text]
        exact .of_numeral (.inl decimal)
      · rw [text]
        exact (symbols "-" (by decide)).append (.of_numeral (.inl decimal))
  | case3 c => exact name _ c.name_spelled.1 c.name_spelled.2
  | case4 u v v' negated ihu ihv =>
      have printable' := (negated?_spec reading printable.2 negated).1
      rw [String.toList_append, String.toList_append]
      exact ((ihu printable.1).append (symbols " - " (by decide))).append
        (composed_grouped (ihv printable') _)
  | case5 u v _ ihu ihv =>
      rw [String.toList_append, String.toList_append]
      exact ((ihu printable.1).append (symbols " + " (by decide))).append
        (composed_grouped (ihv printable.2) _)
  | case6 u v ihu ihv =>
      rw [String.toList_append, String.toList_append]
      exact ((ihu printable.1).append (symbols " - " (by decide))).append
        (composed_grouped (ihv printable.2) _)
  | case7 u v right _ ihv =>
      rw [String.toList_append]
      exact (symbols "-" (by decide)).append (composed_grouped (ihv printable.2) _)
  | case8 u v right _ ihv ihu =>
      rw [String.toList_append, String.toList_append]
      exact ((composed_grouped (ihu printable.1) _).append (symbols "*" (by decide))).append
        (composed_grouped (ihv printable.2) _)
  | case9 u v ihu ihv =>
      rw [String.toList_append, String.toList_append]
      exact ((composed_grouped (ihu printable.1) _).append (symbols "/" (by decide))).append
        (composed_grouped (ihv printable.2) _)
  | case10 u v ihu ihv =>
      rw [String.toList_append, String.toList_append]
      exact ((composed_grouped (ihu printable.1) _).append (symbols "^" (by decide))).append
        (composed_grouped (ihv printable.2) _)
  | case11 f u ih =>
      rw [toList_parenthesized]
      exact (name _ f.name_spelled.1 f.name_spelled.2).append (ih printable).group

end Characters

end Expr

end Carrier

end Fluxion
