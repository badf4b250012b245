import Fluxion.Proofs.Derivation
import Fluxion.Proofs.Outcome

/-!
# The grammar is recognised

The readers of the grammar accept what has a derivation, and hand out its tree.  A reader that meets
a derivation reads all of it, unless an operand in it nests deeper than the levels that are left
(`Derivation.reaches`); and what a reader accepts has a derivation that stays within these levels
(`Recognises`).

A reader of sums or products that has read a derivation stands in the middle of a chain: it goes on
with what it has read as the first operand (`Rule.proceed`).
-/

namespace Fluxion

open Formula (Token Lexeme Reader GrammarFault SurfaceFunction)

/-! ### Readers by rule -/

section Operators

variable {K : Type} {s : Strength}

/-- What the operators of a strength make of their operands, as the reader has it. -/
def Strength.operation : Strength → Token → Option (Expr K → Expr K → Expr K)
  | sum => Formula.sumOperation
  | product => Formula.productOperation

/-- The operation of an operator's token is to join by the operator. -/
theorem Strength.operation_token (operator : Operator s) :
    s.operation (K := K) operator.token = some operator.join := by
  cases operator <;> rfl

/-- Every operation of a strength is that of one of its operators. -/
theorem Strength.exists_operator {token : Token} {combine : Expr K → Expr K → Expr K}
    (h : s.operation token = some combine) :
    ∃ operator : Operator s, token = operator.token ∧ combine = operator.join := by
  cases s with
  | sum =>
      cases token with
      | plus => exact ⟨.plus, rfl, (Option.some.inj h).symm⟩
      | minus => exact ⟨.minus, rfl, (Option.some.inj h).symm⟩
      | _ => cases h
  | product =>
      cases token with
      | star => exact ⟨.star, rfl, (Option.some.inj h).symm⟩
      | slash => exact ⟨.slash, rfl, (Option.some.inj h).symm⟩
      | _ => cases h

theorem Derivation.signTree_minus [Scalar K] (u : Expr K) :
    Derivation.signTree .minus u = Formula.negative u := by
  cases u <;> rfl

end Operators

variable {K : Type} [Scalar K] [Numeral K]

/-- The reader of a rule, where some levels of operands are left. -/
def Rule.reader (levels : Nat) : Rule → Reader K
  | joined .sum => Formula.sumOf (Formula.unary levels)
  | joined .product => Formula.chain Formula.productOperation (Formula.unary levels)
  | unary => Formula.unary levels
  | power => Formula.power (Formula.unary levels)
  | atom => Formula.atom (Formula.unary levels)

/-- Sums and products are read as chains of their operands. -/
theorem Rule.reader_joined (levels : Nat) (s : Strength) :
    (Rule.joined s).reader (K := K) levels =
      Formula.chain s.operation (s.operand.reader levels) := by
  cases s <;> rfl

/-- What a reader answers that has read a tree and stands before some lexemes.
Between the operands of a chain this is the state of the reader. -/
def Rule.proceed (levels : Nat) : Rule → Expr K → List Lexeme →
    Except GrammarFault (Expr K × List Lexeme)
  | joined s, tree, rest =>
      outcome (Formula.chainFrom s.operation (s.operand.reader levels) tree rest)
  | _, tree, rest => .ok (tree, rest)

/-- Where a derivation has to end, reading does not go on. -/
theorem Rule.proceed_eq {r : Rule} {rest : List Lexeme} (ends : r.EndsBefore rest) (levels : Nat)
    (tree : Expr K) : r.proceed levels tree rest = .ok (tree, rest) := by
  cases r with
  | joined s =>
      apply outcome_chainFrom_of_head
      rintro ⟨token, position⟩ head
      cases known : s.operation (K := K) token with
      | none => rfl
      | some combine =>
          obtain ⟨operator, rfl, -⟩ := Strength.exists_operator known
          obtain ⟨others, rfl⟩ := List.head?_eq_some_iff.1 head
          exact ends.not_operator.elim
  | _ => rfl

/-! ### What has a derivation is read -/

/-- A result is what is wanted if the nesting stays within the levels, and
otherwise the fault of nesting too deep. -/
inductive Reaches {A : Type} (levels nesting : Nat) (result wanted : Except GrammarFault A) : Prop
  | within (le : nesting ≤ levels) (eq : result = wanted)
  | beyond (lt : levels < nesting) (position : Nat) (eq : result = .error (.tooDeep position))

namespace Reaches

variable {A B : Type} {levels m n : Nat} {result next wanted : Except GrammarFault A} {a : A}

theorem refl (levels : Nat) (result : Except GrammarFault A) : Reaches levels 0 result result :=
  .within (Nat.zero_le levels) rfl

/-- One after the other, as much depth is needed as the deeper of both needs. -/
theorem trans (h : Reaches levels m result next) (h' : Reaches levels n next wanted) :
    Reaches levels (max m n) result wanted := by
  rcases h with ⟨hm, rfl⟩ | ⟨hm, position, eq⟩
  · rcases h' with ⟨hn, eq⟩ | ⟨hn, position, eq⟩
    · exact .within (by omega) eq
    · exact .beyond (by omega) position eq
  · exact .beyond (by omega) position eq

theorem bind (h : Reaches levels m result (.ok a)) (f : A → Except GrammarFault B) :
    Reaches levels m (result.bind f) (f a) := by
  rcases h with ⟨le, rfl⟩ | ⟨lt, position, rfl⟩
  · exact .within le rfl
  · exact .beyond lt position rfl

theorem map (h : Reaches levels m result (.ok a)) (f : A → B) :
    Reaches levels m (result.map f) (.ok (f a)) := by
  rcases h with ⟨le, rfl⟩ | ⟨lt, position, rfl⟩
  · exact .within le rfl
  · exact .beyond lt position rfl

theorem succ (h : Reaches levels m result wanted) : Reaches (levels + 1) (m + 1) result wanted := by
  rcases h with ⟨le, eq⟩ | ⟨lt, position, eq⟩
  · exact .within (by omega) eq
  · exact .beyond (by omega) position eq

end Reaches

namespace Derivation

variable {r : Rule} {s : Strength}

/-- The reader of its rule reads a derivation, whatever comes behind that does
not go on with its last operand. -/
def Reads (K : Type) [Scalar K] [Numeral K] (d : Derivation .normal r) : Prop :=
  ∀ levels rest, r.last.EndsBefore rest →
    Reaches levels d.nesting (outcome (r.reader (K := K) levels (d.lexemes ++ rest)))
      (r.proceed levels d.tree rest)

namespace Reads

variable {inside : Derivation .normal .sum} {operand : Derivation .normal s.operand}

/-- What follows is nothing that goes on with the derivation. -/
theorem whole {d : Derivation .normal r} (h : Reads K d) (levels : Nat) {rest : List Lexeme}
    (ends : r.EndsBefore rest) :
    Reaches levels d.nesting (outcome (r.reader (K := K) levels (d.lexemes ++ rest)))
      (.ok (d.tree, rest)) := by
  rw [← Rule.proceed_eq ends levels]
  exact h levels rest ends.last

theorem closedSum (h : Reads K inside) (levels closed : Nat) (rest : List Lexeme) :
    Reaches levels inside.nesting
      (outcome (Formula.closedSum (Formula.unary (K := K) levels)
        (inside.lexemes ++ ⟨.closing, closed⟩ :: rest))) (.ok (inside.tree, rest)) := by
  rw [outcome_closedSum]
  exact (h.whole levels (Rule.endsBefore_closing closed)).bind _

theorem group (h : Reads K inside) (opened closed : Nat) :
    Reads K (.group opened closed inside) := by
  intro levels rest _
  rw [lexemes, List.cons_append, List.append_assoc]
  show Reaches _ _ (outcome (Formula.atom _ _)) _
  rw [outcome_atom_opening]
  exact h.closedSum levels closed rest

theorem single (h : Reads K operand) : Reads K (.single operand) := by
  intro levels rest ends
  rw [Rule.reader_joined, outcome_chain]
  exact (h.whole levels ends).bind _

/-- A joined derivation is read if both operands are.  The reader meets the operators
from the left, which is why the relation speaks of what is read so far. -/
theorem extended {left : Derivation .normal (.joined s)} {right : Derivation .normal s.operand}
    (hleft : Reads K left) (hright : Reads K right) (operator : Operator s) (position : Nat) :
    Reads K (.extended left operator position right) := by
  intro levels rest ends
  rw [lexemes, List.append_assoc]
  refine (hleft levels _ (Rule.endsBefore_operator operator position)).trans ?_
  show Reaches _ _ (outcome (Formula.chainFrom _ _ _ (_ :: _))) _
  rw [List.append_eq, outcome_chainFrom_cons _ _ _ _ _ (Strength.operation_token operator)]
  exact (hright.whole levels ends).bind _

theorem call (h : Reads K inside) {f : SurfaceFunction} (name : String)
    (position opened closed : Nat) (known : Vocabulary.normal.function? name = some f) :
    Reads K (.call name position opened closed known inside) := by
  intro levels rest _
  obtain ⟨g, found, rfl⟩ := Option.map_eq_some_iff.1 known
  obtain rfl := eq_of_find?_spelling found
  rw [lexemes, List.cons_append, List.cons_append, List.append_assoc]
  show Reaches _ _ (outcome (Formula.atom _ _)) _
  rw [outcome_atom_call]
  exact (h.closedSum levels closed rest).map _

theorem unraised {operand : Derivation .normal .atom} (h : Reads K operand) :
    Reads K (.unraised operand) := by
  intro levels rest ends
  have closes : Rule.atom.EndsBefore rest := Rule.endsBefore_atom
  have read := h.whole levels closes
  show Reaches _ _ (outcome (Formula.power _ _)) _
  rw [outcome_power]
  -- no power follows, so the atom is all there is
  cases rest with
  | nil => exact read.bind _
  | cons lexeme others =>
      obtain ⟨token, position⟩ := lexeme
      cases token with
      | power => exact absurd (List.mem_singleton_self _) (ends _ rfl)
      | _ => exact read.bind _

/-- A power is read if base and exponent are, the exponent one level deeper. -/
theorem raised {base : Derivation .normal .atom} {exponent : Derivation .normal .unary}
    (hbase : Reads K base) (hexponent : Reads K exponent) (position : Nat) :
    Reads K (.raised base position exponent) := by
  intro levels rest ends
  have ordinary : base.isExponentialBase = false := by
    cases base <;> rfl
  rw [lexemes, List.append_assoc, tree, ordinary]
  show Reaches _ _ (outcome (Formula.power _ _)) _
  rw [outcome_power]
  refine ((hbase.whole levels Rule.endsBefore_atom).bind _).trans ?_
  exact (hexponent.whole levels ends).map _

/-- An operand that starts with no sign is a power. -/
theorem signed_eq_power (operand : Derivation .normal .power) (next : Reader K)
    (rest : List Lexeme) :
    Formula.signed next (operand.lexemes ++ rest) =
      Formula.power next (operand.lexemes ++ rest) := by
  cases operand with
  | unraised a | raised a => cases a <;> rfl

theorem unsigned {operand : Derivation .normal .power} (h : Reads K operand) :
    Reads K (.unsigned operand) := by
  intro levels rest ends
  cases levels with
  | zero => exact .beyond (Nat.succ_pos _) _ rfl
  | succ levels =>
      show Reaches _ _ (outcome (Formula.signed _ (operand.lexemes ++ rest))) _
      rw [signed_eq_power]
      exact (h.whole levels ends).succ

/-- An operand with a sign is read if the operand is, one level deeper. -/
theorem signed {operand : Derivation .normal .unary} (h : Reads K operand) (sign : Operator .sum)
    (position : Nat) : Reads K (.signed sign position operand) := by
  intro levels rest ends
  cases levels with
  | zero => exact .beyond (Nat.succ_pos _) _ rfl
  | succ levels =>
      show Reaches _ _ (outcome (Formula.signed _ (⟨sign.token, position⟩ :: _))) _
      cases sign with
      | plus =>
          rw [Operator.token, outcome_signed_plus]
          exact (h.whole levels ends).succ
      | minus =>
          rw [Operator.token, outcome_signed_minus, tree, signTree_minus]
          exact ((h.whole levels ends).map _).succ

end Reads

/-- Every derivation is read by the reader of its rule, by induction on
the derivation. -/
theorem reads (d : Derivation .normal r) : Reads K d := by
  induction d with
  | number text position => exact fun levels rest _ => .refl levels _
  | «variable» position => exact fun levels rest _ => .refl levels _
  | @constant c name position known =>
      intro levels rest _
      obtain rfl := eq_of_find?_spelling known
      cases c <;> exact .refl levels _
  | call name position opened closed known _ ih => exact ih.call name position opened closed known
  | group opened closed _ ih => exact ih.group opened closed
  | unraised _ ih => exact ih.unraised
  | raised _ position _ ihbase ihexponent => exact ihbase.raised ihexponent position
  | unsigned _ ih => exact ih.unsigned
  | signed sign position _ ih => exact ih.signed sign position
  | single _ ih => exact ih.single
  | extended _ operator position _ ihleft ihright => exact ihleft.extended ihright operator position

/-- A derivation is read as its tree, or it nests too deep. -/
theorem parseLexemes_reaches (d : Derivation .normal .sum) :
    Reaches Formula.nestingLimit d.nesting (Formula.parseLexemes (K := K) d.lexemes)
      (.ok d.tree) := by
  have whole := (d.reads (K := K)).whole Formula.nestingLimit Rule.endsBefore_nil
  rw [List.append_nil] at whole
  rw [parseLexemes_eq_bind]
  exact whole.bind _

/-- A derivation that does not nest too deep is read as its tree. -/
theorem parseLexemes_eq (d : Derivation .normal .sum) (within : d.nesting ≤ Formula.nestingLimit) :
    Formula.parseLexemes (K := K) d.lexemes = .ok d.tree := by
  rcases d.parseLexemes_reaches (K := K) with ⟨-, read⟩ | ⟨beyond, -⟩
  · exact read
  · exact absurd within (Nat.not_le.2 beyond)

end Derivation

/-! ### What is read has a derivation -/

/-- What a reader accepts has a derivation of the rule that stays within
the levels. -/
def Recognises (levels : Nat) (r : Rule) (reader : Reader K) : Prop :=
  ∀ lexemes tree rest, outcome (reader lexemes) = .ok (tree, rest) →
    ∃ d : Derivation .normal r, lexemes = d.lexemes ++ rest ∧ d.nesting ≤ levels ∧ d.tree = tree

namespace Recognises

variable {levels : Nat} {s : Strength} {operand unary : Reader K}

/-- A chain that goes on behind a derivation makes it longer. -/
theorem chainFrom (h : Recognises levels s.operand operand) (left : Derivation .normal (.joined s))
    (within : left.nesting ≤ levels) {lexemes : List Lexeme} {tree : Expr K} {rest : List Lexeme}
    (read : outcome (Formula.chainFrom s.operation operand left.tree lexemes) = .ok (tree, rest)) :
    ∃ d : Derivation .normal (.joined s), left.lexemes ++ lexemes = d.lexemes ++ rest ∧
      d.nesting ≤ levels ∧ d.tree = tree := by
  induction length : lexemes.length using Nat.strongRecOn generalizing left lexemes with
  | _ n ih =>
    have stopped (stops : ∀ lexeme ∈ lexemes.head?, s.operation (K := K) lexeme.token = none) :
        ∃ d : Derivation .normal (.joined s), left.lexemes ++ lexemes = d.lexemes ++ rest ∧
          d.nesting ≤ levels ∧ d.tree = tree := by
      rw [outcome_chainFrom_of_head _ _ _ stops] at read
      cases read
      exact ⟨left, rfl, within, rfl⟩
    cases lexemes with
    | nil => exact stopped (by simp)
    | cons lexeme after =>
        obtain ⟨token, position⟩ := lexeme
        cases known : s.operation (K := K) token with
        | none =>
            apply stopped
            rintro _ ⟨⟩
            exact known
        | some combine =>
            obtain ⟨operator, rfl, rfl⟩ := Strength.exists_operator known
            rw [outcome_chainFrom_cons _ _ _ _ _ known] at read
            obtain ⟨⟨_, behind⟩, readRight, read⟩ := bind_eq_ok read
            obtain ⟨right, rfl, withinRight, rfl⟩ := h _ _ _ readRight
            have shorter : behind.length < n := by
              rw [← length, List.length_cons, List.length_append]
              omega
            obtain ⟨d, eq, result⟩ := ih _ shorter
              (.extended left operator position right)
              (Nat.max_le.2 ⟨within, withinRight⟩) read rfl
            refine ⟨d, ?_, result⟩
            rw [← eq, Derivation.lexemes, List.append_assoc, List.cons_append]

/-- What a chain of operands reads has a derivation, if what the operands read has. -/
theorem chain (h : Recognises levels s.operand operand) :
    Recognises levels (.joined s) (Formula.chain s.operation operand) := by
  intro lexemes tree rest read
  rw [outcome_chain] at read
  obtain ⟨⟨_, behind⟩, readFirst, read⟩ := bind_eq_ok read
  obtain ⟨first, rfl, within, rfl⟩ := h _ _ _ readFirst
  exact h.chainFrom (.single first) within read

theorem sumOf (h : Recognises levels .unary unary) : Recognises levels .sum (Formula.sumOf unary) :=
  chain (s := .sum) (chain (s := .product) h)

/-- What is read as a group has a derivation of its content, and a closing
parenthesis behind it. -/
theorem closedSum (h : Recognises levels .unary unary) {lexemes rest : List Lexeme} {tree : Expr K}
    (read : outcome (Formula.closedSum unary lexemes) = .ok (tree, rest)) :
    ∃ (d : Derivation .normal .sum) (closed : Nat),
      lexemes = d.lexemes ++ ⟨.closing, closed⟩ :: rest ∧ d.nesting ≤ levels ∧ d.tree = tree := by
  rw [outcome_closedSum] at read
  obtain ⟨⟨_, behind⟩, readSum, read⟩ := bind_eq_ok read
  obtain ⟨d, rfl, within, rfl⟩ := h.sumOf _ _ _ readSum
  rcases behind with _ | ⟨⟨token, closed⟩, after⟩
  · cases read
  · cases token with
    | closing =>
        cases read
        exact ⟨d, closed, rfl, within, rfl⟩
    | _ => cases read

/-- What is read as a leaf has a derivation without depth. -/
theorem leaf {name : String} {tree : Expr K} (position : Nat)
    (h : Formula.leaf? name = some tree) :
    ∃ d : Derivation .normal .atom, d.lexemes = [⟨.ident name, position⟩] ∧ d.nesting = 0 ∧
      d.tree = tree := by
  rw [Formula.leaf?] at h
  split at h
  · next same =>
    cases h
    exact ⟨.variable position, by rw [same]; rfl, rfl, by rw [same]; rfl⟩
  · obtain ⟨c, known, rfl⟩ := Option.map_eq_some_iff.1 h
    exact ⟨.constant name position known, rfl, rfl, rfl⟩

theorem atom (h : Recognises levels .unary unary) :
    Recognises levels .atom (Formula.atom unary) := by
  intro lexemes tree rest read
  rcases lexemes with _ | ⟨⟨token, position⟩, after⟩
  · cases read
  · cases token with
    | number text =>
        cases read
        exact ⟨.number text position, rfl, Nat.zero_le _, rfl⟩
    | opening =>
        rw [outcome_atom_opening] at read
        obtain ⟨d, closed, rfl, within, rfl⟩ := h.closedSum read
        refine ⟨.group position closed d, ?_, within, rfl⟩
        rw [Derivation.lexemes, List.cons_append, List.append_assoc, List.singleton_append]
    | ident name =>
        rw [outcome_atom_ident] at read
        split at read
        · next tree' known =>
          cases read
          obtain ⟨d, eq, nesting, same⟩ := leaf position known
          exact ⟨d, by rw [eq]; rfl, by omega, same⟩
        · split at read
          · cases read
          · next f known =>
            split at read
            · next opened inner =>
              obtain ⟨⟨_, _⟩, readArgument, eq⟩ := map_eq_ok read
              cases eq
              obtain ⟨d, closed, rfl, within, rfl⟩ := h.closedSum readArgument
              have found : Vocabulary.normal.function? name = some (.direct f) :=
                Option.map_eq_some_iff.2 ⟨f, known, rfl⟩
              refine ⟨.call name position opened closed found d, ?_, within, rfl⟩
              rw [Derivation.lexemes, List.cons_append, List.cons_append, List.append_assoc,
                List.singleton_append]
            · cases read
    | _ => cases read

theorem power (h : Recognises levels .unary unary) :
    Recognises levels .power (Formula.power unary) := by
  intro lexemes tree rest read
  rw [outcome_power] at read
  obtain ⟨⟨_, behind⟩, readBase, read⟩ := bind_eq_ok read
  obtain ⟨base, rfl, within, rfl⟩ := h.atom _ _ _ readBase
  have alone (same : (base.tree, behind) = (tree, rest)) :
      ∃ d : Derivation .normal .power, base.lexemes ++ behind = d.lexemes ++ rest ∧
        d.nesting ≤ levels ∧ d.tree = tree := by
    cases same
    exact ⟨.unraised base, rfl, within, rfl⟩
  rcases behind with _ | ⟨⟨token, position⟩, after⟩
  · exact alone (Except.ok.inj read)
  · cases token with
    | power =>
        obtain ⟨⟨_, _⟩, readExponent, eq⟩ := map_eq_ok read
        cases eq
        obtain ⟨exponent, rfl, withinExponent, rfl⟩ := h _ _ _ readExponent
        have ordinary : base.isExponentialBase = false := by
          cases base <;> rfl
        refine ⟨.raised base position exponent, ?_, Nat.max_le.2 ⟨within, withinExponent⟩, ?_⟩
        · rw [Derivation.lexemes, List.append_assoc, List.cons_append]
        · rw [Derivation.tree, ordinary]
          rfl
    | _ => exact alone (Except.ok.inj read)

/-- An operand with its signs uses one level more than what stands in it. -/
theorem signed (h : Recognises levels .unary unary) :
    Recognises (levels + 1) .unary (Formula.signed unary) := by
  intro lexemes tree rest read
  have unsigned (read : outcome (Formula.power unary lexemes) = .ok (tree, rest)) :
      ∃ d : Derivation .normal .unary, lexemes = d.lexemes ++ rest ∧ d.nesting ≤ levels + 1 ∧
        d.tree = tree := by
    obtain ⟨d, rfl, within, rfl⟩ := h.power _ _ _ read
    exact ⟨.unsigned d, rfl, Nat.succ_le_succ within, rfl⟩
  rcases lexemes with _ | ⟨⟨token, position⟩, after⟩
  · exact unsigned read
  · cases token with
    | minus =>
        rw [outcome_signed_minus] at read
        obtain ⟨⟨_, _⟩, readOperand, eq⟩ := map_eq_ok read
        cases eq
        obtain ⟨d, rfl, within, rfl⟩ := h _ _ _ readOperand
        exact ⟨.signed .minus position d, rfl, Nat.succ_le_succ within,
          Derivation.signTree_minus d.tree⟩
    | plus =>
        rw [outcome_signed_plus] at read
        obtain ⟨d, rfl, within, rfl⟩ := h _ _ _ read
        exact ⟨.signed .plus position d, rfl, Nat.succ_le_succ within, rfl⟩
    | _ => exact unsigned read

end Recognises

/-- What operands of every depth read has a derivation of that depth at most,
by induction on the depth. -/
theorem recognises_unary (levels : Nat) :
    Recognises levels .unary (Formula.unary (K := K) levels) := by
  induction levels with
  | zero =>
      intro lexemes tree rest read
      cases read
  | succ levels ih => exact ih.signed

/-- What is read has a derivation that stays within the limit of nesting. -/
theorem exists_derivation_of_parseLexemes {lexemes : List Lexeme} {tree : Expr K}
    (parsed : Formula.parseLexemes lexemes = .ok tree) :
    ∃ d : Derivation .normal .sum, d.lexemes = lexemes ∧ d.nesting ≤ Formula.nestingLimit ∧
      d.tree = tree := by
  rw [parseLexemes_eq_bind] at parsed
  obtain ⟨⟨_, behind⟩, read, parsed⟩ := bind_eq_ok parsed
  obtain ⟨d, rfl, within, rfl⟩ := (recognises_unary Formula.nestingLimit).sumOf _ _ _ read
  cases behind with
  | nil =>
      cases parsed
      exact ⟨d, (List.append_nil _).symm, within, rfl⟩
  | cons => cases parsed

/-- The grammar reads a tree from lexemes exactly if they have a derivation whose
operands nest within the limit.  There is no other derivation of them, and the tree is
its tree.  So the reader is sound, complete up to the limit, and free of choice, and
what the grammar says of a text can be shown of derivations. -/
theorem parseLexemes_eq_ok_iff (lexemes : List Lexeme) (tree : Expr K) :
    Formula.parseLexemes lexemes = .ok tree ↔
      ∃ d : Derivation .normal .sum, d.lexemes = lexemes ∧
        (∀ other : Derivation .normal .sum, other.lexemes = lexemes → other = d) ∧
        d.nesting ≤ Formula.nestingLimit ∧ d.tree = tree := by
  constructor
  · intro parsed
    obtain ⟨d, rfl, within, rfl⟩ := exists_derivation_of_parseLexemes parsed
    exact ⟨d, rfl, fun other same => Derivation.eq_of_lexemes_eq same, within, rfl⟩
  · rintro ⟨d, rfl, -, within, rfl⟩
    exact d.parseLexemes_eq within

end Fluxion
