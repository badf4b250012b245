import Fluxion.Formula.Grammar

/-!
# User notation and normal form

Users write `2x^2 + sin(x)`, `e^(-x)` or `csc(x)`; the grammar knows `2*x**2+math.sin(x)`,
`math.exp(-x)` and `(1/math.sin(x))`.  The way from the one to the other is a chain of steps on
lexemes, never on characters:

1. `^` becomes `**`;
2. neighbours that denote a product get a `*` between them;
3. function names are qualified, and `csc`, `sec`, `cot` become reciprocals;
4. a power of `e` becomes a call of the exponential;
5. what is left of `e` and `pi` becomes a qualified constant.

Added lexemes take the position of the lexeme they stem from, so faults always point into the text
the user wrote.  The result is parsed before it is handed out: a normal form is always a formula.
-/

namespace Fluxion.Formula

open Fluxion.Text (isBlank isDigit isLetter)

/-- The text that an empty input field shows.  Entering it counts as
entering nothing. -/
def placeholder : String := "Enter your function here"

/-- Whether a text is no formula at all but an input field left alone.  Blanks
around it do not matter, and blanks alone are no formula. -/
def isUntouched (text : String) : Bool :=
  let trimmed := Text.trim text.toList
  trimmed.isEmpty || trimmed == placeholder.toList

/-- What users can call a function.  Reciprocals have names of their own, but
no node in a tree: they are written out as quotients. -/
inductive SurfaceFunction where
  | direct (f : Elementary)
  /-- one over the function's value -/
  | reciprocal (f : Elementary)
  deriving DecidableEq, Repr

/-- The function that a bare name means.  Besides the names of normal form
there are seven further spellings: four for functions that have a name
already, and three for reciprocals. -/
def surfaceFunction? (name : String) : Option SurfaceFunction :=
  match Elementary.ofName? name with
  | some f => some (.direct f)
  | none =>
    match name with
    | "ln" => some (.direct .log)
    | "asin" => some (.direct .arcsin)
    | "acos" => some (.direct .arccos)
    | "atan" => some (.direct .arctan)
    | "csc" => some (.reciprocal .sin)
    | "sec" => some (.reciprocal .cos)
    | "cot" => some (.reciprocal .tan)
    | _ => none

/-- Whether a name, bare or qualified, is that of a function.  A name that is
none is never a call, even in front of a parenthesis. -/
def isCallable (name : String) : Bool :=
  (surfaceFunction? name).isSome || (Elementary.ofQualifiedName? name).isSome

/-! ### Checks on characters -/

/-- Whether a character can occur in user notation.  Letters and digits are
those of ASCII, and any blank may stand between tokens. -/
def isAllowed (c : Char) : Bool :=
  isDigit c || isLetter c || isBlank c || ['.', '+', '-', '*', '/', '^', '(', ')'].contains c

/-- Looks for the first character that user notation does not have.  It is
blamed even if a parenthesis before it has no partner. -/
def checkCharacters (position : Nat) : List Char → Except ParseFault Unit
  | [] => .ok ()
  | c :: rest =>
    if isAllowed c then checkCharacters (position + 1) rest
    else .error (.unexpectedCharacter c position)

/-- Matches parentheses; `opened` holds the positions of those that are open,
the last first.  One that is left open is blamed at the place of the last, and
a closing one without a partner at its own. -/
def checkParentheses (opened : List Nat) (position : Nat) : List Char → Except ParseFault Unit
  | [] =>
    match opened with
    | [] => .ok ()
    | last :: _ => .error (.unbalanced last)
  | '(' :: rest =>
    if openLimit ≤ opened.length then .error (.tooManyOpen position)
    else checkParentheses (position :: opened) (position + 1) rest
  | ')' :: rest =>
    match opened with
    | [] => .error (.unbalanced position)
    | _ :: outer => checkParentheses outer (position + 1) rest
  | _ :: rest => checkParentheses opened (position + 1) rest

/-! ### Groups -/

/-- Lexemes cut at a closing parenthesis: what stands inside, the parenthesis,
and what follows. -/
structure Group where
  inside : List Lexeme
  closing : Lexeme
  after : List Lexeme

/-- Cuts lexemes at the parenthesis that closes one more than `depth` open
ones.  The count follows the recursion, so the parenthesis found is the
partner of the one that was passed before. -/
def cutGroup (depth : Nat) : List Lexeme → Option Group
  | [] => none
  | lexeme :: rest =>
    let deeper (depth : Nat) : Option Group :=
      (cutGroup depth rest).map fun group => { group with inside := lexeme :: group.inside }
    match lexeme.token, depth with
    | .closing, 0 => some ⟨[], lexeme, rest⟩
    | .closing, depth + 1 => deeper depth
    | .opening, depth => deeper (depth + 1)
    | _, depth => deeper depth

/-- A cut group is put together again from its parts, with the closing
parenthesis between them. -/
theorem eq_of_cutGroup {depth : Nat} {lexemes : List Lexeme} {group : Group}
    (h : cutGroup depth lexemes = some group) :
    lexemes = group.inside ++ group.closing :: group.after := by
  induction lexemes generalizing depth group with
  | nil => simp [cutGroup] at h
  | cons lexeme rest ih =>
    unfold cutGroup at h
    split at h
    · cases h; rfl
    all_goals
      obtain ⟨inner, cut, rfl⟩ := Option.map_eq_some_iff.1 h
      simp [ih cut]

/-- What stands inside and behind a group is shorter than what the group was
cut from, so passes may recurse into either. -/
theorem length_of_cutGroup {depth : Nat} {lexemes : List Lexeme} {group : Group}
    (h : cutGroup depth lexemes = some group) :
    group.inside.length + group.after.length + 1 = lexemes.length := by
  rw [eq_of_cutGroup h]; simp; omega

/-! ### The steps -/

/-- Writes powers as `**`.  Users may write them either way, and no later step
has to know both. -/
def withPowers (lexemes : List Lexeme) : List Lexeme :=
  lexemes.map fun lexeme =>
    if lexeme.token = .caret then { lexeme with token := .power } else lexeme

/-- Whether two neighbours denote a product.  A name that can be called is not
multiplied with a parenthesis or a name behind it, and numbers are not
multiplied with each other. -/
def juxtaposed : Token → Token → Bool
  | .number _, .ident _ | .ident _, .number _ | .closing, .ident _ => true
  | .ident name, .opening | .ident name, .ident _ => !isCallable name
  | .number _, .opening | .closing, .opening | .closing, .number _ => true
  | _, _ => false

/-- Writes the products of neighbours out.  The added sign takes the place of the
right neighbour, so a fault at the sign points to where the factor begins. -/
def withProducts : List Lexeme → List Lexeme
  | first :: second :: rest =>
    if juxtaposed first.token second.token then
      first :: ⟨.star, second.position⟩ :: withProducts (second :: rest)
    else
      first :: withProducts (second :: rest)
  | lexemes => lexemes

/-- Qualifies function names and writes reciprocals out.  A function without a
parenthesis behind it is refused here.  The argument of a reciprocal is cut
out first, as a closing parenthesis has to be added behind it. -/
def withQualifiedNames (lexemes : List Lexeme) : Except ParseFault (List Lexeme) :=
  match lexemes with
  | [] => .ok []
  | lexeme :: rest =>
    match lexeme.token with
    | .ident name =>
      if isCallable name then
        match rest with
        | ⟨.opening, openedAt⟩ :: inner =>
          match surfaceFunction? name with
          | some (.reciprocal f) =>
            match _h : cutGroup 0 inner with
            | none => .error (.unbalanced openedAt)
            | some group => do
              let argument ←
                withQualifiedNames (⟨.opening, openedAt⟩ :: (group.inside ++ [group.closing]))
              let after ← withQualifiedNames group.after
              return ⟨.opening, lexeme.position⟩ :: ⟨.number "1", lexeme.position⟩
                :: ⟨.slash, lexeme.position⟩ :: ⟨.ident f.qualifiedName, lexeme.position⟩
                :: (argument ++ ⟨.closing, group.closing.position⟩ :: after)
          | some (.direct f) => do
            let after ← withQualifiedNames (⟨.opening, openedAt⟩ :: inner)
            return ⟨.ident f.qualifiedName, lexeme.position⟩ :: after
          | none => do
            let after ← withQualifiedNames (⟨.opening, openedAt⟩ :: inner)
            return lexeme :: after
        | _ => .error (.missingCall name lexeme.position)
      else do
        return lexeme :: (← withQualifiedNames rest)
    | _ => do
      return lexeme :: (← withQualifiedNames rest)
termination_by lexemes.length
decreasing_by
  all_goals first
    | (have bound := length_of_cutGroup (by assumption); simp; omega)
    | simp

/-- An exponent of `e` at the front of some lexemes, and what follows it.
Together they are the lexemes that it was cut from. -/
structure Operand where
  lexemes : List Lexeme
  after : List Lexeme

namespace Operand

/-- The operand with a lexeme more in front. -/
def cons (lexeme : Lexeme) (operand : Operand) : Operand :=
  { operand with lexemes := lexeme :: operand.lexemes }

/-- The operand with more lexemes in front. -/
def prepend (lexemes : List Lexeme) (operand : Operand) : Operand :=
  { operand with lexemes := lexemes ++ operand.lexemes }

end Operand

/-- The atom, call or group at the front of some lexemes.  Every name in front
of a parenthesis counts as a call, whatever it stands for.  Nothing but an
atom can end an exponent, so an operator here is a fault. -/
def cutAtom : List Lexeme → Except ParseFault Operand
  | [] => .error .missingExponent
  | lexeme :: rest =>
    let group (opened : List Lexeme) (openedAt : Nat) (inner : List Lexeme) :
        Except ParseFault Operand :=
      match cutGroup 0 inner with
      | none => .error (.unbalanced openedAt)
      | some group => .ok ⟨opened ++ group.inside ++ [group.closing], group.after⟩
    match lexeme.token with
    | .opening => group [lexeme] lexeme.position rest
    | .ident _ =>
      match rest with
      | ⟨.opening, openedAt⟩ :: inner => group [lexeme, ⟨.opening, openedAt⟩] openedAt inner
      | _ => .ok ⟨[lexeme], rest⟩
    | .number _ => .ok ⟨[lexeme], rest⟩
    | token => .error (.badExponent token lexeme.position)

/-- A cut atom and what follows it make up the lexemes it was cut from. -/
theorem eq_of_cutAtom {lexemes : List Lexeme} {operand : Operand}
    (h : cutAtom lexemes = .ok operand) :
    lexemes = operand.lexemes ++ operand.after ∧ operand.lexemes ≠ [] := by
  cases lexemes with
  | nil => simp [cutAtom] at h
  | cons lexeme rest =>
    simp only [cutAtom] at h
    split at h
    · split at h
      · simp at h
      · cases h
        simp [eq_of_cutGroup (by assumption)]
    · split at h
      · split at h
        · simp at h
        · cases h
          simp [eq_of_cutGroup (by assumption)]
      · cases h; simp
    · cases h; simp
    · simp at h

/-- The exponent that starts some lexemes: signs, then an atom, a call or a group,
then any further power of it.  This is what the grammar reads as an operand with
signs, so the call has the argument that the power has as its exponent. -/
def cutOperand (lexemes : List Lexeme) : Except ParseFault Operand :=
  match lexemes with
  | ⟨.plus, position⟩ :: rest => (cutOperand rest).map (.cons ⟨.plus, position⟩)
  | ⟨.minus, position⟩ :: rest => (cutOperand rest).map (.cons ⟨.minus, position⟩)
  | lexemes =>
    match _h : cutAtom lexemes with
    | .error fault => .error fault
    | .ok ⟨base, ⟨.power, position⟩ :: rest⟩ =>
      (cutOperand rest).map (.prepend (base ++ [⟨.power, position⟩]))
    | .ok operand => .ok operand
termination_by lexemes.length
decreasing_by
  · simp
  · simp
  · have := congrArg List.length (eq_of_cutAtom (by assumption)).1
    simp at this; omega

/-- A cut exponent and what follows it make up the lexemes it was cut from. -/
theorem eq_of_cutOperand {lexemes : List Lexeme} {operand : Operand}
    (h : cutOperand lexemes = .ok operand) : lexemes = operand.lexemes ++ operand.after := by
  fun_induction cutOperand lexemes generalizing operand with
  | case1 position rest ih | case2 position rest ih =>
    cases cut : cutOperand rest with
    | error fault => simp [cut, Except.map] at h
    | ok inner =>
      simp only [cut, Except.map, Except.ok.injEq] at h
      subst h
      simp [Operand.cons, ih cut]
  | case3 => simp at h
  | case4 lexemes _ _ base position rest atomCut ih =>
    cases cut : cutOperand rest with
    | error fault => simp [cut, Except.map] at h
    | ok inner =>
      simp only [cut, Except.map, Except.ok.injEq] at h
      subst h
      have := (eq_of_cutAtom atomCut).1
      simp only [ih cut] at this
      simp [Operand.prepend, this]
  | case5 lexemes _ _ atom _ atomCut =>
    cases h
    exact (eq_of_cutAtom atomCut).1

/-- The content of a group that is all there is; anything else as it is. -/
def ungrouped (lexemes : List Lexeme) : List Lexeme :=
  match lexemes with
  | ⟨.opening, _⟩ :: rest =>
    match cutGroup 0 rest with
    | some ⟨inside, _, []⟩ => inside
    | _ => lexemes
  | _ => lexemes

/-- Taking off the parentheses of a group lengthens nothing. -/
theorem length_ungrouped_le (lexemes : List Lexeme) :
    (ungrouped lexemes).length ≤ lexemes.length := by
  unfold ungrouped
  split
  · split
    · have := length_of_cutGroup (by assumption)
      simp at this ⊢; omega
    · exact Nat.le_refl _
  · exact Nat.le_refl _

/-- Writes powers of `e` as calls of the exponential; a group that is the
whole exponent becomes the argument without its own parentheses.  Powers of
`e` inside the exponent and behind it are written out too. -/
def withExponentials (lexemes : List Lexeme) : Except ParseFault (List Lexeme) :=
  match lexemes with
  | ⟨.ident "e", position⟩ :: ⟨.power, _⟩ :: exponent =>
    match _h : cutOperand exponent with
    | .error fault => .error fault
    | .ok operand => do
      let argument ← withExponentials (ungrouped operand.lexemes)
      let after ← withExponentials operand.after
      return ⟨.ident Elementary.exp.qualifiedName, position⟩ :: ⟨.opening, position⟩
        :: (argument ++ ⟨.closing, position⟩ :: after)
  | lexeme :: rest => do
    return lexeme :: (← withExponentials rest)
  | [] => .ok []
termination_by lexemes.length
decreasing_by
  · have := congrArg List.length (eq_of_cutOperand (by assumption))
    have := length_ungrouped_le operand.lexemes
    simp at *; omega
  · have := congrArg List.length (eq_of_cutOperand (by assumption))
    simp at *; omega
  · simp

/-- Qualifies the bare constants.  It comes last, as powers of `e` are
recognised by the bare name, and leaves all other names alone. -/
def withConstants (lexemes : List Lexeme) : List Lexeme :=
  lexemes.map fun lexeme =>
    match lexeme.token with
    | .ident name =>
      match Constant.ofName? name with
      | some c => { lexeme with token := .ident c.qualifiedName }
      | none => lexeme
    | _ => lexeme

/-! ### Normal forms -/

/-- All steps, one after the other.  Only qualifying names and writing
exponentials can fail.  The order matters: products are written out before
names are qualified, and exponentials before constants are. -/
def normalized (lexemes : List Lexeme) : Except ParseFault (List Lexeme) := do
  let qualified ← withQualifiedNames (withProducts (withPowers lexemes))
  return withConstants (← withExponentials qualified)

/-- The lexemes of a text in user notation, brought to normal form.  The checks come
first: characters, then parentheses, on the text as it stands.  So a fault that a
check can see is reported as such, whatever the steps would say. -/
def normalLexemes (text : String) : Except ParseFault (List Lexeme) := do
  if isUntouched text then throw .empty
  checkCharacters 0 text.toList
  checkParentheses [] 0 text.toList
  normalized (← (lexemes text).mapError ParseFault.ofGrammar)

/-- A formula in normal form: its text and its tree.  The tree is the one that
the text parses to. -/
structure Normal (K : Type) where
  text : String
  tree : Expr K

variable {K : Type} [Scalar K] [Numeral K]

/-- Reads a formula in user notation.  What the steps have made is parsed at once, so
a normal form always has a tree, and a text that the grammar refuses has none. -/
def normalize (text : String) : Except ParseFault (Normal K) := do
  let lexemes ← normalLexemes text
  let tree ← (parseLexemes lexemes).mapError ParseFault.ofGrammar
  return ⟨render lexemes, tree⟩

end Fluxion.Formula
