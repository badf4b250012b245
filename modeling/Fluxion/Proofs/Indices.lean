import Fluxion.Formula.Normal
import Fluxion.Proofs.Faults

/-!
# The steps on indices

Lexemes can be rewritten in place as well: a counter runs over them, the end of a group is found by
counting parentheses, and arguments and operands are ranges of them.  Such steps rely on facts that
nothing in them checks: the counter of parentheses does not go below zero, the end of a group is
looked for where a group starts, and a range lies within the lexemes and its parentheses match.  Here
every use of such a fact is checked, and a fact that does not hold stops the steps (`Slip`).

The steps on indices do what the steps on lists do, and never slip, wherever every group that opens
is closed (`Indexed.qualifiedFrom_eq`, `Indexed.exponentialsFrom_eq`).  So it is in a text that has
passed the check of parentheses, and no later step blames a parenthesis again
(`normalized_ne_unbalanced`): the check is all there is to say about parentheses
(`parentheses_settled_by_check`).
-/

namespace Fluxion

open Formula (Token Lexeme ParseFault)

namespace Indexed

/-! ### Indices that are checked -/

/-- What can go wrong on indices.  Steps on lists cannot express any of it,
which is why such a step never slips. -/
inductive Slip where
  /-- a parenthesis closes nothing, and the counter would go below zero -/
  | belowZero
  /-- the end of a group is looked for where none starts -/
  | noOpening
  /-- there are not that many lexemes -/
  | outOfRange
  /-- the parentheses of a range do not match -/
  | unmatched
  deriving DecidableEq, Repr

/-- Why the steps stop: a fault of the text, which is theirs to report, or a
slip, which must never happen. -/
inductive Stop where
  | fault (fault : ParseFault)
  | slip (slip : Slip)
  deriving DecidableEq, Repr

/-- The token at a place, if there is one. -/
def tokenAt? (lexemes : List Lexeme) (i : Nat) : Option Token := lexemes[i]?.map Lexeme.token

/-- The position of the lexeme at a place, which slips behind the last one. -/
def positionAt (lexemes : List Lexeme) (i : Nat) : Except Stop Nat :=
  match lexemes[i]? with
  | some lexeme => .ok lexeme.position
  | none => .error (.slip .outOfRange)

/-- The lexemes from one place to another, whose parentheses match.  It slips
where the places are out of order or out of range. -/
def range (lexemes : List Lexeme) (first behind : Nat) : Except Stop (List Lexeme) :=
  if first ≤ behind ∧ behind ≤ lexemes.length then
    if Balanced ((lexemes.take behind).drop first) then .ok ((lexemes.take behind).drop first)
    else .error (.slip .unmatched)
  else .error (.slip .outOfRange)

/-- Counts parentheses until none is open; `i` is the place of the first lexeme. -/
def closingFrom (depth i : Nat) : List Lexeme → Except Slip (Option Nat)
  | [] => .ok none
  | lexeme :: rest =>
    match lexeme.token, depth with
    | .opening, depth => closingFrom (depth + 1) (i + 1) rest
    | .closing, 0 => .error .belowZero
    | .closing, 1 => .ok (some i)
    | .closing, depth + 2 => closingFrom (depth + 1) (i + 1) rest
    | _, depth => closingFrom depth (i + 1) rest

/-- The place of the parenthesis that closes the one at a place, found by counting. -/
def closingParen (lexemes : List Lexeme) (opened : Nat) : Except Stop Nat :=
  match lexemes[opened]? with
  | some ⟨.opening, position⟩ =>
    match closingFrom 0 opened (lexemes.drop opened) with
    | .error slip => .error (.slip slip)
    | .ok none => .error (.fault (.unbalanced position))
    | .ok (some closed) => .ok closed
  | _ => .error (.slip .noOpening)

/-! ### The steps -/

section Bounds

variable {lexemes part : List Lexeme} {depth i first behind closed : Nat}

/-- The end of a group is not before the place where the search for it starts. -/
theorem le_of_closingFrom (h : closingFrom depth i lexemes = .ok (some closed)) : i ≤ closed := by
  fun_induction closingFrom depth i lexemes with
  | case1 => cases h
  | case3 => cases h
  | case4 =>
      cases h
      exact Nat.le_refl _
  | case2 _ _ _ _ _ ih | case5 _ _ _ _ _ ih | case6 _ _ _ _ _ _ _ _ ih =>
      exact Nat.le_of_succ_le (ih h)

theorem le_of_closingParen (h : closingParen lexemes i = .ok closed) : i ≤ closed := by
  rw [closingParen] at h
  split at h
  · split at h
    · cases h
    · cases h
    · next found =>
        cases h
        exact le_of_closingFrom found
  · cases h

/-- A range that does not slip lies within the lexemes and is as long as its
ends are apart. -/
theorem range_eq_ok (h : range lexemes first behind = .ok part) :
    first ≤ behind ∧ behind ≤ lexemes.length ∧ part.length = behind - first := by
  rw [range] at h
  split at h
  · next within =>
    split at h
    · cases h
      refine ⟨within.1, within.2, ?_⟩
      rw [List.length_drop, List.length_take, Nat.min_eq_left within.2]
    · cases h
  · cases h

theorem lt_length_of_getElem? {lexeme : Lexeme} (h : lexemes[i]? = some lexeme) :
    i < lexemes.length :=
  (List.getElem?_eq_some_iff.1 h).1

end Bounds

/-- Qualifies names from a place on.  It looks at the next place to see
whether a function is called. -/
def qualifiedFrom (lexemes : List Lexeme) (i : Nat) : Except Stop (List Lexeme) :=
  match _found : lexemes[i]? with
  | none => .ok []
  | some lexeme =>
    match lexeme.token with
    | .ident name =>
      if Formula.isCallable name then
        if tokenAt? lexemes (i + 1) = some .opening then
          match Formula.surfaceFunction? name with
          | some (.reciprocal f) =>
            match closingParen lexemes (i + 1) with
            | .error stop => .error stop
            | .ok closed =>
              match _taken : range lexemes (i + 1) (closed + 1) with
              | .error stop => .error stop
              | .ok group => do
                let argument ← qualifiedFrom group 0
                let closedAt ← positionAt lexemes closed
                let after ← qualifiedFrom lexemes (closed + 1)
                return ⟨.opening, lexeme.position⟩ :: ⟨.number "1", lexeme.position⟩
                  :: ⟨.slash, lexeme.position⟩ :: ⟨.ident f.qualifiedName, lexeme.position⟩
                  :: (argument ++ ⟨.closing, closedAt⟩ :: after)
          | some (.direct f) =>
            (qualifiedFrom lexemes (i + 1)).map (⟨.ident f.qualifiedName, lexeme.position⟩ :: ·)
          | none => (qualifiedFrom lexemes (i + 1)).map (lexeme :: ·)
        else .error (.fault (.missingCall name lexeme.position))
      else (qualifiedFrom lexemes (i + 1)).map (lexeme :: ·)
    | _ => (qualifiedFrom lexemes (i + 1)).map (lexeme :: ·)
termination_by lexemes.length - i
decreasing_by
  all_goals
    have bound := lt_length_of_getElem? (by assumption)
    first
    | omega
    | (have taken := range_eq_ok (by assumption); omega)

/-- The place behind the atom, call or group at a place. -/
def atomEnd (lexemes : List Lexeme) (k : Nat) (lexeme : Lexeme) : Except Stop Nat :=
  match lexeme.token with
  | .opening => (closingParen lexemes k).map (· + 1)
  | .ident _ =>
    if tokenAt? lexemes (k + 1) = some .opening then (closingParen lexemes (k + 1)).map (· + 1)
    else .ok (k + 1)
  | .number _ => .ok (k + 1)
  | token => .error (.fault (.badExponent token lexeme.position))

/-- An atom has at least one lexeme, so the steps move on. -/
theorem lt_of_atomEnd {lexemes : List Lexeme} {k behind : Nat} {lexeme : Lexeme}
    (h : atomEnd lexemes k lexeme = .ok behind) : k < behind := by
  rw [atomEnd] at h
  split at h
  · obtain ⟨closed, found, rfl⟩ := map_eq_ok h
    exact Nat.lt_succ_of_le (le_of_closingParen found)
  · split at h
    · obtain ⟨closed, found, rfl⟩ := map_eq_ok h
      exact Nat.lt_succ_of_lt (le_of_closingParen found)
    · cases h
      exact Nat.lt_succ_self k
  · cases h
    exact Nat.lt_succ_self k
  · cases h

/-- The place behind the exponent at a place: signs, an atom, and any
further power of it. -/
def operandEnd (lexemes : List Lexeme) (k : Nat) : Except Stop Nat :=
  match _found : lexemes[k]? with
  | none => .error (.fault .missingExponent)
  | some lexeme =>
    if lexeme.token = .plus ∨ lexeme.token = .minus then operandEnd lexemes (k + 1)
    else
      match _ended : atomEnd lexemes k lexeme with
      | .error stop => .error stop
      | .ok behind =>
        if tokenAt? lexemes behind = some .power then operandEnd lexemes (behind + 1)
        else .ok behind
termination_by lexemes.length - k
decreasing_by
  all_goals
    have bound := lt_length_of_getElem? (by assumption)
    first
    | omega
    | (have ended := lt_of_atomEnd (by assumption); omega)

/-- The content of an operand that is one group, anything else as it is. -/
def contents (operand : List Lexeme) : Except Stop (List Lexeme) :=
  if tokenAt? operand 0 = some .opening then
    (closingParen operand 0).bind fun closed =>
      if closed = operand.length - 1 then range operand 1 (operand.length - 1) else .ok operand
  else .ok operand

/-- The content of an operand is no longer than the operand. -/
theorem length_of_contents {operand argument : List Lexeme} (h : contents operand = .ok argument) :
    argument.length ≤ operand.length := by
  rw [contents] at h
  split at h
  · obtain ⟨closed, -, h⟩ := bind_eq_ok h
    split at h
    · have taken := range_eq_ok h
      omega
    · cases h
      exact Nat.le_refl _
  · cases h
    exact Nat.le_refl _

/-- Writes powers of `e` as calls from a place on.  The exponent is a range of
its own, on which the step starts over. -/
def exponentialsFrom (lexemes : List Lexeme) (i : Nat) : Except Stop (List Lexeme) :=
  match _found : lexemes[i]? with
  | none => .ok []
  | some lexeme =>
    if lexeme.token = .ident "e" ∧ tokenAt? lexemes (i + 1) = some .power then
      match operandEnd lexemes (i + 2) with
      | .error stop => .error stop
      | .ok behind =>
        match _taken : range lexemes (i + 2) behind with
        | .error stop => .error stop
        | .ok operand =>
          match _inside : contents operand with
          | .error stop => .error stop
          | .ok content => do
            let argument ← exponentialsFrom content 0
            let after ← exponentialsFrom lexemes behind
            return ⟨.ident Elementary.exp.qualifiedName, lexeme.position⟩
              :: ⟨.opening, lexeme.position⟩
              :: (argument ++ ⟨.closing, lexeme.position⟩ :: after)
    else (exponentialsFrom lexemes (i + 1)).map (lexeme :: ·)
termination_by lexemes.length - i
decreasing_by
  all_goals
    have bound := lt_length_of_getElem? (by assumption)
    first
    | omega
    | (have taken := range_eq_ok (by assumption)
       have inside := length_of_contents (by assumption)
       omega)

/-- All steps, one after the other. -/
def normalized (lexemes : List Lexeme) : Except Stop (List Lexeme) := do
  let qualified ← qualifiedFrom (Formula.withProducts (Formula.withPowers lexemes)) 0
  return Formula.withConstants (← exponentialsFrom qualified 0)

/-! ### Indices into lexemes that are split -/

section Split

variable {before inner rest part after : List Lexeme} {first : Lexeme} {group : Formula.Group}

/-- Behind lexemes that have been passed over, the place is that of the
first one left. -/
theorem getElem?_append_length (before rest : List Lexeme) :
    (before ++ rest)[before.length]? = rest.head? := by
  rw [List.getElem?_append_right (Nat.le_refl _), Nat.sub_self, List.head?_eq_getElem?]

/-- The token at that place is the one the rest starts with. -/
theorem tokenAt?_append_length (before rest : List Lexeme) (token : Token) :
    tokenAt? (before ++ rest) before.length = some token ↔ Starts token rest := by
  rw [tokenAt?, getElem?_append_length]
  exact Iff.rfl

/-- The token one place on is the one the rest without its first lexeme
starts with. -/
theorem tokenAt?_append (before : List Lexeme) (first : Lexeme) (rest : List Lexeme)
    (token : Token) :
    tokenAt? (before ++ first :: rest) (before.length + 1) = some token ↔ Starts token rest := by
  have next := tokenAt?_append_length (before ++ [first]) rest token
  rw [List.append_assoc, List.length_append] at next
  exact next

/-- Counting from a place finds the parenthesis at which the list is cut.  The
induction is on the list, for every number of open groups. -/
theorem closingFrom_eq {depth : Nat} (cut : Formula.cutGroup depth rest = some group) (i : Nat) :
    closingFrom (depth + 1) i rest = .ok (some (i + group.inside.length)) := by
  induction rest generalizing depth group i with
  | nil => cases cut
  | cons lexeme others ih =>
      -- a lexeme inside the group is passed over
      have inside {depth' : Nat} (cut : (Formula.cutGroup depth' others).map
            (fun inner => { inner with inside := lexeme :: inner.inside }) = some group)
          (step : closingFrom (depth + 1) i (lexeme :: others) =
            closingFrom (depth' + 1) (i + 1) others) :
          closingFrom (depth + 1) i (lexeme :: others) =
            .ok (some (i + group.inside.length)) := by
        obtain ⟨inner, found, rfl⟩ := Option.map_eq_some_iff.1 cut
        rw [step, ih found, List.length_cons, Nat.add_assoc, Nat.add_comm 1]
      obtain ⟨token, position⟩ := lexeme
      cases token with
      | opening => exact inside cut rfl
      | closing =>
          cases depth with
          | zero =>
              cases cut
              rfl
          | succ depth => exact inside cut rfl
      | _ => exact inside cut rfl

/-- The place of the closing parenthesis is behind what stands inside
the cut group. -/
theorem closingParen_eq (cut : Formula.cutGroup 0 inner = some group) (before : List Lexeme)
    (position : Nat) :
    closingParen (before ++ ⟨.opening, position⟩ :: inner) before.length =
      .ok (before.length + 1 + group.inside.length) := by
  have counted : closingFrom 0 before.length (⟨.opening, position⟩ :: inner) =
      .ok (some (before.length + 1 + group.inside.length)) := closingFrom_eq cut (before.length + 1)
  rw [closingParen, getElem?_append_length, List.drop_left, List.head?_cons]
  simp only [counted]

/-- A range of balanced lexemes is taken without a slip. -/
theorem range_eq (matched : Balanced part) (before after : List Lexeme) :
    range (before ++ (part ++ after)) before.length (before.length + part.length) = .ok part := by
  have taken : ((before ++ (part ++ after)).take (before.length + part.length)).drop
      before.length = part := by
    rw [← List.append_assoc, ← List.length_append, List.take_left, List.drop_left]
  rw [range, if_pos ⟨by omega, by simp⟩, taken, if_pos matched]

end Split

/-! ### The steps on indices are those on lists -/

section Qualified

variable {lexemes : List Lexeme} {i : Nat} {lexeme : Lexeme}

theorem qualifiedFrom_keep (found : lexemes[i]? = some lexeme)
    (plain : ∀ name, lexeme.token = .ident name → Formula.isCallable name = false) :
    qualifiedFrom lexemes i = (qualifiedFrom lexemes (i + 1)).map (lexeme :: ·) := by
  rw [qualifiedFrom]
  split
  · next missing => cases missing.symm.trans found
  · next found' =>
    cases found'.symm.trans found
    split
    · next name named => rw [plain name named, if_neg Bool.false_ne_true]
    · rfl

/-- What is done with the name of a function that is called. -/
theorem qualifiedFrom_call {name : String} (found : lexemes[i]? = some lexeme)
    (named : lexeme.token = .ident name) (callable : Formula.isCallable name = true)
    (opens : tokenAt? lexemes (i + 1) = some .opening) :
    qualifiedFrom lexemes i =
      match Formula.surfaceFunction? name with
      | some (.reciprocal f) =>
        (closingParen lexemes (i + 1)).bind fun closed =>
          (range lexemes (i + 1) (closed + 1)).bind fun group =>
            (qualifiedFrom group 0).bind fun argument =>
              (positionAt lexemes closed).bind fun closedAt =>
                (qualifiedFrom lexemes (closed + 1)).map fun after =>
                  ⟨.opening, lexeme.position⟩ :: ⟨.number "1", lexeme.position⟩
                  :: ⟨.slash, lexeme.position⟩ :: ⟨.ident f.qualifiedName, lexeme.position⟩
                  :: (argument ++ ⟨.closing, closedAt⟩ :: after)
      | some (.direct f) =>
        (qualifiedFrom lexemes (i + 1)).map (⟨.ident f.qualifiedName, lexeme.position⟩ :: ·)
      | none => (qualifiedFrom lexemes (i + 1)).map (lexeme :: ·) := by
  rw [qualifiedFrom]
  split
  · next missing => cases missing.symm.trans found
  · next found' =>
    cases found'.symm.trans found
    simp only [named, callable, opens, if_true]
    split
    · cases closingParen lexemes (i + 1) with
      | error stop => rfl
      | ok closed =>
        dsimp only [Except.bind]
        split
        · next failed => rw [failed]
        · next taken =>
          rw [taken]
          rfl
    · rfl
    · rfl

/-- A function that is not called is refused at its place. -/
theorem qualifiedFrom_uncalled {name : String} (found : lexemes[i]? = some lexeme)
    (named : lexeme.token = .ident name) (callable : Formula.isCallable name = true)
    (alone : tokenAt? lexemes (i + 1) ≠ some .opening) :
    qualifiedFrom lexemes i = .error (.fault (.missingCall name lexeme.position)) := by
  rw [qualifiedFrom]
  split
  · next missing => cases missing.symm.trans found
  · next found' =>
    cases found'.symm.trans found
    simp only [named, callable, if_true, if_neg alone]

end Qualified

theorem getElem?_append_cons (before : List Lexeme) (first : Lexeme) (rest : List Lexeme) :
    (before ++ first :: rest)[before.length]? = some first := by
  rw [getElem?_append_length, List.head?_cons]

/-- A step at the next place is a step behind one lexeme more. -/
theorem map_next {A B : Type} {step : List Lexeme → Nat → Except Stop A} {rest : List Lexeme}
    {result : Except ParseFault A}
    (same : ∀ before, step (before ++ rest) before.length = result.mapError .fault)
    (before : List Lexeme) (first : Lexeme) (f : A → B) :
    (step (before ++ first :: rest) (before.length + 1)).map f =
      (result.map f).mapError .fault := by
  have next := same (before ++ [first])
  rw [List.append_assoc, List.length_append] at next
  rw [mapError_map, ← next]
  rfl

/-- The group behind a name, on indices: the search for its end succeeds, and
the range between the places is its content. -/
theorem group_eq {inner : List Lexeme} {group : Formula.Group}
    (cut : Formula.cutGroup 0 inner = some group) (before : List Lexeme) (lexeme : Lexeme)
    (opened : Nat) :
    ∃ closed,
      closingParen (before ++ lexeme :: ⟨.opening, opened⟩ :: inner) (before.length + 1) =
          .ok closed ∧
        range (before ++ lexeme :: ⟨.opening, opened⟩ :: inner) (before.length + 1) (closed + 1) =
          .ok (⟨.opening, opened⟩ :: (group.inside ++ [group.closing])) ∧
        positionAt (before ++ lexeme :: ⟨.opening, opened⟩ :: inner) closed =
          .ok group.closing.position ∧
        ∃ front, before ++ lexeme :: ⟨.opening, opened⟩ :: inner = front ++ group.after ∧
          closed + 1 = front.length := by
  obtain ⟨place, closing, matched, rfl⟩ := exists_of_cutGroup cut
  rw [closing]
  refine ⟨before.length + 1 + 1 + group.inside.length, ?_, ?_, ?_,
    before ++ lexeme :: ⟨.opening, opened⟩ :: (group.inside ++ [⟨.closing, place⟩]), ?_, ?_⟩
  · simpa using closingParen_eq cut (before ++ [lexeme]) opened
  · have part := range_eq (matched.group opened place) (before ++ [lexeme]) group.after
    simpa [Nat.add_assoc, Nat.add_comm, Nat.add_left_comm] using part
  · have found := getElem?_append_cons (before ++ lexeme :: ⟨.opening, opened⟩ :: group.inside)
      ⟨.closing, place⟩ group.after
    have place : (before ++ lexeme :: ⟨.opening, opened⟩ :: group.inside).length =
        before.length + 1 + 1 + group.inside.length := by simp; omega
    rw [place, List.append_assoc, List.cons_append, List.cons_append] at found
    rw [positionAt, found]
  · simp
  · simp; omega

/-- Qualifying names on indices is qualifying them on lists.  The induction is
on what is left; what has been passed over only moves the places. -/
theorem qualifiedFrom_eq {rest : List Lexeme} (closes : GroupsClose rest) (before : List Lexeme) :
    qualifiedFrom (before ++ rest) before.length =
      (Formula.withQualifiedNames rest).mapError .fault := by
  fun_induction Formula.withQualifiedNames rest generalizing before with
  | case1 =>
      rw [qualifiedFrom]
      split
      · rfl
      · next found => cases found.symm.trans (getElem?_append_length before [])
  | case2 lexeme name named callable opened inner f known cut =>
      obtain ⟨group, found⟩ := closes [lexeme] opened inner rfl
      cases cut.symm.trans found
  | case3 lexeme name named callable opened inner f known group cut ihgroup ihafter =>
      obtain ⟨closed, ends, taken, closedAt, front, split, place⟩ := group_eq cut before lexeme opened
      obtain ⟨_, closing, matched, -⟩ := exists_of_cutGroup cut
      have argument := ihgroup (by rw [closing]; exact (matched.group _ _).groupsClose) []
      have after := ihafter (closes.of_cons.of_cons.after cut) front
      rw [List.nil_append, List.length_nil] at argument
      rw [← split, ← place] at after
      rw [qualifiedFrom_call (getElem?_append_cons before lexeme _) named callable
        ((tokenAt?_append before lexeme _ _).2 (starts_cons.2 rfl)), known]
      simp only [ends, taken, closedAt, argument, after, Except.bind]
      cases Formula.withQualifiedNames (⟨.opening, opened⟩ :: (group.inside ++ [group.closing])) with
      | error fault => rfl
      | ok argument => cases Formula.withQualifiedNames group.after <;> rfl
  | case4 lexeme name named callable opened inner f known ih =>
      rw [qualifiedFrom_call (getElem?_append_cons before lexeme _) named callable
        ((tokenAt?_append before lexeme _ _).2 (starts_cons.2 rfl)), known]
      exact map_next (ih closes.of_cons) before lexeme _
  | case5 lexeme name named callable opened inner unknown ih =>
      rw [qualifiedFrom_call (getElem?_append_cons before lexeme _) named callable
        ((tokenAt?_append before lexeme _ _).2 (starts_cons.2 rfl)), unknown]
      exact map_next (ih closes.of_cons) before lexeme _
  | case6 lexeme =>
      have named := ‹lexeme.token = .ident _›
      have callable := ‹Formula.isCallable _ = true›
      have alone := ‹∀ opened inner, _ = (⟨.opening, opened⟩ : Lexeme) :: inner → False›
      refine qualifiedFrom_uncalled (getElem?_append_cons before lexeme _) named callable ?_
      rw [Ne, tokenAt?_append]
      intro opens
      obtain ⟨opened, inner, same⟩ := opens.exists_cons
      exact alone opened inner same
  | case7 lexeme rest name named other ih =>
      rw [qualifiedFrom_keep (getElem?_append_cons before lexeme _)]
      · exact map_next (ih closes.of_cons) before lexeme _
      · intro name' named'
        cases named.symm.trans named'
        exact Bool.eq_false_iff.2 other
  | case8 lexeme rest noName ih =>
      rw [qualifiedFrom_keep (getElem?_append_cons before lexeme _)]
      · exact map_next (ih closes.of_cons) before lexeme _
      · intro name named
        exact (noName name named).elim

/-! ### Exponents -/

section Operands

variable {rest : List Lexeme}

/-- What an operand that is cut from lists means for indices: the place behind
it, counted from the front of all lexemes. -/
def placeBehind (before : List Lexeme) (cut : Except ParseFault Formula.Operand) :
    Except Stop Nat :=
  (cut.map fun operand => before.length + operand.lexemes.length).mapError .fault

/-- The end of an atom on indices is where it ends on lists, provided that
groups that are opened are closed. -/
theorem atomEnd_eq {lexeme : Lexeme} (closes : GroupsClose (lexeme :: rest))
    (before : List Lexeme) :
    atomEnd (before ++ lexeme :: rest) before.length lexeme =
      placeBehind before (Formula.cutAtom (lexeme :: rest)) := by
  obtain ⟨token, position⟩ := lexeme
  cases token with
  | opening =>
      obtain ⟨group, cut⟩ := closes [] position rest rfl
      have whole : Formula.cutAtom (⟨.opening, position⟩ :: rest) =
          .ok ⟨⟨.opening, position⟩ :: (group.inside ++ [group.closing]), group.after⟩ := by
        simp [Formula.cutAtom, cut]
      rw [atomEnd, closingParen_eq cut, whole]
      exact congrArg Except.ok (by simp; omega)
  | ident name =>
      by_cases opens : Starts .opening rest
      · obtain ⟨opened, inner, rfl⟩ := opens.exists_cons
        obtain ⟨group, cut⟩ := closes [⟨.ident name, position⟩] opened inner rfl
        have whole : Formula.cutAtom (⟨.ident name, position⟩ :: ⟨.opening, opened⟩ :: inner) =
            .ok ⟨⟨.ident name, position⟩ :: ⟨.opening, opened⟩
              :: (group.inside ++ [group.closing]), group.after⟩ := by
          simp [Formula.cutAtom, cut]
        have ends := closingParen_eq cut (before ++ [⟨.ident name, position⟩]) opened
        rw [List.append_assoc, List.length_append] at ends
        rw [atomEnd, if_pos ((tokenAt?_append before _ _ _).2 opens), whole]
        refine (congrArg (Except.map (· + 1)) ends).trans (congrArg Except.ok ?_)
        simp
        omega
      · rw [cutAtom_ident name position opens, atomEnd,
          if_neg (mt (tokenAt?_append before _ _ _).1 opens)]
        rfl
  | _ => rfl

theorem operandEnd_sign {lexemes : List Lexeme} {k : Nat} {lexeme : Lexeme}
    (found : lexemes[k]? = some lexeme) (sign : lexeme.token = .plus ∨ lexeme.token = .minus) :
    operandEnd lexemes k = operandEnd lexemes (k + 1) := by
  rw [operandEnd]
  split
  · next missing => cases missing.symm.trans found
  · next found' =>
    cases found'.symm.trans found
    rw [if_pos sign]

/-- An exponent without a sign is an atom, and goes on behind a further power sign. -/
theorem operandEnd_atom (closes : GroupsClose rest) (before : List Lexeme)
    (noSign : ¬ Starts .plus rest ∧ ¬ Starts .minus rest) :
    operandEnd (before ++ rest) before.length =
      (placeBehind before (Formula.cutAtom rest)).bind fun behind =>
        if tokenAt? (before ++ rest) behind = some .power then
          operandEnd (before ++ rest) (behind + 1)
        else .ok behind := by
  rw [operandEnd]
  split
  · next missing =>
    rw [getElem?_append_length, List.head?_eq_none_iff] at missing
    rw [missing]
    rfl
  · next lexeme found =>
    rw [getElem?_append_length] at found
    obtain ⟨others, rfl⟩ := List.head?_eq_some_iff.1 found
    rw [starts_cons, starts_cons, ← not_or] at noSign
    rw [if_neg noSign, ← atomEnd_eq closes before]
    split
    · next failed =>
      rw [failed]
      rfl
    · next ended =>
      rw [ended]
      rfl

/-- The end of an exponent behind lexemes that have been passed over. -/
theorem operandEnd_behind {cut : Except ParseFault Formula.Operand}
    (same : ∀ before, operandEnd (before ++ rest) before.length = placeBehind before cut)
    (before passed : List Lexeme) :
    operandEnd (before ++ (passed ++ rest)) (before.length + passed.length) =
      placeBehind before (cut.map (.prepend passed)) := by
  rw [← List.append_assoc, ← List.length_append, same]
  cases cut with
  | error fault => rfl
  | ok operand =>
      refine congrArg Except.ok ?_
      show (before ++ passed).length + operand.lexemes.length =
        before.length + (passed ++ operand.lexemes).length
      rw [List.length_append, List.length_append, Nat.add_assoc]

/-- The end of an exponent on indices is where it ends on lists. -/
theorem operandEnd_eq (closes : GroupsClose rest) (before : List Lexeme) :
    operandEnd (before ++ rest) before.length =
      placeBehind before (Formula.cutOperand rest) := by
  have noSign {lexemes : List Lexeme} {sign : Token}
      (h : ∀ position others, lexemes = ⟨sign, position⟩ :: others → False) :
      ¬ Starts sign lexemes := by
    intro starts
    obtain ⟨position, others, rfl⟩ := starts.exists_cons
    exact h position others rfl
  fun_induction Formula.cutOperand rest generalizing before with
  | case1 position others ih | case2 position others ih =>
      rw [operandEnd_sign (getElem?_append_cons before _ _) (by simp)]
      exact operandEnd_behind (ih closes.of_cons) before [_]
  | case3 lexemes noPlus noMinus fault failed =>
      rw [operandEnd_atom closes before ⟨noSign noPlus, noSign noMinus⟩, failed]
      rfl
  | case4 lexemes noPlus noMinus base position others cut ih =>
      obtain ⟨rfl, -⟩ := Formula.eq_of_cutAtom cut
      rw [operandEnd_atom closes before ⟨noSign noPlus, noSign noMinus⟩, cut]
      have further := operandEnd_behind (ih closes.of_append.of_cons) before
        (base ++ [⟨.power, position⟩])
      have power := (tokenAt?_append_length (before ++ base) (⟨.power, position⟩ :: others)
        .power).2 (starts_cons.2 rfl)
      rw [List.append_assoc, List.length_append] at power further
      exact (if_pos power).trans further
  | case5 lexemes noPlus noMinus operand last cut =>
      obtain ⟨rfl, -⟩ := Formula.eq_of_cutAtom cut
      rw [operandEnd_atom closes before ⟨noSign noPlus, noSign noMinus⟩, cut]
      have noPower := mt (tokenAt?_append_length (before ++ operand.lexemes) operand.after
        .power).1 (noSign fun position others same => last operand.lexemes position others (by rw [← same]))
      rw [List.append_assoc, List.length_append] at noPower
      exact if_neg noPower

/-- The content of an operand on indices. -/
theorem contents_eq {operand : List Lexeme} (matched : Balanced operand) :
    contents operand = .ok (Formula.ungrouped operand) := by
  have first : tokenAt? operand 0 = some .opening ↔ Starts .opening operand :=
    tokenAt?_append_length [] operand .opening
  rw [contents]
  by_cases opens : Starts .opening operand
  · rw [if_pos (first.2 opens)]
    obtain ⟨position, inner, rfl⟩ := opens.exists_cons
    obtain ⟨group, cut⟩ := matched.groupsClose [] position inner rfl
    obtain ⟨closed, -, inside, rfl⟩ := exists_of_cutGroup cut
    have ends : closingParen (⟨.opening, position⟩ ::
        (group.inside ++ ⟨.closing, closed⟩ :: group.after)) 0 = .ok (1 + group.inside.length) := by
      simpa using closingParen_eq cut [] position
    rw [ends]
    show (if 1 + group.inside.length = _ then _ else _) = _
    cases group.after with
    | nil =>
        have content := range_eq inside [⟨.opening, position⟩] [⟨.closing, closed⟩]
        have last : (⟨.opening, position⟩ ::
            (group.inside ++ [⟨.closing, closed⟩]) : List Lexeme).length - 1 =
              1 + group.inside.length := by
          simp
          omega
        rw [ungrouped_group inside, last, if_pos rfl]
        exact content
    | cons next others =>
        rw [ungrouped_group_append inside]
        refine if_neg ?_
        simp
        omega
  · rw [if_neg (mt first.1 opens)]
    cases operand with
    | nil => rfl
    | cons lexeme others => rw [ungrouped_cons (mt starts_cons.2 opens)]

section Exponent

variable (before : List Lexeme) (first second : Lexeme)

/-- The end of the exponent two places on, behind the base and the power sign. -/
theorem exponentEnd_eq (closes : GroupsClose rest) :
    operandEnd (before ++ first :: second :: rest) (before.length + 2) =
      placeBehind (before ++ [first, second]) (Formula.cutOperand rest) := by
  have ends := operandEnd_eq closes (before ++ [first, second])
  rw [List.append_assoc, List.length_append] at ends
  exact ends

/-- The exponent behind a power sign, on indices. -/
theorem exponent_eq {operand : Formula.Operand} (closes : GroupsClose rest)
    (cut : Formula.cutOperand rest = .ok operand) :
    ∃ behind, operandEnd (before ++ first :: second :: rest) (before.length + 2) = .ok behind ∧
      range (before ++ first :: second :: rest) (before.length + 2) behind =
        .ok operand.lexemes ∧
      contents operand.lexemes = .ok (Formula.ungrouped operand.lexemes) ∧
      ∃ front, before ++ first :: second :: rest = front ++ operand.after ∧
        behind = front.length := by
  have matched := (cutOperand_append cut).1
  have part := range_eq matched (before ++ [first, second]) operand.after
  have form := Formula.eq_of_cutOperand cut
  rw [← form, List.append_assoc, List.length_append] at part
  refine ⟨_, ?_, part, contents_eq matched, before ++ first :: second :: operand.lexemes, ?_, ?_⟩
  · rw [exponentEnd_eq before first second closes, cut, ← List.length_append]
    rfl
  · rw [List.append_assoc, List.cons_append, List.cons_append, ← form]
  · simp
    omega

end Exponent

end Operands

section Powers

variable {lexemes : List Lexeme} {i : Nat} {lexeme : Lexeme}

theorem exponentialsFrom_keep (found : lexemes[i]? = some lexeme)
    (other : ¬ (lexeme.token = .ident "e" ∧ tokenAt? lexemes (i + 1) = some .power)) :
    exponentialsFrom lexemes i = (exponentialsFrom lexemes (i + 1)).map (lexeme :: ·) := by
  rw [exponentialsFrom]
  split
  · next missing => cases missing.symm.trans found
  · next found' =>
    cases found'.symm.trans found
    rw [if_neg other]

/-- What is done with a power of `e`: its exponent is found, ungrouped and
rewritten, and the rest goes on behind it. -/
theorem exponentialsFrom_power (found : lexemes[i]? = some lexeme)
    (power : lexeme.token = .ident "e" ∧ tokenAt? lexemes (i + 1) = some .power) :
    exponentialsFrom lexemes i =
      (operandEnd lexemes (i + 2)).bind fun behind =>
        (range lexemes (i + 2) behind).bind fun operand =>
          (contents operand).bind fun content =>
            (exponentialsFrom content 0).bind fun argument =>
              (exponentialsFrom lexemes behind).map fun after =>
                ⟨.ident Elementary.exp.qualifiedName, lexeme.position⟩
                :: ⟨.opening, lexeme.position⟩
                :: (argument ++ ⟨.closing, lexeme.position⟩ :: after) := by
  rw [exponentialsFrom]
  split
  · next missing => cases missing.symm.trans found
  · next found' =>
    cases found'.symm.trans found
    rw [if_pos power]
    cases operandEnd lexemes (i + 2) with
    | error stop => rfl
    | ok behind =>
      dsimp only [Except.bind]
      split
      · next failed => rw [failed]
      · next operand taken =>
        rw [taken]
        dsimp only
        split
        · next failed => rw [failed]
        · next inside =>
          rw [inside]
          rfl

end Powers

/-- Writing powers of `e` on indices is writing them on lists. -/
theorem exponentialsFrom_eq {rest : List Lexeme} (closes : GroupsClose rest)
    (before : List Lexeme) :
    exponentialsFrom (before ++ rest) before.length =
      (Formula.withExponentials rest).mapError .fault := by
  fun_induction Formula.withExponentials rest generalizing before with
  | case1 position place exponent fault failed =>
      rw [exponentialsFrom_power (getElem?_append_cons before _ _)
        ⟨rfl, (tokenAt?_append before _ _ _).2 (starts_cons.2 rfl)⟩,
        exponentEnd_eq _ _ _ closes.of_cons.of_cons, failed]
      rfl
  | case2 position place exponent operand cut ihoperand ihafter =>
      have closes' := closes.of_cons.of_cons
      obtain ⟨behind, ends, taken, content, front, split, rfl⟩ :=
        exponent_eq before ⟨.ident "e", position⟩ ⟨.power, place⟩ closes' cut
      have matched := balanced_ungrouped (cutOperand_append cut).1
      rw [Formula.eq_of_cutOperand cut] at closes'
      have argument := ihoperand matched.groupsClose []
      have after := ihafter closes'.of_append front
      rw [List.nil_append, List.length_nil] at argument
      rw [← split] at after
      rw [exponentialsFrom_power (getElem?_append_cons before _ _)
        ⟨rfl, (tokenAt?_append before _ _ _).2 (starts_cons.2 rfl)⟩]
      simp only [ends, taken, content, argument, after, Except.bind]
      cases Formula.withExponentials (Formula.ungrouped operand.lexemes) with
      | error fault => rfl
      | ok argument => cases Formula.withExponentials operand.after <;> rfl
  | case3 lexeme rest other ih =>
      rw [exponentialsFrom_keep (getElem?_append_cons before lexeme _)]
      · exact map_next (ih closes.of_cons) before lexeme _
      · rintro ⟨named, power⟩
        obtain ⟨token, position⟩ := lexeme
        obtain rfl : token = .ident "e" := named
        obtain ⟨place, exponent, rfl⟩ := ((tokenAt?_append before _ _ _).1 power).exists_cons
        exact other position place exponent rfl rfl
  | case4 =>
      rw [exponentialsFrom]
      split
      · rfl
      · next found => cases found.symm.trans (getElem?_append_length before [])

/-- All steps on indices are all steps on lists, given matching parentheses.
In particular none of them slips. -/
theorem normalized_eq {lexemes : List Lexeme} (matched : Balanced lexemes) :
    normalized lexemes = (Formula.normalized lexemes).mapError .fault := by
  have names := qualifiedFrom_eq matched.withProducts.groupsClose []
  rw [List.nil_append, List.length_nil] at names
  rw [normalized, names, Formula.normalized]
  cases done : Formula.withQualifiedNames (Formula.withProducts (Formula.withPowers lexemes)) with
  | error fault => rfl
  | ok qualified =>
      have behind := (qualifies_of_withQualifiedNames done).balanced matched.withProducts
      have powers := exponentialsFrom_eq behind.groupsClose []
      rw [List.nil_append, List.length_nil] at powers
      show (exponentialsFrom qualified 0).bind _ = _
      rw [powers]
      show _ = ((Formula.withExponentials qualified).bind _).mapError _
      rw [mapError_bind]
      rfl

end Indexed

/-! ### The check says all about parentheses -/

theorem ofGrammar_ne_unbalanced (fault : Formula.GrammarFault) (position : Nat) :
    ParseFault.ofGrammar fault ≠ .unbalanced position := by
  cases fault <;> simp [ParseFault.ofGrammar]

/-- The lexemes of a text whose parentheses match: no step blames one of them. -/
theorem normalized_ne_unbalanced {lexemes : List Lexeme} (matched : Balanced lexemes)
    (position : Nat) : Formula.normalized lexemes ≠ .error (.unbalanced position) := by
  intro failed
  rcases fault_of_normalized matched failed with ⟨name, place, same, -⟩ | exponent
  · cases same
  · exact exponent

/-- An input field left alone has no parentheses that could be unmatched. -/
theorem nested_of_isUntouched {text : String} (untouched : Formula.isUntouched text = true) :
    Formula.Nested text.toList := by
  refine .of_plain fun c hc => ?_
  obtain ⟨blanks, whole, blank⟩ := exists_trimStart_eq text.toList
  have form : text.toList =
      text.toList.takeWhile Text.isBlank ++ (Text.trim text.toList ++ blanks) := by
    rw [← whole]
    exact List.takeWhile_append_dropWhile.symm
  rw [form] at hc
  rcases List.mem_append.1 hc with front | hc
  · exact Formula.apart_of_isBlank (List.mem_takeWhile_imp front)
  rcases List.mem_append.1 hc with inside | behind
  · rcases Bool.or_eq_true_iff.1 untouched with empty | same
    · rw [List.isEmpty_iff.1 empty] at inside
      cases inside
    · have plain : Formula.placeholder.toList.all (fun d => d != '(' && d != ')') = true := by decide
      rw [beq_iff_eq.1 same] at inside
      simpa using List.all_eq_true.1 plain c inside
  · exact Formula.apart_of_isBlank (blank c behind)

section Reading

variable {K : Type} [Scalar K] [Numeral K] {text : String}

/-- Only the check of parentheses blames a parenthesis. -/
theorem checkParentheses_of_unbalanced {position : Nat}
    (failed : Formula.normalize (K := K) text = .error (.unbalanced position)) :
    Formula.checkParentheses [] 0 text.toList = .error (.unbalanced position) := by
  cases refusedBy_of_normalize failed with
  | untouched _ same => cases same
  | characters h =>
      obtain ⟨front, c, rest, -, same, -⟩ := exists_of_checkCharacters h
      cases same
  | parentheses h => exact h
  | lexer h same => exact absurd same.symm (ofGrammar_ne_unbalanced _ _)
  | steps nested cut h => exact absurd h (normalized_ne_unbalanced (nested.balanced cut) _)
  | grammar nested cut done h same => exact absurd same.symm (ofGrammar_ne_unbalanced _ _)

/-- Behind the checks the steps on indices never slip and never find a parenthesis
without a partner: they make of the lexemes what the steps on lists make of them, with
the same faults.  So a text of known characters that does not open too many
parentheses is refused for one exactly if its parentheses do not match.  The check
alone decides that, before any lexeme is looked at. -/
theorem parentheses_settled_by_check (characters : Formula.checkCharacters 0 text.toList = .ok ()) :
    (Formula.checkParentheses [] 0 text.toList = .ok () →
      ∀ lexemes, Formula.lexemes text = .ok lexemes →
        Indexed.normalized lexemes = (Formula.normalized lexemes).mapError .fault ∧
          (∀ slip, Indexed.normalized lexemes ≠ .error (.slip slip)) ∧
          ∀ position, Indexed.normalized lexemes ≠ .error (.fault (.unbalanced position))) ∧
      (Formula.nesting 0 text.toList ≤ Formula.openLimit →
        ((∃ position, Formula.normalize (K := K) text = .error (.unbalanced position)) ↔
          ¬ Formula.Nested text.toList)) := by
  refine ⟨fun parentheses lexemes cut => ?_, fun within => ⟨?_, fun unmatched => ?_⟩⟩
  · have nested := Formula.nested_of_checkParentheses parentheses
    have same := Indexed.normalized_eq (nested.balanced cut)
    refine ⟨same, fun slip slipped => ?_, fun position failed => ?_⟩
    · obtain ⟨fault, -, same⟩ := mapError_eq_error (same.symm.trans slipped)
      cases same
    · obtain ⟨fault, failed, same⟩ := mapError_eq_error (same.symm.trans failed)
      cases same
      exact normalized_ne_unbalanced (nested.balanced cut) position failed
  · rintro ⟨position, failed⟩ nested
    have check := checkParentheses_of_unbalanced failed
    cases ((Formula.checkParentheses_eq_ok_iff within).2 nested).symm.trans check
  · cases touched : Formula.isUntouched text with
    | true => exact absurd (nested_of_isUntouched touched) unmatched
    | false =>
        rcases Formula.checkParentheses_cases text.toList with ⟨-, nested⟩ |
          ⟨position, failed, -⟩ | ⟨position, failed⟩
        · exact absurd nested unmatched
        · exact ⟨position, normalize_of_unbalanced touched characters failed⟩
        · exact absurd (Formula.lt_nesting_of_tooManyOpen failed) (Nat.not_lt.2 within)

end Reading

/-- Groups within groups, and a parenthesis without a partner. -/
theorem parentheses_settled_by_check_of_groups :
    (∃ lexemes, Formula.lexemes "csc(2e^((x)))" = .ok lexemes ∧
      ∀ slip, Indexed.normalized lexemes ≠ .error (.slip slip)) ∧
    ∃ position, Formula.normalize (K := SignedDigit) "csc((x)" = .error (.unbalanced position) := by
  constructor
  · have cut : (Formula.lexemes "csc(2e^((x)))").isOk = true := by decide +kernel
    obtain ⟨lexemes, cut⟩ := exists_of_isOk cut
    have known : Formula.checkCharacters 0 "csc(2e^((x)))".toList = .ok () := by decide +kernel
    have steps := (parentheses_settled_by_check (K := SignedDigit) known).1 (by decide +kernel)
    exact ⟨lexemes, cut, (steps lexemes cut).2.1⟩
  · have known : Formula.checkCharacters 0 "csc((x)".toList = .ok () := by decide +kernel
    refine ((parentheses_settled_by_check known).2 (by decide +kernel)).2 fun nested => ?_
    exact absurd nested.openBehind_eq (by decide +kernel)

end Fluxion
