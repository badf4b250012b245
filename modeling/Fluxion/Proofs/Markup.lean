import Fluxion.Expr.Derivative
import Fluxion.Expr.Latex
import Fluxion.Proofs.Messages
import Fluxion.Proofs.Parts

/-!
# Delimiters and superscripts of markup

The markup of a formula nests: braces and growing parentheses are closed in the order in which they
are open, and none is left open.  A second thing a typesetter insists on is that no superscript is set
on one that has just been closed, as in `x^{2}^{3}`.  Powers keep to that, since a power in the base
of another is grouped.  An exponential does not: it is printed as a superscript too, but binds like a
call of a function, so nothing groups it.  Hence superscripts are stacked exactly where an
exponential is raised to a power (`latex_nests`), which is what the quotient rule does to an
exponential below the line (`exists_raised_of_diff_div_exp`).

Markup is read one character at a time, with the open delimiters on a stack.  What carries the
induction over a formula is that its markup leaves the stack as it was (`Markup.Spans`).
-/

namespace Fluxion

namespace Markup

/-! ### Reading markup -/

/-- What a closing delimiter can match: a brace, a brace after `^`, or a
growing parenthesis. -/
inductive Delimiter where
  | group
  | superscript
  | parenthesis
  deriving DecidableEq

/-- What the characters read last are: a `^`, the end of a superscript, or
anything else. -/
inductive Last where
  | other
  | caret
  | superscript
  deriving DecidableEq

/-- What is known of the markup read so far: the delimiters that wait to be
closed, and whether a superscript has just ended. -/
structure Reading where
  /-- the delimiters that are open, innermost first -/
  pending : List Delimiter
  last : Last
  /-- whether a superscript was set on one that had just been closed -/
  stacked : Bool
  deriving DecidableEq

namespace Reading

/-- Nothing has been read. -/
def start : Reading := ⟨[], .other, false⟩

/-- A character that is read as itself. -/
def plain (seen : Reading) : Reading := { seen with last := .other }

/-- A delimiter is opened, and waits to be closed. -/
def opened (delimiter : Delimiter) (seen : Reading) : Reading :=
  { seen with pending := delimiter :: seen.pending, last := .other }

/-- Closes the innermost delimiter, which has to be of the kind that is
closed.  Otherwise the markup does not nest. -/
def closed? (parenthesis : Bool) (seen : Reading) : Option Reading :=
  match seen.pending, parenthesis with
  | .parenthesis :: outer, true => some { seen with pending := outer, last := .other }
  | .group :: outer, false => some { seen with pending := outer, last := .other }
  | .superscript :: outer, false => some { seen with pending := outer, last := .superscript }
  | _, _ => none

/-- Reads a character; what is ahead tells whether a backslash begins a
growing parenthesis. -/
def next? (c : Char) (ahead : List Char) (seen : Reading) : Option Reading :=
  match c with
  | '\\' =>
    if ['l', 'e', 'f', 't', '('].isPrefixOf ahead then some (seen.opened .parenthesis)
    else if ['r', 'i', 'g', 'h', 't', ')'].isPrefixOf ahead then seen.closed? true
    else some seen.plain
  | '\x7b' => some (seen.opened (if seen.last = .caret then .superscript else .group))
  | '\x7d' => seen.closed? false
  | '^' => some { seen with last := .caret, stacked := seen.stacked || seen.last = .superscript }
  | _ => some seen.plain

end Reading

/-- Reads markup; there is no reading if a delimiter is closed that is not the
innermost open one. -/
def read : List Char → Reading → Option Reading
  | [], seen => some seen
  | c :: rest, seen => (seen.next? c rest).bind (read rest)

example : read "\\left(\x7bx\\right)\x7d".toList .start = none := rfl

example : (read "x^\x7b2\x7d^\x7b3\x7d".toList .start).map Reading.stacked = some true := rfl

/-- The characters that are not read as themselves: braces, the sign of a
superscript, and the backslash. -/
def reserved : List Char := ['\\', '^', '\x7b', '\x7d']

/-- Every character of the text is read as itself. -/
def Visible (text : List Char) : Prop := ∀ c ∈ text, c ∉ reserved

/-- Visibility is decided character by character. -/
instance (text : List Char) : Decidable (Visible text) := List.decidableBAll _ text

/-! ### Spans -/

/-- The markup leaves the delimiters in front of it alone.  Read after a
character that has no part in a superscript, it ends as given and stacks
superscripts if the flag is set. -/
def Spans (markup : List Char) (last : Last) (stacking : Bool) : Prop :=
  ∀ rest pending stacked, read (markup ++ rest) ⟨pending, .other, stacked⟩ =
    read rest ⟨pending, last, stacked || stacking⟩

/-- The markup has no delimiters, and no superscript is set on what is
in front of it. -/
def Separates (markup : List Char) : Prop :=
  ∀ rest pending last stacked, read (markup ++ rest) ⟨pending, last, stacked⟩ =
    read rest ⟨pending, .other, stacked⟩

variable {u v t : List Char} {l m : Last} {s r : Bool}

/-- A character that is not reserved is read as itself, whatever is ahead. -/
theorem next?_of_not_reserved {c : Char} (visible : c ∉ reserved) (ahead : List Char)
    (seen : Reading) : seen.next? c ahead = some seen.plain := by
  simp only [reserved, List.mem_cons, not_or] at visible
  obtain ⟨backslash, caret, opening, closing, -⟩ := visible
  unfold Reading.next?
  split <;> first | rfl | contradiction

/-- A text of plain characters leaves the delimiters alone. -/
theorem Spans.of_visible (visible : Visible u) : Spans u .other false := by
  intro rest pending stacked
  rw [Bool.or_false]
  induction u with
  | nil => rfl
  | cons c u ih =>
    rw [List.cons_append, read, next?_of_not_reserved (visible c List.mem_cons_self)]
    exact ih fun d member => visible d (List.mem_cons_of_mem c member)

/-- What stands between operands leaves the delimiters alone. -/
theorem Separates.spans (separates : Separates u) : Spans u .other false := by
  intro rest pending stacked
  rw [separates, Bool.or_false]

/-- Two markups one behind the other leave alone what each of them does, and
stack superscripts where either does. -/
theorem Spans.append (first : Spans u .other s) (second : Spans v m r) :
    Spans (u ++ v) m (s || r) := by
  intro rest pending stacked
  rw [List.append_assoc, first, second, Bool.or_assoc]

/-- Two markups with an operator between them leave the delimiters alone. -/
theorem Spans.join (first : Spans u l s) (separates : Separates t) (second : Spans v m r) :
    Spans (u ++ t ++ v) m (s || r) := by
  intro rest pending stacked
  rw [List.append_assoc, List.append_assoc, first, separates, second, Bool.or_assoc]

/-- An operator in front of a markup leaves the delimiters alone. -/
theorem Spans.after (separates : Separates t) (second : Spans v m r) : Spans (t ++ v) m r := by
  intro rest pending stacked
  rw [List.append_assoc, separates, second]

/-- A markup between braces leaves the delimiters alone, and ends in no
superscript. -/
theorem Spans.group (inside : Spans u l s) : Spans ('\x7b' :: (u ++ ['\x7d'])) .other s := by
  intro rest pending stacked
  have opening : read ('\x7b' :: (u ++ '\x7d' :: rest)) ⟨pending, .other, stacked⟩ =
      read (u ++ '\x7d' :: rest) ⟨.group :: pending, .other, stacked⟩ := rfl
  rw [List.cons_append, List.append_assoc, List.singleton_append, opening, inside]
  rfl

/-- A markup between growing parentheses leaves the delimiters alone, and ends
in no superscript. -/
theorem Spans.parenthesized (inside : Spans u l s) :
    Spans ("\\left(".toList ++ u ++ "\\right)".toList) .other s := by
  intro rest pending stacked
  have opening (ahead : List Char) :
      read ("\\left(".toList ++ ahead) ⟨pending, .other, stacked⟩ =
        read ahead ⟨.parenthesis :: pending, .other, stacked⟩ := rfl
  rw [List.append_assoc, List.append_assoc, opening, inside]
  rfl

/-- A superscript on markup that ends in one is stacked on it.
Elsewhere it is not. -/
theorem Spans.superscript (base : Spans u l s) (exponent : Spans v m r) :
    Spans (u ++ '^' :: '\x7b' :: (v ++ ['\x7d'])) .superscript (s || (l = .superscript || r)) := by
  intro rest pending stacked
  have opening (ahead : List Char) (stacked : Bool) :
      read ('^' :: '\x7b' :: ahead) ⟨pending, l, stacked⟩ =
        read ahead ⟨.superscript :: pending, .other, stacked || l = .superscript⟩ := rfl
  rw [List.append_assoc, base, List.cons_append, List.cons_append, List.append_assoc,
    List.singleton_append, opening, exponent, Bool.or_assoc, Bool.or_assoc]
  rfl

end Markup

namespace Expr

open Markup

variable {e u v v' : Expr Float}

/-! ### Exponentials under an exponent -/

/-- Whether a tree is an exponential, the one call that is written as a power. -/
def isExponential : Expr Float → Bool
  | call .exp _ => true
  | _ => false

/-- Whether an exponential is the base of a power somewhere.  This is the one
formula whose markup stacks superscripts. -/
def raisesExponential : Expr Float → Bool
  | var _ | const _ | named _ => false
  | add u v | sub u v | mul u v | div u v => u.raisesExponential || v.raisesExponential
  | pow u v => u.raisesExponential || (u.isExponential || v.raisesExponential)
  | call _ u => u.raisesExponential

theorem isExponential_iff : e.isExponential = true ↔ ∃ u, e = call .exp u := by
  constructor
  · intro exponential
    unfold isExponential at exponential
    split at exponential
    · exact ⟨_, rfl⟩
    · cases exponential
  · rintro ⟨u, rfl⟩
    rfl

/-- An exponential is raised at the root or in an operand. -/
theorem raisesExponential_iff_operands : e.raisesExponential = true ↔
    (∃ u v, e = .pow (.call .exp u) v) ∨ ∃ o ∈ e.operands, o.raisesExponential = true := by
  cases e <;> grind [raisesExponential, operands, isExponential_iff]

/-- An exponential is raised somewhere exactly if a power of one occurs
in the tree. -/
theorem raisesExponential_iff :
    e.raisesExponential = true ↔ ∃ u v, Within (.pow (.call .exp u) v) e := by
  constructor
  · intro raises
    induction e using inductionOnOperands with
    | operation e ih =>
      rcases raisesExponential_iff_operands.1 raises with ⟨u, v, rfl⟩ | ⟨o, member, raises⟩
      · exact ⟨u, v, .refl _⟩
      · obtain ⟨u, v, within⟩ := ih o member raises
        exact ⟨u, v, .operand within member⟩
  · rintro ⟨u, v, within⟩
    induction within with
    | refl => exact raisesExponential_iff_operands.2 (.inl ⟨u, v, rfl⟩)
    | operand within member ih => exact raisesExponential_iff_operands.2 (.inr ⟨_, member, ih⟩)

/-! ### The markup of a formula -/

/-- A term without its minus sign has the same names, and raises the same
exponentials. -/
theorem same_of_negated? (negated : v.negated? = some v') :
    (∀ name, v'.mentions name = v.mentions name) ∧
      v'.raisesExponential = v.raisesExponential := by
  fun_induction negated? v generalizing v' with
  | case1 | case4 =>
    obtain rfl := Option.some.inj negated
    exact ⟨fun _ => rfl, rfl⟩
  | case3 u w minusOne =>
    obtain rfl := Option.some.inj negated
    cases u with
    | const => exact ⟨fun _ => rfl, rfl⟩
    | _ => cases minusOne
  | case7 u w ih =>
    obtain ⟨u', negated', rfl⟩ := Option.map_eq_some_iff.1 negated
    obtain ⟨names, raises⟩ := ih negated'
    refine ⟨fun name => ?_, ?_⟩
    · rw [mentions, mentions, names]
    · rw [raisesExponential, raisesExponential, raises]
  | _ => cases negated

/-- Grouping keeps the delimiters matched, and hides a superscript at the end. -/
theorem spans_latexGrouped {markup : String} {last : Last} {stacking : Bool}
    (inside : Spans markup.toList last stacking) (group : Bool) :
    Spans (latexGrouped group markup).toList (if group then .other else last) stacking := by
  cases group with
  | false => exact inside
  | true =>
    have markupGrouped : (latexGrouped true markup).toList =
        "\\left(".toList ++ markup.toList ++ "\\right)".toList := by
      rw [latexGrouped, if_pos rfl, String.toList_append, String.toList_append]
    rw [markupGrouped]
    exact inside.parenthesized

theorem toList_braced (markup : String) :
    (braced markup).toList = '\x7b' :: (markup.toList ++ ['\x7d']) := by
  simp [braced]

/-- The names that occur are written without characters that mean something
else in markup. -/
def NamesVisible (e : Expr Float) : Prop :=
  ∀ name, e.mentions name = true → Visible name.toList

/-- The names of an operand are among those of the node. -/
theorem NamesVisible.of_operand {o : Expr Float} (visible : e.NamesVisible)
    (member : o ∈ e.operands) : o.NamesVisible :=
  fun name occurs => visible name (mentions_of_operand member occurs)

theorem visible_of_numeric {text : String} (numeric : Decimal.Layout.Numeric text) :
    Visible text.toList := by
  intro c member hidden
  have plain := numeric c member
  simp only [reserved, List.mem_cons, List.not_mem_nil, or_false] at hidden
  rcases hidden with rfl | rfl | rfl | rfl <;> exact absurd plain (by decide)

/-- A number leaves the delimiters alone, infinities included. -/
theorem spans_latexNumber (c : Float) : Spans (latexNumber c).toList .other false := by
  have infinite : Separates "-\\infty".toList ∧ Separates "\\infty".toList :=
    ⟨fun _ _ _ _ => rfl, fun _ _ _ _ => rfl⟩
  unfold latexNumber
  split
  · exact infinite.1.spans
  · exact infinite.2.spans
  · exact .of_visible (visible_of_numeric (Decimal.Layout.numeric_text c))

theorem spans_latexConstant (c : Constant) : Spans (latexConstant c).toList .other false := by
  cases c <;> exact Separates.spans fun _ _ _ _ => rfl

/-- A call leaves the delimiters alone, and ends in a superscript exactly if
it is an exponential. -/
theorem spans_latexCall (f : Elementary) {argument : String} {last : Last} {stacking : Bool}
    (inside : Spans argument.toList last stacking) :
    ∃ last, Spans (latexCall f argument).toList last stacking ∧ (last = .superscript ↔ f = .exp) := by
  have grouped (command : String) (separates : Separates command.toList) :
      Spans (command ++ latexGrouped true argument).toList .other stacking := by
    rw [String.toList_append]
    exact (spans_latexGrouped inside true).after separates
  cases f with
  | exp =>
    refine ⟨.superscript, ?_, by simp⟩
    have base : Spans ['e'] .other false := Separates.spans fun _ _ _ _ => rfl
    have whole := base.superscript inside
    simpa [latexCall, toList_braced] using whole
  | sqrt =>
    refine ⟨.other, ?_, by simp⟩
    rw [latexCall, String.toList_append, toList_braced]
    exact inside.group.after fun _ _ _ _ => rfl
  | log | sin | cos | tan | arcsin | arccos | arctan =>
    exact ⟨.other, grouped _ fun _ _ _ _ => rfl, by simp⟩

/-- The markup of a formula leaves the delimiters in front of it alone, and
stacks superscripts where an exponential is the base of a power.  What binds
strongest ends in a superscript only if it is an exponential. -/
def Printed (e : Expr Float) (markup : String) : Prop :=
  ∃ last, Spans markup.toList last e.raisesExponential ∧
    (5 ≤ e.precedence → (last = .superscript ↔ e.isExponential = true))

/-- For what binds less strongly than a power, only the delimiters and the
stacking have to be looked at. -/
theorem Printed.of_weak {markup : String} {last : Last} (weak : e.precedence < 5)
    (spans : Spans markup.toList last e.raisesExponential) : Printed e markup :=
  ⟨last, spans, fun strong => absurd strong (Nat.not_le.2 weak)⟩

/-- Sums, differences and products are two markups with an operator between them. -/
theorem Printed.joined {left operator right : String} {l m : Last} (weak : e.precedence < 5)
    (raises : e.raisesExponential = (u.raisesExponential || v.raisesExponential))
    (first : Spans left.toList l u.raisesExponential) (separates : Separates operator.toList)
    (second : Spans right.toList m v.raisesExponential) :
    Printed e (left ++ operator ++ right) := by
  apply Printed.of_weak weak
  rw [raises, String.toList_append, String.toList_append]
  exact first.join separates second

/-- An exponential is the one base that ends in a superscript.  Every other
base is an atom, or stands between growing parentheses. -/
theorem spans_base (printed : Printed u u.latex) :
    ∃ last, (last = .superscript ↔ u.isExponential = true) ∧
      Spans (latexGrouped (decide (u.precedence < 5) || u.leadingMinus) u.latex).toList last
        u.raisesExponential := by
  obtain ⟨last, spans, ends⟩ := printed
  refine ⟨_, ?_, spans_latexGrouped spans _⟩
  split
  · next group =>
    have other : u.isExponential = false := by
      by_contra exponential
      rw [Bool.not_eq_false, isExponential_iff] at exponential
      obtain ⟨argument, rfl⟩ := exponential
      exact absurd group (by simp [precedence, leadingMinus])
    simp [other]
  · next alone =>
    have strong : ¬u.precedence < 5 := by
      intro weak
      exact alone (by simp [weak])
    exact ends (Nat.not_lt.1 strong)

/-- Every formula with visible names is printed as described, by
induction on its size. -/
theorem printed_latex (visible : e.NamesVisible) : Printed e e.latex := by
  fun_induction latex e with
  | case1 name =>
    exact ⟨.other, .of_visible (visible name (by simp [mentions])), by simp [isExponential]⟩
  | case2 c => exact ⟨.other, spans_latexNumber c, by simp [isExponential]⟩
  | case3 c => exact ⟨.other, spans_latexConstant c, by simp [isExponential]⟩
  | case4 u v v' negated ihu ihv =>
    -- what is printed on the right is the term without its sign
    obtain ⟨names, raises⟩ := same_of_negated? negated
    have visible' : v'.NamesVisible := fun name occurs =>
      visible.of_operand (.tail _ (.head _)) name (names name ▸ occurs)
    obtain ⟨l, hu, -⟩ := ihu (visible.of_operand (.head _))
    obtain ⟨m, hv, -⟩ := ihv visible'
    exact .joined (by simp [precedence]) (by rw [raisesExponential, raises]) hu
      (fun _ _ _ _ => rfl) (spans_latexGrouped hv _)
  | case5 u v notNegated ihu ihv =>
    obtain ⟨l, hu, -⟩ := ihu (visible.of_operand (.head _))
    obtain ⟨m, hv, -⟩ := ihv (visible.of_operand (.tail _ (.head _)))
    exact .joined (by simp [precedence]) rfl hu (fun _ _ _ _ => rfl) (spans_latexGrouped hv _)
  | case6 u v ihu ihv =>
    obtain ⟨l, hu, -⟩ := ihu (visible.of_operand (.head _))
    obtain ⟨m, hv, -⟩ := ihv (visible.of_operand (.tail _ (.head _)))
    exact .joined (by simp [precedence]) rfl hu (fun _ _ _ _ => rfl) (spans_latexGrouped hv _)
  | case7 u v right minusOne ihv =>
    -- the constant in front is not printed, and holds no exponential
    obtain ⟨m, hv, -⟩ := ihv (visible.of_operand (.tail _ (.head _)))
    apply Printed.of_weak (by simp [precedence, minusOne])
    have notRaised : u.raisesExponential = false := by
      cases u with
      | const => rfl
      | _ => cases minusOne
    rw [raisesExponential, notRaised, Bool.false_or, String.toList_append]
    exact (spans_latexGrouped hv _).after fun _ _ _ _ => rfl
  | case8 u v right notMinusOne ihv ihu =>
    obtain ⟨l, hu, -⟩ := ihu (visible.of_operand (.head _))
    obtain ⟨m, hv, -⟩ := ihv (visible.of_operand (.tail _ (.head _)))
    exact .joined (by simp [precedence, notMinusOne]) rfl (spans_latexGrouped hu _)
      (fun _ _ _ _ => rfl) (spans_latexGrouped hv _)
  | case9 u v ihu ihv =>
    obtain ⟨l, hu, -⟩ := ihu (visible.of_operand (.head _))
    obtain ⟨m, hv, -⟩ := ihv (visible.of_operand (.tail _ (.head _)))
    apply Printed.of_weak (by simp [precedence])
    rw [raisesExponential, String.toList_append, String.toList_append, toList_braced, toList_braced]
    exact (hu.group.after fun _ _ _ _ => rfl).append hv.group
  | case10 u v ihu ihv =>
    obtain ⟨base, raised, hbase⟩ := spans_base (ihu (visible.of_operand (.head _)))
    obtain ⟨m, hv, -⟩ := ihv (visible.of_operand (.tail _ (.head _)))
    apply Printed.of_weak (by simp [precedence])
    -- the exponent is set on a superscript only if the base is an exponential
    have stacking : decide (base = .superscript) = u.isExponential := by
      rw [Bool.eq_iff_iff, decide_eq_true_iff, raised]
    rw [raisesExponential, ← stacking, String.toList_append, String.toList_append, toList_braced,
      List.append_assoc]
    exact hbase.superscript hv
  | case11 f u ih =>
    obtain ⟨l, hu, -⟩ := ih (visible.of_operand (.head _))
    obtain ⟨last, whole, ends⟩ := spans_latexCall f hu
    refine ⟨last, whole, fun _ => ?_⟩
    rw [ends, isExponential_iff]
    simp

/-- The markup of a formula nests: braces and growing parentheses are closed
in the order in which they are opened, and none is left open.  A superscript
is set on one that has just been closed exactly where an exponential is the
base of a power.  That is the one place at which the markup does not say what
it should, as the exponential is a power itself once it is typeset. -/
theorem latex_nests (visible : e.NamesVisible) :
    ∃ seen, read e.latex.toList .start = some seen ∧ seen.pending = [] ∧
      (seen.stacked = true ↔ ∃ u v, Within (.pow (.call .exp u) v) e) := by
  obtain ⟨last, spans, -⟩ := printed_latex visible
  have whole := spans [] [] false
  rw [List.append_nil] at whole
  exact ⟨_, whole, rfl, raisesExponential_iff⟩

/-- The quotient rule squares an exponential below the line, so formulas whose
markup stacks superscripts arise by themselves. -/
theorem exists_raised_of_diff_div_exp (name : String) (u v : Expr Float) :
    ∃ w n, Within (.pow (.call .exp w) n) ((div u (call .exp v)).diff name) :=
  ⟨v, int 2, .operand (.refl _) (.tail _ (.head _))⟩

/-- The markup of `exp(x)^n` nests, and stacks its superscripts. -/
theorem latex_nests_of_raised_exponential :
    let raised : Expr Float := .pow (.call .exp (.var "x")) (.var "n")
    raised.latex = "e^\x7bx\x7d^\x7bn\x7d" ∧
      ∃ seen, read raised.latex.toList .start = some seen ∧ seen.stacked = true := by
  intro raised
  have visible : raised.NamesVisible := by
    intro name occurs
    obtain rfl | rfl : "x" = name ∨ "n" = name := by simpa [raised, mentions] using occurs
    all_goals decide
  obtain ⟨seen, done, -, stacked⟩ := latex_nests visible
  refine ⟨?_, seen, done, stacked.2 ⟨_, _, .refl _⟩⟩
  simp [raised, latex, latexGrouped, latexCall, braced, precedence, leadingMinus]

end Expr

end Fluxion
