import Fluxion.Plot.Table
import Fluxion.Proofs.Messages

/-!
# Tables read back

A table is text, and whoever reads it splits it at line breaks and the lines at commas.  What is read
this way are the rows that were written, as long as no cell has to stand between quotes
(`splitRows_join`).  The texts of numbers never have to, and they are never empty: an empty cell
is a missing sample and nothing else (`Table.sampleText_eq_empty_iff`).  So a table that is aligned
is read back as its header and one row for each abscissa (`Table.exists_text`).
-/

namespace Fluxion

namespace Plot

/-- The cells of a text without quotes.  Behind the last line break stands a
line with one empty cell. -/
def splitRows (text : String) : List (List String) :=
  (text.toList.splitOn '\n').map fun line => (line.splitOn ',').map String.ofList

/-! ### Rows of plain cells -/

section Rows

variable {cell : String} {row : List String}

theorem cellText_eq (plain : needsQuotes cell = false) : cellText cell = cell := by
  rw [cellText, plain, if_neg Bool.false_ne_true]

/-- A cell that needs no quotes has none of the characters with a meaning. -/
theorem not_mem_of_needsQuotes (plain : needsQuotes cell = false) {c : Char}
    (special : c = ',' ∨ c = '"' ∨ c = '\n' ∨ c = '\r') : c ∉ cell.toList := by
  intro member
  rw [needsQuotes, List.any_eq_false] at plain
  exact plain c member (decide_eq_true special)

/-- A row of such cells is written with commas between them. -/
theorem toList_rowText (plain : ∀ cell ∈ row, needsQuotes cell = false) :
    (rowText row).toList = [','].intercalate (row.map String.toList) ++ ['\n'] := by
  have same : row.map cellText = row := by
    rw [List.map_congr_left fun cell member => cellText_eq (plain cell member), List.map_id']
  rw [rowText, same, String.toList_append, String.toList_intercalate]
  rfl

theorem not_mem_line (plain : ∀ cell ∈ row, needsQuotes cell = false) :
    '\n' ∉ [','].intercalate (row.map String.toList) := by
  induction row with
  | nil => exact nofun
  | cons cell rest inductionHypothesis =>
    have here := not_mem_of_needsQuotes (plain cell List.mem_cons_self) (.inr (.inr (.inl rfl)))
    cases rest with
    | nil => simpa using here
    | cons next rest =>
      have later := inductionHypothesis fun other member => plain other (.tail cell member)
      simp only [List.map_cons, List.intercalate_cons_cons, List.mem_append] at later ⊢
      exact not_or.2 ⟨not_or.2 ⟨here, by decide⟩, later⟩

/-- A line is read as the cells it was written from. -/
theorem splitOn_line (nonempty : row ≠ []) (plain : ∀ cell ∈ row, needsQuotes cell = false) :
    (([','].intercalate (row.map String.toList)).splitOn ',').map String.ofList = row := by
  rw [List.splitOn_intercalate, List.map_map]
  · simp
  · intro cell member
    obtain ⟨text, written, rfl⟩ := List.mem_map.1 member
    exact not_mem_of_needsQuotes (plain text written) (.inl rfl)
  · simpa using nonempty

/-- The rows of a text are the ones it was joined from. -/
theorem splitRows_join {rows : List (List String)} (nonempty : ∀ row ∈ rows, row ≠ [])
    (plain : ∀ row ∈ rows, ∀ cell ∈ row, needsQuotes cell = false) :
    splitRows (String.join (rows.map rowText)) = rows ++ [[""]] := by
  induction rows with
  | nil => rfl
  | cons row rest inductionHypothesis =>
    have later := inductionHypothesis (fun other member => nonempty other (.tail row member))
      fun other member => plain other (.tail row member)
    have plainRow := plain row List.mem_cons_self
    have line := splitOn_line (nonempty row List.mem_cons_self) plainRow
    rw [splitRows] at later ⊢
    rw [List.map_cons, String.join_cons, String.toList_append, toList_rowText plainRow,
      List.append_assoc, List.singleton_append,
      List.splitOn_append_cons_self_of_not_mem (not_mem_line plainRow), List.map_cons, later, line]
    rfl

end Rows

/-! ### Samples -/

theorem positionalText_ne_empty (number : Decimal.Digits) :
    Decimal.Layout.plain.positionalText number ≠ "" := by
  have digits : toString number.digits ≠ "" := Nat.repr_ne_empty
  intro empty
  rw [Decimal.Layout.positionalText] at empty
  split at empty
  · exact digits (String.append_eq_empty_iff.1 (String.append_eq_empty_iff.1 empty).1).1
  · dsimp only at empty
    split at empty
    · have point := (String.append_eq_empty_iff.1 (String.append_eq_empty_iff.1 empty).1).2
      exact absurd point (by decide)
    · exact digits (String.append_eq_empty_iff.1 empty).2

/-- A number is written as something, so an empty cell is a gap. -/
theorem numeral_ne_empty (value : Float) : Numeral.text value ≠ "" := by
  change Decimal.Layout.plain.text value ≠ ""
  intro empty
  rw [Decimal.Layout.text] at empty
  split at empty
  · exact positionalText_ne_empty _ (String.append_eq_empty_iff.1 empty).2
  · exact absurd (String.append_eq_empty_iff.1 empty).2 (by decide)
  · exact absurd empty (by decide)

theorem needsQuotes_numeral (value : Float) : needsQuotes (Numeral.text value) = false := by
  rw [needsQuotes, List.any_eq_false]
  intro c member special
  have numeric := Decimal.Layout.numeric_text value c member
  rcases of_decide_eq_true special with rfl | rfl | rfl | rfl <;> exact absurd numeric (by decide)

namespace Table

theorem sampleText_eq_empty_iff {sample : Option Float} : sampleText sample = "" ↔ sample = none := by
  cases sample with
  | none => exact iff_of_true rfl rfl
  | some value => exact iff_of_false (numeral_ne_empty value) nofun

theorem needsQuotes_sampleText (sample : Option Float) :
    needsQuotes (sampleText sample) = false := by
  cases sample with
  | none => rfl
  | some value => exact needsQuotes_numeral value

/-- Each abscissa has a row, with its sample of each column. -/
theorem rows_getElem? (xs : List Float) (columns : List (List (Option Float))) (i : Nat) :
    (rows xs columns)[i]? = xs[i]?.map fun x =>
      Numeral.text x :: columns.map fun column => sampleText (column[i]?.getD none) := by
  induction xs generalizing columns i with
  | nil => rfl
  | cons x rest inductionHypothesis =>
    cases i with
    | zero =>
      simp only [rows, List.getElem?_cons_zero, Option.map_some, List.headD_eq_head?_getD,
        List.head?_eq_getElem?]
      rfl
    | succ i =>
      simp only [rows, List.getElem?_cons_succ, inductionHypothesis, List.map_map]
      -- a column goes on behind its first cell, if it has one
      refine congrArg (Option.map · _) (funext fun x => congrArg _ (List.map_congr_left ?_))
      intro column _
      rw [Function.comp_apply, List.getElem?_tail]

theorem length_rows (xs : List Float) (columns : List (List (Option Float))) :
    (rows xs columns).length = xs.length := by
  induction xs generalizing columns with
  | nil => rfl
  | cons x rest inductionHypothesis => exact congrArg (· + 1) (inductionHypothesis _)

/-- Below the header stand numbers and missing samples. -/
theorem exists_of_mem_rows {xs : List Float} {columns : List (List (Option Float))}
    {row : List String} (member : row ∈ rows xs columns) :
    ∃ (x : Float) (samples : List (Option Float)),
      row = Numeral.text x :: samples.map sampleText := by
  obtain ⟨i, found⟩ := List.mem_iff_getElem?.1 member
  rw [rows_getElem?, Option.map_eq_some_iff] at found
  obtain ⟨x, -, rfl⟩ := found
  exact ⟨x, columns.map (·[i]?.getD none), by rw [List.map_map]; rfl⟩

/-- An aligned table is written, and read back as its header and its rows. -/
theorem exists_text {table : Table} (aligned : table.isAligned = true)
    (plain : ∀ header ∈ table.headers, needsQuotes header = false) :
    ∃ text, table.text? = some text ∧
      splitRows text = ("x" :: table.headers) :: (rows table.xs table.columns ++ [[""]]) := by
  refine ⟨_, if_pos aligned, ?_⟩
  rw [← List.map_cons, ← List.cons_append]
  refine splitRows_join ?_ ?_
  · intro row member
    rcases List.mem_cons.1 member with rfl | below
    · exact List.cons_ne_nil _ _
    · obtain ⟨x, samples, rfl⟩ := exists_of_mem_rows below
      exact List.cons_ne_nil _ _
  · intro row member
    rcases List.mem_cons.1 member with rfl | below
    · exact List.forall_mem_cons.2 ⟨by decide, plain⟩
    · obtain ⟨x, samples, rfl⟩ := exists_of_mem_rows below
      refine List.forall_mem_cons.2 ⟨needsQuotes_numeral x, ?_⟩
      exact List.forall_mem_map.2 fun sample _ => needsQuotes_sampleText sample

end Table

end Plot

end Fluxion
