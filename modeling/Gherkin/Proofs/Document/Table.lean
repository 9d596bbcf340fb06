import Gherkin.Proofs.Text.Splitting

/-! # Table rows are read as they were written

A row is written with its cells escaped and filled up with spaces; reading it gives the cells again, whatever
they hold, without the spaces and tabs around them (`Gherkin.splitRow_append_rowText`). So tables survive being
written and read, and after one reading nothing changes any more (`Gherkin.tableLines_keep_cells`).
-/

namespace Gherkin

/-- A row that is read as it is written: it has cells, and no cell has spaces or tabs at its ends. -/
structure PrintableCells (cells : List Text) : Prop where
  some : cells ≠ []
  trimmed : ∀ cell ∈ cells, Text.Trimmed isIndent cell

/-! ### Rows that are read -/

theorem trimmed_trimCell (t : Text) : Text.Trimmed isIndent (trimCell t) := Text.trimmed_trimBy t

/-- A character that does not begin an escape ends the cell if it is a bar, and belongs to it otherwise. -/
theorem cellsFrom_cons {current : Text} {bare : Bool} {c : Char} {rest : Text}
    (plain : ∀ (d : Char) (others : Text), c = '\\' → rest = d :: others → False) :
    cellsFrom current bare (c :: rest) =
      if c = '|' then trimCell current.reverse :: cellsFrom [] true rest
      else cellsFrom (c :: current) (bare && isBlank c) rest := by
  rw [cellsFrom]
  exact plain

/-- A backslash begins an escape if the character behind it does, and belongs to the cell otherwise. -/
theorem cellsFrom_backslash (current : Text) (bare : Bool) (c : Char) (rest : Text) :
    cellsFrom current bare ('\\' :: c :: rest) = match cellEscape? c with
      | some d => cellsFrom (d :: current) false rest
      | none => cellsFrom ('\\' :: current) false (c :: rest) := rfl

/-- The bar behind a cell ends it. -/
theorem cellsFrom_bar (current : Text) (bare : Bool) (rest : Text) :
    cellsFrom current bare ('|' :: rest) = trimCell current.reverse :: cellsFrom [] true rest := rfl

/-- At the end of the row there is another cell unless a bar has just come. -/
theorem cellsFrom_nil (current : Text) (bare : Bool) :
    cellsFrom current bare [] = if bare then [] else [trimCell current.reverse] := rfl

theorem cellsFrom_trimmed (current : Text) (bare : Bool) (t : Text) :
    ∀ cell ∈ cellsFrom current bare t, Text.Trimmed isIndent cell := by
  induction current, bare, t using cellsFrom.induct with
  | case1 current => exact List.forall_mem_nil _
  | case2 current bare inCell =>
    rw [cellsFrom_nil, if_neg inCell]
    exact List.forall_mem_singleton.mpr (trimmed_trimCell _)
  | case3 current bare c rest d found ih => rwa [cellsFrom_backslash, found]
  | case4 current bare c rest missing ih => rwa [cellsFrom_backslash, missing]
  | case5 current bare rest _ ih => exact List.forall_mem_cons.mpr ⟨trimmed_trimCell _, ih⟩
  | case6 current bare c rest plain noBar ih => rwa [cellsFrom_cons plain, if_neg noBar]

/-- A cell that has been opened is closed by the end of the row. -/
theorem cellsFrom_ne_nil (current t : Text) : cellsFrom current false t ≠ [] := by
  generalize opened : false = bare
  induction current, bare, t using cellsFrom.induct with
  | case1 current => cases opened
  | case2 current bare inCell =>
    rw [cellsFrom_nil, if_neg inCell]
    exact List.cons_ne_nil _ _
  | case3 current bare c rest d found ih =>
    rw [cellsFrom_backslash, found]
    exact ih rfl
  | case4 current bare c rest missing ih =>
    rw [cellsFrom_backslash, missing]
    exact ih rfl
  | case5 current bare rest => exact List.cons_ne_nil _ _
  | case6 current bare c rest plain noBar ih =>
    rw [cellsFrom_cons plain, if_neg noBar]
    exact ih (by rw [← opened]; rfl)

/-- A row that is read is one that is read as it is written. -/
theorem printable_splitRow (t : Text) : PrintableCells (splitRow t) := by
  unfold splitRow
  split
  · exact ⟨cellsFrom_ne_nil _ _, cellsFrom_trimmed _ _ _⟩
  · exact ⟨cellsFrom_ne_nil _ _, cellsFrom_trimmed _ _ _⟩

/-! ### Rows that are written -/

theorem cellsFrom_escapeCell (cell current : Text) (bare : Bool) (rest : Text) :
    ∃ still, cellsFrom current bare (escapeCell cell ++ rest) =
      cellsFrom (cell.reverse ++ current) still rest := by
  induction cell generalizing current bare with
  | nil => exact ⟨bare, rfl⟩
  | cons c others ih =>
    rw [List.reverse_cons, List.append_assoc, List.singleton_append]
    have step : ∃ still, cellsFrom current bare (escapeCell (c :: others) ++ rest) =
        cellsFrom (c :: current) still (escapeCell others ++ rest) := by
      rw [escapeCell, List.flatMap_cons, ← escapeCell, List.append_assoc]
      split
      · rename_i same
        exact ⟨false, by rw [same]; rfl⟩
      · split
        · rename_i same
          exact ⟨false, by rw [same]; rfl⟩
        · split
          · rename_i same
            exact ⟨false, by rw [same]; rfl⟩
          · rename_i noBackslash noBar _
            refine ⟨bare && isBlank c, ?_⟩
            rw [List.singleton_append, cellsFrom_cons fun _ _ same => absurd same noBackslash, if_neg noBar]
    obtain ⟨still, first⟩ := step
    obtain ⟨last, others⟩ := ih (c :: current) still
    exact ⟨last, first.trans others⟩

theorem cellsFrom_spaces (n : Nat) (current : Text) (bare : Bool) (rest : Text) :
    ∃ still, cellsFrom current bare (Text.spaces n ++ rest) =
      cellsFrom (Text.spaces n ++ current) still rest := by
  induction n generalizing current bare with
  | zero => exact ⟨bare, rfl⟩
  | succ n ih =>
    obtain ⟨still, others⟩ := ih (' ' :: current) (bare && isBlank ' ')
    refine ⟨still, ?_⟩
    have around : Text.spaces n ++ ' ' :: current = Text.spaces (n + 1) ++ current := by
      rw [Text.spaces, Text.spaces, List.replicate_succ', List.append_assoc, List.singleton_append]
    rw [around] at others
    rw [← others, Text.spaces, List.replicate_succ, List.cons_append]
    rfl

theorem isIndent_spaces {n : Nat} : ∀ c ∈ Text.spaces n, isIndent c = true := by
  intro c member
  rw [List.eq_of_mem_replicate member]
  decide

/-- A cell with spaces around it is read up to the bar behind it. -/
theorem cellsFrom_cell (cell : Text) (n : Nat) (bare : Bool) (rest : Text) :
    cellsFrom [] bare (' ' :: (escapeCell cell ++ Text.spaces n ++ ' ' :: '|' :: rest)) =
      trimCell cell :: cellsFrom [] true rest := by
  have before : ∃ still, cellsFrom [] bare
      (' ' :: (escapeCell cell ++ Text.spaces n ++ ' ' :: '|' :: rest)) =
        cellsFrom (Text.spaces (n + 1) ++ (cell.reverse ++ [' '])) still ('|' :: rest) := by
    obtain ⟨first, atCell⟩ := cellsFrom_spaces 1 [] bare (escapeCell cell ++ Text.spaces n ++ ' ' :: '|' :: rest)
    obtain ⟨second, behindCell⟩ := cellsFrom_escapeCell cell [' '] first (Text.spaces (n + 1) ++ '|' :: rest)
    obtain ⟨third, atBar⟩ := cellsFrom_spaces (n + 1) (cell.reverse ++ [' ']) second ('|' :: rest)
    refine ⟨third, atCell.trans ?_⟩
    have around : escapeCell cell ++ Text.spaces n ++ ' ' :: '|' :: rest =
        escapeCell cell ++ (Text.spaces (n + 1) ++ '|' :: rest) := by
      rw [Text.spaces, Text.spaces, List.replicate_succ', List.append_assoc, List.append_assoc,
        List.singleton_append]
    rw [around]
    exact behindCell.trans atBar
  obtain ⟨still, before⟩ := before
  have closed : trimCell (Text.spaces (n + 1) ++ (cell.reverse ++ [' '])).reverse = trimCell cell := by
    have padded : (Text.spaces (n + 1) ++ (cell.reverse ++ [' '])).reverse =
        Text.spaces 1 ++ cell ++ Text.spaces (n + 1) := by
      simp [Text.spaces]
    rw [padded]
    exact Text.trimBy_surround isIndent_spaces isIndent_spaces
  rw [before, cellsFrom_bar, closed]

/-- A row as it is written, without indentation. -/
def rowText (widths : List Nat) (cells : List Text) : Text :=
  "| " ++ Text.joinWith " | " (alignRow (cells.map escapeCell) widths) ++ " |"

private theorem cellsFrom_aligned {cells : List Text} (some : cells ≠ []) (widths : List Nat) (bare : Bool) :
    cellsFrom [] bare (' ' :: (Text.joinWith " | " (alignRow (cells.map escapeCell) widths) ++ " |")) =
      cells.map trimCell := by
  induction cells generalizing widths bare with
  | nil => exact absurd rfl some
  | cons cell rest ih =>
    have padded : ∃ n more, alignRow ((cell :: rest).map escapeCell) widths =
        (escapeCell cell ++ Text.spaces n) :: alignRow (rest.map escapeCell) more := by
      cases widths with
      | nil => exact ⟨0, [], by rw [List.map_cons, alignRow, Text.spaces, List.replicate_zero, List.append_nil]⟩
      | cons width more => exact ⟨_, more, rfl⟩
    obtain ⟨n, more, padded⟩ := padded
    rw [padded, List.map_cons]
    cases rest with
    | nil =>
      have alone := cellsFrom_cell cell n bare []
      simpa [alignRow, Text.joinWith, cellsFrom_nil] using alone
    | cons second others =>
      have later := ih (by simp) more true
      have split : ∃ aligned alignedRest,
          alignRow ((second :: others).map escapeCell) more = aligned :: alignedRest := by
        cases more <;> exact ⟨_, _, rfl⟩
      obtain ⟨aligned, alignedRest, split⟩ := split
      rw [split] at later ⊢
      have first := cellsFrom_cell cell n bare
        (' ' :: (Text.joinWith " | " (aligned :: alignedRest) ++ " |"))
      rw [later] at first
      simpa [Text.joinWith, List.append_assoc] using first

theorem rowText_eq (widths : List Nat) (cells : List Text) :
    ∃ inner, rowText widths cells = '|' :: inner ++ ['|'] :=
  ⟨[' '] ++ Text.joinWith " | " (alignRow (cells.map escapeCell) widths) ++ [' '], by simp [rowText]⟩

theorem trimmed_rowText (widths : List Nat) (cells : List Text) :
    Text.Trimmed isBlank (rowText widths cells) := by
  obtain ⟨inner, same⟩ := rowText_eq widths cells
  rw [same]
  constructor
  · intro c first
    cases first
    decide
  · intro c last
    rw [List.getLast?_append] at last
    cases last
    decide

/-- A row is read with its cells trimmed, wherever it stands in a line. -/
theorem splitRow_append_rowText (indent : Nat) {cells : List Text} (some : cells ≠ []) (widths : List Nat) :
    splitRow (Text.spaces indent ++ rowText widths cells) = cells.map trimCell := by
  rw [splitRow, Text.trim_spaces_append indent (trimmed_rowText widths cells)]
  have aligned := cellsFrom_aligned some widths false
  simpa [rowText] using aligned

/-- Cells that are trimmed already stay as they are. -/
theorem PrintableCells.map_trimCell {cells : List Text} (printable : PrintableCells cells) :
    cells.map trimCell = cells := by
  refine (List.map_congr_left fun cell member => ?_).trans (List.map_id _)
  exact Text.trimBy_of_trimmed (printable.trimmed cell member)

/-- A row is read as it was written. -/
theorem splitRow_rowText {cells : List Text} (printable : PrintableCells cells) (widths : List Nat) :
    splitRow (rowText widths cells) = cells := by
  have trimmed := splitRow_append_rowText 0 printable.some widths
  rwa [printable.map_trimCell] at trimmed

/-- A table is written row by row. -/
theorem tableLines_eq (indent : Text) (rows : List (List Text)) :
    tableLines indent rows =
      rows.map fun cells => indent ++ rowText (columnWidths (rows.map (·.map escapeCell))) cells := by
  simp [tableLines, rowText, Function.comp_def]

/-- A cell is escaped as if its backslashes, then its bars and then its line feeds were replaced. -/
theorem escapeCell_eq_replaceChar (cell : Text) :
    escapeCell cell =
      Text.replaceChar '\n' ['\\', 'n']
        (Text.replaceChar '|' ['\\', '|'] (Text.replaceChar '\\' ['\\', '\\'] cell)) := by
  induction cell with
  | nil => rfl
  | cons c rest ih =>
    simp only [escapeCell, Text.replaceChar, List.flatMap_cons, List.flatMap_append] at ih ⊢
    rw [ih]
    by_cases backslash : c = '\\'
    · simp [backslash]
    · by_cases bar : c = '|'
      · simp [bar]
      · simp [backslash, bar]

/-- Reading a written table gives its cells without the spaces and tabs around them. -/
theorem splitRow_tableLines (level : Int) {rows : List (List Text)} (some : ∀ cells ∈ rows, cells ≠ []) :
    (tableLines (indentation level) rows).map splitRow = rows.map (·.map trimCell) := by
  rw [tableLines_eq, List.map_map]
  apply List.map_congr_left
  intro cells member
  exact splitRow_append_rowText _ (some cells member) _

/-- The lines of a table whose rows have cells are read as these rows, each cell without the spaces and tabs
around it. Whatever line is read as a row, the row has cells, they are trimmed, and writing and reading them
again gives them back. -/
theorem tableLines_keep_cells (level : Int) (rows : List (List Text)) (some : ∀ cells ∈ rows, cells ≠ []) :
    (tableLines (indentation level) rows).map splitRow = rows.map (·.map trimCell) ∧
    (∀ line, splitRow line ≠ [] ∧ ∀ cell ∈ splitRow line, trimCell cell = cell) ∧
    ∀ lines : List Text,
      (tableLines (indentation level) (lines.map splitRow)).map splitRow = lines.map splitRow := by
  refine ⟨splitRow_tableLines level some, ?_, ?_⟩
  · intro line
    have printable := printable_splitRow line
    exact ⟨printable.some, fun cell member => Text.trimBy_of_trimmed (printable.trimmed cell member)⟩
  · intro lines
    have nonempty : ∀ cells ∈ lines.map splitRow, cells ≠ [] := by
      intro cells member
      obtain ⟨line, _, rfl⟩ := List.mem_map.mp member
      exact (printable_splitRow line).some
    rw [splitRow_tableLines level nonempty, List.map_map]
    apply List.map_congr_left
    intro line _
    exact (printable_splitRow line).map_trimCell

/-- A backslash at the end of a cell does not escape the bar behind it, and a line feed between tabs stays. -/
theorem tableLines_keep_escapes :
    (∀ cells ∈ ([["a|b\\", "\t\n "], ["", "\\n"]] : List (List Text)), cells ≠ []) ∧
    (tableLines (indentation 1) [["a|b\\", "\t\n "], ["", "\\n"]]).map splitRow =
      ([["a|b\\", "\n"], ["", "\\n"]] : List (List Text)) := by
  have some : ∀ cells ∈ ([["a|b\\", "\t\n "], ["", "\\n"]] : List (List Text)), cells ≠ [] := by decide
  exact ⟨some, (tableLines_keep_cells 1 _ some).1⟩

private theorem lineFeed_notMem_escapeCell (cell : Text) : '\n' ∉ escapeCell cell := by
  intro member
  obtain ⟨c, _, inside⟩ := List.mem_flatMap.mp member
  split at inside
  · simp at inside
  · split at inside
    · simp at inside
    · split at inside
      · simp at inside
      · rename_i plain
        exact plain (List.mem_singleton.mp inside).symm

private theorem mem_alignRow {cells : List Text} {widths : List Nat} {piece : Text} {c : Char}
    (among : piece ∈ alignRow cells widths) (inside : c ∈ piece) : c = ' ' ∨ ∃ cell ∈ cells, c ∈ cell := by
  induction cells generalizing widths with
  | nil => cases among
  | cons cell rest ih =>
    cases widths with
    | nil =>
      obtain rfl | later := List.mem_cons.mp among
      · exact .inr ⟨_, List.mem_cons_self, inside⟩
      · exact (ih later).imp id fun ⟨cell, among, inside⟩ => ⟨cell, List.mem_cons_of_mem _ among, inside⟩
    | cons width widths =>
      obtain rfl | later := List.mem_cons.mp among
      · obtain here | padding := List.mem_append.mp inside
        · exact .inr ⟨_, List.mem_cons_self, here⟩
        · exact .inl (List.eq_of_mem_replicate padding)
      · exact (ih later).imp id fun ⟨cell, among, inside⟩ => ⟨cell, List.mem_cons_of_mem _ among, inside⟩

/-- A written row is a line of its own. -/
theorem lineFeed_notMem_rowText (widths : List Nat) (cells : List Text) : '\n' ∉ rowText widths cells := by
  intro member
  rw [rowText] at member
  obtain (front | inside) | back := by simpa only [List.mem_append] using member
  · revert front
    decide
  · obtain between | ⟨piece, among, inside⟩ := Text.mem_joinWith inside
    · revert between
      decide
    · obtain padding | ⟨cell, among, inside⟩ := mem_alignRow among inside
      · revert padding
        decide
      · obtain ⟨cell, _, rfl⟩ := List.mem_map.mp among
        exact lineFeed_notMem_escapeCell cell inside
  · revert back
    decide

end Gherkin
