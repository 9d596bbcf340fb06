import Gherkin.Document.Basic
import Gherkin.Text.Blank

/-! # Table rows as text

A row is written as cells between bars. Inside a cell a bar, a backslash and a line feed are written
with a backslash; spaces and tabs around a cell are not part of it. -/

namespace Gherkin

/-- What a backslash and a letter stand for inside a cell. -/
def cellEscape? : Char → Option Char
  | '|' => some '|'
  | 'n' => some '\n'
  | '\\' => some '\\'
  | _ => none

/-- The cell that a stretch of characters holds. -/
def trimCell (t : Text) : Text := Text.trimBy isIndent t

/-- The cells of a row after its first bar. `current` holds the characters of the open cell in reverse;
`bare` says that nothing but white space has come since a bar, in which case the row ends there. -/
def cellsFrom : Text → Bool → Text → List Text
  | current, bare, [] => if bare then [] else [trimCell current.reverse]
  | current, _, '\\' :: c :: rest =>
      match cellEscape? c with
      | some d => cellsFrom (d :: current) false rest
      | none => cellsFrom ('\\' :: current) false (c :: rest)
  | current, bare, c :: rest =>
      if c = '|' then trimCell current.reverse :: cellsFrom [] true rest
      else cellsFrom (c :: current) (bare && isBlank c) rest

/-- The cells of a row. -/
def splitRow (line : Text) : List Text :=
  match Text.trim line with
  | '|' :: rest => cellsFrom [] false rest
  | rest => cellsFrom [] false rest

/-- A cell with its bars, backslashes and line feeds escaped. -/
def escapeCell (t : Text) : Text :=
  t.flatMap fun c =>
    if c = '\\' then ['\\', '\\'] else if c = '|' then ['\\', '|'] else if c = '\n' then ['\\', 'n'] else [c]

/-- The width of each column: that of its longest cell. -/
def columnWidths (rows : List (List Text)) : List Nat :=
  rows.foldr (fun row widths => zipLongest row widths) []
where
  /-- The larger of a cell's length and a width, place by place. -/
  zipLongest : List Text → List Nat → List Nat
    | [], widths => widths
    | row, [] => row.map List.length
    | cell :: row, width :: widths => max cell.length width :: zipLongest row widths

/-- A row of escaped cells, each filled up to the width of its column. -/
def alignRow : List Text → List Nat → List Text
  | [], _ => []
  | cell :: cells, [] => cell :: alignRow cells []
  | cell :: cells, width :: widths => Text.padRight width cell :: alignRow cells widths

/-- The lines of a table with its columns aligned. -/
def tableLines (indent : Text) (rows : List (List Text)) : List Text :=
  let escaped := rows.map (·.map escapeCell)
  let widths := columnWidths escaped
  escaped.map fun row => indent ++ "| " ++ Text.joinWith " | " (alignRow row widths) ++ " |"

end Gherkin
