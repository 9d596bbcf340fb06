import Gherkin.Document.Basic
import Gherkin.Entries

/-! # Looking into documents

The background and the scenarios of a feature or rule, tables read as records, maps or columns, and the
roles that steps take over from the steps before them. -/

namespace Gherkin

/-- The name of each tag. -/
def tagNames (tags : List Tag) : List Text := tags.map Tag.name

/-- The background that an element is. -/
def Element.background? : Element → Option Background
  | .background b => some b
  | .scenario _ => none

/-- The scenario that an element is. -/
def Element.scenario? : Element → Option Scenario
  | .background _ => none
  | .scenario s => some s

namespace Rule

/-- The first background of a rule. -/
def background? (r : Rule) : Option Background := r.children.findSome? Element.background?

/-- The scenarios of a rule. -/
def scenarios (r : Rule) : List Scenario := r.children.filterMap Element.scenario?

end Rule

namespace Feature

/-- The first background of a feature, outside its rules. -/
def background? (f : Feature) : Option Background :=
  f.children.findSome? fun
    | .element e => e.background?
    | .rule _ => none

/-- The rules of a feature. -/
def rules (f : Feature) : List Rule :=
  f.children.filterMap fun
    | .rule r => some r
    | .element _ => none

/-- The scenarios of a feature outside its rules. -/
def scenarios (f : Feature) : List Scenario :=
  f.children.filterMap fun
    | .element e => e.scenario?
    | .rule _ => none

/-- The scenarios of a feature and of its rules, in the order of the document. -/
def allScenarios (f : Feature) : List Scenario :=
  f.children.flatMap fun
    | .element e => e.scenario?.toList
    | .rule r => r.scenarios

end Feature

/-- An association of texts, in the order in which keys were first set. -/
abbrev Record := Entries Text Text

/-- The record of column names and cells. A missing cell is empty, and of two columns with one name the
later one counts. -/
def recordOf (names cells : List Text) : Record := go names cells []
where
  /-- Adds the fields of the remaining columns. -/
  go : List Text → List Text → Record → Record
    | [], _, record => record
    | name :: names, cells, record => go names cells.tail (record.store name (cells.headD []))

namespace Examples

/-- The names of the columns. -/
def columnNames (e : Examples) : List Text := (e.header.map Row.cells).getD []

/-- The cells of a row by column name. -/
def rowValues (e : Examples) (row : Row) : Record := recordOf e.columnNames row.cells

end Examples

namespace DataTable

/-- The cells of all rows. -/
def raw (t : DataTable) : List (List Text) := t.rows.map Row.cells

/-- The cells of the first row. -/
def headers (t : DataTable) : List Text := (t.raw.head?).getD []

/-- The cells of the rows after the first. -/
def body (t : DataTable) : List (List Text) := t.raw.tail

/-- The rows after the first as records by the cells of the first. -/
def records (t : DataTable) : List Record := t.body.map (recordOf t.headers)

/-- The first two columns as keys and values; rows without cells do not count. -/
def toRecord (t : DataTable) : Record :=
  t.raw.foldl (fun record row => match row with
    | [] => record
    | key :: rest => record.store key (rest.headD [])) []

/-- A cell of a row by its place, which counts from the end if it is negative; rows that are too short
have an empty cell. None if a negative place lies before the start of a row. -/
def cellAt? (index : Int) (row : List Text) : Option Text :=
  if index < 0 then
    if (-index).toNat ≤ row.length then row[row.length - (-index).toNat]? else none
  else some (row.getD index.toNat [])

/-- A column. -/
def column? (t : DataTable) (index : Int) : Option (List Text) := t.raw.mapM (cellAt? index)

/-- The number of cells of the longest row. -/
def width (t : DataTable) : Nat := (t.raw.map List.length).foldr max 0

/-- The columns as rows. -/
def transpose (t : DataTable) : List (List Text) :=
  (List.range t.width).map fun i => t.raw.map fun row => row.getD i []

end DataTable

/-- The role of each step: its own if its keyword states one, and otherwise the role of the nearest step
before it that does, `current` in front of the first. -/
def resolveTypes : StepType → List StepType → List StepType
  | _, [] => []
  | current, type :: rest =>
      let role := if type.isConcrete then type else current
      role :: resolveTypes role rest

end Gherkin
