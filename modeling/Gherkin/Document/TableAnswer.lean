import Gherkin.Document.Query
import Gherkin.Failure

/-! # Questions to tables

The views of a table as questions with a value for an answer. Only a column can be missing. -/

namespace Gherkin

/-- What can be asked of a table. -/
inductive TableQuestion where
  | raw
  | headers
  | body
  | records
  | record
  | column (index : Int)
  | transpose
  | rowCount
  deriving DecidableEq, Repr

/-- The name of a question. -/
def TableQuestion.name : TableQuestion → Text
  | raw => "raw"
  | headers => "headers"
  | body => "body"
  | records => "as_dicts"
  | record => "as_map"
  | column _ => "column"
  | transpose => "transpose"
  | rowCount => "row_count"

/-- The question of a name; the index serves only the question for a column. -/
def TableQuestion.ofName? (name : Text) (index : Int) : Option TableQuestion :=
  [raw, headers, body, records, record, column index, transpose, rowCount].find? fun q => q.name == name

/-- Rows of texts as a value. -/
def Value.ofRows (rows : List (List Text)) : Value := .list (rows.map Value.ofTexts)

/-- A record as a value. -/
def Value.ofRecord (record : Record) : Value := .map (record.map fun (key, value) => (key, .text value))

/-- The failure to look up a place that is not there. -/
def Failure.missingIndex : Failure := .raised "IndexError" "list index out of range"

/-- The answer of a table. -/
def DataTable.answer (t : DataTable) : TableQuestion → Except Failure Value
  | .raw => .ok (.ofRows t.raw)
  | .headers => .ok (.ofTexts t.headers)
  | .body => .ok (.ofRows t.body)
  | .records => .ok (.list (t.records.map .ofRecord))
  | .record => .ok (.ofRecord t.toRecord)
  | .transpose => .ok (.ofRows t.transpose)
  | .rowCount => .ok (.int t.rows.length)
  | .column index => match t.column? index with
      | some cells => .ok (.ofTexts cells)
      | none => .error .missingIndex

end Gherkin
