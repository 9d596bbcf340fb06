import Gherkin.Document.Query
import Gherkin.Regex.Matcher

/-! # Scenario outlines

Each row of an examples block gives one scenario: every column name in angle brackets is replaced by the
cell of the row. Replacing is one pass of a regular expression in which the names are alternatives, longer
ones first. -/

namespace Gherkin

/-- The pattern of a name in angle brackets. Longer names are tried first, and a group keeps the name. -/
def placeholderPattern (names : List Text) : Text :=
  let longestFirst := names.mergeSort fun a b => b.length ≤ a.length
  "<(" ++ Text.joinWith ['|'] (longestFirst.map Regex.escapeLiteral) ++ ")>"

/-- Replaces each column name in angle brackets by its value; other names stay as they are. -/
def substitute (values : Record) (t : Text) : Text :=
  if values.isEmpty || t.isEmpty then t
  else match Regex.compile (placeholderPattern (values.map Prod.fst)) with
    | .ok regex => regex.replace (fun group => ((group 1).bind values.lookup).getD []) t
    -- Names that are escaped can always be read.
    | .error _ => t

/-- Replaces the placeholders in the cells of a table. -/
def DataTable.substitute (values : Record) (t : DataTable) : DataTable :=
  ⟨t.rows.map fun row => { row with cells := row.cells.map (Gherkin.substitute values) }⟩

/-- Replaces the placeholders in the content of a doc string. -/
def DocString.substitute (values : Record) (d : DocString) : DocString :=
  { d with content := Gherkin.substitute values d.content }

/-- Replaces the placeholders in a step. -/
def Step.substitute (values : Record) (s : Step) : Step :=
  { s with
    text := Gherkin.substitute values s.text
    table := s.table.map (DataTable.substitute values)
    doc := s.doc.map (DocString.substitute values) }

/-- Replaces the placeholders in a scenario, which then has no examples of its own. -/
def Scenario.substitute (values : Record) (s : Scenario) : Scenario :=
  { s with
    name := Gherkin.substitute values s.name
    steps := s.steps.map (Step.substitute values)
    examples := [] }

/-- A row of an examples block: its place in the block and its cells by column name. -/
structure ExampleRow where
  index : Nat
  values : Record
  deriving DecidableEq, Repr

/-- The rows of an examples block; without a header there are none. -/
def Examples.rows (e : Examples) : List ExampleRow :=
  match e.header with
  | none => []
  | some _ => e.body.zipIdx.map fun (row, index) => ⟨index, e.rowValues row⟩

/-- The scenarios that an examples block gives. -/
def Scenario.expand (s : Scenario) (e : Examples) : List (ExampleRow × Scenario) :=
  e.rows.map fun row => (row, s.substitute row.values)

end Gherkin
