import Gherkin.Text.Basic

/-! # Feature documents

The tree that a feature file is read into: a feature with rules, backgrounds and scenarios, and in them
steps with tables and doc strings. Every node carries the number of its source line, counted from 1;
`forgetLines` removes these numbers, so that two documents agree when their trees without line numbers
are equal. -/

namespace Gherkin

/-- The role that a step keyword states, whatever its language. -/
inductive StepType where
  | context
  | action
  | outcome
  | conjunction
  | unknown
  deriving DecidableEq, Repr

/-- The name of a type. -/
def StepType.name : StepType → Text
  | context => "Context"
  | action => "Action"
  | outcome => "Outcome"
  | conjunction => "Conjunction"
  | unknown => "Unknown"

/-- The type of a name. -/
def StepType.ofName? (t : Text) : Option StepType :=
  [context, action, outcome, conjunction, unknown].find? fun type => type.name == t

theorem StepType.ofName?_name (type : StepType) : ofName? type.name = some type := by cases type <;> rfl

/-- Whether the keyword itself states a role; the others take over the role of a step before them. -/
def StepType.isConcrete : StepType → Bool
  | .context | .action | .outcome => true
  | .conjunction | .unknown => false

/-- A tag and the line it stands on. -/
structure Tag where
  name : Text
  line : Nat
  deriving DecidableEq, Repr

/-- A comment line. -/
structure Comment where
  text : Text
  line : Nat
  deriving DecidableEq, Repr

/-- A row of a table. -/
structure Row where
  cells : List Text
  line : Nat
  deriving DecidableEq, Repr

/-- A table attached to a step. By convention its first row is a header. -/
structure DataTable where
  rows : List Row
  deriving DecidableEq, Repr

/-- What opens and closes a doc string. -/
inductive Fence where
  | quotes
  | backticks
  deriving DecidableEq, Repr

/-- A block of text attached to a step. -/
structure DocString where
  content : Text
  mediaType : Option Text
  fence : Fence
  line : Nat
  deriving DecidableEq, Repr

/-- A step: its keyword, what the keyword states, and its text. -/
structure Step where
  keyword : Text
  type : StepType
  text : Text
  table : Option DataTable
  doc : Option DocString
  line : Nat
  deriving DecidableEq, Repr

/-- A block of examples under a scenario; its first row names the columns. -/
structure Examples where
  keyword : Text
  name : Text
  description : Text
  tags : List Tag
  header : Option Row
  body : List Row
  line : Nat
  deriving DecidableEq, Repr

/-- Steps that run in front of every scenario beside it. -/
structure Background where
  keyword : Text
  name : Text
  description : Text
  steps : List Step
  line : Nat
  deriving DecidableEq, Repr

/-- A scenario, or an outline of scenarios with examples. -/
structure Scenario where
  keyword : Text
  name : Text
  description : Text
  tags : List Tag
  steps : List Step
  examples : List Examples
  line : Nat
  isOutline : Bool
  deriving DecidableEq, Repr

/-- What a rule holds. -/
inductive Element where
  | background (background : Background)
  | scenario (scenario : Scenario)
  deriving DecidableEq, Repr

/-- A rule groups scenarios and may have a background of its own. -/
structure Rule where
  keyword : Text
  name : Text
  description : Text
  tags : List Tag
  children : List Element
  line : Nat
  deriving DecidableEq, Repr

/-- What a feature holds. -/
inductive Child where
  | rule (rule : Rule)
  | element (element : Element)
  deriving DecidableEq, Repr

/-- A feature and the code of the language it is written in. -/
structure Feature where
  keyword : Text
  name : Text
  description : Text
  tags : List Tag
  children : List Child
  line : Nat
  language : Text
  deriving DecidableEq, Repr

namespace Fence

/-- The three characters of a fence. -/
def text : Fence → Text
  | .quotes => ['"', '"', '"']
  | .backticks => ['\x60', '\x60', '\x60']

/-- The fence with a backslash in front of each character, which stands for the fence inside a doc
string. -/
def escaped (f : Fence) : Text := f.text.flatMap fun c => ['\\', c]

/-- The fence that a line without its indentation starts with. -/
def ofLine? (t : Text) : Option Fence :=
  if Fence.quotes.text.isPrefixOf t then some .quotes
  else if Fence.backticks.text.isPrefixOf t then some .backticks
  else none

end Fence

/-! ### Trees without line numbers -/

/-- The tag without its line. -/
def Tag.forgetLines (t : Tag) : Tag := { t with line := 0 }

/-- The row without its line. -/
def Row.forgetLines (r : Row) : Row := { r with line := 0 }

/-- The table without its lines. -/
def DataTable.forgetLines (t : DataTable) : DataTable := ⟨t.rows.map Row.forgetLines⟩

/-- The doc string without its line. -/
def DocString.forgetLines (d : DocString) : DocString := { d with line := 0 }

/-- The step without its lines. -/
def Step.forgetLines (s : Step) : Step :=
  { s with table := s.table.map DataTable.forgetLines, doc := s.doc.map DocString.forgetLines, line := 0 }

/-- The examples without their lines. -/
def Examples.forgetLines (e : Examples) : Examples :=
  { e with
    tags := e.tags.map Tag.forgetLines, header := e.header.map Row.forgetLines,
    body := e.body.map Row.forgetLines, line := 0 }

/-- The background without its lines. -/
def Background.forgetLines (b : Background) : Background :=
  { b with steps := b.steps.map Step.forgetLines, line := 0 }

/-- The scenario without its lines. -/
def Scenario.forgetLines (s : Scenario) : Scenario :=
  { s with
    tags := s.tags.map Tag.forgetLines, steps := s.steps.map Step.forgetLines,
    examples := s.examples.map Examples.forgetLines, line := 0 }

/-- The element without its lines. -/
def Element.forgetLines : Element → Element
  | .background b => .background b.forgetLines
  | .scenario s => .scenario s.forgetLines

/-- The rule without its lines. -/
def Rule.forgetLines (r : Rule) : Rule :=
  { r with tags := r.tags.map Tag.forgetLines, children := r.children.map Element.forgetLines, line := 0 }

/-- The child without its lines. -/
def Child.forgetLines : Child → Child
  | .rule r => .rule r.forgetLines
  | .element e => .element e.forgetLines

/-- The feature without its lines. -/
def Feature.forgetLines (f : Feature) : Feature :=
  { f with tags := f.tags.map Tag.forgetLines, children := f.children.map Child.forgetLines, line := 0 }

end Gherkin
