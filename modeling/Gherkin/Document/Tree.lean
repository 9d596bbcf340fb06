import Gherkin.Document.Diagnostic
import Gherkin.Document.DocStringText
import Gherkin.Document.Mark

/-! # From marks to trees

Marks are cut at the headings. A heading with the marks up to the next one is a section; the tags of a
section are those that stand between the heading before it and its own. Sections become nodes, and nodes
are collected under the rule or scenario before them. -/

namespace Gherkin

/-- A mark with the number of its line. -/
abbrev NumberedMark := Nat × Mark

/-- A heading line. -/
structure HeadingLine where
  kind : Heading
  keyword : Text
  name : Text
  line : Nat
  deriving DecidableEq, Repr

/-- A heading, the tags above it, and the marks below it. -/
structure Section where
  heading : HeadingLine
  tags : List Tag
  marks : List NumberedMark
  deriving DecidableEq, Repr

/-- The marks in front of the first heading, and each heading with the marks up to the next. -/
def cutAtHeadings : List NumberedMark → List NumberedMark × List (HeadingLine × List NumberedMark)
  | [] => ([], [])
  | (line, mark) :: rest =>
      let (front, sections) := cutAtHeadings rest
      match mark with
      | .heading kind keyword name => ([], (⟨kind, keyword, name, line⟩, front) :: sections)
      | mark => ((line, mark) :: front, sections)

/-- The well-formed tags of a line. -/
def lineTags : NumberedMark → List Tag
  | (line, .tags tokens) => (tokens.filter isTagName).map (⟨·, line⟩)
  | _ => []

/-- The well-formed tags among marks. -/
def tagsOf (marks : List NumberedMark) : List Tag := marks.flatMap lineTags

/-- Gives each heading the tags above it, `tags` being those above the first. -/
def sectionsFrom : List Tag → List (HeadingLine × List NumberedMark) → List Section
  | _, [] => []
  | tags, (heading, marks) :: rest => ⟨heading, tags, marks⟩ :: sectionsFrom (tagsOf marks) rest

/-- The tags below the last heading, or all tags if there is no heading. -/
def trailingTags (front : List NumberedMark) : List (HeadingLine × List NumberedMark) → List Tag
  | [] => tagsOf front
  | (_, marks) :: rest => trailingTags marks rest

namespace Section

/-- The description below a heading: its lines without the empty ones at both ends. -/
def description (s : Section) : Text :=
  let lines := s.marks.filterMap fun (_, mark) => match mark with
    | .description text => some text
    | _ => none
  Text.trimBy (· == '\n') (Text.joinWith ['\n'] lines)

/-- The table rows below a heading. -/
def rows (s : Section) : List Row :=
  s.marks.filterMap fun (line, mark) => match mark with
    | .row cells => some ⟨cells, line⟩
    | _ => none

end Section

/-- The steps that some marks hold, with what comes before the first of them: table rows, a doc string,
and the lines of one whose opening comes before, with whether it is closed. -/
structure StepsBelow where
  rows : List Row
  doc : Option DocString
  lines : List Text
  closed : Bool
  steps : List Step

/-- Puts a mark in front of the marks that some steps were read from. -/
def StepsBelow.add (s : StepsBelow) : NumberedMark → StepsBelow
  | (line, .step keyword type text) =>
      let table := if s.rows.isEmpty then none else some ⟨s.rows⟩
      ⟨[], none, [], false, ⟨keyword, type, text, table, s.doc, line⟩ :: s.steps⟩
  | (line, .row cells) => { s with rows := ⟨cells, line⟩ :: s.rows }
  | (line, .openDoc fence mediaType indent) =>
      { s with
        doc := some ⟨DocString.contentOf fence indent s.closed s.lines, mediaType, fence, line⟩
        lines := [], closed := false }
  | (_, .docLine raw) => { s with lines := raw :: s.lines }
  | (_, .closeDoc) => { s with lines := [], closed := true }
  | _ => s

/-- Reads the steps of some marks, from the last to the first. -/
def stepsBelow : List NumberedMark → StepsBelow
  | [] => ⟨[], none, [], false, []⟩
  | mark :: rest => (stepsBelow rest).add mark

namespace Section

/-- The steps below a heading. -/
def steps (s : Section) : List Step := (stepsBelow s.marks).steps

/-- The examples that a section is. -/
def toExamples (s : Section) : Examples :=
  ⟨s.heading.keyword, s.heading.name, s.description, s.tags, s.rows.head?, s.rows.tail, s.heading.line⟩

/-- The background that a section is. -/
def toBackground (s : Section) : Background :=
  ⟨s.heading.keyword, s.heading.name, s.description, s.steps, s.heading.line⟩

/-- The scenario that a section is, with its examples. -/
def toScenario (s : Section) (isOutline : Bool) (examples : List Examples) : Scenario :=
  ⟨s.heading.keyword, s.heading.name, s.description, s.tags, s.steps, examples, s.heading.line, isOutline⟩

/-- The rule that a section is, with its children. -/
def toRule (s : Section) (children : List Element) : Rule :=
  ⟨s.heading.keyword, s.heading.name, s.description, s.tags, children, s.heading.line⟩

end Section

/-- What some sections hold: the examples of the scenario before them, the children of the rule before
them, and the children of the feature. -/
structure Nodes where
  examples : List Examples
  inner : List Element
  outer : List Child

/-- Puts an element in its rule or in the feature. -/
def Nodes.addElement (n : Nodes) (nested : Bool) (e : Element) : Nodes :=
  if nested then ⟨[], e :: n.inner, n.outer⟩ else ⟨[], n.inner, .element e :: n.outer⟩

/-- Puts a section in front of the sections that some nodes were collected from. -/
def Nodes.add (n : Nodes) (s : Section) : Nodes :=
  match s.heading.kind with
  | .feature => n
  | .rule => ⟨[], [], .rule (s.toRule n.inner) :: n.outer⟩
  | .background nested => n.addElement nested (.background s.toBackground)
  | .scenario nested outline => n.addElement nested (.scenario (s.toScenario outline n.examples))
  | .examples => { n with examples := s.toExamples :: n.examples }

/-- Collects the nodes of sections, from the last to the first. -/
def nodes : List Section → Nodes
  | [] => ⟨[], [], []⟩
  | s :: rest => (nodes rest).add s

/-- The feature that sections form, the first of them being its own. -/
def featureOf (language : Text) : List Section → Option Feature
  | [] => none
  | s :: rest =>
      some ⟨s.heading.keyword, s.heading.name, s.description, s.tags, (nodes rest).outer, s.heading.line,
        language⟩

/-! ### Comments and diagnostics -/

/-- The language that a first line names, as in `# language: fr`. -/
def languageDirective? (t : Text) : Option Text :=
  match t with
  | '#' :: rest => do
      let rest ← Text.afterPrefix? "language:" (rest.dropWhile isBlank)
      let code := (rest.dropWhile isBlank).takeWhile (!isBlank ·)
      if code.isEmpty then none else some code
  | _ => none

/-- The comment on a line. The first line may name the language instead. -/
def comment? : NumberedMark → Option Comment
  | (line, .comment text) =>
      if line = 1 && (languageDirective? text).isSome then none else some ⟨text, line⟩
  | _ => none

/-- What is reported about one line. -/
def lineDiagnostics : NumberedMark → List Diagnostic
  | (line, .unexpected text) => [⟨line, .unexpectedLine text⟩]
  | (line, .unrecognized text) => [⟨line, .unrecognizedLine text⟩]
  | (line, .tags tokens) =>
      (tokens.filter fun token => !isTagName token).map fun token => ⟨line, .malformedTag token⟩
  | _ => []

/-- The doc string that is still open after some marks, and the line that opened it. -/
def openDocAfter : Option (Nat × Fence) → List NumberedMark → Option (Nat × Fence)
  | current, [] => current
  | _, (line, .openDoc fence _ _) :: rest => openDocAfter (some (line, fence)) rest
  | _, (_, .closeDoc) :: rest => openDocAfter none rest
  | current, _ :: rest => openDocAfter current rest

/-- What is reported about the marks between two headings. -/
def marksDiagnostics (marks : List NumberedMark) : List Diagnostic :=
  marks.flatMap lineDiagnostics ++
    match openDocAfter none marks with
    | some (line, fence) => [⟨line, .unclosedDocString fence⟩]
    | none => []

/-- The report about tags that belong to nothing, on the line of the first of them. -/
def ignoredTagsDiagnostic (problem : List Text → Problem) : List Tag → List Diagnostic
  | [] => []
  | tag :: rest => [⟨tag.line, problem ((tag :: rest).map Tag.name)⟩]

/-- What is reported about a section. -/
def Section.diagnostics (s : Section) : List Diagnostic :=
  (match s.heading.kind with
    | .background _ => ignoredTagsDiagnostic .tagsBeforeBackground s.tags
    | _ => []) ++ marksDiagnostics s.marks

end Gherkin
