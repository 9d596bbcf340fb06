import Gherkin.Dialect.Basic
import Gherkin.Document.TableText
import Gherkin.Text.Word

/-! # Marks

Every line of a feature file gets exactly one mark, which says what the line is. Marking is one pass
over the lines. What a line may be depends on the place where it stands, and beyond the line itself only
tags above examples are decided by looking ahead. -/

namespace Gherkin

/-- The kinds of headings; `nested` tells what stands in a rule from what stands in the feature. -/
inductive Heading where
  | feature
  | rule
  | background (nested : Bool)
  | scenario (nested outline : Bool)
  | examples
  deriving DecidableEq, Repr

/-- What a line is. -/
inductive Mark where
  | blank
  | comment (text : Text)
  | tags (tokens : List Text)
  | heading (kind : Heading) (keyword name : Text)
  | description (text : Text)
  | step (keyword : Text) (type : StepType) (text : Text)
  | row (cells : List Text)
  | openDoc (fence : Fence) (mediaType : Option Text) (indent : Nat)
  | docLine (raw : Text)
  | closeDoc
  | unexpected (text : Text)
  | unrecognized (text : Text)
  deriving DecidableEq, Repr

/-- Where a line stands: before the feature; between the children of the feature or of a rule; among the
steps of a background or scenario, right after one of them, in its table or in its doc string; after the
steps of a scenario; or right after the heading of examples or in their table. -/
inductive Place where
  | preamble
  | children (nested : Bool)
  | steps (inScenario nested : Bool)
  | argument (inScenario nested : Bool)
  | rows (inScenario nested : Bool)
  | doc (inScenario nested : Bool) (fence : Fence)
  | blocks (nested : Bool)
  | examples (nested : Bool)
  | exampleRows (nested : Bool)
  deriving DecidableEq, Repr

/-- A place, and whether the description of the last heading is still going on there. -/
structure Position where
  place : Place
  describing : Bool
  deriving DecidableEq, Repr

namespace Position

/-- The start of a document. -/
def start : Position := ⟨.preamble, false⟩

/-- A place after a description. -/
def within (place : Place) : Position := ⟨place, false⟩

/-- A place right after a heading. -/
def after (place : Place) : Position := ⟨place, true⟩

end Position

/-- The tokens of a tag line, up to a comment. -/
def tagTokens (t : Text) : List Text := (Text.words t).takeWhile fun token => token.head? != some '#'

/-- The characters of a tag name after its at sign. -/
def isTagChar (c : Char) : Bool := isWord c || c == '-'

/-- A tag name: an at sign and at least one word character or hyphen. -/
def isTagName : Text → Bool
  | '@' :: name => !name.isEmpty && name.all isTagChar
  | _ => false

variable (d : Dialect)

/-- Whether the first of the lines that is neither blank nor a comment nor tags is the heading of
examples. -/
def examplesAhead : List Text → Bool
  | [] => false
  | raw :: rest =>
      match Text.trim raw with
      | [] => examplesAhead rest
      | c :: t => if c = '#' || c = '@' then examplesAhead rest else (heading? d.examples (c :: t)).isSome

/-- A child heading of a feature or rule, and the position after it. -/
def childHeading? (nested : Bool) (t : Text) : Option (Mark × Position) :=
  match heading? d.background t with
  | some (keyword, name) =>
      some (.heading (.background nested) keyword name, .after (.steps false nested))
  | none => match heading? d.outline t with
    | some (keyword, name) =>
        some (.heading (.scenario nested true) keyword name, .after (.steps true nested))
    | none => (heading? d.scenario t).map fun (keyword, name) =>
        (.heading (.scenario nested false) keyword name, .after (.steps true nested))

/-- A line between the children of a feature. -/
def markInFeature (t : Text) : Mark × Position :=
  match heading? d.rule t with
  | some (keyword, name) => (.heading .rule keyword name, .after (.children true))
  | none => (childHeading? d false t).getD (.unrecognized t, .within (.children false))

/-- A line between the children of a feature or of a rule. A rule ends where another rule starts, and at
a heading that reads like a feature. -/
def markChild (nested : Bool) (t : Text) : Mark × Position :=
  if t.head? = some '@' then (.tags (tagTokens t), .within (.children nested))
  else if nested && !((heading? d.rule t).isSome || (heading? d.feature t).isSome) then
    (childHeading? d true t).getD (.unrecognized t, .within (.children true))
  else markInFeature d t

/-- A line after the steps of a scenario. -/
def markBlock (nested : Bool) (t : Text) (ahead : List Text) : Mark × Position :=
  match heading? d.examples t with
  | some (keyword, name) => (.heading .examples keyword name, .after (.examples nested))
  | none =>
      if t.head? = some '@' && examplesAhead d ahead then (.tags (tagTokens t), .within (.blocks nested))
      else markChild d nested t

/-- A line where a step may stand. -/
def markStep (inScenario nested : Bool) (t : Text) (ahead : List Text) : Mark × Position :=
  match d.step? t with
  | some (keyword, type, text) => (.step keyword type text, .within (.argument inScenario nested))
  | none => if inScenario then markBlock d nested t ahead else markChild d nested t

/-- The opening line of a doc string. -/
def markOpenDoc (fence : Fence) (raw : Text) : Mark :=
  let mediaType := Text.trim ((Text.trim raw).drop 3)
  .openDoc fence (if mediaType.isEmpty then none else some mediaType) (raw.takeWhile isBlank).length

/-- A line that is neither blank nor a comment, at a place after any description. -/
def Place.mark (t raw : Text) (ahead : List Text) : Place → Mark × Position
  | .preamble =>
      if t.head? = some '@' then (.tags (tagTokens t), .within .preamble)
      else match heading? d.feature t with
        | some (keyword, name) => (.heading .feature keyword name, .after (.children false))
        | none => (.unexpected t, .within .preamble)
  | .children nested => markChild d nested t
  | .steps inScenario nested => markStep d inScenario nested t ahead
  | .argument inScenario nested =>
      if t.head? = some '|' then (.row (splitRow t), .within (.rows inScenario nested))
      else match Fence.ofLine? t with
        | some fence => (markOpenDoc fence raw, .within (.doc inScenario nested fence))
        | none => markStep d inScenario nested t ahead
  | .rows inScenario nested =>
      if t.head? = some '|' then (.row (splitRow t), .within (.rows inScenario nested))
      else markStep d inScenario nested t ahead
  | .doc inScenario nested fence => (.docLine raw, .within (.doc inScenario nested fence))
  | .blocks nested => markBlock d nested t ahead
  | .examples nested | .exampleRows nested =>
      if t.head? = some '|' then (.row (splitRow t), .within (.exampleRows nested))
      else markBlock d nested t ahead

/-- Where the lines after a blank line stand: a blank line ends a table. -/
def Place.afterBlank : Place → Place
  | .rows inScenario nested => .steps inScenario nested
  | .exampleRows nested => .blocks nested
  | place => place

/-- The mark of a line and the position after it. -/
def Position.mark (raw : Text) (ahead : List Text) (p : Position) : Mark × Position :=
  match p with
  | ⟨.doc inScenario nested fence, _⟩ =>
      if Text.trim raw = fence.text then (.closeDoc, .within (.steps inScenario nested))
      else (.docLine raw, .within (.doc inScenario nested fence))
  | ⟨place, describing⟩ =>
      match Text.trim raw with
      | [] => if describing then (.description [], p) else (.blank, .within place.afterBlank)
      | c :: t =>
          if c = '#' then (.comment (c :: t), p)
          else if describing && !d.startsElement (c :: t) then (.description (c :: t), p)
          else place.mark d (c :: t) raw ahead

/-- The marks of the lines from a position on. -/
def marksFrom : Position → List Text → List Mark
  | _, [] => []
  | p, raw :: rest => (p.mark d raw rest).1 :: marksFrom (p.mark d raw rest).2 rest

/-- The marks of the lines of a document. -/
def marks (lines : List Text) : List Mark := marksFrom d .start lines

theorem length_marksFrom (p : Position) (lines : List Text) :
    (marksFrom d p lines).length = lines.length := by
  induction lines generalizing p with
  | nil => rfl
  | cons raw rest ih => simp [marksFrom, ih]

/-- Every line gets one mark. -/
theorem length_marks (lines : List Text) : (marks d lines).length = lines.length :=
  length_marksFrom d .start lines

end Gherkin
