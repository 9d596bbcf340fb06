import Gherkin.Document.TableText
import Gherkin.Document.DocStringText
import Gherkin.Document.Diagnostic

/-! # Writing feature files

A tree is written in a normal form: two spaces of indentation a level, aligned tables, blank lines
between elements. -/

namespace Gherkin

/-- The indentation of a level; a level below zero has none. -/
def indentation (level : Int) : Text := Text.spaces (2 * level.toNat)

/-- A line of the output: a text without white space at its end, and a line feed. -/
def printLine (t : Text) : Text := Text.trimRight t ++ ['\n']

/-- Lines that are written as they are. -/
def printLines (lines : List Text) : Text := lines.flatMap (· ++ ['\n'])

/-- The line of tags above an element, if it has any. -/
def printTags (level : Int) (tags : List Tag) : Text :=
  if tags.isEmpty then []
  else indentation level ++ Text.joinWith [' '] (tags.map Tag.name) ++ ['\n']

/-- The heading of an element and its description. -/
def printHeading (level : Int) (keyword name description : Text) : Text :=
  printLine (indentation level ++ keyword ++ [':', ' '] ++ name) ++
    (if description.isEmpty then [] else
      (Text.splitAtChar '\n' description).flatMap fun line => printLine (indentation (level + 1) ++ line))

namespace Step

/-- The step with its table or doc string. -/
def print (level : Int) (s : Step) : Text :=
  printLine (indentation level ++ s.keyword ++ [' '] ++ s.text) ++
    (match s.table with
      | some table => printLines (tableLines (indentation (level + 1)) (table.rows.map Row.cells))
      | none => []) ++
    (match s.doc with
      | some doc => printLines (doc.toLines (indentation (level + 1)))
      | none => [])

end Step

/-- The background with its steps. -/
def Background.print (level : Int) (b : Background) : Text :=
  printHeading level b.keyword b.name b.description ++ b.steps.flatMap (Step.print (level + 1))

/-- The examples with their table. -/
def Examples.print (level : Int) (e : Examples) : Text :=
  printTags level e.tags ++ printHeading level e.keyword e.name e.description ++
    printLines (tableLines (indentation (level + 1)) ((e.header.toList ++ e.body).map Row.cells))

/-- The scenario with its steps and examples. -/
def Scenario.print (level : Int) (s : Scenario) : Text :=
  printTags level s.tags ++ printHeading level s.keyword s.name s.description ++
    s.steps.flatMap (Step.print (level + 1)) ++
    s.examples.flatMap fun e => '\n' :: e.print (level + 1)

/-- A background or scenario. -/
def Element.print (level : Int) : Element → Text
  | .background b => b.print level
  | .scenario s => s.print level

/-- The rule with its children. -/
def Rule.print (level : Int) (r : Rule) : Text :=
  printTags level r.tags ++ printHeading level r.keyword r.name r.description ++
    r.children.flatMap fun e => '\n' :: e.print (level + 1)

/-- A child of a feature. -/
def Child.print (level : Int) : Child → Text
  | .rule r => r.print level
  | .element e => e.print level

/-- The feature; the language is named unless it is English. -/
def Feature.print (f : Feature) : Text :=
  (if f.language = "en" then [] else ("# language: " : Text) ++ f.language ++ ['\n']) ++
    printTags 0 f.tags ++ printHeading 0 f.keyword f.name f.description ++
    f.children.flatMap fun c => '\n' :: c.print 1

/-- The document; without a feature nothing is written. -/
def Document.print (d : Document) : Text :=
  match d.feature with
  | some f => f.print
  | none => []

end Gherkin
