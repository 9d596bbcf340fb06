import Gherkin.Document.Basic
import Gherkin.Text.Blank

/-! # Dialects

The keywords of one spoken language. A heading keyword is followed by a colon, a step keyword by a
space; of two step keywords that both fit a line the longer one counts. -/

namespace Gherkin

/-- The keywords of one language, for headings and for the five kinds of steps. -/
structure Dialect where
  feature : List Text
  rule : List Text
  scenario : List Text
  outline : List Text
  background : List Text
  examples : List Text
  context : List Text
  action : List Text
  outcome : List Text
  addition : List Text
  contrast : List Text
  deriving DecidableEq, Repr

namespace Dialect

/-- All keywords that open a heading. -/
def headings (d : Dialect) : List Text :=
  d.feature ++ d.rule ++ d.scenario ++ d.outline ++ d.background ++ d.examples

/-- The step keywords with their types, group by group. -/
def stepGroups (d : Dialect) : List (Text × StepType) :=
  d.context.map (·, .context) ++ d.action.map (·, .action) ++ d.outcome.map (·, .outcome) ++
    d.addition.map (·, .conjunction) ++ d.contrast.map (·, .conjunction)

/-- Keeps the first entry of each keyword. -/
def firstOfEach : List (Text × StepType) → List (Text × StepType)
  | [] => []
  | entry :: rest => entry :: (firstOfEach rest).filter fun other => other.1 != entry.1

/-- The step keywords, each with the type of its first group, longer ones first. -/
def stepKeywords (d : Dialect) : List (Text × StepType) :=
  (firstOfEach d.stepGroups).mergeSort fun a b => b.1.length ≤ a.1.length

end Dialect

/-- The keyword and the name of a heading line, if it is one of the given keywords and a colon. -/
def heading? (keywords : List Text) (t : Text) : Option (Text × Text) :=
  keywords.findSome? fun keyword =>
    (Text.afterPrefix? (keyword ++ [':']) t).map fun rest => (keyword, Text.trim rest)

/-- The keyword, type and text of a step line. A star is a step keyword of every language. -/
def Dialect.step? (d : Dialect) (t : Text) : Option (Text × StepType × Text) :=
  match Text.afterPrefix? ['*', ' '] t with
  | some rest => some (['*'], .unknown, Text.trim rest)
  | none => d.stepKeywords.findSome? fun (keyword, type) =>
      (Text.afterPrefix? (keyword ++ [' ']) t).map fun rest => (keyword, type, Text.trim rest)

/-- Whether a trimmed line starts something else than a description: tags, a table row, a doc string, a
heading or a step. -/
def Dialect.startsElement (d : Dialect) (t : Text) : Bool :=
  t.head? == some '@' || t.head? == some '|' || (Fence.ofLine? t).isSome ||
    (heading? d.headings t).isSome || (d.step? t).isSome

end Gherkin
