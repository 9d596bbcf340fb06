import Gherkin.Text.Quoted
import Gherkin.Value.Basic

/-! # Values as messages show them

The form in which a message shows a value: texts in quotes, and the words `None`, `True` and `False`. -/

namespace Gherkin.Value

mutual

/-- The value as it is shown. -/
def shown : Value → Text
  | .null => "None"
  | .bool b => if b then "True" else "False"
  | .int n => Text.ofInt n
  | .float x => Shortest.text x
  | .text t => Text.quoted t
  | .list [] => "[]"
  | .list (v :: rest) => "[" ++ v.shown ++ shownItems rest ++ "]"
  | .map [] => ['{', '}']
  | .map ((k, v) :: rest) => '{' :: Text.quoted k ++ ": " ++ v.shown ++ shownEntries rest ++ ['}']

/-- The further items of a list. -/
def shownItems : List Value → Text
  | [] => []
  | v :: rest => ", " ++ v.shown ++ shownItems rest

/-- The further entries of a mapping. -/
def shownEntries : List (Text × Value) → Text
  | [] => []
  | (k, v) :: rest => ", " ++ Text.quoted k ++ ": " ++ v.shown ++ shownEntries rest

end

/-- The value as running text: a text as it is, and any other value as it is shown. -/
def plain : Value → Text
  | .text t => t
  | v => v.shown

/-- The word for the kind of a value. -/
def kindName : Value → Text
  | .null => "NoneType"
  | .bool _ => "bool"
  | .int _ => "int"
  | .float _ => "float"
  | .text _ => "str"
  | .list _ => "list"
  | .map _ => "dict"

end Gherkin.Value
