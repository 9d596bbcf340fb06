import Gherkin.Decimal.Reading
import Gherkin.Failure
import Gherkin.Regex.Matcher
import Gherkin.Text.Case

/-! # Parameter types

A placeholder in a step pattern names a parameter type: a fragment of a regular expression with one
group, and a conversion of the text that the group captures. -/

namespace Gherkin

/-- A failed conversion of a text to a number. -/
def NumberError.failure (e : NumberError) : Failure := .raised "ValueError" e.message

/-- A conversion of captured texts. -/
abbrev Transform := Text → Except Failure Value

namespace Transform

/-- Leaves the text as it is. -/
def text : Transform := fun t => .ok (.text t)

/-- Reads an integer. -/
def int : Transform := fun t => match Reading.integer t with
  | .ok n => .ok (.int n)
  | .error e => .error e.failure

/-- Reads a floating point number. -/
def float : Transform := fun t => match Reading.float t with
  | .ok x => .ok (.float x)
  | .error e => .error e.failure

/-- Writes the text in capitals. -/
def upper : Transform := fun t => .ok (.text (Text.upper t))

/-- Writes the text in small letters. -/
def lower : Transform := fun t => .ok (.text (Text.lower t))

/-- Removes white space at the ends. -/
def strip : Transform := fun t => .ok (.text (Text.trim t))

/-- The conversion of a name. -/
def ofName? (name : Text) : Option Transform :=
  let named : List (String × Transform) :=
    [("str", text), ("int", int), ("float", float), ("upper", upper), ("lower", lower), ("strip", strip)]
  (named.find? fun (other, _) => other.toList == name).map Prod.snd

end Transform

/-- A type of placeholders: the fragment that matches its texts, with one group, and their conversion. -/
structure ParameterType where
  name : Text
  fragment : Text
  transform : Transform

namespace ParameterType

/-- The types that are built in. -/
def builtIn : List ParameterType := [
  ⟨"string", "\"([^\"]*)\"", .text⟩,
  ⟨"int", "(-?\\d+)", .int⟩,
  ⟨"float", "(-?\\d+\\.\\d+)", .float⟩,
  ⟨"word", "(\\S+)", .text⟩,
  ⟨"any", "(.*)", .text⟩]

/-- The type that is built in under a name. -/
def builtIn? (name : Text) : Option ParameterType := builtIn.find? fun type => type.name == name

end ParameterType

end Gherkin
