import Gherkin.Step.ParameterType

/-! # Step patterns

A pattern is a regular expression used as it is, or a text with placeholders in braces. A text becomes a
regular expression anchored at both ends: its literal parts escaped, and each placeholder replaced by
the fragment of its type. A name without a type matches any run of characters on one line. -/

namespace Gherkin

/-- A part of a pattern text: literal characters, or the name of a placeholder. -/
inductive Segment where
  | literal (t : Text)
  | placeholder (name : Text)
  deriving DecidableEq, Repr

namespace Segment

/-- Puts a character in front of segments. -/
def consLiteral (c : Char) : List Segment → List Segment
  | .literal t :: rest => .literal (c :: t) :: rest
  | segments => .literal [c] :: segments

/-- The name of the placeholder whose opening brace stands in front of the text. -/
def placeholder? (t : Text) : Option Text :=
  let name := t.takeWhile isWord
  if !name.isEmpty && (t.drop name.length).head? == some '\x7d' then some name else none

/-- The segments of a pattern; `skip` characters belong to the last placeholder. -/
def splitFrom : Nat → Text → List Segment
  | _, [] => []
  | skip + 1, _ :: rest => splitFrom skip rest
  | 0, c :: rest =>
      match if c = '\x7b' then placeholder? rest else none with
      | some name => .placeholder name :: splitFrom (name.length + 1) rest
      | none => consLiteral c (splitFrom 0 rest)

/-- The segments of a pattern. -/
def split (pattern : Text) : List Segment := splitFrom 0 pattern

/-- The name of a placeholder. -/
def name? : Segment → Option Text
  | .literal _ => none
  | .placeholder name => some name

end Segment

/-- The fragment that stands for a placeholder without a type. -/
def untypedFragment : Text := "(.*)"

/-- The regular expression text of a segment, `type?` finding the types of placeholders. -/
def Segment.source (type? : Text → Option ParameterType) : Segment → Text
  | .literal t => Regex.escapeLiteral t
  | .placeholder name => match type? name with
    | some type => type.fragment
    | none => untypedFragment

/-- The regular expression text of a pattern text. -/
def patternSource (type? : Text → Option ParameterType) (segments : List Segment) : Text :=
  ['^'] ++ segments.flatMap (Segment.source type?) ++ ['$']

/-- What a definition may be registered with: a text, a regular expression, or a value that is neither. -/
inductive Pattern where
  | text (t : Text)
  | regex (r : Regex)
  | other (kindName : Text)
  deriving DecidableEq, Repr

end Gherkin
