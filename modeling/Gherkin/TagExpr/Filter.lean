import Gherkin.TagExpr.Parser
import Gherkin.Text.Quoted

/-! # Tag filters

A filter is a tag expression read once and evaluated many times. A filter that is one tag is a plain
membership test. -/

namespace Gherkin

/-- Whether a text is one tag name. -/
def isSingleTag (t : Text) : Bool := isTagName (Text.trim t)

/-- Reads an expression and evaluates it. -/
def matchesTags (t : Text) (tags : List Text) : Except TagExpr.Error Bool :=
  match TagExpr.parse t with
  | .ok e => .ok (e.eval tags)
  | .error e => .error e

/-- Tests a filter text: by membership if it is one tag, and otherwise as an expression. -/
def tagsMatch (t : Text) (tags : List Text) : Except TagExpr.Error Bool :=
  if isSingleTag t then .ok (tags.contains (Text.trim t)) else matchesTags t tags

/-- A tag filter and the text it was read from. -/
structure TagFilter where
  text : Text
  expression : TagExpr
  deriving DecidableEq, Repr

namespace TagFilter

/-- Reads a filter. -/
def ofText (t : Text) : Except TagExpr.Error TagFilter :=
  let text := Text.trim t
  if isSingleTag text then .ok ⟨text, .tag text⟩
  else match TagExpr.parse text with
    | .ok e => .ok ⟨text, e⟩
    | .error e => .error e

/-- Whether the filter holds for a collection of tags. -/
def holds (f : TagFilter) (tags : List Text) : Bool := f.expression.eval tags

/-- The filter as it is shown. -/
def shown (f : TagFilter) : Text := "TagFilter(" ++ Text.quoted f.text ++ ")"

end TagFilter

end Gherkin
