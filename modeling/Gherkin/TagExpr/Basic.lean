import Gherkin.Text.Basic

/-! # Tag expressions

Boolean expressions over tag names, their value for a collection of tags, and their canonical text, in
which every pair of operands stands in parentheses. -/

namespace Gherkin

/-- A Boolean expression over tag names. -/
inductive TagExpr where
  | tag (name : Text)
  | not (operand : TagExpr)
  | and (left right : TagExpr)
  | or (left right : TagExpr)
  deriving DecidableEq, Repr

namespace TagExpr

/-- Whether the expression holds for a collection of tag names. -/
def eval (tags : List Text) : TagExpr → Bool
  | tag name => tags.contains name
  | not operand => !operand.eval tags
  | and left right => left.eval tags && right.eval tags
  | or left right => left.eval tags || right.eval tags

/-- The canonical text of an expression. -/
def text : TagExpr → Text
  | tag name => name
  | not operand => "not " ++ operand.text
  | and left right => "(" ++ left.text ++ " and " ++ right.text ++ ")"
  | or left right => "(" ++ left.text ++ " or " ++ right.text ++ ")"

end TagExpr

end Gherkin
