import Gherkin.Document.Basic
import Gherkin.Text.Blank

/-! # Doc strings as text

The lines between two fences, without the indentation of the opening fence. Inside, a fence is written
with a backslash before each of its characters. -/

namespace Gherkin

/-- Removes spaces and tabs from the front of a line, as many as the indentation has at most. -/
def deindent : Nat → Text → Text
  | _, [] => []
  | 0, t => t
  | n + 1, c :: rest => if isIndent c then deindent n rest else c :: rest

namespace DocString

/-- A line inside a doc string, as its content has it. -/
def contentLine (fence : Fence) (indent : Nat) (line : Text) : Text :=
  Text.replace fence.escaped fence.text (deindent indent line)

/-- The lines without the blank ones at the end. -/
def dropBlankEnd (lines : List Text) : List Text :=
  (lines.reverse.dropWhile fun line => line.all isBlank).reverse

/-- The content of a doc string. One that is never closed does not keep the blank lines at its end. -/
def contentOf (fence : Fence) (indent : Nat) (closed : Bool) (lines : List Text) : Text :=
  let lines := lines.map (contentLine fence indent)
  Text.joinWith ['\n'] (if closed then lines else dropBlankEnd lines)

/-- The lines that write a doc string: the opening fence with the media type, the content with its
fences escaped, the closing fence. Empty lines are not indented. -/
def toLines (indent : Text) (d : DocString) : List Text :=
  let content := if d.content.isEmpty then [] else Text.splitAtChar '\n' d.content
  [indent ++ d.fence.text ++ d.mediaType.getD []] ++
    (content.map fun line =>
      if line.isEmpty then [] else indent ++ Text.replace d.fence.text d.fence.escaped line) ++
    [indent ++ d.fence.text]

end DocString

end Gherkin
