import Gherkin.Text.Basic

/-! # White space

The 29 white space characters, trimming by them, and the words that they separate. -/

namespace Gherkin

/-- White space: the control characters that move or separate text, the space, the next-line control,
and the spaces and separators of Unicode. The zero width space and the byte order mark are none. -/
def isBlank (c : Char) : Bool :=
  let n := c.toNat
  (9 ≤ n && n ≤ 13) || (28 ≤ n && n ≤ 32) || n == 0x85 || n == 0xA0 || n == 0x1680 ||
    (0x2000 ≤ n && n ≤ 0x200A) || n == 0x2028 || n == 0x2029 || n == 0x202F || n == 0x205F || n == 0x3000

/-- Space and tab, the white space of an indentation and around a table cell. -/
def isIndent (c : Char) : Bool := c == ' ' || c == '\t'

namespace Text

/-- The text without white space at its ends. -/
def trim (t : Text) : Text := trimBy isBlank t

/-- The text without white space at its end. -/
def trimRight (t : Text) : Text := trimRightBy isBlank t

/-- The runs of other characters between white space, with the run that the text starts with in front. -/
def wordsFrom : Text → Text × List Text
  | [] => ([], [])
  | c :: rest =>
      let (first, others) := wordsFrom rest
      if isBlank c then ([], if first.isEmpty then others else first :: others)
      else (c :: first, others)

/-- The runs of characters between white space. -/
def words (t : Text) : List Text :=
  let (first, others) := wordsFrom t
  if first.isEmpty then others else first :: others

end Text

end Gherkin
