import Gherkin.Text.Printable
import Gherkin.Text.Basic

/-! # Quoted texts

The form in which messages and configuration texts show a text: in single quotes, or in double quotes
if it holds a single quote and no double quote, with escapes for what cannot be shown. -/

namespace Gherkin.Text

/-- The lower-case hexadecimal digits of a number, filled up with zeros to a width. -/
def hexadecimal (width n : Nat) : Text :=
  let digits := Nat.toDigits 16 n
  List.replicate (width - digits.length) '0' ++ digits

/-- The form of a character inside the given quotes. -/
def quoteChar (mark : Char) (c : Char) : Text :=
  if c = mark || c = '\\' then ['\\', c]
  else if c = '\n' then ['\\', 'n']
  else if c = '\r' then ['\\', 'r']
  else if c = '\t' then ['\\', 't']
  else if isPrintable c then [c]
  else if c.toNat < 0x100 then '\\' :: 'x' :: hexadecimal 2 c.toNat
  else if c.toNat < 0x10000 then '\\' :: 'u' :: hexadecimal 4 c.toNat
  else '\\' :: 'U' :: hexadecimal 8 c.toNat

/-- The quotes around a text: single, unless only these occur in it. -/
def quoteMark (t : Text) : Char :=
  if t.contains '\'' && !t.contains '"' then '"' else '\''

/-- The text in quotes. -/
def quoted (t : Text) : Text :=
  [quoteMark t] ++ t.flatMap (quoteChar (quoteMark t)) ++ [quoteMark t]

end Gherkin.Text
