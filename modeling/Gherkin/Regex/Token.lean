import Gherkin.Regex.Basic
import Gherkin.Regex.Error
import Gherkin.Value.JsonToken

/-! # Tokens and escapes of regular expressions

A pattern is cut into plain characters and backslashes with the character behind them. Where that character starts a
code point or a number, the digits or the name behind it still belong to it: an escape is read token by token, and it
ends where it is complete or where a token does not belong to it. -/

namespace Gherkin.Regex

/-- A token: a plain character, a backslash with a character, or a backslash at the end. -/
inductive Token where
  | plain (c : Char)
  | escaped (c : Char)
  | dangling
  deriving DecidableEq, Repr

/-- The characters that write a token. -/
def Token.source : Token → Text
  | .plain c => [c]
  | .escaped c => ['\\', c]
  | .dangling => ['\\']

/-- The tokens of a pattern. -/
def tokens : Text → List Token
  | [] => []
  | '\\' :: c :: rest => .escaped c :: tokens rest
  | ['\\'] => [.dangling]
  | c :: rest => .plain c :: tokens rest

/-- The names of characters, with the code point that each stands for. -/
class CharacterNames where
  code? : Text → Option Nat

/-- Where nothing else is said, characters have no names. -/
instance (priority := low) noCharacterNames : CharacterNames := ⟨fun _ => none⟩

/-- A complaint, and how many characters in front of the place that is reached it is about. -/
abbrev Fault := Cause × Nat

/-! ### Escapes -/

/-- An escape of several tokens, with what has been read of it: a letter with hexadecimal digits, octal digits, a number
that may turn out to be octal, or a name. -/
inductive Escape where
  | hex (letter : Char) (digits : Text)
  | octal (digits : Text)
  | numeral (digits : Text)
  | nameStart
  | name (read : Text)
  deriving DecidableEq, Repr

/-- What a complete escape is: a code point, or a reference to a group. -/
inductive Escaped where
  | code (n : Nat)
  | reference (digits : Text)
  deriving DecidableEq, Repr

namespace Escape

/-- The number of hexadecimal digits behind an escape letter. -/
def width (letter : Char) : Nat := if letter = 'x' then 2 else if letter = 'u' then 4 else 8

/-- An octal digit. -/
def isOctal (c : Char) : Bool := '0' ≤ c && c ≤ '7'

/-- A hexadecimal digit. -/
def isHex (c : Char) : Bool := (Json.hexValue? c).isSome

/-- The number that digits write in a base. -/
def number (base : Nat) (digits : Text) : Nat :=
  digits.foldl (fun n d => base * n + (Json.hexValue? d).getD 0) 0

/-- The escape that a letter starts. -/
def start? : Char → Option Escape
  | 'x' => some (.hex 'x' [])
  | 'u' => some (.hex 'u' [])
  | 'U' => some (.hex 'U' [])
  | 'N' => some .nameStart
  | _ => none

/-- The token that an escape starts with. -/
def opening : Escape → Text
  | .hex letter _ => ['\\', letter]
  | .octal digits | .numeral digits => '\\' :: digits.take 1
  | .nameStart | .name _ => ['\\', 'N']

/-- The code point that octal digits write. -/
def octalCode (digits : Text) : Except Fault Escaped :=
  if 0o377 < number 8 digits then .error (.octalOutOfRange digits, digits.length + 1)
  else .ok (.code (number 8 digits))

variable [CharacterNames]

/-- Reads a token that belongs to an escape; there is nothing if the token does not belong to it. -/
def read? (e : Escape) (token : Token) : Option (Except Fault (Escape ⊕ Escaped)) :=
  match e, token with
  | .hex letter digits, .plain c =>
      if !isHex c then none
      else
        let digits := digits ++ [c]
        if digits.length < width letter then some (.ok (.inl (.hex letter digits)))
        else if 0x10FFFF < number 16 digits then some (.error (.badEscape (letter :: digits), digits.length + 2))
        else some (.ok (.inr (.code (number 16 digits))))
  | .octal digits, .plain c =>
      if !isOctal c then none
      else if digits.length < 2 then some (.ok (.inl (.octal (digits ++ [c]))))
      else some ((octalCode (digits ++ [c])).map .inr)
  | .numeral digits, .plain c =>
      if digits.length < 2 then
        if !c.isDigit then none
        else if (digits ++ [c]).all isOctal then some (.ok (.inl (.numeral (digits ++ [c]))))
        else some (.ok (.inr (.reference (digits ++ [c]))))
      else if isOctal c then some ((octalCode (digits ++ [c])).map .inr)
      else none
  | .nameStart, .plain c => if c = '\x7b' then some (.ok (.inl (.name []))) else none
  | .name read, token =>
      if token = .plain '\x7d' then
        if read.isEmpty then some (.error (.missing .characterName, 1))
        else match CharacterNames.code? read with
          | some code => some (.ok (.inr (.code code)))
          | none => some (.error (.undefinedCharacter read, read.length + 4))
      else some (.ok (.inl (.name (read ++ token.source))))
  | _, _ => none

/-- Ends an escape in front of a token that does not belong to it, or at the end of the pattern. -/
def finish : Escape → Except Fault Escaped
  | .hex letter digits => .error (.incompleteEscape (letter :: digits), digits.length + 2)
  | .octal digits => octalCode digits
  | .numeral digits => .ok (.reference digits)
  | .nameStart => .error (.missing .brace, 0)
  | .name read =>
      if read.isEmpty then .error (.missing .characterName, 0) else .error (.unterminatedName '\x7d', read.length)

end Escape

end Gherkin.Regex
