import Gherkin.Value.Basic
import Gherkin.Decimal.Reading

/-! # Tokens of JSON texts

A JSON text is cut into punctuation, strings and words; a word is a name or a number. The cutting is
one pass over the characters with a small state. -/

namespace Gherkin.Json

/-- A token of a JSON text. -/
inductive Token where
  | openList
  | closeList
  | openMap
  | closeMap
  | colon
  | comma
  | scalar (value : Value)

/-- Where the cutting stands: between tokens, in a word, or in a string, whose characters so far are
held in reverse. An escape may await its letter, or some hexadecimal digits; `high` is the first half of
a character written as two escapes. -/
inductive Mode where
  | idle
  | word (done : Text)
  | string (done : Text) (high : Option Nat)
  | escape (done : Text) (high : Option Nat)
  | digits (done : Text) (high : Option Nat) (missing value : Nat)

/-- The token that a punctuation character is. -/
def punctuation? : Char → Option Token
  | '[' => some .openList
  | ']' => some .closeList
  | '{' => some .openMap
  | '}' => some .closeMap
  | ':' => some .colon
  | ',' => some .comma
  | _ => none

/-- The white space of JSON. -/
def isSpace (c : Char) : Bool := c == ' ' || c == '\t' || c == '\n' || c == '\r'

/-- An ASCII digit. -/
def isDecimal (c : Char) : Bool := '0' ≤ c && c ≤ '9'

/-- Whether a run of digits is an integer part: no zero in front of other digits. -/
def isWhole : Text → Bool
  | [] => false
  | ['0'] => true
  | c :: rest => c != '0' && (c :: rest).all isDecimal

/-- Whether a text is a run of digits. -/
def isDigits (t : Text) : Bool := !t.isEmpty && t.all isDecimal

/-- The exponent that a text writes after a number, which may be none. -/
def exponent? : Text → Option (Option Int)
  | [] => some none
  | c :: rest =>
      if c = 'e' || c = 'E' then
        let (negative, body) := Reading.sign rest
        if isDigits body then
          let n := Reading.number (body.map fun d => d.toNat - '0'.toNat)
          some (some (if negative then -(n : Int) else n))
        else none
      else none

/-- The number that an unsigned text writes: an integer unless it has a point or an exponent. -/
def number? (negative : Bool) (t : Text) : Option Value :=
  let whole := t.takeWhile isDecimal
  let rest := t.dropWhile isDecimal
  let value (digits : Text) := Reading.number (digits.map fun d => d.toNat - '0'.toNat)
  if !isWhole whole then none
  else match rest with
    | [] => some (.int (if negative then -(value whole : Int) else value whole))
    | '.' :: rest =>
        let places := rest.takeWhile isDecimal
        if places.isEmpty then none
        else (exponent? (rest.dropWhile isDecimal)).map fun e =>
          .float (Reading.scaled negative (value (whole ++ places)) (e.getD 0 - places.length))
    | rest => (exponent? rest).map fun e => .float (Reading.scaled negative (value whole) (e.getD 0))

/-- The value of a word. -/
def word? (t : Text) : Option Value :=
  if t = "null" then some .null
  else if t = "true" then some (.bool true)
  else if t = "false" then some (.bool false)
  else if t = "NaN" then some (.float (0.0 / 0.0))
  else if t = "Infinity" then some (.float (1.0 / 0.0))
  else if t = "-Infinity" then some (.float (-(1.0 / 0.0)))
  else match t with
    | '-' :: rest => number? true rest
    | rest => number? false rest

/-- The character of a one-letter escape. -/
def escaped? : Char → Option Char
  | '"' => some '"'
  | '\\' => some '\\'
  | '/' => some '/'
  | 'b' => some '\x08'
  | 'f' => some '\x0c'
  | 'n' => some '\n'
  | 'r' => some '\r'
  | 't' => some '\t'
  | _ => none

/-- The value of a hexadecimal digit. -/
def hexValue? (c : Char) : Option Nat :=
  if '0' ≤ c && c ≤ '9' then some (c.toNat - '0'.toNat)
  else if 'a' ≤ c && c ≤ 'f' then some (c.toNat - 'a'.toNat + 10)
  else if 'A' ≤ c && c ≤ 'F' then some (c.toNat - 'A'.toNat + 10)
  else none

/-- Adds a waiting first half, which has no second half, to the characters. -/
def flush (done : Text) : Option Nat → Text
  | none => done
  | some _ => '\uFFFD' :: done

/-- Adds the character of a hexadecimal escape, joining the two halves of a large character. -/
def addUnit (done : Text) (high : Option Nat) (unit : Nat) : Mode :=
  if 0xD800 ≤ unit && unit < 0xDC00 then .string (flush done high) (some unit)
  else if 0xDC00 ≤ unit && unit < 0xE000 then
    match high with
    | some first => .string (Char.ofNat (0x10000 + (first - 0xD800) * 0x400 + (unit - 0xDC00)) :: done) none
    | none => .string ('\uFFFD' :: done) none
  else .string (Char.ofNat unit :: flush done high) none

/-- Reads one character between tokens. -/
def idleStep (c : Char) : List Token × Mode :=
  match punctuation? c with
  | some token => ([token], .idle)
  | none =>
      if isSpace c then ([], .idle)
      else if c = '"' then ([], .string [] none)
      else ([], .word [c])

/-- Reads one character: the tokens that end with it, and where the cutting stands after it. -/
def Mode.step (c : Char) : Mode → Option (List Token × Mode)
  | .idle => some (idleStep c)
  | .word done =>
      if (punctuation? c).isSome || isSpace c || c = '"' then
        (word? done.reverse).map fun value => (.scalar value :: (idleStep c).1, (idleStep c).2)
      else some ([], .word (c :: done))
  | .string done high =>
      if c = '"' then some ([.scalar (.text (flush done high).reverse)], .idle)
      else if c = '\\' then some ([], .escape done high)
      else if c.toNat < 32 then none
      else some ([], .string (c :: flush done high) none)
  | .escape done high =>
      if c = 'u' then some ([], .digits done high 4 0)
      else (escaped? c).map fun d => ([], .string (d :: flush done high) none)
  | .digits done high missing value =>
      (hexValue? c).map fun d =>
        ([], if missing ≤ 1 then addUnit done high (16 * value + d)
          else .digits done high (missing - 1) (16 * value + d))

/-- The tokens of a text from a given state on. -/
def tokensFrom : Mode → Text → Option (List Token)
  | .idle, [] => some []
  | .word done, [] => (word? done.reverse).map fun value => [.scalar value]
  | _, [] => none
  | mode, c :: rest =>
      match mode.step c with
      | none => none
      | some (tokens, mode) => (tokensFrom mode rest).map (tokens ++ ·)

/-- The tokens of a text; none if it has a faulty word or string. -/
def tokens? (t : Text) : Option (List Token) := tokensFrom .idle t

end Gherkin.Json
