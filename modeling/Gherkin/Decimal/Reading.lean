import Gherkin.Text.Blank
import Gherkin.Text.Quoted
import Gherkin.Text.Word

/-! # Reading numbers

Integers and floating point numbers as a step's captured text writes them: decimal digits of any
script, single underscores between digits, white space around. An integer of more than 4300 digits is
refused. -/

namespace Gherkin

/-- Why a text is no number. -/
inductive NumberError where
  | notInteger (t : Text)
  | tooManyDigits (count : Nat)
  | notFloat (t : Text)
  deriving DecidableEq, Repr

namespace NumberError

/-- The longest integer that is read. -/
def digitLimit : Nat := 4300

/-- The wording of the error. -/
def message : NumberError → Text
  | notInteger t => "invalid literal for int() with base 10: " ++ (Text.quoted t).take 200
  | tooManyDigits count =>
      "Exceeds the limit (" ++ Text.ofNat digitLimit ++
        " digits) for integer string conversion: value has " ++ Text.ofNat count ++
        " digits; use sys.set_int_max_str_digits() to increase the limit"
  | notFloat t => "could not convert string to float: " ++ Text.quoted t

end NumberError

namespace Reading

/-- A sign in front of a number: whether it is a minus, and the rest. -/
def sign : Text → Bool × Text
  | '-' :: rest => (true, rest)
  | '+' :: rest => (false, rest)
  | rest => (false, rest)

/-- The leading run of digits and underscores: the digits' values, whether every underscore so far
stands between two digits (the last one may still be open), and the rest. `after` says whether the
character before is a digit. -/
def digitRun : Bool → Text → List Nat × Bool × Text
  | after, [] => ([], after, [])
  | after, c :: rest =>
      match digitValue? c with
      | some d =>
          let (digits, sound, rest) := digitRun true rest
          (d :: digits, sound, rest)
      | none =>
          if c = '_' then
            if after then digitRun false rest else ([], false, rest)
          else ([], after, c :: rest)

/-- The white space around a number. The separators among the control characters do not belong to it. -/
def isSpace (c : Char) : Bool := isBlank c && !(28 ≤ c.toNat && c.toNat ≤ 31)

/-- The number that a list of digits writes. -/
def number (digits : List Nat) : Nat := digits.foldl (fun n d => 10 * n + d) 0

/-- Reads an integer. -/
def integer (t : Text) : Except NumberError Int :=
  let (negative, body) := sign (Text.trimBy isSpace t)
  let (digits, sound, rest) := digitRun false body
  if !sound || digits.isEmpty then .error (.notInteger t)
  else if NumberError.digitLimit < digits.length then .error (.tooManyDigits digits.length)
  else if !rest.isEmpty then .error (.notInteger t)
  else .ok (if negative then -(number digits : Int) else number digits)

/-- A double from its digits and its power of ten. Exponents past the range of a double are cut off
there, where the value is already zero or infinite. -/
def scaled (negative : Bool) (digits : Nat) (exponent : Int) : Float :=
  let count : Int := (Nat.toDigits 10 digits).length
  let magnitude : Float :=
    if digits = 0 || count + exponent < -400 then 0.0
    else if count + exponent > 400 then 1.0 / 0.0
    else Float.ofScientific digits (exponent < 0) exponent.natAbs
  if negative then -magnitude else magnitude

/-- The letters of the words for infinity and not-a-number, in small ASCII letters. -/
def named? (t : Text) : Option Float :=
  let word := t.map Char.toLower
  if word = "inf" || word = "infinity" then some (1.0 / 0.0)
  else if word = "nan" then some (0.0 / 0.0)
  else none

/-- The exponent part of a decimal: nothing, or an `e` and a signed run of digits. -/
def exponent? : Text → Option Int
  | [] => some 0
  | c :: rest =>
      if c = 'e' || c = 'E' then
        let (negative, body) := sign rest
        let (digits, sound, rest) := digitRun false body
        if sound && !digits.isEmpty && rest.isEmpty then
          some (if negative then -(number digits : Int) else number digits)
        else none
      else none

/-- The digits of a decimal with a point, and its power of ten. -/
def decimal? (t : Text) : Option (Nat × Int) :=
  let (whole, sound, rest) := digitRun false t
  if !sound && (!whole.isEmpty || t.head? = some '_') then none
  else
    let (places, rest) := match rest with
      | '.' :: rest =>
          let (places, sound, rest') := digitRun false rest
          if !sound && (!places.isEmpty || rest.head? = some '_') then ([], ['_']) else (places, rest')
      | rest => ([], rest)
    if whole.isEmpty && places.isEmpty then none
    else (exponent? rest).map fun e => (number (whole ++ places), e - places.length)

/-- Reads a floating point number. -/
def float (t : Text) : Except NumberError Float :=
  let (negative, body) := sign (Text.trimBy isSpace t)
  match named? body with
  | some x => .ok (if negative then -x else x)
  | none => match decimal? body with
    | some (digits, exponent) => .ok (scaled negative digits exponent)
    | none => .error (.notFloat t)

end Reading

end Gherkin
