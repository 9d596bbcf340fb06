import Gherkin.Decimal.Binary
import Gherkin.Text.Basic

/-! # Doubles as decimal texts

A finite double is written with the fewest digits that lie between the midpoints to its two neighbours, and among those
with the digits nearest to it. `Float` texts in answers, reports and settings all come from here. A page also shows
doubles rounded to a number of decimal places; a value exactly half way goes to the even digit. -/

namespace Gherkin.Shortest

/-- The digits and the power of ten of a decimal number. -/
structure Decimal where
  digits : Nat
  exponent : Int
  deriving DecidableEq, Repr

/-- The number of decimal digits of a natural number. -/
def digitCount (n : Nat) : Nat := (Nat.toDigits 10 n).length

/-- The power of ten that starts the decade of the positive fraction `num / den`. -/
def decade (num den : Nat) : Int :=
  if num ≥ den then (digitCount (num / den) : Int) - 1
  else -(digitCount ((den + num - 1) / num - 1) : Int)

/-- The reals that round to a double, as multiples of a quarter of its last place: the lower end, the
number itself and the upper end. Below a power of two the numbers lie twice as dense. -/
def interval (mantissa : Nat) (exponent : Int) : Nat × Nat × Nat :=
  (if mantissa = Nat.pow 2 52 ∧ exponent > -1074 then 4 * mantissa - 1 else 4 * mantissa - 2,
    4 * mantissa, 4 * mantissa + 2)

/-- The grid point nearest to a number among its two neighbours on the grid of multiples of
`10 ^ power`, if one of them rounds back to it. -/
def onGrid? (mantissa : Nat) (exponent power : Int) : Option Nat :=
  let (low, mid, high) := interval mantissa exponent
  let unit := Binary.fraction 1 (exponent - 2)
  let up := Nat.pow 10 (-power).toNat * unit.1
  let step := Nat.pow 10 power.toNat * unit.2
  let below := mid * up / step
  let above := below + 1
  let rounds (d : Nat) : Bool :=
    if mantissa % 2 = 0 then low * up ≤ d * step && d * step ≤ high * up
    else low * up < d * step && d * step < high * up
  let lower := mid * up - below * step
  let upper := above * step - mid * up
  if rounds below && rounds above then
    some (if lower < upper then below else if upper < lower then above
      else if below % 2 = 0 then below else above)
  else if rounds below then some below
  else if rounds above then some above
  else none

/-- Searches the grids from `count` digits on, `budget` of them, for the first with a hit. -/
def search (mantissa : Nat) (exponent start : Int) : Nat → Nat → Decimal
  | 0, count => ⟨0, start - count⟩
  | budget + 1, count =>
      let power := start - count + 1
      match onGrid? mantissa exponent power with
      | some d => ⟨d, power⟩
      | none => search mantissa exponent start budget (count + 1)

/-- Moves zeros from the end of the digits to the exponent, `budget` of them at most. -/
def dropZeros : Nat → Decimal → Decimal
  | 0, d => d
  | budget + 1, d =>
      if d.digits % 10 = 0 ∧ d.digits ≠ 0 then dropZeros budget ⟨d.digits / 10, d.exponent + 1⟩ else d

/-- The shortest decimal of a positive double; seventeen digits always suffice. -/
def ofBinary (mantissa : Nat) (exponent : Int) : Decimal :=
  if mantissa = 0 then ⟨0, 0⟩
  else
    let value := Binary.fraction mantissa exponent
    dropZeros 20 (search mantissa exponent (decade value.1 value.2) 17 1)

/-- How a decimal is laid out: positionally, always with a point, while the power of ten of its first
digit is at least -4 and below 16; otherwise with a signed exponent of at least two digits. -/
def layout (d : Decimal) : Text :=
  let digits := Text.ofNat d.digits
  let count := digits.length
  let first : Int := d.exponent + count - 1
  if d.digits = 0 then "0.0"
  else if -4 ≤ first ∧ first < 16 then
    if d.exponent ≥ 0 then digits ++ List.replicate d.exponent.toNat '0' ++ ".0"
    else if first ≥ 0 then
      digits.take (first.toNat + 1) ++ "." ++ digits.drop (first.toNat + 1)
    else "0." ++ List.replicate (-first - 1).toNat '0' ++ digits
  else
    let power := Text.ofNat first.natAbs
    let mantissa := if count ≤ 1 then digits else digits.take 1 ++ "." ++ digits.drop 1
    mantissa ++ "e" ++ (if first < 0 then "-" else "+") ++
      List.replicate (2 - power.length) '0' ++ power

/-- The text of a double. -/
def text (x : Float) : Text :=
  match Binary.ofFloat x with
  | .notANumber => "nan"
  | .infinite negative => if negative then "-inf" else "inf"
  | .finite negative mantissa exponent =>
      (if negative then "-" else "") ++ layout (ofBinary mantissa exponent)

end Gherkin.Shortest

namespace Gherkin.Fixed

/-- The digits of a scaled number with a point before its last `places` digits. -/
def layout (places scaled : Nat) : Text :=
  let digits := Text.ofNat scaled
  let padded := List.replicate (places + 1 - digits.length) '0' ++ digits
  if places = 0 then padded
  else padded.take (padded.length - places) ++ "." ++ padded.drop (padded.length - places)

/-- The text of a double with a fixed number of places. -/
def text (places : Nat) (x : Float) : Text :=
  match Binary.ofFloat x with
  | .notANumber => "nan"
  | .infinite negative => if negative then "-inf" else "inf"
  | .finite negative mantissa exponent =>
      let value := Binary.fraction mantissa exponent
      (if negative then "-" else "") ++ layout places (roundDiv (value.1 * Nat.pow 10 places) value.2)

end Gherkin.Fixed
