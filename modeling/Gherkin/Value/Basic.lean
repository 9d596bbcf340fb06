import Gherkin.Decimal.Writing
import Gherkin.Entries

/-! # Values

The dynamic values of settings files, of scenario state and of handler arguments: the values of JSON
with integers of any size apart from floating point numbers. A mapping keeps the order in which its
keys were first set. -/

namespace Gherkin

/-- A dynamic value. -/
inductive Value where
  | null
  | bool (b : Bool)
  | int (n : Int)
  | float (x : Float)
  | text (t : Text)
  | list (items : List Value)
  | map (entries : List (Text × Value))
  deriving Inhabited

namespace Value

/-- Texts as a list value. -/
def ofTexts (texts : List Text) : Value := .list (texts.map .text)

/-- A natural number as a value. -/
def ofNat (n : Nat) : Value := .int n

/-- The field of a mapping. -/
def field? (key : Text) : Value → Option Value
  | .map entries => Entries.lookup entries key
  | _ => none

/-- Whether the value counts as set: not null, false, zero or empty. -/
def isTrue : Value → Bool
  | .null => false
  | .bool b => b
  | .int n => n != 0
  | .float x => x != 0.0
  | .text t => !t.isEmpty
  | .list items => !items.isEmpty
  | .map entries => !entries.isEmpty

/-- How many items a value asks for when it stands where a count does: null asks for all of them, and a
value that is no whole number has no meaning there. -/
def sliceEnd? : Value → Option (Option Int)
  | .null => some none
  | .int n => some (some n)
  | .bool b => some (some (if b then 1 else 0))
  | _ => none

/-- Whether two numbers are equal, an integer being compared with a double by their exact values. -/
def intEqFloat (n : Int) (x : Float) : Bool :=
  match Binary.ofFloat x with
  | .finite negative mantissa exponent =>
      let value := Binary.fraction mantissa exponent
      (if negative then -(value.1 : Int) else value.1) == n * (value.2 : Int)
  | _ => false

/-- Whether an integer lies below a double: they are compared by their exact values. -/
def intLessFloat (n : Int) (x : Float) : Bool :=
  match Binary.ofFloat x with
  | .finite negative mantissa exponent =>
      let value := Binary.fraction mantissa exponent
      n * (value.2 : Int) < if negative then -(value.1 : Int) else value.1
  | .infinite negative => !negative
  | .notANumber => false

/-- The integer that a value is; a truth value counts as zero or one. -/
def int? : Value → Option Int
  | .int n => some n
  | .bool b => some (if b then 1 else 0)
  | _ => none

/-- Whether one number lies below another. Values that are no numbers are in no order. -/
def less : Value → Value → Bool
  | .float a, .float b => a < b
  | .float a, b => match b.int? with
      | some b => !intLessFloat b a && !intEqFloat b a && a == a
      | none => false
  | a, .float b => match a.int? with
      | some a => intLessFloat a b
      | none => false
  | a, b => match a.int?, b.int? with
      | some a, some b => a < b
      | _, _ => false

/-- Whether a value is a number; truth values are. -/
def isNumber : Value → Bool
  | .int _ | .float _ | .bool _ => true
  | _ => false

mutual

/-- Equality of values: numbers are compared by value, mappings without regard to order. -/
def beq : Value → Value → Bool
  | .null, .null => true
  | .bool a, .bool b => a == b
  | .bool a, .int b => (if a then 1 else 0) == b
  | .int a, .bool b => a == (if b then 1 else 0)
  | .bool a, .float b => (if a then 1.0 else 0.0) == b
  | .float a, .bool b => a == (if b then 1.0 else 0.0)
  | .int a, .int b => a == b
  | .int a, .float b => intEqFloat a b
  | .float a, .int b => intEqFloat b a
  | .float a, .float b => a == b
  | .text a, .text b => a == b
  | .list a, .list b => beqList a b
  | .map a, .map b => a.length == b.length && beqEntries a b
  | _, _ => false

/-- Equality of lists of values. -/
def beqList : List Value → List Value → Bool
  | [], [] => true
  | a :: as, b :: bs => beq a b && beqList as bs
  | _, _ => false

/-- Every entry has an equal value under the same key of the other mapping. -/
def beqEntries : List (Text × Value) → List (Text × Value) → Bool
  | [], _ => true
  | (k, a) :: as, bs =>
      (match Entries.lookup bs k with
        | some b => beq a b
        | none => false) && beqEntries as bs

end

instance : BEq Value := ⟨beq⟩

end Value

end Gherkin
