import Gherkin.Decimal.Reading
import Gherkin.Regex.Matcher
import Gherkin.Value.Basic

/-! # Plain scalars

A plain scalar of a settings file is null, a truth value, a number or a date if it is written like one,
and a text otherwise. The forms are regular expressions, tried in order. -/

namespace Gherkin.Yaml

/-- What a plain scalar stands for. -/
inductive ScalarKind where
  | bool
  | float
  | int
  | merge
  | null
  | date
  | default
  | text
  deriving DecidableEq, Repr

/-- The forms of the kinds other than text. -/
def forms : List (ScalarKind × String) := [
  (.bool, "^(?:yes|Yes|YES|no|No|NO|true|True|TRUE|false|False|FALSE|on|On|ON|off|Off|OFF)$"),
  (.float, "^(?:[-+]?(?:[0-9][0-9_]*)\\.[0-9_]*(?:[eE][-+][0-9]+)?|\\.[0-9][0-9_]*(?:[eE][-+][0-9]+)?|" ++
    "[-+]?[0-9][0-9_]*(?::[0-5]?[0-9])+\\.[0-9_]*|[-+]?\\.(?:inf|Inf|INF)|\\.(?:nan|NaN|NAN))$"),
  (.int, "^(?:[-+]?0b[0-1_]+|[-+]?0[0-7_]+|[-+]?(?:0|[1-9][0-9_]*)|[-+]?0x[0-9a-fA-F_]+|" ++
    "[-+]?[1-9][0-9_]*(?::[0-5]?[0-9])+)$"),
  (.merge, "^(?:<<)$"),
  (.null, "^(?:~|null|Null|NULL|)$"),
  (.date, "^(?:[0-9][0-9][0-9][0-9]-[0-9][0-9]-[0-9][0-9]|[0-9][0-9][0-9][0-9]-[0-9][0-9]?-[0-9][0-9]?" ++
    "(?:[Tt]|[ \\t]+)[0-9][0-9]?:[0-9][0-9]:[0-9][0-9](?:\\.[0-9]*)?(?:[ \\t]*(?:Z|[-+][0-9][0-9]?(?::[0-9][0-9])?))?)$"),
  (.default, "^(?:=)$")]

/-- Whether a text has a form. -/
def hasForm (form : String) (t : Text) : Bool :=
  match Regex.compile form.toList with
  | .ok r => (r.search t).isSome
  | .error _ => false

/-- The kind of a plain scalar. -/
def kindOf (t : Text) : ScalarKind :=
  match forms.find? fun (_, form) => hasForm form t with
  | some (kind, _) => kind
  | none => .text

/-- The number that digits write in a base. -/
def inBase (base : Nat) (digits : Text) : Nat :=
  digits.foldl (fun n d => base * n + (Json.hexValue? d).getD 0) 0

/-- The number whose digits to the base sixty are written in decimal between colons. -/
def bySixties (t : Text) : Nat :=
  (Text.splitAtChar ':' t).foldl (fun n part => 60 * n + inBase 10 part) 0

/-- The magnitude of an integer: binary, hexadecimal, octal after a zero, to the base sixty, or decimal. -/
def magnitude (t : Text) : Nat :=
  match t with
  | ['0'] => 0
  | '0' :: 'b' :: digits => inBase 2 digits
  | '0' :: 'x' :: digits => inBase 16 digits
  | '0' :: digits => inBase 8 digits
  | t => if t.contains ':' then bySixties t else inBase 10 t

/-- The magnitude of a floating point number. -/
def floatMagnitude (t : Text) : Float :=
  if t = ".inf" then 1.0 / 0.0
  else if t = ".nan" then 0.0 / 0.0
  else if t.contains ':' then
    (Text.splitAtChar ':' t).foldl (fun x part => 60.0 * x + floatPart part) 0.0
  else floatPart t
where
  /-- A decimal. -/
  floatPart (part : Text) : Float :=
    match Reading.float part with
    | .ok x => x
    | .error _ => 0.0

/-- The value of a plain scalar. -/
def plainValue (t : Text) : Value :=
  let (negative, body) := Reading.sign (t.filter (· != '_'))
  match kindOf t with
  | .bool => .bool (["yes", "true", "on"].any fun word => t.map Char.toLower == word.toList)
  | .null => .null
  | .int => .int (if negative then -(magnitude body : Int) else magnitude body)
  | .float =>
      let x := floatMagnitude (body.map Char.toLower)
      .float (if negative then -x else x)
  | _ => .text t

end Gherkin.Yaml
