import Gherkin.Value.JsonToken

/-! # Reading and writing JSON

Reading is one pass over the tokens with the containers that are still open. Writing uses ASCII only
and an indentation of two spaces. -/

namespace Gherkin.Json

/-- A container that is still open: a list with its items in reverse, or a mapping with its entries and
the key whose value is being read. -/
inductive Frame where
  | list (done : List Value)
  | map (done : Entries Text Value) (key : Text)

/-- What may come next. -/
inductive Expect where
  | value
  | firstItem
  | firstKey (done : Entries Text Value)
  | key (done : Entries Text Value)
  | colon (done : Entries Text Value) (key : Text)
  | separator (value : Value)

/-- Reads one token: the containers that are open after it, and what may follow. -/
def step (frames : List Frame) : Expect → Token → Option (List Frame × Expect)
  | .value, .scalar v => some (frames, .separator v)
  | .value, .openList => some (.list [] :: frames, .firstItem)
  | .value, .openMap => some (frames, .firstKey [])
  | .firstItem, .scalar v => some (frames, .separator v)
  | .firstItem, .openList => some (.list [] :: frames, .firstItem)
  | .firstItem, .openMap => some (frames, .firstKey [])
  | .firstItem, .closeList =>
      match frames with
      | .list _ :: outer => some (outer, .separator (.list []))
      | _ => none
  | .firstKey _, .closeMap => some (frames, .separator (.map []))
  | .firstKey done, .scalar (.text key) => some (frames, .colon done key)
  | .key done, .scalar (.text key) => some (frames, .colon done key)
  | .colon done key, .colon => some (.map done key :: frames, .value)
  | .separator v, .comma =>
      match frames with
      | .list done :: outer => some (.list (v :: done) :: outer, .value)
      | .map done key :: outer => some (outer, .key (done.store key v))
      | [] => none
  | .separator v, .closeList =>
      match frames with
      | .list done :: outer => some (outer, .separator (.list (v :: done).reverse))
      | _ => none
  | .separator v, .closeMap =>
      match frames with
      | .map done key :: outer => some (outer, .separator (.map (done.store key v)))
      | _ => none
  | _, _ => none

/-- Reads tokens up to the end of the value. -/
def readFrom : List Frame → Expect → List Token → Option Value
  | [], .separator v, [] => some v
  | _, _, [] => none
  | frames, expect, token :: rest =>
      match step frames expect token with
      | some (frames, expect) => readFrom frames expect rest
      | none => none

/-- The value that a JSON text writes. -/
def read? (t : Text) : Option Value := (tokens? t).bind (readFrom [] .value)

/-- A character that is not ASCII, as one escape or as the two escapes of its halves. -/
def unitEscapes (n : Nat) : Text :=
  let unit (u : Nat) : Text := '\\' :: 'u' :: Text.hexadecimal 4 u
  if n < 0x10000 then unit n
  else unit (0xD800 + (n - 0x10000) / 0x400) ++ unit (0xDC00 + (n - 0x10000) % 0x400)

/-- A character inside a JSON string. -/
def escape (c : Char) : Text :=
  if c = '"' then ['\\', '"']
  else if c = '\\' then ['\\', '\\']
  else if c = '\n' then ['\\', 'n']
  else if c = '\r' then ['\\', 'r']
  else if c = '\t' then ['\\', 't']
  else if c = '\x08' then ['\\', 'b']
  else if c = '\x0c' then ['\\', 'f']
  else if c.toNat < 32 || 126 < c.toNat then unitEscapes c.toNat
  else [c]

/-- A JSON string. -/
def string (t : Text) : Text := '"' :: t.flatMap escape ++ ['"']

/-- A floating point number; those that are not finite have names. -/
def float (x : Float) : Text :=
  match Binary.ofFloat x with
  | .notANumber => "NaN"
  | .infinite negative => if negative then "-Infinity" else "Infinity"
  | _ => Shortest.text x

/-- How the parts of a container are set apart: `indent` is none for one line, or the column of the
container in spaces. -/
structure Layout where
  indent : Option Nat
  comma : Text
  colon : Text

namespace Layout

/-- One line without blanks. -/
def compact : Layout := ⟨none, ",", ":"⟩

/-- One line, with a blank after commas and colons. -/
def line : Layout := ⟨none, ", ", ": "⟩

/-- One part a line, two spaces deeper than its container. -/
def block : Layout := ⟨some 0, ",", ": "⟩

/-- The layout one level deeper. -/
def deeper (l : Layout) : Layout := { l with indent := l.indent.map (· + 2) }

/-- The start of a new line, or nothing on one line. -/
def newline (l : Layout) : Text :=
  match l.indent with
  | some n => '\n' :: Text.spaces n
  | none => []

end Layout

mutual

/-- Writes a value. -/
def write (l : Layout) : Value → Text
  | .null => "null"
  | .bool b => if b then "true" else "false"
  | .int n => Text.ofInt n
  | .float x => float x
  | .text t => string t
  | .list [] => "[]"
  | .list (v :: rest) =>
      "[" ++ l.deeper.newline ++ write l.deeper v ++ writeItems l.deeper rest ++ l.newline ++ "]"
  | .map [] => ['{', '}']
  | .map ((k, v) :: rest) =>
      '{' :: l.deeper.newline ++ string k ++ l.colon ++ write l.deeper v ++ writeEntries l.deeper rest ++
        l.newline ++ ['}']

/-- Writes the further items of a list. -/
def writeItems (l : Layout) : List Value → Text
  | [] => []
  | v :: rest => l.comma ++ l.newline ++ write l v ++ writeItems l rest

/-- Writes the further entries of a mapping. -/
def writeEntries (l : Layout) : List (Text × Value) → Text
  | [] => []
  | (k, v) :: rest => l.comma ++ l.newline ++ string k ++ l.colon ++ write l v ++ writeEntries l rest

end

end Gherkin.Json
