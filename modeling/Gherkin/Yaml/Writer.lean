import Gherkin.Yaml.Scalar

/-! # Writing settings files

Mappings and lists are written in block form, the entries of a mapping in the order of their keys. A text
is plain if it reads back as that text, in single quotes if it only has printable ASCII characters, and
otherwise in double quotes with escapes. Long texts are folded. -/

namespace Gherkin.Yaml

/-- The column after which a text is folded. -/
def width : Nat := 80

/-- The indicators that no plain text starts with. -/
def leadingIndicators : Text := "#,[]\x7b\x7d&*!|>'\"%@\x60"

/-- A character of the printable part of ASCII, or a line feed. -/
def isSimple (c : Char) : Bool := c == '\n' || (' ' ≤ c && c ≤ '~')

/-- Whether a text holds something that has a meaning in block form: an indicator at its start, a colon
at the end of a word, or a number sign at the start of one. -/
def hasIndicator (t : Text) : Bool :=
  match t with
  | [] => false
  | c :: rest =>
      ['-', '-', '-'].isPrefixOf t || ['.', '.', '.'].isPrefixOf t || leadingIndicators.contains c ||
        (['-', '?', ':'].contains c && atEnd rest) || inside c rest
where
  /-- Whether a word ends in front of a text. -/
  atEnd : Text → Bool
    | [] => true
    | c :: _ => c == ' ' || c == '\t' || c == '\n' || c == '\r' || c.toNat == 0
  /-- Whether an indicator stands after a character. -/
  inside : Char → Text → Bool
    | _, [] => false
    | before, c :: rest => (c == ':' && atEnd rest) || (c == '#' && atEnd [before]) || inside c rest

/-- Whether one character is followed by another somewhere. -/
def hasPair (first second : Char) : Text → Bool
  | a :: b :: rest => (a == first && b == second) || hasPair first second (b :: rest)
  | _ => false

/-- Whether a text may stand in single quotes. -/
def allowsSingle (t : Text) : Bool := t.all isSimple && !hasPair ' ' '\n' t && !hasPair '\n' ' ' t

/-- Whether a text may stand without quotes. -/
def allowsPlain (t : Text) : Bool :=
  t.all isSimple && !t.contains '\n' && t.head? != some ' ' && t.getLast? != some ' ' &&
    !hasIndicator t && kindOf t == .text

/-- Where writing stands in a folded text: what was written in reverse, the column, and the indentation
of further lines. -/
structure Folding where
  done : Text
  column : Nat
  indent : Nat

namespace Folding

/-- Adds characters. -/
def add (t : Text) (f : Folding) : Folding := { f with done := t.reverse ++ f.done, column := f.column + t.length }

/-- Starts a new line. -/
def newline (f : Folding) : Folding :=
  { f with done := Text.spaces f.indent ++ '\n' :: f.done, column := f.indent }

/-- Starts a number of new lines, of which only the last one is indented. -/
def newlines (count : Nat) (f : Folding) : Folding :=
  newline { f with done := List.replicate (count - 1) '\n' ++ f.done }

end Folding

/-- Writes the words of a text: a single space past the width becomes a line break. `spaces` and `breaks`
count those that are still to be written, and `first` says that nothing was written yet. -/
def fold (quoteDoubled : Bool) (splits : Bool) : Nat → Nat → Bool → Folding → Text → Folding
  | spaces, breaks, _, f, [] => if breaks > 0 then f.newlines (breaks + 1) else f.add (Text.spaces spaces)
  | spaces, breaks, first, f, c :: rest =>
      if c = ' ' then fold quoteDoubled splits (spaces + 1) 0 first (if breaks > 0 then f.newlines (breaks + 1) else f) rest
      else if c = '\n' then fold quoteDoubled splits 0 (breaks + 1) first (f.add (Text.spaces spaces)) rest
      else
        let f := if breaks > 0 then f.newlines (breaks + 1)
          else if spaces = 1 && f.column > width && splits && !first then f.newline
          else f.add (Text.spaces spaces)
        let f := f.add (if quoteDoubled && c = '\'' then ['\'', '\''] else [c])
        fold quoteDoubled splits 0 0 false f rest

/-- The escape letter of a character. -/
def escapeLetter? (c : Char) : Option Char :=
  [(0, '0'), (7, 'a'), (8, 'b'), (9, 't'), (10, 'n'), (11, 'v'), (12, 'f'), (13, 'r'), (27, 'e'), (34, '"'),
    (92, '\\'), (0x85, 'N'), (0xA0, '_'), (0x2028, 'L'), (0x2029, 'P')].lookup c.toNat

/-- The capital hexadecimal digits of a number, filled up with zeros to a width. -/
def capitalHex (places n : Nat) : Text :=
  let digits := (Nat.toDigits 16 n).map Char.toUpper
  List.replicate (places - digits.length) '0' ++ digits

/-- A character in double quotes, if it needs an escape. -/
def escape? (c : Char) : Option Text :=
  match escapeLetter? c with
  | some letter => some ['\\', letter]
  | none =>
      if ' ' ≤ c && c ≤ '~' then none
      else if c.toNat ≤ 0xFF then some ('\\' :: 'x' :: capitalHex 2 c.toNat)
      else if c.toNat ≤ 0xFFFF then some ('\\' :: 'u' :: capitalHex 4 c.toNat)
      else some ('\\' :: 'U' :: capitalHex 8 c.toNat)

/-- Writes characters in double quotes. Plain characters wait in `run` until an escape, the end or a line
break comes. Past the width a line ends with a backslash at a space or after an escape; an escape may take
one column more. -/
def foldEscaped (splits : Bool) (length : Nat) : Nat → Text → Folding → Text → Folding
  | _, run, f, [] => f.add run
  | index, run, f, c :: rest =>
      let (run, f, own) := match escape? c with
        | some e => ([], (f.add run).add e, [])
        | none => (run, f, [c])
      if splits && 0 < index && index + 1 < length && (c = ' ' || run.isEmpty) &&
          f.column + run.length + own.length > width + 1 then
        let f := ((f.add run).add ['\\']).newline
        let f := if (own ++ rest).head? = some ' ' then f.add ['\\'] else f
        foldEscaped splits length (index + 1) own f rest
      else foldEscaped splits length (index + 1) (run ++ own) f rest

/-- Writes a text as a scalar after some columns; the lines after the first have an indentation. A key is
not folded. -/
def textScalar (isKey : Bool) (column indent : Nat) (t : Text) : Text :=
  let start (mark : Text) : Folding := ⟨mark.reverse, column + mark.length, indent⟩
  if allowsPlain t then (fold false (!isKey) 0 0 true (start []) t).done.reverse
  else if allowsSingle t && !(isKey && t.contains '\n') then
    ((fold true (!isKey) 0 0 true (start ['\'']) t).add ['\'']).done.reverse
  else ((foldEscaped (!isKey) t.length 0 [] (start ['"']) t).add ['"']).done.reverse

/-- A floating point number: a point is put in front of the exponent if there is none. -/
def floatScalar (x : Float) : Text :=
  match Binary.ofFloat x with
  | .notANumber => ".nan"
  | .infinite negative => if negative then "-.inf" else ".inf"
  | .finite .. =>
      let t := Shortest.text x
      if t.contains '.' then t
      else t.takeWhile (· != 'e') ++ ".0" ++ t.dropWhile (· != 'e')

/-- A value that is no collection, or is an empty one. -/
def scalar (column indent : Nat) : Value → Text
  | .null => "null"
  | .bool b => if b then "true" else "false"
  | .int n => Text.ofInt n
  | .float x => floatScalar x
  | .text t => textScalar false column indent t
  | .list _ => "[]"
  | .map _ => ['{', '}']

/-- Whether a character ends a line. -/
def endsLine (c : Char) : Bool := c == '\n' || c.toNat == 0x85 || c.toNat == 0x2028 || c.toNat == 0x2029

/-- Whether a key can stand on the line of its value: it is not empty, not long, and on one line. -/
def isSimpleKey (key : Text) : Bool := !key.isEmpty && key.length + 5 < 128 && !key.any endsLine

/-- A key with what introduces it, up to the colon. -/
def keyText (indent : Nat) (key : Text) : Text :=
  if isSimpleKey key then textScalar true indent (indent + 2) key
  else "? " ++ textScalar false (indent + 2) (indent + 2) key ++ '\n' :: Text.spaces indent

/-- Entries in the order of their keys. -/
def byKey (entries : List (Text × Value)) : List (Text × Value) :=
  entries.mergeSort fun a b => !(decide (b.1 < a.1))

mutual

/-- A value with the entries of all mappings in the order of their keys. -/
def sortKeys : Value → Value
  | .list items => .list (sortItems items)
  | .map entries => .map (byKey (sortEntries entries))
  | v => v

/-- The values of a list with their entries sorted. -/
def sortItems : List Value → List Value
  | [] => []
  | v :: rest => sortKeys v :: sortItems rest

/-- The values of entries with their own entries sorted. -/
def sortEntries : List (Text × Value) → List (Text × Value)
  | [] => []
  | (key, v) :: rest => (key, sortKeys v) :: sortEntries rest

end

mutual

/-- Writes a value after a colon or a dash. A collection starts on the same line if it is `inline`;
`column` is where the line stands, and `indent` is the column of the block around the value. -/
def writeAfter (column indent : Nat) (inline : Bool) : Value → Text
  | .list items =>
      if items.isEmpty then " []\n"
      else if inline then ' ' :: writeItems (indent + 2) true items
      else '\n' :: Text.spaces indent ++ writeItems indent true items
  | .map entries =>
      if entries.isEmpty then [' ', '{', '}', '\n']
      else if inline then ' ' :: writeEntries (indent + 2) true entries
      else '\n' :: Text.spaces (indent + 2) ++ writeEntries (indent + 2) true entries
  | v => ' ' :: scalar (column + 1) (indent + 2) v ++ ['\n']

/-- Writes the items of a list, each but the first after an indentation. -/
def writeItems (indent : Nat) (isFirst : Bool) : List Value → Text
  | [] => []
  | v :: rest =>
      (if isFirst then [] else Text.spaces indent) ++ '-' :: writeAfter (indent + 1) indent true v ++
        writeItems indent false rest

/-- Writes the entries of a mapping, each but the first after an indentation. -/
def writeEntries (indent : Nat) (isFirst : Bool) : List (Text × Value) → Text
  | [] => []
  | (key, v) :: rest =>
      let start := keyText indent key
      let column := if isSimpleKey key then indent + start.length else indent
      (if isFirst then [] else Text.spaces indent) ++ start ++
        ':' :: writeAfter (column + 1) indent (!isSimpleKey key) v ++ writeEntries indent false rest

end

/-- The settings file of a value. -/
def write (v : Value) : Text :=
  match sortKeys v with
  | .list (i :: rest) => writeItems 0 true (i :: rest)
  | .map (e :: rest) => writeEntries 0 true (e :: rest)
  | v => scalar 0 0 v ++ ['\n']

end Gherkin.Yaml
