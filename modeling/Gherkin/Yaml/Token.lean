import Gherkin.Yaml.Scalar

/-! # Tokens of settings files

A settings file is cut into scalars and punctuation, each with its column. Comments and blank lines are
left out. A scalar with a colon after it is a key. The cutting knows the columns of the block collections
around a token, because a plain scalar goes on in the lines that are indented further than these. -/

namespace Gherkin.Yaml

/-- Why a text is no settings file: its characters cannot be cut into tokens, or the tokens make no
sense together. -/
inductive Error where
  | badToken
  | badStructure
  deriving DecidableEq, Repr

/-- What a token is. -/
inductive TokenKind where
  | scalar (value : Value) (isKey : Bool)
  | entry
  | question
  | colon
  | openList
  | closeList
  | openMap
  | closeMap
  | comma
  | start

/-- A token: what it is, its column, and whether a nested block may start with it. -/
structure Token where
  kind : TokenKind
  column : Nat
  opensBlock : Bool

/-- Whether a text is at the end of a word. -/
def atWordEnd : Text → Bool
  | [] => true
  | c :: _ => c == ' ' || c == '\t' || c == '\n'

/-- Whether a character is punctuation inside brackets. -/
def isBracket (c : Char) : Bool := [',', '[', ']', '{', '}'].contains c

/-- Whether a plain scalar ends in front of a text, whatever stands before it. -/
def endsPlain (inBrackets : Bool) : Text → Bool
  | [] => true
  | c :: rest =>
      c == '\t' || (c == ':' && (atWordEnd rest || (inBrackets && rest.head?.any isBracket))) ||
        (inBrackets && (isBracket c || c == '?'))

/-- Whether a line is one of three dashes or dots, which separates documents. -/
def isSeparator (t : Text) : Bool :=
  (['-', '-', '-'].isPrefixOf t || ['.', '.', '.'].isPrefixOf t) && atWordEnd (t.drop 3)

/-- White space inside a scalar that may still be folded: the blanks of the line in reverse, the line
breaks, and whether the first of these was escaped. -/
structure Gap where
  blanks : Text
  breaks : Nat
  joined : Bool
  deriving DecidableEq, Repr

namespace Gap

/-- No white space. -/
def none : Gap := ⟨[], 0, false⟩

/-- What is written for white space: a line break becomes a space, or nothing if it was escaped, and of
several the first is dropped. -/
def text (g : Gap) : Text :=
  if g.breaks = 0 then g.blanks
  else if g.breaks = 1 then (if g.joined then [] else [' '])
  else List.replicate (g.breaks - 1) '\n'

/-- Adds a blank or a line break; blanks at the start of a line do not count. -/
def add (c : Char) (g : Gap) : Gap :=
  if c = '\n' then { g with breaks := g.breaks + 1 }
  else if g.breaks = 0 then { g with blanks := c :: g.blanks }
  else g

end Gap

/-- Reads a plain scalar to its end: its text, and how many characters it takes. `done` holds its
characters in reverse, `count` their number with folded white space, `gap` the white space after them and
`gapLength` its length. A line goes on with the scalar if it is indented to the column `least`. -/
def plainRun (inBrackets : Bool) (least : Nat) (done : Text) (count : Nat) (gap : Gap) (gapLength column : Nat) :
    Text → Text × Nat
  | [] => (done.reverse, count)
  | c :: rest =>
      if c = ' ' || c = '\n' then
        plainRun inBrackets least done count (gap.add c) (gapLength + 1) (if c = '\n' then 0 else column + 1) rest
      else if endsPlain inBrackets (c :: rest) || (c = '#' && gapLength > 0) ||
          (gap.breaks > 0 && ((!inBrackets && column < least) || (column = 0 && isSeparator (c :: rest)))) then
        (done.reverse, count)
      else
        plainRun inBrackets least (c :: (gap.text ++ done)) (count + gapLength + 1) .none 0 (column + 1) rest

/-- Whether a plain scalar may start with a text. -/
def startsPlain (inBrackets : Bool) : Text → Bool
  | [] => false
  | c :: rest =>
      if c = '-' then !atWordEnd rest
      else if c = '?' || c = ':' then !inBrackets && !atWordEnd rest
      else !(" \t\n,[]\x7b\x7d#&*!|>'\"%@\x60".toList.contains c)

/-- The characters that stand for themselves or others after a backslash. -/
def escapes : List (Char × Nat) := [
  ('0', 0), ('a', 7), ('b', 8), ('t', 9), ('\t', 9), ('n', 10), ('v', 11), ('f', 12), ('r', 13), ('e', 27),
  (' ', 32), ('"', 34), ('/', 47), ('\\', 92), ('N', 0x85), ('_', 0xA0), ('L', 0x2028), ('P', 0x2029)]

/-- The number of hexadecimal digits after an escape letter. -/
def codeDigits : List (Char × Nat) := [('x', 2), ('u', 4), ('U', 8)]

/-- How far a quoted scalar has been read: its characters in reverse, the white space that may still be
folded, whether a backslash was just read, the digits that a code still needs with its value so far, and
the number of characters read. -/
structure Quoting where
  done : Text
  gap : Gap
  escaped : Bool
  missing : Nat
  code : Nat
  count : Nat

namespace Quoting

/-- The state after the opening quote. -/
def start : Quoting := ⟨[], .none, false, 0, 0, 1⟩

/-- Writes out the white space. -/
def settle (q : Quoting) : Quoting := { q with done := q.gap.text ++ q.done, gap := .none }

/-- Adds a character. -/
def push (c : Char) (q : Quoting) : Quoting := { q.settle with done := c :: q.settle.done }

/-- Reads a character after a backslash. -/
def unescape (c : Char) (q : Quoting) : Option Quoting :=
  let q := { q with escaped := false }
  if c = '\n' then some { q.settle with gap := ⟨[], 1, true⟩ }
  else match codeDigits.lookup c with
    | some digits => some { q with missing := digits, code := 0 }
    | none => (escapes.lookup c).map fun code => q.push (Char.ofNat code)

/-- Reads a digit of a code. -/
def digit (c : Char) (q : Quoting) : Option Quoting :=
  (Json.hexValue? c).map fun d =>
    let q := { q with missing := q.missing - 1, code := 16 * q.code + d }
    if q.missing = 0 then q.push (Char.ofNat q.code) else q

/-- Reads a blank or another character that stands for itself. -/
def plain (c : Char) (q : Quoting) : Quoting :=
  if c = '\n' || c = ' ' || c = '\t' then { q with gap := q.gap.add c } else q.push c

end Quoting

/-- Reads a quoted scalar after its opening quote: its text, and how many characters it takes with its
quotes. -/
def quotedRun (mark : Char) : Quoting → Text → Option (Text × Nat)
  | _, [] => none
  | q, c :: rest =>
      let q := { q with count := q.count + 1 }
      if q.missing > 0 then (q.digit c).bind fun q => quotedRun mark q rest
      else if q.escaped then
        if mark = '\'' then
          if c = '\'' then quotedRun mark { q.push c with escaped := false } rest
          else some (q.settle.done.reverse, q.count - 1)
        else (q.unescape c).bind fun q => quotedRun mark q rest
      else if c = mark then
        if mark = '\'' then
          if rest.isEmpty then some (q.settle.done.reverse, q.count)
          else quotedRun mark { q with escaped := true } rest
        else some (q.settle.done.reverse, q.count)
      else if c = '\\' && mark = '"' then quotedRun mark { q with escaped := true } rest
      else quotedRun mark (q.plain c) rest

/-- The number of characters up to and with the colon that makes a scalar a key, perhaps after spaces. -/
def keyColon? (inBrackets : Bool) (t : Text) : Option Nat :=
  match t.dropWhile (· == ' ') with
  | ':' :: rest =>
      if inBrackets || atWordEnd rest then some ((t.takeWhile (· == ' ')).length + 1) else none
  | _ => none

/-- Where the cutting stands: the column, the number of open brackets, whether a nested block may start
here, and the columns of the block collections around, from the innermost. -/
structure Place where
  column : Nat
  depth : Nat
  opensBlock : Bool
  indents : List Nat

namespace Place

/-- The start of a text. -/
def start : Place := ⟨0, 0, true, []⟩

/-- The start of the next line. -/
def nextLine (p : Place) : Place := { p with column := 0, opensBlock := p.opensBlock || p.depth == 0 }

/-- The place after one character of a line. -/
def next (p : Place) : Place := { p with column := p.column + 1 }

/-- Whether the place is inside brackets. -/
def inBrackets (p : Place) : Bool := p.depth > 0

/-- Leaves the block collections to the right of the column. -/
def settle (p : Place) : Place :=
  if p.inBrackets then p else { p with indents := p.indents.dropWhile (· > p.column) }

/-- Enters a block collection at the column, unless one stands there. -/
def enter (p : Place) : Place :=
  if p.indents.head?.any (· ≥ p.column) then p else { p with indents := p.column :: p.indents }

/-- The column to which a line must be indented to go on with a plain scalar. -/
def least (p : Place) : Nat := p.indents.head?.elim 0 (· + 1)

/-- Whether only a key may stand here, as in a line at the column of a block collection. -/
def needsKey (p : Place) : Bool := !p.inBrackets && p.opensBlock && p.indents.head? == some p.column

end Place

/-- The scalar that a text starts with, and how many characters it takes. -/
def scalarAt (p : Place) (c : Char) (rest : Text) : Except Error (Value × Nat) :=
  if c = '"' || c = '\'' then
    match quotedRun c .start rest with
    | some (t, count) => .ok (.text t, count)
    | none => .error .badToken
  else if startsPlain p.inBrackets (c :: rest) then
    let (run, count) := plainRun p.inBrackets p.least [c] 1 .none 0 (p.column + 1) rest
    .ok (plainValue run, count)
  else .error .badToken

/-- The scalar that a text starts with as a token, how many characters it takes, and the place after the
first of these. A key takes its colon; it is written on one line, where a block may start. -/
def scalarToken (p : Place) (c : Char) (rest : Text) : Except Error (Token × Nat × Place) :=
  match scalarAt p c rest with
  | .error e => .error e
  | .ok (value, count) =>
      let after : Place := { p.next with opensBlock := false }
      match keyColon? p.inBrackets (rest.drop (count - 1)) with
      | some colon =>
          if !p.inBrackets && (!p.opensBlock || (rest.take (count - 1)).contains '\n') then .error .badToken
          else
            let after := if p.inBrackets then after else { after with indents := p.enter.indents }
            .ok (⟨.scalar value true, p.column, p.opensBlock⟩, count + colon, after)
      | none =>
          if p.needsKey then .error .badToken
          else .ok (⟨.scalar value false, p.column, p.opensBlock⟩, count, after)

/-- The punctuation that a text starts with. -/
def punctuation? (depth : Nat) (c : Char) (rest : Text) : Option TokenKind :=
  match c with
  | '[' => some .openList
  | ']' => some .closeList
  | '{' => some .openMap
  | '}' => some .closeMap
  | ',' => if depth > 0 then some .comma else none
  | '-' => if atWordEnd rest then some .entry else none
  | '?' => if depth > 0 || atWordEnd rest then some .question else none
  | ':' => if depth > 0 || atWordEnd rest then some .colon else none
  | _ => none

/-- The place after a punctuation token, if it may stand at a place. -/
def afterPunctuation (p : Place) (kind : TokenKind) : Except Error Place :=
  match kind with
  | .openList | .openMap =>
      if p.needsKey then .error .badToken
      else .ok { p.next with depth := p.depth + 1, opensBlock := true }
  | .closeList | .closeMap => .ok { p.next with depth := p.depth - 1, opensBlock := false }
  | .comma => .ok { p.next with opensBlock := true }
  | .entry | .question | .colon =>
      if p.inBrackets then .ok { p.next with opensBlock := true }
      else if p.opensBlock then .ok { p.next with indents := p.enter.indents }
      else .error .badToken
  | _ => .ok { p.next with opensBlock := false }

/-- Cuts a text; `skip` characters belong to the last token or to a comment. -/
def tokensFrom : Place → Nat → Text → Except Error (List Token)
  | _, _, [] => .ok []
  | p, skip + 1, c :: rest => tokensFrom (if c = '\n' then { p with column := 0 } else p.next) skip rest
  | p, 0, c :: rest =>
      if c = '\n' then tokensFrom p.nextLine 0 rest
      else if c = ' ' then tokensFrom p.next 0 rest
      else if c = '#' then tokensFrom p.next (rest.takeWhile (· != '\n')).length rest
      else if p.column = 0 && p.depth = 0 && ['-', '-'].isPrefixOf rest && c = '-' && atWordEnd (rest.drop 2) then
        (tokensFrom { p with column := 1, indents := [] } 2 rest).map (⟨.start, 0, p.opensBlock⟩ :: ·)
      else
        let p := p.settle
        match punctuation? p.depth c rest with
        | some kind => match afterPunctuation p kind with
          | .error e => .error e
          | .ok after => (tokensFrom after 0 rest).map (⟨kind, p.column, p.opensBlock⟩ :: ·)
        | none => match scalarToken p c rest with
          | .error e => .error e
          | .ok (token, count, after) => (tokensFrom after (count - 1) rest).map (token :: ·)

/-- The tokens of a text. A byte order mark in front of it does not count. -/
def tokens (t : Text) : Except Error (List Token) :=
  tokensFrom .start 0 (if t.head? = some '\uFEFF' then t.tail else t)

end Gherkin.Yaml
