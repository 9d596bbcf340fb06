import Gherkin.Regex.Parser

/-! # Matching regular expressions

Matching is by trying: the first alternative that lets the rest of the pattern match counts, and a repetition takes as
much, or if it is lazy as little, as the rest allows. A repetition whose body matched nothing is not repeated again.
What stands in an atomic group, in a look or in a possessive repetition is matched without regard to the rest; where it
does not match, groups hold what they held before. A group is filled where it ends, so within itself it does not count as
taken. At the end of the module, all matches in a text are replaced. -/

namespace Gherkin

/-- A regular expression with the text it was read from, the number of its groups, and what is matched. -/
structure Regex where
  pattern : Text
  groups : Nat
  root : Regex.Node
  deriving DecidableEq, Repr

namespace Regex

/-- A place in a text: the characters before it, last one first, the characters after it, and what the groups hold. -/
structure Cursor where
  before : Text
  rest : Text
  captures : List (Nat × Text)
  deriving DecidableEq, Repr

namespace Cursor

/-- The place after the next character. -/
def advance (c : Char) (rest : Text) (s : Cursor) : Cursor := ⟨c :: s.before, rest, s.captures⟩

/-- Keeps the text between two places as what a group holds. -/
def capture (s : Cursor) (number : Nat) (from_ : Cursor) : Cursor :=
  { s with captures := (number, from_.rest.take (from_.rest.length - s.rest.length)) :: s.captures }

/-- The place some characters before. -/
def back (s : Cursor) (n : Nat) : Option Cursor :=
  if n ≤ s.before.length then some ⟨s.before.drop n, (s.before.take n).reverse ++ s.rest, s.captures⟩ else none

/-- Whether the characters on the two sides differ in belonging to a class. -/
def isBorder (s : Cursor) (p : Char → Bool) : Bool := s.before.head?.any p != s.rest.head?.any p

/-- Whether the text has no characters. -/
def isBlank (s : Cursor) : Bool := s.before.isEmpty && s.rest.isEmpty

end Cursor

/-- Whether an anchor holds at a place. A text without characters has no places for a boundary, nor for its
opposite. -/
def Anchor.holds (anchor : Anchor) (s : Cursor) : Bool :=
  match anchor with
  | .start => s.before.isEmpty
  | .finish => s.rest.isEmpty
  | .lastLine => s.rest.isEmpty || s.rest == ['\n']
  | .lineStart => s.before.isEmpty || s.before.head? == some '\n'
  | .lineEnd => s.rest.isEmpty || s.rest.head? == some '\n'
  | .boundary ascii negated => !s.isBlank && s.isBorder (Category.word.holds ascii) != negated

/-- How to go on after a part of a pattern has matched. -/
abbrev Continuation := Cursor → Option Cursor

/-- The first of two results that is there. -/
def orElse (first : Option Cursor) (second : Unit → Option Cursor) : Option Cursor :=
  match first with
  | some s => some s
  | none => second ()

/-- Passes over characters that count as the same as those of a text. -/
def Cursor.passSame (rule : Rule) : Text → Cursor → Option Cursor
  | [], s => some s
  | c :: held, s => match s.rest with
    | d :: rest => if rule.same c d then passSame rule held (s.advance d rest) else none
    | [] => none

/-! ### Repetitions -/

/-- Whether a repetition may go on after a number of rounds that is still allowed. -/
def mayGoOn : Option Nat → Bool
  | some 0 => false
  | _ => true

section Rounds

variable (body : Cursor → Continuation → Option Cursor)

/-- Matches a body a number of times. -/
def repeatTimes : Nat → Cursor → Continuation → Option Cursor
  | 0, s, k => k s
  | n + 1, s, k => body s fun s => repeatTimes n s k

/-- Matches a body as often as it takes, `fuel` bounding the rounds by the length of the text. -/
def repeatMore (lazy : Bool) (k : Continuation) : Nat → Option Nat → Cursor → Option Cursor
  | 0, _, s => k s
  | fuel + 1, most, s =>
      let again (_ : Unit) : Option Cursor :=
        if mayGoOn most then
          body s fun t =>
            if t.rest.length < s.rest.length then repeatMore lazy k fuel (most.map (· - 1)) t else k t
        else none
      if lazy then orElse (k s) again else orElse (again ()) fun _ => k s

/-- Matches a body a number of times, without taking a round back. -/
def commitTimes : Nat → Cursor → Option Cursor
  | 0, s => some s
  | n + 1, s => match body s some with
    | some t => commitTimes n t
    | none => none

/-- Matches a body as often as it can, without taking a round back. -/
def commitMore : Nat → Option Nat → Cursor → Cursor
  | 0, _, s => s
  | fuel + 1, most, s =>
      if mayGoOn most then
        match body s some with
        | some t => if t.rest.length < s.rest.length then commitMore fuel (most.map (· - 1)) t else t
        | none => s
      else s

/-- Where a possessive repetition leads. -/
def commit (least : Nat) (most : Option Nat) (s : Cursor) : Option Cursor :=
  (commitTimes body least s).map fun t => commitMore body (t.rest.length + 1) (most.map (· - least)) t

end Rounds

/-! ### Patterns -/

/-- The place where a look matches its pattern: the place itself, or one as far before it as the pattern is wide. -/
def Cursor.lookFrom (s : Cursor) : Option Width → Option Cursor
  | none => some s
  | some width => s.back width.1

/-- Matches a pattern at a place and goes on from where it ends. -/
def Node.run : Node → Cursor → Continuation → Option Cursor
  | .empty, s, k => k s
  | .any lines, s, k => match s.rest with
      | c :: rest => if c = '\n' && !lines then none else k (s.advance c rest)
      | [] => none
  | .oneOf rule negated items, s, k => match s.rest with
      | c :: rest => if classHolds rule negated items c then k (s.advance c rest) else none
      | [] => none
  | .anchor place, s, k => if place.holds s then k s else none
  | .reference rule number _, s, k => match s.captures.lookup number with
      | some held => match s.passSame rule held with
        | some t => k t
        | none => none
      | none => none
  | .seq first second, s, k => first.run s fun t => second.run t k
  | .alt first second, s, k => orElse (first.run s k) fun _ => second.run s k
  | .group number body, s, k => body.run s fun t => k (t.capture number s)
  | .atomic body, s, k => match body.run s some with
      | some t => k t
      | none => none
  | .look behind negated body, s, k =>
      match (s.lookFrom behind).bind fun place => body.run place some with
      | some t => if negated then none else k { s with captures := t.captures }
      | none => if negated then k s else none
  | .conditional number yes no, s, k =>
      if (s.captures.lookup number).isSome then yes.run s k else no.run s k
  | .loop least most style body, s, k => match style with
      | .possessive => match commit (fun s k => body.run s k) least most s with
        | some t => k t
        | none => none
      | style =>
          repeatTimes (fun s k => body.run s k) least s fun t =>
            repeatMore (fun s k => body.run s k) (style == .lazy) k (t.rest.length + 1) (most.map (· - least)) t

/-- Looks for a match from a place on, behind the characters before it, last one first. -/
def searchFrom (r : Regex) : Text → Text → Option Cursor
  | before, [] => r.root.run ⟨before, [], []⟩ some
  | before, c :: rest =>
      match r.root.run ⟨before, c :: rest, []⟩ some with
      | some s => some s
      | none => searchFrom r (c :: before) rest

/-- The texts of the groups of the first match in a text, in order; a group that took no part has none. -/
def search (r : Regex) (t : Text) : Option (List (Option Text)) :=
  (r.searchFrom [] t).map fun s => (List.range r.groups).map fun i => s.captures.lookup (i + 1)

/-! ### Compilation -/

section Compilation

variable [CharacterNames]

/-- Reads a regular expression under some flags. -/
def compileWith (flags : List Flag) (pattern : Text) : Except Error Regex :=
  match (Reader.start flags).run (tokens pattern) with
  | .error (cause, position) => .error ⟨cause, position, pattern⟩
  | .ok r => match r.finish with
    | .error (cause, position) => .error ⟨cause, position, pattern⟩
    | .ok b => .ok ⟨pattern, b.groups, b.frame.node⟩

/-- Reads a regular expression. -/
def compile (pattern : Text) : Except Error Regex := compileWith [] pattern

/-- The regular expression without regard to letter case. -/
def anyCase (r : Regex) : Regex :=
  match compileWith [.ignoreCase] r.pattern with
  | .ok other => other
  | .error _ => r

end Compilation

/-- The characters that are escaped where they are meant literally. -/
def specialCharacters : Text := "()[]\x7b\x7d?*+-|^$\\.&~# \t\n\r\x0b\x0c"

/-- A text as a pattern that matches it literally. -/
def escapeLiteral (t : Text) : Text :=
  t.flatMap fun c => if specialCharacters.contains c then ['\\', c] else [c]

/-! ### Replacement -/

section Replacement

variable (r : Regex) (value : (Nat → Option Text) → Text)

/-- Replaces matches in what follows some characters, given last one first; `skip` characters belong to the last match.
A match has to take a character at least. The search goes on behind each match, and what was put in is not looked at
again. -/
def replaceFrom : Text → Nat → Text → Text
  | _, _, [] => []
  | before, skip + 1, c :: rest => replaceFrom (c :: before) skip rest
  | before, 0, c :: rest =>
      match r.root.run ⟨before, c :: rest, []⟩ some with
      | some s =>
          value (fun number => s.captures.lookup number) ++
            replaceFrom (c :: before) (rest.length - s.rest.length) rest
      | none => c :: replaceFrom (c :: before) 0 rest

/-- Replaces every match by what is given for the texts of its groups, in one pass from left to right. -/
def replace (t : Text) : Text := r.replaceFrom value [] 0 t

end Replacement

end Regex

end Gherkin
