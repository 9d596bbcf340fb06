import Gherkin.Text.Blank
import Gherkin.Text.Case
import Gherkin.Text.Word

/-! # Regular expressions

The patterns that step texts are matched against: characters and classes, conditions on a place, references to what a
group holds, sequences, alternatives, groups of several kinds, conditions on a group, and repetition. Where the flags of
a pattern change what one of these means, it carries what they ask for. The module also says which characters are the
same when the case of letters does not count. -/

namespace Gherkin.Regex

/-- A named class of characters. -/
inductive Category where
  | digit
  | blank
  | word
  deriving DecidableEq, Repr

/-- Whether a character belongs to a named class, of all scripts or of ASCII only. -/
def Category.holds (ascii : Bool) : Category → Char → Bool
  | .digit, c => if ascii then c.isDigit else isDigit c
  | .blank, c => if ascii then c == ' ' || ('\t' ≤ c && c ≤ '\r') else isBlank c
  | .word, c => if ascii then c.isAlphanum || c == '_' else isWord c

/-- A member of a bracketed class: a code point, a range of them, or a named class or its complement. -/
inductive ClassItem where
  | one (code : Nat)
  | range (first last : Nat)
  | category (kind : Category) (negated : Bool)
  deriving DecidableEq, Repr

/-- How characters are compared: whether the case of letters counts, and whether letters, digits and white space are
those of ASCII only. -/
structure Rule where
  ignoreCase : Bool
  ascii : Bool
  deriving DecidableEq, Repr

/-- A condition on a place in the text. -/
inductive Anchor where
  | start
  | finish
  | lastLine
  | lineStart
  | lineEnd
  | boundary (ascii negated : Bool)
  deriving DecidableEq, Repr

/-- How a repetition goes on: as often as it can, as seldom as it can, or as often as it can without taking anything
back. -/
inductive Style where
  | greedy
  | lazy
  | possessive
  deriving DecidableEq, Repr

/-- The least number of characters that a pattern takes, and the largest one if there is one. -/
abbrev Width := Nat × Option Nat

/-- A regular expression. A group keeps the text that it last matched under its number, a reference matches that text
again, and it knows how wide the group is. An atomic pattern takes nothing back. A look matches a pattern in front of a
place, or behind it if it has a width, without taking it. A conditional goes on with its first part if a group holds a
text, and with the second one otherwise. A repetition has a least count and perhaps a largest one. -/
inductive Node where
  | empty
  | any (lines : Bool)
  | oneOf (rule : Rule) (negated : Bool) (items : List ClassItem)
  | anchor (anchor : Anchor)
  | reference (rule : Rule) (number : Nat) (width : Width)
  | seq (first second : Node)
  | alt (first second : Node)
  | group (number : Nat) (body : Node)
  | atomic (body : Node)
  | look (behind : Option Width) (negated : Bool) (body : Node)
  | conditional (number : Nat) (yes no : Node)
  | loop (least : Nat) (most : Option Nat) (style : Style) (body : Node)
  deriving DecidableEq, Repr

/-- One character, by its code point. -/
def Node.code (rule : Rule) (n : Nat) : Node := .oneOf rule false [.one n]

/-- One character, where the case of letters counts. -/
def Node.char (c : Char) : Node := .code ⟨false, false⟩ c.toNat

/-! ### Widths -/

namespace Width

/-- The width of two patterns in a row. -/
def add (first second : Width) : Width := (first.1 + second.1, first.2.bind fun m => second.2.map (m + ·))

/-- The width of either of two patterns. -/
def either (first second : Width) : Width := (min first.1 second.1, first.2.bind fun m => second.2.map (max m ·))

/-- The width of a repeated pattern. -/
def times (body : Width) (least : Nat) (most : Option Nat) : Width :=
  (body.1 * least, if body.2 = some 0 || most = some 0 then some 0 else body.2.bind fun m => most.map (m * ·))

end Width

/-- How many characters a pattern takes. -/
def Node.width : Node → Width
  | .empty | .anchor _ | .look .. => (0, some 0)
  | .any _ | .oneOf .. => (1, some 1)
  | .reference _ _ width => width
  | .seq first second => first.width.add second.width
  | .alt first second => first.width.either second.width
  | .group _ body | .atomic body => body.width
  | .conditional _ yes no => yes.width.either no.width
  | .loop least most _ body => body.width.times least most

/-! ### Letter case -/

/-- The code points of small letters that count as one letter although none is the capital of another. -/
def caseTwins : List (List Nat) :=
  [[0x69, 0x131], [0x73, 0x17F], [0xB5, 0x3BC], [0x345, 0x3B9, 0x1FBE], [0x390, 0x1FD3], [0x3B0, 0x1FE3],
    [0x3B2, 0x3D0], [0x3B5, 0x3F5], [0x3B8, 0x3D1], [0x3BA, 0x3F0], [0x3C0, 0x3D6], [0x3C1, 0x3F1],
    [0x3C2, 0x3C3], [0x3C6, 0x3D5], [0x432, 0x1C80], [0x434, 0x1C81], [0x43E, 0x1C82], [0x441, 0x1C83],
    [0x442, 0x1C84, 0x1C85], [0x44A, 0x1C86], [0x463, 0x1C87], [0x1C88, 0xA64B], [0x1E61, 0x1E9B],
    [0xFB05, 0xFB06]]

/-- The small letters that count as the same as a small letter, itself among them. -/
def twinsOf (c : Char) : List Char :=
  match caseTwins.find? (·.contains c.toNat) with
  | some twins => twins.map Char.ofNat
  | none => [c]

/-- The characters whose small form is a given one. -/
def withSmallForm (c : Char) : List Char :=
  let above := lowerRuns.filterMap fun run => (run.source? c.toNat).map Char.ofNat
  let ascii := if 'a' ≤ c && c ≤ 'z' then [c.toUpper] else []
  c :: (ascii ++ above)

namespace Rule

variable (rule : Rule)

/-- The small form of a character. -/
def fold (c : Char) : Char := if rule.ascii then c.toLower else toSmall c

/-- The characters that count as the same as a small one when the case of letters does not count. -/
def variants (c : Char) : List Char :=
  if rule.ascii then if 'a' ≤ c && c ≤ 'z' then [c, c.toUpper] else [c]
  else (twinsOf c).flatMap withSmallForm

/-- Whether two characters count as the same when one is compared with what a group holds. -/
def same (c d : Char) : Bool := if rule.ignoreCase then rule.fold c == rule.fold d else c == d

end Rule

/-- Whether a member of a class holds a character. -/
def ClassItem.holds (ascii : Bool) (item : ClassItem) (c : Char) : Bool :=
  match item with
  | .one code => c.toNat == code
  | .range first last => first ≤ c.toNat && c.toNat ≤ last
  | .category kind negated => kind.holds ascii c != negated

/-- Whether a member of a class holds a small character or one that counts as the same. -/
def ClassItem.holdsSmall (rule : Rule) (item : ClassItem) (c : Char) : Bool :=
  match item with
  | .category .. => item.holds rule.ascii c
  | _ => (rule.variants c).any (item.holds rule.ascii)

/-- Whether a class holds a character. A code point above the first 65536 stands only for itself in a class of several
members, so a capital letter there holds no character when the case of letters does not count. -/
def classHolds (rule : Rule) (negated : Bool) (items : List ClassItem) (c : Char) : Bool :=
  let among (item : ClassItem) : Bool :=
    match item with
    | .one code => if 0xFFFF < code && items.length != 1 then (rule.fold c).toNat == code
        else item.holdsSmall rule (rule.fold c)
    | _ => item.holdsSmall rule (rule.fold c)
  (items.any fun item => if rule.ignoreCase then among item else item.holds rule.ascii c) != negated

end Gherkin.Regex
