import Gherkin.Regex.Token
import Gherkin.Text.Identifier

/-! # Reading the tokens of regular expressions

A token is read in the construct that it belongs to, which says what has been read of it. Reading a token gives the next
construct and the actions that build the pattern; it does not look at what has been built, apart from whether white
space and comments are left out. A construct that only ends where a token does not belong to it is settled first. -/

namespace Gherkin.Regex

/-! ### Flags -/

/-- A flag of a pattern. -/
inductive Flag where
  | ignoreCase
  | multiLine
  | dotAll
  | verbose
  | ascii
  | unicode
  | template
  deriving DecidableEq, Repr

namespace Flag

/-- The flag of a letter. -/
def ofLetter? : Char → Option Flag
  | 'i' => some .ignoreCase
  | 'm' => some .multiLine
  | 's' => some .dotAll
  | 'x' => some .verbose
  | 'a' => some .ascii
  | 'u' => some .unicode
  | 't' => some .template
  | _ => none

/-- Whether a flag says which letters, digits and white space count. -/
def isMode (flag : Flag) : Bool := flag == .ascii || flag == .unicode

/-- The flags in a group that adds and removes some. A mode that is added takes the place of the one before. -/
def combine (flags added removed : List Flag) : List Flag :=
  (added ++ if added.any isMode then flags.filter (!·.isMode) else flags).filter fun flag => !removed.contains flag

/-- How characters are compared under flags. -/
def rule (flags : List Flag) : Rule := ⟨flags.contains .ignoreCase, flags.contains .ascii⟩

end Flag

/-! ### Actions -/

/-- A part of a pattern that has no parts. -/
inductive Leaf where
  | any
  | oneOf (negated : Bool) (items : List ClassItem)
  | lineStart
  | lineEnd
  | start
  | finish
  | boundary (negated : Bool)
  deriving DecidableEq, Repr

namespace Leaf

/-- A leaf under flags. -/
def node (flags : List Flag) : Leaf → Node
  | .any => .any (flags.contains .dotAll)
  | .oneOf negated items => .oneOf (Flag.rule flags) negated items
  | .lineStart => .anchor (if flags.contains .multiLine then .lineStart else .start)
  | .lineEnd => .anchor (if flags.contains .multiLine then .lineEnd else .lastLine)
  | .start => .anchor .start
  | .finish => .anchor .finish
  | .boundary negated => .anchor (.boundary (flags.contains .ascii) negated)

/-- Whether a leaf only tests its place. -/
def isAnchor : Leaf → Bool
  | .any | .oneOf .. => false
  | _ => true

/-- One character, by its code point. -/
def code (n : Nat) : Leaf := .oneOf false [.one n]

/-- One character. -/
def char (c : Char) : Leaf := .code c.toNat

end Leaf

/-- What a parenthesis opens. -/
inductive Opening where
  | capture (name : Option Text)
  | plain (added removed : List Flag)
  | atomic
  | look (behind negated : Bool)
  | conditional (target : Text)
  deriving DecidableEq, Repr

/-- What reading asks for: an item, a reference to a group by number or name, a check that the last item can be
repeated, its repetition, another alternative, the start or the end of a group, or flags for the whole pattern. A length
says how far in front of the place that is reached something started. -/
inductive Action where
  | leaf (leaf : Leaf)
  | reference (digits : Text)
  | named (name : Text)
  | check (length : Nat)
  | repeated (least : Nat) (most : Option Nat) (style : Style)
  | alternative
  | opened (length : Nat) (opening : Opening)
  | closed
  | flagged (length : Nat) (added : List Flag)
  deriving DecidableEq, Repr

/-! ### Constructs -/

/-- A class that is being read: how many characters it has so far, its members, last ones first, the member that may
start a range with the token it starts with, whether a hyphen has followed that, and the escape that is being read. -/
structure OpenClass where
  length : Nat
  negated : Bool
  items : List ClassItem
  pending : Option (ClassItem × Text)
  hyphen : Bool
  escape : Option Escape
  deriving DecidableEq, Repr

/-- What a name in parentheses is for. -/
inductive Naming where
  | group
  | reference
  | condition
  deriving DecidableEq, Repr

/-- The character behind a name. -/
def Naming.terminator : Naming → Char
  | .group => '>'
  | .reference | .condition => ')'

/-- The construct that the next token belongs to. -/
inductive Construct where
  | item
  | quantified (least : Nat) (most : Option Nat)
  | bounds (low : Text) (high : Option Text)
  | escape (e : Escape)
  | classStart
  | inClass (c : OpenClass)
  | groupStart
  | extension
  | lookBehind
  | extensionP
  | naming (purpose : Naming) (read : Text)
  | flags (length : Nat) (added : List Flag) (removed : Option (List Flag))
  | comment (length : Nat)
  | lineComment
  deriving DecidableEq, Repr

/-- What reading comes to: the next construct and the actions, or a complaint. -/
abbrev Scan := Except Fault (Construct × List Action)

namespace Scan

/-- A leaf was read. -/
def leaf (leaf : Leaf) : Scan := .ok (.item, [.leaf leaf])

/-- More of a construct was read. -/
def more (construct : Construct) : Scan := .ok (construct, [])

end Scan

/-! ### Items -/

/-- The named class that an escape letter stands for. -/
def category? : Char → Option (Category × Bool)
  | 'd' => some (.digit, false)
  | 'D' => some (.digit, true)
  | 's' => some (.blank, false)
  | 'S' => some (.blank, true)
  | 'w' => some (.word, false)
  | 'W' => some (.word, true)
  | _ => none

/-- The control character that an escape letter stands for. -/
def control? : Char → Option Char
  | 'a' => some '\x07'
  | 'f' => some '\x0c'
  | 'n' => some '\n'
  | 'r' => some '\r'
  | 't' => some '\t'
  | 'v' => some '\x0b'
  | _ => none

/-- The condition on a place that an escape letter stands for. -/
def anchor? : Char → Option Leaf
  | 'A' => some .start
  | 'Z' => some .finish
  | 'b' => some (.boundary false)
  | 'B' => some (.boundary true)
  | _ => none

/-- What a backslash and a character are outside classes. -/
def scanEscape (c : Char) : Scan :=
  match category? c, anchor? c, Escape.start? c, control? c with
  | some (kind, negated), _, _, _ => .leaf (.oneOf false [.category kind negated])
  | none, some anchor, _, _ => .leaf anchor
  | none, none, some e, _ => .more (.escape e)
  | none, none, none, some d => .leaf (.char d)
  | none, none, none, none =>
      if c = '0' then .more (.escape (.octal ['0']))
      else if c.isDigit then .more (.escape (.numeral [c]))
      else if c.isAlpha then .error (.badEscape [c], 2)
      else .leaf (.char c)

/-- What a complete escape asks for outside classes. -/
def Escaped.scan : Escaped → Scan
  | .code n => .leaf (.code n)
  | .reference digits => .ok (.item, [.reference digits])

/-- The white space that is left out where comments are. -/
def isPatternSpace (c : Char) : Bool := c == ' ' || ('\t' ≤ c && c ≤ '\r')

/-- What a plain character is outside classes. -/
def scanPlain (verbose : Bool) (c : Char) : Scan :=
  match c with
  | '|' => .ok (.item, [.alternative])
  | ')' => .ok (.item, [.closed])
  | '(' => .more .groupStart
  | '[' => .more .classStart
  | '\x7b' => .more (.bounds [] none)
  | '*' => .ok (.quantified 0 none, [.check 1])
  | '+' => .ok (.quantified 1 none, [.check 1])
  | '?' => .ok (.quantified 0 (some 1), [.check 1])
  | '.' => .leaf .any
  | '^' => .leaf .lineStart
  | '$' => .leaf .lineEnd
  | c =>
      if verbose && isPatternSpace c then .more .item
      else if verbose && c == '#' then .more .lineComment
      else .leaf (.char c)

/-- What a token is where an item may start. -/
def scanItem (verbose : Bool) : Token → Scan
  | .plain c => scanPlain verbose c
  | .escaped c => scanEscape c
  | .dangling => .error (.danglingEscape, 1)

/-! ### Repetitions -/

/-- Repetitions have to stay below this number. -/
def repetitionLimit : Nat := 4294967295

/-- Whether a token belongs to the bounds of a repetition, of which there is a second one once a comma is read. -/
def boundsGoOn (low : Text) (high : Option Text) : Token → Bool
  | .plain c => c.isDigit || (c == ',' && high.isNone) || (c == '\x7d' && (high.isSome || !low.isEmpty))
  | _ => false

/-- The characters of bounds that have been read. -/
def boundsSource (low : Text) : Option Text → Text
  | none => '\x7b' :: low
  | some high => '\x7b' :: low ++ ',' :: high

/-- The characters of bounds that turn out to be none are plain. -/
def plainBounds (low : Text) (high : Option Text) : List Action :=
  (boundsSource low high).map fun c => .leaf (.char c)

/-- The largest count that bounds allow. -/
def boundsMost (low : Text) : Option Text → Option Nat
  | none => some (Escape.number 10 low)
  | some [] => none
  | some high => some (Escape.number 10 high)

/-- Ends bounds. -/
def closeBounds (low : Text) (high : Option Text) : Scan :=
  let least := Escape.number 10 low
  let most := boundsMost low high
  let length := (boundsSource low high).length
  if repetitionLimit ≤ least || most.any (repetitionLimit ≤ ·) then .error (.repetitionTooLarge, 0)
  else if most.any (· < least) then .error (.minAboveMax, length)
  else .ok (.quantified least most, [.check (length + 1)])

/-- Reads a token that belongs to bounds. -/
def scanBounds (low : Text) (high : Option Text) : Token → Scan
  | .plain c =>
      if c.isDigit then .more (match high with
        | none => .bounds (low ++ [c]) none
        | some high => .bounds low (some (high ++ [c])))
      else if c = ',' then .more (.bounds low (some []))
      else closeBounds low high
  | _ => .more (.bounds low high)

/-! ### Classes -/

namespace OpenClass

/-- Whether a class has a member. -/
def begun (c : OpenClass) : Bool := c.pending.isSome || !c.items.isEmpty

/-- Adds a member, which may end a range. -/
def add (c : OpenClass) (item : ClassItem) (source : Text) : Except Fault OpenClass :=
  match c.pending with
  | none => .ok { c with pending := some (item, source), escape := none }
  | some (first, firstSource) =>
      if c.hyphen then
        let wrong : Except Fault OpenClass :=
          .error (.badRange firstSource source, firstSource.length + 1 + source.length)
        match first, item with
        | .one low, .one high =>
            if low ≤ high then
              .ok { c with items := .range low high :: c.items, pending := none, hyphen := false, escape := none }
            else wrong
        | _, _ => wrong
      else .ok { c with items := first :: c.items, pending := some (item, source), escape := none }

/-- Ends a class. -/
def close (c : OpenClass) : Scan :=
  let items := (if c.hyphen then [.one '-'.toNat] else []) ++ (c.pending.map Prod.fst).toList ++ c.items
  .leaf (.oneOf c.negated items.reverse.eraseDups)

/-- Adds the member that an escape is. -/
def addEscaped (c : OpenClass) (e : Escape) : Escaped → Except Fault OpenClass
  | .code n => c.add (.one n) e.opening
  | .reference digits => .error (.badEscape digits, digits.length + 1)

/-- Reads a backslash and a character. -/
def escaped (c : OpenClass) (d : Char) : Except Fault OpenClass :=
  match category? d, Escape.start? d, control? d with
  | some (kind, negated), _, _ => c.add (.category kind negated) ['\\', d]
  | none, some e, _ => .ok { c with escape := some e }
  | none, none, some control => c.add (.one control.toNat) ['\\', d]
  | none, none, none =>
      if d = 'b' then c.add (.one 8) ['\\', d]
      else if Escape.isOctal d then .ok { c with escape := some (.octal [d]) }
      else if d.isAlphanum then .error (.badEscape [d], 2)
      else c.add (.one d.toNat) ['\\', d]

variable [CharacterNames]

/-- Ends the escape in a class if a token does not belong to it. -/
def settle (c : OpenClass) (token : Option Token) : Except Fault OpenClass :=
  match c.escape with
  | some e => match token.bind e.read? with
    | some _ => .ok c
    | none => match e.finish with
      | .ok result => c.addEscaped e result
      | .error fault => .error fault
  | none => .ok c

/-- Reads a token that belongs to a class. -/
def token (c : OpenClass) (token : Token) : Except Fault OpenClass :=
  match c.escape with
  | some e => match e.read? token with
    | some (.ok (.inl e)) => .ok { c with escape := some e }
    | some (.ok (.inr result)) => c.addEscaped e result
    | some (.error fault) => .error fault
    | none => .ok c
  | none => match token with
    | .plain d =>
        if d = '-' && c.pending.isSome && !c.hyphen then .ok { c with hyphen := true } else c.add (.one d.toNat) [d]
    | .escaped d => c.escaped d
    | .dangling => .error (.danglingEscape, 1)

/-- Reads a token in a class, which it may end. -/
def scan (c : OpenClass) (token : Token) : Scan :=
  if token = .plain ']' && c.begun && c.escape.isNone then c.close
  else match c.token token with
    | .ok next => .more (.inClass { next with length := c.length + token.source.length })
    | .error fault => .error fault

end OpenClass

/-! ### Groups -/

/-- Reads a letter among the flags of a group. -/
def addFlag (length : Nat) (added : List Flag) (c : Char) (otherwise : Scan) : Scan :=
  if c = 'L' then .error (.localeFlag, 0)
  else match Flag.ofLetter? c with
    | some flag =>
        if flag.isMode && added.any fun other => other.isMode && other != flag then .error (.incompatibleFlags, 0)
        else .more (.flags (length + 1) (flag :: added) none)
    | none => otherwise

/-- Reads a token among the flags that a group adds. -/
def scanAdded (length : Nat) (added : List Flag) (token : Token) : Scan :=
  match token with
  | .plain ')' => .ok (.item, [.flagged (length + 1) added])
  | .plain '-' =>
      if added.contains .template then .error (.globalFlag true, 1) else .more (.flags (length + 1) added (some []))
  | .plain ':' =>
      if added.contains .template then .error (.globalFlag true, 1)
      else .ok (.item, [.opened (length + 1) (.plain added [])])
  | .plain c => addFlag length added c (.error (if isLetter c then .unknownFlag else .missing .flagEnd, 1))
  | _ => .error (.missing .flagEnd, token.source.length)

/-- Reads a token among the flags that a group removes. -/
def scanRemoved (length : Nat) (added removed : List Flag) (token : Token) : Scan :=
  let lacks : Missing := if removed.isEmpty then .flag else .colon
  match token with
  | .plain c =>
      if c = ':' && !removed.isEmpty then
        if removed.contains .template then .error (.globalFlag false, 1)
        else if added.any removed.contains then .error (.flagOnAndOff, 1)
        else .ok (.item, [.opened (length + 1) (.plain added removed)])
      else if c = 'L' then .error (.flagTurnedOff, 0)
      else match Flag.ofLetter? c with
        | some flag =>
            if flag.isMode then .error (.flagTurnedOff, 0)
            else .more (.flags (length + 1) added (some (flag :: removed)))
        | none => .error (if isLetter c then .unknownFlag else .missing lacks, 1)
  | _ => .error (.missing lacks, token.source.length)

/-- Reads the token behind an opening parenthesis and a question mark. -/
def scanExtension (token : Token) : Scan :=
  let unknown : Scan := .error (.unknownExtension token.source, token.source.length + 1)
  match token with
  | .plain ':' => .ok (.item, [.opened 3 (.plain [] [])])
  | .plain '>' => .ok (.item, [.opened 3 .atomic])
  | .plain '=' => .ok (.item, [.opened 3 (.look false false)])
  | .plain '!' => .ok (.item, [.opened 3 (.look false true)])
  | .plain '<' => .more .lookBehind
  | .plain 'P' => .more .extensionP
  | .plain '(' => .more (.naming .condition [])
  | .plain '#' => .more (.comment 3)
  | .plain '-' => .more (.flags 3 [] (some []))
  | .plain c => addFlag 2 [] c unknown
  | _ => unknown

/-- Reads the token behind `(?<`. -/
def scanLookBehind (token : Token) : Scan :=
  match token with
  | .plain '=' => .ok (.item, [.opened 4 (.look true false)])
  | .plain '!' => .ok (.item, [.opened 4 (.look true true)])
  | _ => .error (.unknownExtension ('<' :: token.source), token.source.length + 2)

/-- Reads the token behind `(?P`. -/
def scanExtensionP (token : Token) : Scan :=
  match token with
  | .plain '<' => .more (.naming .group [])
  | .plain '=' => .more (.naming .reference [])
  | _ => .error (.unknownExtension ('P' :: token.source), token.source.length + 2)

/-- What a complete name asks for. -/
def closeName (purpose : Naming) (name : Text) : Scan :=
  match purpose with
  | .condition => .ok (.item, [.opened (name.length + 4) (.conditional name)])
  | purpose =>
      if !Text.isIdentifier name then .error (.badGroupName name, name.length + 1)
      else if purpose = .group then .ok (.item, [.opened (name.length + 5) (.capture (some name))])
      else .ok (.item, [.named name])

/-- Reads a token of a name. -/
def scanName (purpose : Naming) (read : Text) (token : Token) : Scan :=
  if token = .plain purpose.terminator then
    if read.isEmpty then .error (.missing .groupName, 1) else closeName purpose read
  else .more (.naming purpose (read ++ token.source))

/-! ### Tokens -/

namespace Construct

variable [CharacterNames]

/-- Ends a construct that a token does not belong to, or that the pattern ends in. -/
def settle (construct : Construct) (token : Option Token) : Scan :=
  match construct with
  | .quantified least most =>
      if token = some (.plain '?') || token = some (.plain '+') then .more construct
      else .ok (.item, [.repeated least most .greedy])
  | .bounds low high =>
      if token.any (boundsGoOn low high) then .more construct else .ok (.item, plainBounds low high)
  | .escape e => match token.bind e.read? with
    | some _ => .more construct
    | none => match e.finish with
      | .ok result => result.scan
      | .error fault => .error fault
  | .inClass c => match c.settle token with
    | .ok c => .more (.inClass c)
    | .error fault => .error fault
  | .groupStart =>
      if token = some (.plain '?') then .more construct else .ok (.item, [.opened 1 (.capture none)])
  | _ => .more construct

/-- Reads a token that belongs to a construct. -/
def scan (verbose : Bool) (construct : Construct) (token : Token) : Scan :=
  match construct with
  | .item => scanItem verbose token
  | .quantified least most =>
      .ok (.item, [.repeated least most (if token = .plain '?' then .lazy else .possessive)])
  | .bounds low high => scanBounds low high token
  | .escape e => match e.read? token with
    | some (.ok (.inl e)) => .more (.escape e)
    | some (.ok (.inr result)) => result.scan
    | some (.error fault) => .error fault
    | none => .more construct
  | .classStart =>
      if token = .plain '^' then .more (.inClass ⟨2, true, [], none, false, none⟩)
      else OpenClass.scan ⟨1, false, [], none, false, none⟩ token
  | .inClass c => c.scan token
  | .groupStart => .more .extension
  | .extension => scanExtension token
  | .lookBehind => scanLookBehind token
  | .extensionP => scanExtensionP token
  | .naming purpose read => scanName purpose read token
  | .flags length added none => scanAdded length added token
  | .flags length added (some removed) => scanRemoved length added removed token
  | .comment length =>
      .more (if token = .plain ')' then .item else .comment (length + token.source.length))
  | .lineComment => .more (if token = .plain '\n' then .item else .lineComment)

/-- What is wrong with a pattern that ends in a construct that is settled. -/
def unfinished? : Construct → Option Fault
  | .classStart => some (.unterminatedClass, 1)
  | .inClass c => some (.unterminatedClass, c.length)
  | .extension | .lookBehind | .extensionP => some (.unexpectedEnd, 0)
  | .naming purpose read =>
      some (if read.isEmpty then (.missing .groupName, 0) else (.unterminatedName purpose.terminator, read.length))
  | .flags _ _ none => some (.missing .flagEnd, 0)
  | .flags _ _ (some removed) => some (.missing (if removed.isEmpty then .flag else .colon), 0)
  | .comment length => some (.unterminatedComment, length)
  | _ => none

end Construct

end Gherkin.Regex
