import Gherkin.Decimal.Reading
import Gherkin.Regex.Scanner

/-! # Building regular expressions

Reading is one pass over the tokens. What has been built holds the groups that are still open, each with its finished
alternatives and the items of the current one; every token is scanned in its construct, and the actions that this gives
are performed in turn. An error names the place in the pattern that it is about. -/

namespace Gherkin.Regex

/-- What may be done with an item of a sequence: repeat it, not repeat it because it only tests its place, or not
repeat it again. -/
inductive ItemKind where
  | atom
  | anchor
  | repeated
  deriving DecidableEq, Repr

/-- An item of a sequence. -/
abbrev Item := ItemKind × Node

/-- What an open parenthesis is for. -/
inductive Scope where
  | whole
  | capture (number : Nat)
  | plain
  | atomic
  | look (behind negated : Bool)
  | conditional (number : Nat)
  deriving DecidableEq, Repr

/-- A group that is still open: where it opened, the flags in it, how many groups there were when the outermost
look behind a place around it opened, its alternatives so far and the items of the current one, last ones first. -/
structure Frame where
  scope : Scope
  position : Nat
  flags : List Flag
  lookBehind : Option Nat
  alternatives : List Node
  items : List Item
  deriving DecidableEq, Repr

/-- Items in sequence, given last one first. -/
def sequenceOf : List Item → Node
  | [] => .empty
  | [(_, node)] => node
  | (_, node) :: before => .seq (sequenceOf before) node

namespace Frame

/-- The pattern that a frame holds. -/
def node (f : Frame) : Node :=
  f.alternatives.foldl (fun later earlier => .alt earlier later) (sequenceOf f.items)

/-- The pattern of a group that is closed. -/
def closed (f : Frame) : Node :=
  match f.scope with
  | .whole | .plain => f.node
  | .capture number => .group number f.node
  | .atomic => .atomic f.node
  | .look behind negated => .look (if behind then some f.node.width else none) negated f.node
  | .conditional number => match f.alternatives with
    | [] => .conditional number f.node .empty
    | yes :: _ => .conditional number yes (sequenceOf f.items)

/-- Adds an item to the current alternative. -/
def push (f : Frame) (kind : ItemKind) (node : Node) : Frame := { f with items := (kind, node) :: f.items }

/-- Starts another alternative. -/
def nextAlternative (f : Frame) : Frame :=
  { f with alternatives := sequenceOf f.items :: f.alternatives, items := [] }

/-- The last item, if it can be repeated, and the items in front of it. -/
def repeatable (f : Frame) (length : Nat) : Except Fault (Node × List Item) :=
  match f.items with
  | [] | (.anchor, _) :: _ => .error (.nothingToRepeat, length)
  | (.repeated, _) :: _ => .error (.multipleRepeat, length)
  | (.atom, node) :: before => .ok (node, before)

end Frame

/-- What has been built: the innermost open group and those around it with the whole pattern last, how many groups keep
their text, how wide those are that are closed, the names of groups, and the numbers that conditions ask for with the
place where each does so first. -/
structure Build where
  frame : Frame
  outer : List Frame
  groups : Nat
  widths : List (Nat × Width)
  names : List (Text × Nat)
  asked : List (Nat × Nat)
  deriving DecidableEq, Repr

namespace Build

/-- Nothing has been built under some flags. -/
def start (flags : List Flag) : Build := ⟨⟨.whole, 0, flags, none, [], []⟩, [], 0, [], [], []⟩

/-- Adds an item to the innermost open group. -/
def push (b : Build) (kind : ItemKind) (node : Node) : Build := { b with frame := b.frame.push kind node }

/-- Refuses a group that a look behind a place cannot refer to. -/
def checkLookBehind (b : Build) (number : Nat) : Except Fault Unit :=
  match b.frame.lookBehind with
  | none => .ok ()
  | some groups =>
      if (b.widths.lookup number).isNone then .error (.openGroup, 0)
      else if groups < number then .error (.sameLookBehind, 0)
      else .ok ()

/-- Refers to a group that is closed. -/
def refer (b : Build) (number length : Nat) : Except Fault Build :=
  match b.widths.lookup number with
  | none => .error (if number ≤ b.groups then (.openGroup, length + 1) else (.groupReference number, length))
  | some width => match b.checkLookBehind number with
    | .ok () => .ok (b.push .atom (.reference (Flag.rule b.frame.flags) number width))
    | .error fault => .error fault

/-- Refers to a group by its name. -/
def referByName (b : Build) (name : Text) : Except Fault Build :=
  match b.names.lookup name with
  | none => .error (.unknownGroupName name, name.length + 1)
  | some number => b.refer number name.length

/-- Opens a group. -/
def openScope (b : Build) (position : Nat) (flags : List Flag) (scope : Scope) : Build :=
  let lookBehind := match scope with
    | .look true _ => b.frame.lookBehind.or (some b.groups)
    | _ => b.frame.lookBehind
  { b with frame := ⟨scope, position, flags, lookBehind, [], []⟩, outer := b.frame :: b.outer }

/-- Opens a group that keeps its text. -/
def openCapture (b : Build) (position : Nat) : Build :=
  { b.openScope position b.frame.flags (.capture (b.groups + 1)) with groups := b.groups + 1 }

/-- Opens a group with a name that is not taken. -/
def openNamed (b : Build) (position : Nat) (name : Text) : Except Fault Build :=
  match b.names.lookup name with
  | some old => .error (.redefinedGroupName name (b.groups + 1) old, name.length + 1)
  | none => .ok { b.openCapture position with names := (name, b.groups + 1) :: b.names }

/-- The greatest number that a condition can ask for, and one more. -/
def groupLimit : Nat := 1073741823

/-- The number of the group that a condition asks for, by name or number. -/
def target (b : Build) (name : Text) : Except Fault Nat :=
  if name.isIdentifier then
    match b.names.lookup name with
    | some number => .ok number
    | none => .error (.unknownGroupName name, name.length + 1)
  else match Reading.integer name with
    | .ok (.ofNat 0) => .error (.badGroupNumber, name.length + 1)
    | .ok (.ofNat number) =>
        if groupLimit ≤ number then .error (.groupReference number, name.length + 1) else .ok number
    | _ => .error (.badGroupName name, name.length + 1)

/-- Opens a condition on a group. -/
def openConditional (b : Build) (place length : Nat) (name : Text) : Except Fault Build :=
  match b.target name with
  | .error fault => .error fault
  | .ok number =>
      let asked := if name.isIdentifier || (b.asked.lookup number).isSome then b.asked
        else b.asked ++ [(number, place - name.length - 1)]
      match b.checkLookBehind number with
      | .ok () =>
          .ok { b.openScope (place - length) b.frame.flags (.conditional number) with asked := asked }
      | .error fault => .error fault

/-- Opens a group at a place that is reached. -/
def opened (b : Build) (place length : Nat) : Opening → Except Fault Build
  | .capture none => .ok (b.openCapture (place - length))
  | .capture (some name) => b.openNamed (place - length) name
  | .plain added removed =>
      .ok (b.openScope (place - length) (Flag.combine b.frame.flags added removed) .plain)
  | .atomic => .ok (b.openScope (place - length) b.frame.flags .atomic)
  | .look behind negated => .ok (b.openScope (place - length) b.frame.flags (.look behind negated))
  | .conditional name => b.openConditional place length name

/-- Whether the flags of the whole pattern name two modes. -/
def hasTwoModes (flags : List Flag) : Bool := flags.contains .ascii && flags.contains .unicode

/-- Closes the innermost group. -/
def close (b : Build) : Except Fault Build :=
  match b.outer with
  | [] => .error (if hasTwoModes b.frame.flags then .incompatibleModes else .unbalancedParenthesis, 1)
  | outer :: rest =>
      let widths := match b.frame.scope with
        | .capture number => (number, b.frame.node.width) :: b.widths
        | _ => b.widths
      .ok { b with frame := outer.push .atom b.frame.closed, outer := rest, widths := widths }

/-- Starts another alternative of the innermost group. A condition has two at most. -/
def alternative (b : Build) : Except Fault Build :=
  match b.frame.scope, b.frame.alternatives with
  | .conditional _, _ :: _ => .error (.tooManyBranches, 1)
  | _, _ => .ok { b with frame := b.frame.nextAlternative }

/-- Adds flags for the whole pattern, of which nothing must have been built. -/
def flagged (b : Build) (length : Nat) (added : List Flag) : Except Fault Build :=
  if b.outer.isEmpty && b.frame.items.isEmpty && b.frame.alternatives.isEmpty then
    .ok { b with frame := { b.frame with flags := added ++ b.frame.flags } }
  else .error (.flagsNotAtStart, length)

/-- Repeats the last item. -/
def repeated (b : Build) (least : Nat) (most : Option Nat) (style : Style) : Except Fault Build :=
  match b.frame.repeatable 0 with
  | .ok (node, before) =>
      .ok { b with frame := { b.frame with items := (.repeated, .loop least most style node) :: before } }
  | .error fault => .error fault

/-- Performs an action at a place that is reached. -/
def perform (b : Build) (place : Nat) : Action → Except Fault Build
  | .leaf leaf => .ok (b.push (if leaf.isAnchor then .anchor else .atom) (leaf.node b.frame.flags))
  | .reference digits => b.refer (Escape.number 10 digits) digits.length
  | .named name => b.referByName name
  | .check length => (b.frame.repeatable length).map fun _ => b
  | .repeated least most style => b.repeated least most style
  | .alternative => b.alternative
  | .opened length opening => b.opened place length opening
  | .closed => b.close
  | .flagged length added => b.flagged length added

/-- Performs actions in turn. -/
def performAll (b : Build) (place : Nat) : List Action → Except Fault Build
  | [] => .ok b
  | action :: rest => match b.perform place action with
    | .ok b => b.performAll place rest
    | .error fault => .error fault

/-- Whether white space and comments are left out. -/
def verbose (b : Build) : Bool := b.frame.flags.contains .verbose

end Build

/-! ### Patterns as a whole -/

/-- The name of a kind of repetition. -/
def Style.code : Style → Text
  | .greedy => "MAX_REPEAT"
  | .lazy => "MIN_REPEAT"
  | .possessive => "POSSESSIVE_REPEAT"

/-- The widest look behind a place. -/
def lookBehindLimit : Nat := 4294967295

/-- What is wrong with a pattern that has been read: a look behind a place needs one width, and a template has no
repetitions. -/
def Node.fault? (template : Bool) : Node → Option Cause
  | .empty | .any _ | .oneOf .. | .anchor _ | .reference .. => none
  | .seq first second | .alt first second => (first.fault? template).or (second.fault? template)
  | .conditional _ yes no => (yes.fault? template).or (no.fault? template)
  | .group _ body | .atomic body | .look none _ body => body.fault? template
  | .look (some (least, most)) _ body =>
      if lookBehindLimit < least then some .distantLookBehind
      else if most ≠ some least then some .variableLookBehind
      else body.fault? template
  | .loop _ _ style body => if template then some (.templateRepeat style.code) else body.fault? template

/-- What is wrong with what has been built when the pattern ends. -/
def Build.fault? (b : Build) : Option (Cause × Nat) :=
  if !b.outer.isEmpty then some (.unterminatedGroup, b.frame.position)
  else if hasTwoModes b.frame.flags then some (.incompatibleModes, 0)
  else match b.asked.find? fun asked => b.groups < asked.1 with
    | some (number, position) => some (.groupReference number, position)
    | none => (b.frame.node.fault? (b.frame.flags.contains .template)).map fun cause => (cause, 0)

/-- The state of reading: where in the pattern, the construct that the next token belongs to, and what has been
built. -/
structure Reader where
  position : Nat
  construct : Construct
  build : Build
  deriving DecidableEq, Repr

namespace Reader

/-- The state before the first token. -/
def start (flags : List Flag) : Reader := ⟨0, .item, .start flags⟩

/-- Goes on as a scan says. -/
def follow (r : Reader) : Scan → Except (Cause × Nat) Reader
  | .error (cause, length) => .error (cause, r.position - length)
  | .ok (construct, actions) => match r.build.performAll r.position actions with
    | .ok build => .ok { r with construct := construct, build := build }
    | .error (cause, length) => .error (cause, r.position - length)

variable [CharacterNames]

/-- Ends the construct if a token does not belong to it, or at the end of the pattern. -/
def settle (r : Reader) (token : Option Token) : Except (Cause × Nat) Reader :=
  r.follow (r.construct.settle token)

/-- Moves past a token and reads it, in a construct that it belongs to. -/
def take (r : Reader) (token : Token) : Except (Cause × Nat) Reader :=
  let past : Reader := { r with position := r.position + token.source.length }
  past.follow (r.construct.scan r.build.verbose token)

/-- Reads a token. -/
def step (r : Reader) (token : Token) : Except (Cause × Nat) Reader :=
  match r.settle (some token) with
  | .ok r => r.take token
  | .error e => .error e

/-- Reads tokens. A backslash at the end is noticed when the token in front of it is passed. -/
def run (r : Reader) : List Token → Except (Cause × Nat) Reader
  | [] => .ok r
  | token :: rest =>
      match r.settle (some token) with
      | .error e => .error e
      | .ok r =>
          if rest = [.dangling] then .error (.danglingEscape, r.position + token.source.length)
          else match r.take token with
            | .ok r => run r rest
            | .error e => .error e

/-- Ends the pattern: nothing may be left open, and what is asked for has to be there. -/
def finish (r : Reader) : Except (Cause × Nat) Build :=
  match r.settle none with
  | .error e => .error e
  | .ok r => match r.construct.unfinished? with
    | some (cause, length) => .error (cause, r.position - length)
    | none => match r.build.fault? with
      | some e => .error e
      | none => .ok r.build

end Reader

end Gherkin.Regex
