import Gherkin.Value.Shown
import Gherkin.Yaml.Token

/-! # Reading settings files

Reading is one pass over the tokens with the collections that are still open. A block collection ends
where a token stands to the left of its column, a collection in brackets at its closing bracket. -/

namespace Gherkin.Yaml

/-- A collection that is still open. The items of a list are held in reverse; a block list may await the
value of its last entry, and a mapping the value of a key. A key after a question mark is open until its
colon comes. In brackets, `fresh` says that an item may follow. -/
inductive Frame where
  | list (column : Nat) (items : List Value) (awaiting : Bool)
  | map (column : Nat) (entries : Entries Text Value) (key : Option Text)
  | question (column : Nat) (key : Option Value)
  | flowList (items : List Value) (fresh : Bool)
  | flowPair (key : Text)
  | flowMap (entries : Entries Text Value) (key : Option Text) (fresh : Bool)

/-- The state of reading: the open collections, and the whole value once it is complete. -/
structure Reader where
  frames : List Frame
  value : Option Value

namespace Reader

/-- The state before the first token. -/
def start : Reader := ⟨[], none⟩

/-- Puts a value where one is awaited. -/
def supply (v : Value) (r : Reader) : Except Error Reader :=
  match r.frames with
  | [] => if r.value.isSome then .error .badStructure else .ok { r with value := some v }
  | .list column items true :: outer => .ok { r with frames := .list column (v :: items) false :: outer }
  | .list _ _ false :: _ => .error .badStructure
  | .map column entries (some key) :: outer =>
      .ok { r with frames := .map column (entries.store key v) none :: outer }
  | .map _ _ none :: _ => .error .badStructure
  | .question column none :: outer => .ok { r with frames := .question column (some v) :: outer }
  | .question _ (some _) :: _ => .error .badStructure
  | .flowList items true :: outer => .ok { r with frames := .flowList (v :: items) false :: outer }
  | .flowList _ false :: _ => .error .badStructure
  | .flowPair key :: .flowList items true :: outer =>
      .ok { r with frames := .flowList (.map [(key, v)] :: items) false :: outer }
  | .flowPair _ :: _ => .error .badStructure
  | .flowMap entries (some key) _ :: outer =>
      .ok { r with frames := .flowMap (entries.store key v) none false :: outer }
  | .flowMap entries none true :: outer =>
      .ok { r with frames := .flowMap (entries.store v.plain .null) none false :: outer }
  | .flowMap _ none false :: _ => .error .badStructure

/-- Whether a value is awaited. -/
def awaits (r : Reader) : Bool :=
  match r.frames with
  | [] => r.value.isNone
  | .list _ _ awaiting :: _ => awaiting
  | .map _ _ key :: _ => key.isSome
  | .question _ key :: _ => key.isNone
  | .flowList _ fresh :: _ => fresh
  | .flowPair _ :: _ => true
  | .flowMap _ key fresh :: _ => key.isSome || fresh

/-- The key that a value is. -/
def keyText (v : Option Value) : Text := (v.getD .null).plain

/-- The value of an open block collection; what is still awaited is null. -/
def blockValue? : Frame → Option Value
  | .list _ items awaiting => some (.list (if awaiting then .null :: items else items).reverse)
  | .map _ entries key =>
      some (.map (match key with
        | some key => entries.store key .null
        | none => entries))
  | _ => none

/-- The column of a block collection. -/
def column? : Frame → Option Nat
  | .list column .. | .map column .. | .question column _ => some column
  | _ => none

/-- Closes the innermost block collection. A key that no colon follows has the value null. -/
def closeOne (r : Reader) : Except Error Reader :=
  match r.frames with
  | .question _ key :: .map column entries _ :: outer =>
      .ok { r with frames := .map column (entries.store (keyText key) .null) none :: outer }
  | frame :: outer => match blockValue? frame with
    | some v => supply v { r with frames := outer }
    | none => .ok r
  | [] => .ok r

/-- Closes the block collections to the right of a column, at most as many as are open. -/
def unwind (column : Nat) : Nat → Reader → Except Error Reader
  | 0, r => .ok r
  | fuel + 1, r =>
      match r.frames with
      | frame :: _ =>
          if (column? frame).any (column < ·) then
            match r.closeOne with
            | .ok r => unwind column fuel r
            | .error e => .error e
          else .ok r
      | [] => .ok r

/-- Whether a column lies to the right of the innermost collection. -/
def isDeeper (r : Reader) (column : Nat) : Bool :=
  match r.frames with
  | frame :: _ => (column? frame).all (· < column)
  | [] => true

/-- Opens a collection where a value is awaited. -/
def enter (frame : Frame) (r : Reader) : Except Error Reader :=
  if r.awaits then .ok { r with frames := frame :: r.frames } else .error .badStructure

/-- Reads a dash that starts an entry of a block list. -/
def entry (column : Nat) (r : Reader) : Except Error Reader :=
  match r.frames with
  | .list c items awaiting :: outer =>
      if c = column then
        .ok { r with frames := .list c (if awaiting then .null :: items else items) true :: outer }
      else r.enter (.list column [] true)
  | .map _ _ (some _) :: _ => r.enter (.list column [] true)
  | _ => if r.isDeeper column then r.enter (.list column [] true) else .error .badStructure

/-- Closes a list or a key after a question mark that stands at the column of the mapping around it. -/
def leaveFlush (column : Nat) (r : Reader) : Except Error Reader :=
  match r.frames with
  | .list c _ _ :: .map d _ _ :: _ => if c = column && d = column then r.closeOne else .ok r
  | .question c _ :: _ => if c = column then r.closeOne else .ok r
  | _ => .ok r

/-- Puts a mapping at a column in the place of the innermost collection: the mapping that stands there,
or a new one. -/
def atMap (column : Nat) (key : Option Text) (r : Reader) : Except Error Reader :=
  match r.leaveFlush column with
  | .error e => .error e
  | .ok r => match r.frames with
    | .map c entries old :: outer =>
        if c = column then
          let entries := match old with
            | some old => entries.store old .null
            | none => entries
          .ok { r with frames := .map c entries key :: outer }
        else r.enter (.map column [] key)
    | _ => if r.isDeeper column then r.enter (.map column [] key) else .error .badStructure

/-- Reads a question mark in front of a key. -/
def question (column : Nat) (r : Reader) : Except Error Reader :=
  (r.atMap column none).map fun r => { r with frames := .question column none :: r.frames }

/-- Reads the colon after a key that has a question mark. -/
def colon (column : Nat) (r : Reader) : Except Error Reader :=
  match r.frames with
  | .question c key :: .map d entries _ :: outer =>
      if c = column then .ok { r with frames := .map d entries (some (keyText key)) :: outer }
      else .error .badStructure
  | _ => .error .badStructure

/-- Reads a token outside brackets. -/
def block (token : Token) (r : Reader) : Except Error Reader :=
  match unwind token.column r.frames.length r with
  | .error e => .error e
  | .ok r => match token.kind with
    | .scalar value true => r.atMap token.column (some value.plain)
    | .scalar value false => r.supply value
    | .entry => r.entry token.column
    | .question => r.question token.column
    | .colon => r.colon token.column
    | .openList => r.enter (.flowList [] true)
    | .openMap => r.enter (.flowMap [] none true)
    | .start => if r.frames.isEmpty && r.value.isNone then .ok r else .error .badStructure
    | _ => .error .badStructure

/-- Closes a collection in brackets. -/
def closeBracket (kind : TokenKind) (r : Reader) : Except Error Reader :=
  match kind, r.frames with
  | .closeList, .flowList items _ :: outer => supply (.list items.reverse) { r with frames := outer }
  | .closeList, .flowPair key :: .flowList items _ :: outer =>
      supply (.list (.map [(key, .null)] :: items).reverse) { r with frames := outer }
  | .closeMap, .flowMap entries key _ :: outer =>
      let entries := match key with
        | some key => entries.store key .null
        | none => entries
      supply (.map entries) { r with frames := outer }
  | _, _ => .error .badStructure

/-- Reads a comma. -/
def comma (r : Reader) : Except Error Reader :=
  match r.frames with
  | .flowList items false :: outer => .ok { r with frames := .flowList items true :: outer }
  | .flowPair key :: .flowList items true :: outer =>
      .ok { r with frames := .flowList (.map [(key, .null)] :: items) true :: outer }
  | .flowMap entries (some key) _ :: outer =>
      .ok { r with frames := .flowMap (entries.store key .null) none true :: outer }
  | .flowMap entries none false :: outer => .ok { r with frames := .flowMap entries none true :: outer }
  | _ => .error .badStructure

/-- Reads a key in brackets. -/
def flowKey (key : Text) (r : Reader) : Except Error Reader :=
  match r.frames with
  | .flowMap entries none true :: outer => .ok { r with frames := .flowMap entries (some key) false :: outer }
  | .flowList items true :: outer => .ok { r with frames := .flowPair key :: .flowList items true :: outer }
  | _ => .error .badStructure

/-- Reads a token inside brackets. -/
def flow (token : Token) (r : Reader) : Except Error Reader :=
  match token.kind with
  | .scalar value true => if token.opensBlock then r.flowKey value.plain else .error .badStructure
  | .scalar value false => r.supply value
  | .openList => r.enter (.flowList [] true)
  | .openMap => r.enter (.flowMap [] none true)
  | .closeList | .closeMap => r.closeBracket token.kind
  | .comma => r.comma
  | .question | .colon => .error .badStructure
  | .entry | .start => .error .badToken

/-- Whether the innermost collection is in brackets. -/
def inBrackets (r : Reader) : Bool :=
  match r.frames with
  | .flowList .. :: _ | .flowPair .. :: _ | .flowMap .. :: _ => true
  | _ => false

/-- Reads tokens. -/
def run (r : Reader) : List Token → Except Error Reader
  | [] => .ok r
  | token :: rest =>
      match if r.inBrackets then r.flow token else r.block token with
      | .ok r => run r rest
      | .error e => .error e

/-- Closes all block collections, at most as many as are open. -/
def finish : Nat → Reader → Except Error Reader
  | 0, r => .ok r
  | fuel + 1, r =>
      match r.closeOne with
      | .ok r => finish fuel r
      | .error e => .error e

end Reader

/-- The value that a settings file writes; nothing but comments is null. -/
def read (t : Text) : Except Error Value :=
  match tokens t with
  | .error e => .error e
  | .ok tokens =>
      match Reader.start.run tokens with
      | .error e => .error e
      | .ok r =>
          if r.inBrackets then .error .badStructure
          else match Reader.finish r.frames.length r with
            | .error e => .error e
            | .ok r => .ok (r.value.getD .null)

end Gherkin.Yaml
