import Gherkin.Document.Mark

/-! # Tokens of tag expressions

A tag expression is cut into tags, operators and parentheses, each with its position; the last token
marks the end. Tags run as far as they can, and an operator is a whole word in any letter case. -/

namespace Gherkin.TagExpr

/-- The kinds of tokens. -/
inductive TokenKind where
  | tag
  | and
  | or
  | not
  | openParen
  | closeParen
  | eof
  deriving DecidableEq, Repr

/-- The name of a kind. -/
def TokenKind.name : TokenKind → Text
  | tag => "TAG"
  | and => "AND"
  | or => "OR"
  | not => "NOT"
  | openParen => "LPAREN"
  | closeParen => "RPAREN"
  | eof => "EOF"

/-- A token: its kind, its characters, and where they start. -/
structure Token where
  kind : TokenKind
  value : Text
  position : Nat
  deriving DecidableEq, Repr

/-- Why a text is no tag expression. -/
inductive Cause where
  | empty
  | loneAt (position : Nat)
  | unexpectedCharacter (c : Char) (position : Nat)
  | unmatchedClose (position : Nat)
  | unmatchedOpen (position : Nat)
  | expectedOperand (token : Token)
  | expectedEnd (token : Token)
  deriving DecidableEq, Repr

/-- A cause, and the text that it is about. -/
structure Error where
  cause : Cause
  source : Text
  deriving DecidableEq, Repr

/-- The wording of an error. -/
def Error.message (e : Error) : Text :=
  let inSource : Text := " in tag expression: \"" ++ e.source ++ "\""
  match e.cause with
  | .empty => "Empty tag expression"
  | .loneAt position =>
      "Invalid tag expression: lone '@' at position " ++ Text.ofNat position ++ " in \"" ++ e.source ++ "\""
  | .unexpectedCharacter c position =>
      "Unexpected character '" ++ [c] ++ "' at position " ++ Text.ofNat position ++ inSource
  | .unmatchedClose position => "Unmatched ')' at position " ++ Text.ofNat position ++ inSource
  | .unmatchedOpen position => "Unmatched '(' at position " ++ Text.ofNat position ++ inSource
  | .expectedOperand token =>
      let found : Text :=
        if token.kind = .eof then "end of expression" else "'" ++ token.value ++ "'"
      "Expected tag or '(' but got " ++ found ++ " at position " ++ Text.ofNat token.position ++ inSource
  | .expectedEnd token =>
      "Expected EOF but got '" ++ token.value ++ "' at position " ++ Text.ofNat token.position ++ inSource

/-- The characters of a word in any letter case, if the text starts with it and no word character
follows. -/
def wholeWord? (word : Text) (t : Text) : Option Text :=
  let start := t.take word.length
  if start.map Char.toLower = word && !((t.drop word.length).head?.any isWord) then some start else none

/-- The operator that a text starts with. -/
def operator? (t : Text) : Option (TokenKind × Text) :=
  match wholeWord? ['a', 'n', 'd'] t with
  | some word => some (.and, word)
  | none => match wholeWord? ['o', 'r'] t with
    | some word => some (.or, word)
    | none => (wholeWord? ['n', 'o', 't'] t).map (.not, ·)

/-- The token that a text without white space at its start begins with. -/
def firstToken (position : Nat) (c : Char) (rest : Text) : Except Cause Token :=
  if c = '(' then .ok ⟨.openParen, [c], position⟩
  else if c = ')' then .ok ⟨.closeParen, [c], position⟩
  else if c = '@' then
    let name := rest.takeWhile isTagChar
    if name.isEmpty then .error (.loneAt position) else .ok ⟨.tag, c :: name, position⟩
  else match operator? (c :: rest) with
    | some (kind, word) => .ok ⟨kind, word, position⟩
    | none => .error (.unexpectedCharacter c position)

/-- The tokens of the text from a position on; `skip` characters belong to the last token. -/
def tokensFrom : Nat → Nat → Text → Except Cause (List Token)
  | position, _, [] => .ok [⟨.eof, [], position⟩]
  | position, skip + 1, _ :: rest => tokensFrom (position + 1) skip rest
  | position, 0, c :: rest =>
      if isBlank c then tokensFrom (position + 1) 0 rest
      else match firstToken position c rest with
        | .error cause => .error cause
        | .ok token => (tokensFrom (position + 1) (token.value.length - 1) rest).map (token :: ·)

/-- The tokens of a text. -/
def tokenize (t : Text) : Except Error (List Token) :=
  match tokensFrom 0 0 t with
  | .ok tokens => .ok tokens
  | .error cause => .error ⟨cause, t⟩

end Gherkin.TagExpr
