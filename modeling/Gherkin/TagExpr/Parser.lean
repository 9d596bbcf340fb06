import Gherkin.TagExpr.Basic
import Gherkin.TagExpr.Token

/-! # Reading tag expressions

`not` binds tighter than `and`, and `and` tighter than `or`; both binary operators associate to the left.
Reading is one pass over the tokens with the operators that still wait for an operand, one record of
them for each open parenthesis. -/

namespace Gherkin.TagExpr

/-- The operators of one nesting level that wait for their right operand: an `or` and an `and` with
their left operands, and a number of `not`. -/
structure Waiting where
  orLeft : Option TagExpr
  andLeft : Option TagExpr
  nots : Nat
  deriving DecidableEq, Repr

namespace Waiting

/-- Nothing waits. -/
def none : Waiting := ⟨.none, .none, 0⟩

/-- An operand under a number of `not`. -/
def negate : Nat → TagExpr → TagExpr
  | 0, e => e
  | n + 1, e => .not (negate n e)

/-- The operand with the `not` and the `and` that waited for it. -/
def conjunction (w : Waiting) (e : TagExpr) : TagExpr :=
  match w.andLeft with
  | some left => .and left (negate w.nots e)
  | .none => negate w.nots e

/-- The operand with all operators that waited for it. -/
def disjunction (w : Waiting) (e : TagExpr) : TagExpr :=
  match w.orLeft with
  | some left => .or left (w.conjunction e)
  | .none => w.conjunction e

end Waiting

/-- The state of reading: what waits on the current level, and for each open parenthesis its position
with what waits outside it. `operand` is the operand just read, if one was. -/
structure Reader where
  waiting : Waiting
  outer : List (Nat × Waiting)
  operand : Option TagExpr
  deriving DecidableEq, Repr

namespace Reader

/-- The state before the first token. -/
def start : Reader := ⟨.none, [], none⟩

/-- Reads a token where an operand has to start. -/
def stepOperand (r : Reader) (token : Token) : Except Cause Reader :=
  match token.kind with
  | .tag => .ok { r with operand := some (.tag token.value) }
  | .not => .ok { r with waiting := { r.waiting with nots := r.waiting.nots + 1 } }
  | .openParen => .ok ⟨.none, (token.position, r.waiting) :: r.outer, none⟩
  | _ => .error (.expectedOperand token)

/-- Reads a token after an operand. -/
def stepOperator (r : Reader) (e : TagExpr) (token : Token) : Except Cause Reader :=
  match token.kind with
  | .and => .ok { r with waiting := { r.waiting with andLeft := some (r.waiting.conjunction e), nots := 0 }
                         operand := none }
  | .or => .ok { r with waiting := ⟨some (r.waiting.disjunction e), none, 0⟩, operand := none }
  | .closeParen => match r.outer with
      | (_, waiting) :: outer => .ok ⟨waiting, outer, some (r.waiting.disjunction e)⟩
      | [] => .error (.unmatchedClose token.position)
  | _ => match r.outer with
      | (position, _) :: _ => .error (.unmatchedOpen position)
      | [] => if token.kind = .eof then .ok r else .error (.expectedEnd token)

/-- Reads a token. -/
def step (r : Reader) (token : Token) : Except Cause Reader :=
  match r.operand with
  | none => r.stepOperand token
  | some e => r.stepOperator e token

/-- Reads tokens up to the end. -/
def run (r : Reader) : List Token → Except Cause Reader
  | [] => .ok r
  | token :: rest => match r.step token with
      | .ok r => run r rest
      | .error cause => .error cause

end Reader

/-- The expression that tokens write. -/
def ofTokens (tokens : List Token) : Except Cause TagExpr :=
  match Reader.start.run tokens with
  | .error cause => .error cause
  | .ok r => match r.operand with
      | some e => .ok (r.waiting.disjunction e)
      | none => .error .empty

/-- Reads a tag expression; white space around it does not count. -/
def parse (t : Text) : Except Error TagExpr :=
  let source := Text.trim t
  if source.isEmpty then .error ⟨.empty, source⟩
  else match tokenize source with
    | .error e => .error e
    | .ok tokens => match ofTokens tokens with
      | .ok e => .ok e
      | .error cause => .error ⟨cause, source⟩

end Gherkin.TagExpr
