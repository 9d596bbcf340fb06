import Gherkin.Document.TableAnswer
import Gherkin.Run.Effects

/-! # Scripts

A script is a handler or hook written down as data: a list of actions on the world, on the arguments
and on a trace that records what happened. With scripts a document can be tried out without any other
code. -/

namespace Gherkin

/-- An action of a script. The failing actions carry the kind and the message of the failure. -/
inductive ScriptAction where
  | log (message : Value)
  | attach (data : AttachedData) (mediaType : Text)
  | set (key : Text) (value : Value)
  | increment (key : Text)
  | get (key : Text) (default : Value)
  | fail (kind message : Text)
  | failFirst (calls : Int) (kind message : Text)
  | failOnArgument (index : Nat) (value : Value) (kind message : Text)
  | pending
  | table (question : TableQuestion)
  | say (value : Value)
  | yield
  | hang

/-- A script. It is told apart from others by its number; a script that gives up control can be
overtaken by a deadline. -/
structure Script where
  number : Nat
  name : Text
  givesUpControl : Bool
  actions : List ScriptAction

/-- What the trace of a run records. -/
inductive TraceEntry where
  | step (name : Text) (arguments : List Argument)
  | hook (name : Text) (context : HookContext) (hasWorld : Bool)
  | got (key : Text) (value : Value)
  | answered (question : TableQuestion) (value : Value)
  | said (value : Value)
  | event (event : Event)

/-- The world of a scripted scenario: what was stored in it, and whether it refuses that its outlets are
set. -/
structure ScriptWorld where
  entries : Entries Text Value
  isSealed : Bool

/-- How far a script has come: the world, what was given out, and what was traced, last entries first. -/
structure ScriptProgress where
  world : Option ScriptWorld
  outputs : List Output
  trace : List TraceEntry

namespace ScriptProgress

/-- The failure of an action on a world that is not there. -/
def noWorld : Failure := .raised "RuntimeError" "no world"

/-- Does something with the world. -/
def withWorld (p : ScriptProgress) (f : ScriptWorld → ScriptProgress × Option Failure) :
    ScriptProgress × Option Failure :=
  match p.world with
  | some world => f world
  | none => (p, some noWorld)

/-- Adds an entry to the trace. -/
def record (p : ScriptProgress) (entry : TraceEntry) : ScriptProgress := { p with trace := entry :: p.trace }

/-- Gives something out through the world. -/
def give (p : ScriptProgress) (output : Output) : ScriptProgress × Option Failure :=
  p.withWorld fun _ => ({ p with outputs := p.outputs ++ [output] }, none)

/-- Stores a value in the world. -/
def set (p : ScriptProgress) (key : Text) (value : Value) : ScriptProgress × Option Failure :=
  p.withWorld fun world =>
    ({ p with world := some { world with entries := world.entries.store key value } }, none)

end ScriptProgress

/-- One more than a value, if it is a number. -/
def Value.increment : Value → Except Failure Value
  | .int n => .ok (.int (n + 1))
  | .bool b => .ok (.int (if b then 2 else 1))
  | .float x => .ok (.float (x + 1.0))
  | v =>
      let kind := v.kindName
      let message : Text := match v with
        | .text _ | .list _ => "can only concatenate " ++ kind ++ " (not \"int\") to " ++ kind
        | _ => "unsupported operand type(s) for +: '" ++ kind ++ "' and 'int'"
      .error (.raised "TypeError" message)

/-- Whether an argument is equal to a value. -/
def Argument.equals (v : Value) : Argument → Bool
  | .value w => w == v
  | .table _ => false

namespace ScriptProgress

/-- Asks each table among arguments, up to one that has no answer. -/
def askTables (question : TableQuestion) (p : ScriptProgress) :
    List Argument → ScriptProgress × Option Failure
  | [] => (p, none)
  | .value _ :: rest => askTables question p rest
  | .table t :: rest => match t.answer question with
      | .ok answer => askTables question (p.record (.answered question answer)) rest
      | .error failure => (p, some failure)

/-- Does an action in the call of a script with some arguments; `calls` counts the calls of the script
up to this one. -/
def act (arguments : List Argument) (calls : Nat) (p : ScriptProgress) :
    ScriptAction → ScriptProgress × Option Failure
  | .log message => p.give (.logged message.plain)
  | .attach data mediaType => p.give (.attached ⟨data, mediaType⟩)
  | .set key value => p.set key value
  | .increment key => p.withWorld fun world =>
      match ((world.entries.lookup key).getD (.int 0)).increment with
      | .ok value => p.set key value
      | .error failure => (p, some failure)
  | .get key default => p.withWorld fun world =>
      (p.record (.got key ((world.entries.lookup key).getD default)), none)
  | .fail kind message => (p, some (.raised kind message))
  | .failFirst first kind message =>
      (p, if (calls : Int) ≤ first then some (.raised kind message) else none)
  | .failOnArgument index value kind message =>
      (p, if arguments[index]?.any (Argument.equals value) then some (.raised kind message) else none)
  | .pending => (p, some .pending)
  | .table question => p.askTables question arguments
  | .say value => (p.record (.said value), none)
  | .yield | .hang => (p, none)

/-- Does actions in turn up to one that fails. A script that hangs is given up at its deadline. -/
def run (arguments : List Argument) (calls : Nat) (deadline : Deadline) (p : ScriptProgress) :
    List ScriptAction → ScriptProgress × Option Failure
  | [] => (p, none)
  | .hang :: _ => (p, some deadline.failure)
  | action :: rest => match p.act arguments calls action with
      | (p, none) => p.run arguments calls deadline rest
      | failed => failed

end ScriptProgress

end Gherkin
