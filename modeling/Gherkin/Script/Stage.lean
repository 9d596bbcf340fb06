import Gherkin.Run.Host
import Gherkin.Script.Basic

/-! # Runs of scripts

A stage is a host whose handlers and hooks are scripts. Its state is the trace and how often each script
was called. -/

namespace Gherkin

/-- The state of a stage: the trace, last entries first, and the number of calls of each script. -/
structure StageState where
  trace : List TraceEntry := []
  stepCalls : Entries Nat Nat := []
  hookCalls : Entries Nat Nat := []

/-- How worlds are made: a new one, one whose outlets cannot be set, none, or not at all. -/
inductive WorldKind where
  | fresh
  | sealed
  | absent
  | failing
  deriving DecidableEq, Repr

/-- Listeners that trace events and may fail at one of them. -/
structure ScriptListener where
  only : Option (List Text) := none
  failsOn : Option Text := none
  count : Nat := 1

/-- The name of an event. -/
def Event.name : Event → Text
  | featureStarted _ => "feature_started"
  | featureFinished _ => "feature_finished"
  | scenarioStarted .. => "scenario_started"
  | scenarioFinished .. => "scenario_finished"
  | stepStarted _ => "step_started"
  | stepFinished _ => "step_finished"

namespace Stage

/-- Counts one more call of a script; gives the number of its calls up to now. -/
def countCall (number : Nat) (counts : Entries Nat Nat) : Nat × Entries Nat Nat :=
  let calls := (counts.lookup number).getD 0 + 1
  (calls, counts.store number calls)

/-- Makes a world. -/
def createWorld (kind : WorldKind) : StateM StageState (Except Failure (Option ScriptWorld)) :=
  pure (match kind with
    | .fresh => .ok (some ⟨[], false⟩)
    | .sealed => .ok (some ⟨[], true⟩)
    | .absent => .ok none
    | .failing => .error (.raised "RuntimeError" "no world today"))

/-- What keeps a script from being waited for: a deadline that is no number of seconds. -/
def refusal (script : Script) (deadline : Deadline) : Option Failure :=
  if script.givesUpControl then
    match deadline.isBinding with
    | .error failure => some failure
    | .ok _ => none
  else none

/-- Runs the actions of a script after an entry in the trace. -/
def play (entry : TraceEntry) (script : Script) (calls : Nat) (arguments : List Argument)
    (world : Option ScriptWorld) (deadline : Deadline) : StateM StageState (Call ScriptWorld) :=
  fun state =>
    let progress : ScriptProgress := ⟨world, [], entry :: state.trace⟩
    let (progress, failure) := progress.run arguments calls deadline script.actions
    (⟨failure, progress.outputs, progress.world⟩, { state with trace := progress.trace })

/-- Calls a script as the handler of a step. -/
def callHandler (script : Script) (world : Option ScriptWorld) (arguments : List Argument)
    (deadline : Deadline) : StateM StageState (Call ScriptWorld) :=
  match refusal script deadline with
  | some failure => pure ⟨some failure, [], world⟩
  | none => fun state =>
      let (calls, counted) := countCall script.number state.stepCalls
      play (.step script.name arguments) script calls arguments world deadline
        { state with stepCalls := counted }

/-- Calls a script as a hook. -/
def callHook (script : Script) (context : HookContext) (world : Option ScriptWorld) (deadline : Deadline) :
    StateM StageState (Call ScriptWorld) :=
  match refusal script deadline with
  | some failure => pure ⟨some failure, [], world⟩
  | none => fun state =>
      let (calls, counted) := countCall script.number state.hookCalls
      play (.hook script.name context world.isSome) script calls [] world deadline
        { state with hookCalls := counted }

/-- Tells a number of listeners an event, up to one that fails. -/
def tell (event : Event) (fails : Bool) : Nat → StateM StageState (Option Failure)
  | 0 => pure none
  | more + 1 => do
      modify fun state => { state with trace := .event event :: state.trace }
      if fails then pure (some (.raised "RuntimeError" ("listener " ++ event.name)))
      else tell event fails more

/-- Tells the listeners an event, if it is one that they listen to. -/
def notify (listener : Option ScriptListener) (event : Event) : StateM StageState (Option Failure) :=
  match listener with
  | none => pure none
  | some listener =>
      if listener.only.all fun names => names.contains event.name then
        tell event (listener.failsOn == some event.name) listener.count
      else pure none

/-- The host of a stage. -/
def host (kind : WorldKind) (listener : Option ScriptListener) : Host Script Script ScriptWorld StageState where
  createWorld := createWorld kind
  setsOutlet world _ := !world.isSealed
  callHandler := callHandler
  callHook := callHook
  notify := notify listener

end Stage

end Gherkin
