import Gherkin.Hook.Basic
import Gherkin.Run.Deadline
import Gherkin.Run.Output
import Gherkin.Run.Summary

/-! # What a run acts through

A run itself only decides what happens in which order. It acts through the operations of this module: making a world
and setting its outlets, running hooks and handlers, and telling listeners. An operation works on a state of its own; a
world is the state of one scenario and is handed from call to call. -/

namespace Gherkin

/-- An argument of a handler: a value, or the table of the step. -/
inductive Argument where
  | value (v : Value)
  | table (t : DataTable)

/-- What a call comes to: why it failed, if it did, what it gave out, and the world after it. -/
structure Call (ω : Type) where
  failure : Option Failure
  outputs : List Output
  world : Option ω

/-- A call that does nothing. -/
def Call.idle {ω : Type} (world : Option ω) : Call ω := ⟨none, [], world⟩

/-- What listeners are told. -/
inductive Event where
  | featureStarted (feature : Feature)
  | featureFinished (result : FeatureResult)
  | scenarioStarted (scenario : Scenario) (featureName : Text)
  | scenarioFinished (result : ScenarioResult) (featureName : Text)
  | stepStarted (step : Step)
  | stepFinished (result : StepResult)

/-- The operations that a run acts through; `η` are the handlers of steps, `ω` the worlds and `σ` the
state of the operations. A scenario may be without a world, and a world may refuse that an outlet is set. -/
structure Effects (η ω σ : Type) where
  createWorld : StateM σ (Except Failure (Option ω))
  setsOutlet : ω → Outlet → Bool
  runHooks : HookScope → HookContext → Option ω → StateM σ (Call ω)
  callHandler : η → Option ω → List Argument → Deadline → StateM σ (Call ω)
  notify : Event → StateM σ (Option Failure)

end Gherkin
