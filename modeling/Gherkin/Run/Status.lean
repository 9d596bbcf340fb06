import Gherkin.Text.Basic

/-! # Statuses

The status of a step, and those of scenarios and features that follow from it. A failed hook fails what
it belongs to. -/

namespace Gherkin

/-- How a step, a scenario or a feature ended. -/
inductive Status where
  | passed
  | failed
  | skipped
  | pending
  | undefined
  deriving DecidableEq, Repr

namespace Status

/-- The name of a status. -/
def name : Status → Text
  | passed => "passed"
  | failed => "failed"
  | skipped => "skipped"
  | pending => "pending"
  | undefined => "undefined"

/-- All statuses. -/
def all : List Status := [passed, failed, skipped, pending, undefined]

/-- The status of a name. -/
def ofName? (t : Text) : Option Status := all.find? fun s => s.name == t

theorem ofName?_name (s : Status) : ofName? s.name = some s := by cases s <;> rfl

end Status

/-- The status of a scenario with steps of some statuses. Without steps it counts as skipped. -/
def scenarioStatus (steps : List Status) (hookFailed : Bool) : Status :=
  if hookFailed || steps.contains .failed then .failed
  else if steps.contains .undefined || steps.contains .pending then .pending
  else if steps.all (· == .skipped) then .skipped
  else .passed

/-- The status of a feature with scenarios of some statuses. -/
def featureStatus (scenarios : List Status) (hookFailed : Bool) : Status :=
  if hookFailed || scenarios.contains .failed then .failed
  else if scenarios.all (· == .skipped) then .skipped
  else .passed

end Gherkin
