import Gherkin.Run.Result

/-! # Summaries

How many features, scenarios and steps ended in each status. Steps keep all five statuses; an undefined
scenario counts as pending, and a feature that neither passed nor failed counts as skipped. -/

namespace Gherkin

/-- How many items there are, and how many of each status. -/
structure StatusCounts where
  total : Nat := 0
  passed : Nat := 0
  failed : Nat := 0
  skipped : Nat := 0
  pending : Nat := 0
  undefined : Nat := 0
  deriving DecidableEq, Repr

namespace StatusCounts

/-- Counts one more item. -/
def add (c : StatusCounts) (status : Status) : StatusCounts :=
  let c := { c with total := c.total + 1 }
  match status with
  | .passed => { c with passed := c.passed + 1 }
  | .failed => { c with failed := c.failed + 1 }
  | .skipped => { c with skipped := c.skipped + 1 }
  | .pending => { c with pending := c.pending + 1 }
  | .undefined => { c with undefined := c.undefined + 1 }

/-- The counts of a list of statuses. -/
def ofList (statuses : List Status) : StatusCounts := statuses.foldl add {}

end StatusCounts

/-- The status under which a scenario is counted. -/
def Status.ofScenario : Status → Status
  | .undefined => .pending
  | status => status

/-- The status under which a feature is counted. -/
def Status.ofFeature : Status → Status
  | .pending | .undefined => .skipped
  | status => status

/-- The counts of features, scenarios and steps. -/
structure Summary where
  features : StatusCounts := {}
  scenarios : StatusCounts := {}
  steps : StatusCounts := {}
  deriving DecidableEq, Repr

/-- Counts the results of features with all their scenarios and steps. -/
def summarize (features : List FeatureResult) : Summary :=
  let scenarios := features.flatMap FeatureResult.scenarios
  let steps := scenarios.flatMap ScenarioResult.steps
  { features := .ofList (features.map fun f => f.status.ofFeature)
    scenarios := .ofList (scenarios.map fun s => s.status.ofScenario)
    steps := .ofList (steps.map StepResult.status) }

/-- The result of a run. -/
structure RunResult where
  features : List FeatureResult
  summary : Summary
  duration : Float := 0.0
  hookError : Option Failure := none

/-- Whether a run succeeded: no feature failed, and neither did a hook around all of them. -/
def RunResult.success (r : RunResult) : Bool :=
  r.hookError.isNone && r.features.all fun f => f.status != .failed

end Gherkin
