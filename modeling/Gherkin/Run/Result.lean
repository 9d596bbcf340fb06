import Gherkin.Document.Query
import Gherkin.Failure
import Gherkin.Run.Status

/-! # Results

The tree that a run gives: features, in them scenarios, and in them steps. Durations are in seconds. -/

namespace Gherkin

/-- What is attached to a step: a value, or a number of bytes. -/
inductive AttachedData where
  | value (v : Value)
  | bytes (count : Nat)

/-- The attached data as results show them: of bytes only their number. -/
def AttachedData.toValue : AttachedData → Value
  | value v => v
  | bytes count => .text ("<" ++ Text.ofNat count ++ " bytes>")

/-- Data attached to a step, and what kind of data they are. -/
structure Attachment where
  data : AttachedData
  mediaType : Text

/-- The result of a step. -/
structure StepResult where
  keyword : Text
  text : Text
  status : Status
  duration : Float := 0.0
  line : Option Nat := none
  error : Option Failure := none
  suggestions : List Text := []
  attachments : List Attachment := []
  logs : List Text := []

/-- The result of a scenario, or of one row of an outline. -/
structure ScenarioResult where
  name : Text
  status : Status
  steps : List StepResult := []
  tags : List Text := []
  duration : Float := 0.0
  line : Option Nat := none
  exampleIndex : Option Nat := none
  exampleValues : Option Record := none
  hookError : Option Failure := none

/-- The steps of a scenario that failed. -/
def ScenarioResult.failedSteps (r : ScenarioResult) : List StepResult :=
  r.steps.filter fun step => step.status == .failed

/-- The result of a feature. -/
structure FeatureResult where
  name : Text
  status : Status
  scenarios : List ScenarioResult := []
  tags : List Text := []
  duration : Float := 0.0
  uri : Option Text := none
  hookError : Option Failure := none

end Gherkin
