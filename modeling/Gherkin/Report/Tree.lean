import Gherkin.Run.Summary

/-! # Result trees as values

A result as a mapping, which JSON reports show as it is. -/

namespace Gherkin

/-- A mapping with given fields. -/
def Value.ofFields (fields : List (String × Value)) : Value :=
  .map (fields.map fun (key, value) => (key.toList, value))

/-- The value that is there, or null. -/
def Value.ofOption {α : Type} (f : α → Value) : Option α → Value
  | some a => f a
  | none => .null

/-- A failure by its kind and message. -/
def Failure.toValue (f : Failure) : Value :=
  .ofFields [("type", .text f.kind), ("message", .text f.message)]

/-- An attachment as a mapping. -/
def Attachment.toValue (a : Attachment) : Value :=
  .ofFields [("data", a.data.toValue), ("media_type", .text a.mediaType)]

/-- The result of a step as a mapping. -/
def StepResult.toValue (r : StepResult) : Value :=
  .ofFields [
    ("keyword", .text r.keyword), ("text", .text r.text), ("status", .text r.status.name),
    ("duration", .float r.duration), ("line", .ofOption .ofNat r.line), ("error", .ofOption Failure.toValue r.error),
    ("suggestions", .ofTexts r.suggestions), ("attachments", .list (r.attachments.map Attachment.toValue)),
    ("logs", .ofTexts r.logs)]

/-- The result of a scenario as a mapping. -/
def ScenarioResult.toValue (r : ScenarioResult) : Value :=
  .ofFields [
    ("name", .text r.name), ("status", .text r.status.name), ("tags", .ofTexts r.tags),
    ("duration", .float r.duration), ("line", .ofOption .ofNat r.line),
    ("example_index", .ofOption .ofNat r.exampleIndex),
    ("example_values", .ofOption (fun values => .map (values.map fun (k, v) => (k, .text v))) r.exampleValues),
    ("hook_error", .ofOption Failure.toValue r.hookError), ("steps", .list (r.steps.map StepResult.toValue))]

/-- The result of a feature as a mapping. -/
def FeatureResult.toValue (r : FeatureResult) : Value :=
  .ofFields [
    ("name", .text r.name), ("status", .text r.status.name), ("tags", .ofTexts r.tags),
    ("duration", .float r.duration), ("uri", .ofOption .text r.uri),
    ("hook_error", .ofOption Failure.toValue r.hookError),
    ("scenarios", .list (r.scenarios.map ScenarioResult.toValue))]

/-- Counts as a mapping. -/
def StatusCounts.toValue (c : StatusCounts) : Value :=
  .ofFields [
    ("total", .ofNat c.total), ("passed", .ofNat c.passed), ("failed", .ofNat c.failed),
    ("skipped", .ofNat c.skipped), ("pending", .ofNat c.pending), ("undefined", .ofNat c.undefined)]

/-- A summary as a mapping. -/
def Summary.toValue (s : Summary) : Value :=
  .ofFields [("features", s.features.toValue), ("scenarios", s.scenarios.toValue), ("steps", s.steps.toValue)]

/-- The result of a run as a mapping. -/
def RunResult.toValue (r : RunResult) : Value :=
  .ofFields [
    ("success", .bool r.success), ("duration", .float r.duration),
    ("hook_error", .ofOption Failure.toValue r.hookError), ("summary", r.summary.toValue),
    ("features", .list (r.features.map FeatureResult.toValue))]

end Gherkin
