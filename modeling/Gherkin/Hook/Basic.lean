import Gherkin.Failure

/-! # Hooks

A hook runs around a whole run, a feature, a scenario or a step. It is given the context of the place
that it runs at, and the tags of that place decide whether it applies. -/

namespace Gherkin

/-- The place that a hook runs at. -/
inductive HookScope where
  | beforeAll
  | afterAll
  | beforeFeature
  | afterFeature
  | beforeScenario
  | afterScenario
  | beforeStep
  | afterStep
  deriving DecidableEq, Repr

namespace HookScope

/-- All scopes. -/
def all : List HookScope :=
  [beforeAll, afterAll, beforeFeature, afterFeature, beforeScenario, afterScenario, beforeStep, afterStep]

/-- The name of a scope. -/
def name : HookScope → Text
  | beforeAll => "beforeAll"
  | afterAll => "afterAll"
  | beforeFeature => "beforeFeature"
  | afterFeature => "afterFeature"
  | beforeScenario => "beforeScenario"
  | afterScenario => "afterScenario"
  | beforeStep => "beforeStep"
  | afterStep => "afterStep"

/-- The name with an underscore between its two words, in small letters. -/
def wordsName (s : HookScope) : Text :=
  s.name.flatMap fun c => if c.isUpper then ['_', c.toLower] else [c]

/-- Whether a value names a scope: by its name, or by its two words in small or in capital letters. -/
def isNamed (s : HookScope) : Value → Bool
  | .text t => t == s.name || t == s.wordsName.map Char.toUpper || t == s.wordsName
  | _ => false

/-- The scope that a value names. -/
def ofValue? (v : Value) : Option HookScope := all.find? fun s => s.isNamed v

theorem ofValue?_name (s : HookScope) : ofValue? (.text s.name) = some s := by cases s <;> rfl

end HookScope

/-- What a hook is told. What does not concern the place that it runs at is absent. -/
structure HookContext where
  featureName : Option Text := none
  featureTags : Option (List Text) := none
  scenarioName : Option Text := none
  scenarioTags : Option (List Text) := none
  stepText : Option Text := none
  stepKeyword : Option Text := none
  error : Option Failure := none
  result : Option Text := none

/-- The tags that decide which hooks apply: those of the scenario, and without one those of the feature. -/
def HookContext.tags (c : HookContext) : List Text :=
  match c.scenarioTags with
  | some tags => tags
  | none => c.featureTags.getD []

end Gherkin
