import Gherkin.Document.Diagnostic
import Gherkin.Document.Outline
import Gherkin.Run.Config
import Gherkin.Run.Effects
import Gherkin.Step.Registry

/-! # Running documents

Documents run in order, in them features, rules and scenarios, and in a scenario the steps of its
backgrounds before its own. A failure in a hook or a handler becomes part of the results. Only four
things end a run early: the conversion of an argument fails, a listener fails, the number of
suggestions is no whole number, or the pause after a step is longer than any floating point number of
seconds. Even then the hooks behind the feature and behind the run are run.

What a run works with is fixed when it starts: its settings, its definitions and hooks, and its documents. A call is
told of its place by a copy, so it changes nothing but its world and the state of the operations. -/

namespace Gherkin

/-- A part of a run: it works on the state of the operations and may end the run early. -/
abbrev Run (σ : Type) := ExceptT Failure (StateM σ)

namespace Run

variable {σ α : Type}

/-- Does something that cannot end the run. -/
def perform (action : StateM σ α) : Run σ α := ExceptT.lift action

/-- Does something and keeps whether it ended early. -/
def attempt (action : Run σ α) : Run σ (Except Failure α) := perform action.run

/-- The result of something that was attempted. -/
def settle : Except Failure α → Run σ α
  | .ok a => pure a
  | .error e => throw e

end Run

/-- What a run needs: settings, the filter for tags, the step definitions, and operations. -/
structure Engine (η ω σ : Type) where
  config : RunConfig
  filter : Option TagFilter
  steps : StepRegistry η
  effects : Effects η ω σ

namespace Engine

variable {η ω σ : Type} (e : Engine η ω σ)

/-- Whether scenarios with some tags run. -/
def selects (tags : List Text) : Bool := e.filter.all fun filter => filter.holds tags

/-- Whether the run ends with the first scenario that fails. -/
def failsFast : Bool := e.config.failFast.isTrue

/-- Whether a scenario goes on after a step that fails. -/
def keepsGoing : Bool := e.config.keepGoing.isTrue

/-- Tells the listeners something. -/
def notify (event : Event) : Run σ Unit := do
  match ← Run.perform (e.effects.notify event) with
  | none => pure ()
  | some failure => throw failure

/-- The world of a scenario, and the desk that what is given out through it goes to. -/
structure Scene (ω : Type) where
  world : Option ω
  desk : Desk := {}

/-- A scene after a call in it. -/
def Scene.after (scene : Scene ω) (call : Call ω) : Scene ω := ⟨call.world, scene.desk.takeAll call.outputs⟩

/-- Puts out a new tray in a scene, and leads the outlets of its world to it. That a world refuses this is no
failure. -/
def bindOutput (scene : Scene ω) : Scene ω :=
  { scene with desk := scene.desk.bind (scene.world.map e.effects.setsOutlet) }

/-- Runs the hooks of a scope. -/
def hooks (scope : HookScope) (context : HookContext) (world : Option ω) : Run σ (Call ω) :=
  Run.perform (e.effects.runHooks scope context world)

/-! ### Steps -/

/-- How the execution of a step ended. -/
structure Invocation (ω : Type) where
  status : Status
  call : Call ω
  suggestions : List Text := []

/-- The arguments of a handler: the values taken from the text, the table, and the doc string. -/
def argumentsOf (values : List Value) (step : Step) : List Argument :=
  values.map .value ++ (step.table.map .table).toList ++
    (step.doc.map fun d => .value (.text d.content)).toList

/-- The deadline of a step. -/
def stepDeadline (step : Step) : Deadline :=
  ⟨e.config.stepTimeout, .step, "Step \"" ++ step.keyword ++ " " ++ step.text ++ "\""⟩

/-- The failure of a number of suggestions that is no whole number. -/
def badLimit : Failure :=
  .raised "TypeError" "slice indices must be integers or None or have an __index__ method"

/-- What an undefined step comes to. -/
def undefinedStep (step : Step) (world : Option ω) : Run σ (Invocation ω) :=
  match e.config.suggestionLimit.sliceEnd? with
  | none => throw badLimit
  | some limit =>
      let suggestions := (e.steps.suggest step.text limit).map StepDefinition.pattern
      pure ⟨.undefined, ⟨some (.undefined step.keyword step.text suggestions), [], world⟩, suggestions⟩

/-- The status of a step whose handler was called. -/
def statusOfCall : Option Failure → Status
  | none => .passed
  | some failure => if failure.isPending then .pending else .failed

/-- Finds the handler of a step and calls it. -/
def invoke (tags : List Text) (world : Option ω) (step : Step) (type : StepType) : Run σ (Invocation ω) :=
  match e.steps.match? step.text (Role.ofType type) (some tags) with
  | .error failure => throw failure
  | .ok none => e.undefinedStep step world
  | .ok (some found) => do
      let call ← Run.perform (e.effects.callHandler found.definition.handler world
        (argumentsOf found.arguments step) (e.stepDeadline step))
      pure ⟨statusOfCall call.failure, call, []⟩

/-- Executes a step unless the hooks in front of it failed. -/
def execute (tags : List Text) (before : Call ω) (step : Step) (type : StepType) : Run σ (Invocation ω) :=
  match before.failure with
  | some failure => pure ⟨.failed, ⟨some failure, [], before.world⟩, []⟩
  | none => e.invoke tags before.world step type

/-- The result of an executed step, given the tray of the step. -/
def stepResult (step : Step) (invocation : Invocation ω) (tray : Tray) : StepResult :=
  { keyword := step.keyword
    text := step.text
    status := invocation.status
    line := some step.line
    error := if invocation.status == .pending then none else invocation.call.failure
    suggestions := invocation.suggestions
    attachments := tray.attachments
    logs := tray.logs }

/-- The result of a step that is not executed. -/
def skippedStep (step : Step) : StepResult :=
  { keyword := step.keyword, text := step.text, status := .skipped, line := some step.line }

/-- Runs a step between its hooks, with a tray of its own; gives its result and the scene after it. -/
def runStep (tags : List Text) (scene : Scene ω) (step : Step) (type : StepType) :
    Run σ (StepResult × Scene ω) := do
  let number := scene.desk.trays.length
  let bound := e.bindOutput scene
  e.notify (.stepStarted step)
  let context : HookContext :=
    { scenarioTags := some tags, stepText := some step.text, stepKeyword := some step.keyword }
  let before ← e.hooks .beforeStep context scene.world
  let invocation ← e.execute tags before step type
  let after ← e.hooks .afterStep { context with error := invocation.call.failure } invocation.call.world
  let left := ((bound.after before).after invocation.call).after after
  let result := stepResult step invocation (left.desk.tray number)
  e.notify (.stepFinished result)
  pure (result, left)

/-- Whether the steps after one with a status are skipped. -/
def halts (status : Status) : Bool := (status == .failed || status == .undefined) && !e.keepsGoing

/-- Pauses after a step that passed. The time that this takes is not told of. -/
def pause (status : Status) : Run σ Unit :=
  match e.config.pauseFailure with
  | some failure => if status == .passed then throw failure else pure ()
  | none => pure ()

/-- Runs steps in turn; once the scenario is halted they are skipped. -/
def runSteps (tags : List Text) : Bool → Scene ω → List (Step × StepType) →
    Run σ (List StepResult × Scene ω)
  | _, scene, [] => pure ([], scene)
  | true, scene, (step, _) :: rest => do
      let (results, scene) ← runSteps tags true scene rest
      pure (skippedStep step :: results, scene)
  | false, scene, (step, type) :: rest => do
      let (result, scene) ← e.runStep tags scene step type
      e.pause result.status
      let (results, scene) ← runSteps tags (e.halts result.status) scene rest
      pure (result :: results, scene)

/-! ### Scenarios -/

/-- The steps with the roles that they take. -/
def withRoles (steps : List Step) : List (Step × StepType) :=
  steps.zip (resolveTypes .context (steps.map Step.type))

/-- Makes the world of a scenario and runs the hooks in front of it. -/
def enter (context : HookContext) : Run σ (Option Failure × Option ω) := do
  match ← Run.perform e.effects.createWorld with
  | .error failure => pure (some failure, none)
  | .ok world =>
      let before ← e.hooks .beforeScenario context world
      pure (before.failure, before.world)

/-- The status of a scenario and what its hooks failed with, after the hooks behind it. -/
def conclude (status : Status) : Option Failure → Option Failure → Status × Option Failure
  | none, some failure => (.failed, some failure)
  | before, _ => (status, before)

/-- Runs a scenario, or a row of an outline. -/
def runScenario (featureName : Text) (background : List Step) (tags : List Text) (row : Option ExampleRow)
    (scenario : Scenario) : Run σ ScenarioResult := do
  e.notify (.scenarioStarted scenario featureName)
  let context : HookContext :=
    { featureName := some featureName, scenarioName := some scenario.name, scenarioTags := some tags }
  let (hookError, world) ← e.enter context
  let (steps, scene) ← e.runSteps tags (hookError.isSome && !e.keepsGoing) ⟨world, {}⟩
    (withRoles (background ++ scenario.steps))
  -- What the hooks behind a scenario give out belongs to no step.
  let scene := e.bindOutput scene
  let status := scenarioStatus (steps.map StepResult.status) hookError.isSome
  let after ← e.hooks .afterScenario { context with result := some status.name } scene.world
  let (status, hookError) := conclude status hookError after.failure
  let result : ScenarioResult :=
    { name := scenario.name, status := status, steps := steps, tags := tags, line := some scenario.line
      exampleIndex := row.map ExampleRow.index, exampleValues := row.map ExampleRow.values
      hookError := hookError }
  e.notify (.scenarioFinished result featureName)
  pure result

/-- The result of a scenario that does not run. -/
def skippedScenario (tags : List Text) (scenario : Scenario) : ScenarioResult :=
  { name := scenario.name, status := .skipped, tags := tags, line := some scenario.line }

/-- Whether the run ends after some results. -/
def stopsAfter (results : List ScenarioResult) : Bool :=
  e.failsFast && results.any fun r => r.status == .failed

/-- Runs items in turn up to one after which the run ends. -/
def runUntilStopped {α : Type} (run : α → Run σ (List ScenarioResult)) : List α → Run σ (List ScenarioResult)
  | [] => pure []
  | item :: rest => do
      let results ← run item
      if e.stopsAfter results then pure results
      else
        let others ← runUntilStopped run rest
        pure (results ++ others)

/-- The rows of an outline that run, each with its tags and its scenario. -/
def selectedRows (tags : List Text) (scenario : Scenario) : List (List Text × ExampleRow × Scenario) :=
  scenario.examples.flatMap fun examples =>
    let tags := tags ++ tagNames examples.tags
    if e.selects tags then (scenario.expand examples).map fun (row, scenario) => (tags, row, scenario) else []

/-- Runs a scenario if its tags are selected, and an outline row by row. -/
def runSelected (featureName : Text) (background : List Step) (parentTags : List Text) (scenario : Scenario) :
    Run σ (List ScenarioResult) := do
  let tags := parentTags ++ tagNames scenario.tags
  if scenario.examples.isEmpty then
    if e.selects tags then
      let result ← e.runScenario featureName background tags none scenario
      pure [result]
    else pure [skippedScenario tags scenario]
  else
    let results ← e.runUntilStopped (fun (tags, row, scenario) => do
      let result ← e.runScenario featureName background tags (some row) scenario
      pure [result]) (e.selectedRows tags scenario)
    pure (if results.isEmpty then [skippedScenario tags scenario] else results)

/-! ### Features -/

/-- The steps of a background, if there is one. -/
def backgroundSteps (background : Option Background) : List Step :=
  (background.map Background.steps).getD []

/-- Runs what a feature holds. -/
def runChild (featureName : Text) (featureTags : List Text) (background : List Step) :
    Child → Run σ (List ScenarioResult)
  | .element (.background _) => pure []
  | .element (.scenario scenario) => e.runSelected featureName background featureTags scenario
  | .rule rule =>
      e.runUntilStopped (e.runSelected featureName (background ++ backgroundSteps rule.background?)
        (featureTags ++ tagNames rule.tags)) rule.scenarios

/-- The scenarios of a child of a feature, each with its tags. -/
def taggedScenarios (featureTags : List Text) : Child → List (List Text × Scenario)
  | .element (.background _) => []
  | .element (.scenario scenario) => [(featureTags ++ tagNames scenario.tags, scenario)]
  | .rule rule => rule.scenarios.map fun scenario =>
      (featureTags ++ tagNames rule.tags ++ tagNames scenario.tags, scenario)

/-- The results of a feature whose scenarios do not run. -/
def skippedFeature (feature : Feature) : List ScenarioResult :=
  (feature.children.flatMap (taggedScenarios (tagNames feature.tags))).map fun (tags, scenario) =>
    skippedScenario tags scenario

/-- Runs the scenarios of a feature, unless the hooks in front of it failed. -/
def runScenarios (before : Option Failure) (feature : Feature) : Run σ (List ScenarioResult) :=
  match before with
  | some _ => pure (skippedFeature feature)
  | none =>
      e.runUntilStopped (e.runChild feature.name (tagNames feature.tags) (backgroundSteps feature.background?))
        feature.children

/-- Runs a feature. The hooks behind it run even if the run ends early in it. -/
def runFeature (feature : Feature) (uri : Option Text) : Run σ FeatureResult := do
  let tags := tagNames feature.tags
  let context : HookContext := { featureName := some feature.name, featureTags := some tags }
  e.notify (.featureStarted feature)
  let before ← e.hooks .beforeFeature context none
  let scenarios ← Run.attempt (e.runScenarios before.failure feature)
  let after ← e.hooks .afterFeature context none
  let scenarios ← Run.settle scenarios
  let hookError := before.failure <|> after.failure
  let result : FeatureResult :=
    { name := feature.name
      status := featureStatus (scenarios.map ScenarioResult.status) hookError.isSome
      scenarios := scenarios, tags := tags, uri := uri, hookError := hookError }
  e.notify (.featureFinished result)
  pure result

/-! ### Runs -/

/-- Runs features in turn up to one after which the run ends. -/
def runFeatures : List (Feature × Option Text) → Run σ (List FeatureResult)
  | [] => pure []
  | (feature, uri) :: rest => do
      let result ← e.runFeature feature uri
      if e.failsFast && result.status == .failed then pure [result]
      else
        let others ← runFeatures rest
        pure (result :: others)

/-- The features of documents, each with the name of its document. -/
def featuresOf (documents : List Document) : List (Feature × Option Text) :=
  documents.filterMap fun d => d.feature.map fun feature => (feature, d.uri)

/-- Runs documents. If the hooks in front of all of them fail, no feature runs; the hooks behind them
always run. -/
def run (documents : List Document) : Run σ RunResult := do
  let before ← e.hooks .beforeAll {} none
  let features ← Run.attempt (match before.failure with
    | some _ => pure []
    | none => e.runFeatures (featuresOf documents))
  let after ← e.hooks .afterAll {} none
  let features ← Run.settle features
  pure { features := features, summary := summarize features, hookError := before.failure <|> after.failure }

end Engine

end Gherkin
