import Gherkin.Proofs.Run.Acts

/-! # The lifecycle of a run

Which acts a run does, in which order, and how its results come from them. A run that gives a result has
done the acts that `Gherkin.Engine.RunActs` describes, level by level: hooks in front of the whole run, of
a feature, of a scenario and of a step, what they enclose, and the hooks behind it. A run that ends early
does so for one of four reasons (`Gherkin.Engine.Cut`). Both hold of every run of every engine
(`Gherkin.Engine.run_records`).
-/

namespace Gherkin.Engine

variable {η ω σ : Type} (e : Engine η ω σ)

/-! ### Acts and results -/

/-- What hooks are told at a step. -/
def stepContext (tags : List Text) (step : Step) (error : Option Failure) : HookContext :=
  { scenarioTags := some tags, stepText := some step.text, stepKeyword := some step.keyword, error := error }

/-- What hooks are told at a scenario. -/
def scenarioContext (featureName : Text) (tags : List Text) (scenario : Scenario) (status : Option Status) :
    HookContext :=
  { featureName := some featureName, scenarioName := some scenario.name, scenarioTags := some tags,
    result := status.map Status.name }

/-- What hooks are told at a feature. -/
def featureContext (feature : Feature) : HookContext :=
  { featureName := some feature.name, featureTags := some (tagNames feature.tags) }

/-- The definition that a step selects, with its arguments. -/
def matchOf (tags : List Text) (step : Step) (type : StepType) :
    Except Failure (Option (StepRegistry.Match η)) :=
  e.steps.match? step.text (Role.ofType type) (some tags)

/-- What is done about a step between its hooks. If the hooks in front of it failed, nothing is done; a
step without a definition only gets suggestions; otherwise the handler of its definition is called. -/
inductive ExecuteActs (tags : List Text) (step : Step) (type : StepType) (before : Call ω) :
    List (Act η ω) → Invocation ω → Prop
  | hooksFailed {failure : Failure} (failed : before.failure = some failure) :
      ExecuteActs tags step type before [] ⟨.failed, ⟨some failure, [], before.world⟩, []⟩
  | undefined {limit : Option Int} {suggestions : List Text} (passed : before.failure = none)
      (unmatched : e.matchOf tags step type = .ok none)
      (limited : e.config.suggestionLimit.sliceEnd? = some limit)
      (suggested : suggestions = (e.steps.suggest step.text limit).map StepDefinition.pattern) :
      ExecuteActs tags step type before []
        ⟨.undefined, ⟨some (.undefined step.keyword step.text suggestions), [], before.world⟩, suggestions⟩
  | called {found : StepRegistry.Match η} {call : Call ω} (passed : before.failure = none)
      (matched : e.matchOf tags step type = .ok (some found)) :
      ExecuteActs tags step type before
        [.handler found.definition.handler before.world (argumentsOf found.arguments step)
          (e.stepDeadline step) call]
        ⟨statusOfCall call.failure, call, []⟩

/-- What is done about a step that is not skipped, its result, and the scene after it. The step has the tray
that was put out for it. -/
inductive StepActs (tags : List Text) (scene : Scene ω) (step : Step) (type : StepType) :
    List (Act η ω) → StepResult × Scene ω → Prop
  | intro {before after : Call ω} {middle : List (Act η ω)} {invocation : Invocation ω} {left : Scene ω}
      {result : StepResult}
      (executed : e.ExecuteActs tags step type before middle invocation)
      (followed : left = (((e.bindOutput scene).after before).after invocation.call).after after)
      (resulted : result = stepResult step invocation (left.desk.tray scene.desk.trays.length)) :
      StepActs tags scene step type
        ([.told (.stepStarted step) none, .hooks .beforeStep (stepContext tags step none) scene.world before] ++
          middle ++
          [.hooks .afterStep (stepContext tags step invocation.call.failure) invocation.call.world after,
            .told (.stepFinished result) none])
        (result, left)

/-- What is done about the steps of a scenario, which is halted or not. A halted scenario skips them; one
that is not halted goes on, after a pause, unless a step failed or was undefined. -/
inductive StepsActs (tags : List Text) : Bool → Scene ω → List (Step × StepType) → List (Act η ω) →
    List StepResult × Scene ω → Prop
  | nil {halted : Bool} {scene : Scene ω} : StepsActs tags halted scene [] [] ([], scene)
  | skipped {scene last : Scene ω} {step : Step} {type : StepType} {rest : List (Step × StepType)}
      {acts : List (Act η ω)} {results : List StepResult}
      (others : StepsActs tags true scene rest acts (results, last)) :
      StepsActs tags true scene ((step, type) :: rest) acts (skippedStep step :: results, last)
  | run {scene next last : Scene ω} {step : Step} {type : StepType} {rest : List (Step × StepType)}
      {acts more : List (Act η ω)} {result : StepResult} {results : List StepResult}
      (first : e.StepActs tags scene step type acts (result, next))
      (paused : result.status = .passed → e.config.pauseFailure = none)
      (others : StepsActs tags (e.halts result.status) next rest more (results, last)) :
      StepsActs tags false scene ((step, type) :: rest) (acts ++ more) (result :: results, last)

/-- How a scenario is entered: its world is made, and the hooks in front of it are run. Without a world
there are no such hooks. -/
inductive EnterActs (context : HookContext) : List (Act η ω) → Option Failure × Option ω → Prop
  | noWorld {failure : Failure} : EnterActs context [.world (.error failure)] (some failure, none)
  | entered {world : Option ω} {call : Call ω} :
      EnterActs context [.world (.ok world), .hooks .beforeScenario context world call]
        (call.failure, call.world)

/-- What is done about a scenario or row that is executed, and its result. -/
inductive ScenarioActs (featureName : Text) (background : List Step) (tags : List Text)
    (row : Option ExampleRow) (scenario : Scenario) : List (Act η ω) → ScenarioResult → Prop
  | intro {entry middle : List (Act η ω)} {hookError : Option Failure} {world : Option ω} {last : Scene ω}
      {steps : List StepResult} {status : Status} {after : Call ω} {result : ScenarioResult}
      (entered : EnterActs (scenarioContext featureName tags scenario none) entry (hookError, world))
      (ran : e.StepsActs tags (hookError.isSome && !e.keepsGoing) ⟨world, {}⟩
        (withRoles (background ++ scenario.steps)) middle (steps, last))
      (ended : status = scenarioStatus (steps.map StepResult.status) hookError.isSome)
      (resulted : result =
        { name := scenario.name, status := (conclude status hookError after.failure).1, steps := steps,
          tags := tags, line := some scenario.line, exampleIndex := row.map ExampleRow.index,
          exampleValues := row.map ExampleRow.values,
          hookError := (conclude status hookError after.failure).2 }) :
      ScenarioActs featureName background tags row scenario
        ([.told (.scenarioStarted scenario featureName) none] ++ entry ++ middle ++
          [.hooks .afterScenario (scenarioContext featureName tags scenario (some status)) last.world after,
            .told (.scenarioFinished result featureName) none])
        result

/-- What is done about a plan, and its results: those of the whole plan, or those up to the first after
which the run ends. -/
inductive PlanActs (featureName : Text) : List Planned → List (Act η ω) → List ScenarioResult → Prop
  | nil : PlanActs featureName [] [] []
  | skipped {tags : List Text} {scenario : Scenario} {rest : List Planned} {acts : List (Act η ω)}
      {results : List ScenarioResult} (others : PlanActs featureName rest acts results) :
      PlanActs featureName (.skipped tags scenario :: rest) acts (skippedScenario tags scenario :: results)
  | last {background : List Step} {tags : List Text} {row : Option ExampleRow} {scenario : Scenario}
      {rest : List Planned} {acts : List (Act η ω)} {result : ScenarioResult}
      (first : e.ScenarioActs featureName background tags row scenario acts result)
      (stops : e.stopsAfter [result] = true) :
      PlanActs featureName (.executed background tags row scenario :: rest) acts [result]
  | executed {background : List Step} {tags : List Text} {row : Option ExampleRow} {scenario : Scenario}
      {rest : List Planned} {acts more : List (Act η ω)} {result : ScenarioResult}
      {results : List ScenarioResult}
      (first : e.ScenarioActs featureName background tags row scenario acts result)
      (goesOn : e.stopsAfter [result] = false) (others : PlanActs featureName rest more results) :
      PlanActs featureName (.executed background tags row scenario :: rest) (acts ++ more)
        (result :: results)

/-- What is done about the scenarios of a feature, given what its hooks came to. -/
inductive ScenariosActs (feature : Feature) : Option Failure → List (Act η ω) → List ScenarioResult → Prop
  | hooksFailed {failure : Failure} :
      ScenariosActs feature (some failure) [] (skippedFeature feature)
  | planned {acts : List (Act η ω)} {results : List ScenarioResult}
      (ran : e.PlanActs feature.name (e.plan feature) acts results) :
      ScenariosActs feature none acts results

/-- What is done about a feature, and its result. -/
inductive FeatureActs (feature : Feature) (uri : Option Text) : List (Act η ω) → FeatureResult → Prop
  | intro {before after : Call ω} {middle : List (Act η ω)} {scenarios : List ScenarioResult}
      {result : FeatureResult}
      (ran : e.ScenariosActs feature before.failure middle scenarios)
      (resulted : result =
        { name := feature.name
          status := featureStatus (scenarios.map ScenarioResult.status)
            (before.failure <|> after.failure).isSome
          scenarios := scenarios, tags := tagNames feature.tags, uri := uri
          hookError := before.failure <|> after.failure }) :
      FeatureActs feature uri
        ([.told (.featureStarted feature) none, .hooks .beforeFeature (featureContext feature) none before] ++
          middle ++
          [.hooks .afterFeature (featureContext feature) none after, .told (.featureFinished result) none])
        result

/-- Whether the run ends after a feature. -/
def endsWith (result : FeatureResult) : Bool := e.failsFast && result.status == .failed

/-- What is done about features, and their results: those of all, or those up to the first that failed in
a run that ends there. -/
inductive FeaturesActs : List (Feature × Option Text) → List (Act η ω) → List FeatureResult → Prop
  | nil : FeaturesActs [] [] []
  | last {feature : Feature} {uri : Option Text} {rest : List (Feature × Option Text)}
      {acts : List (Act η ω)} {result : FeatureResult} (first : e.FeatureActs feature uri acts result)
      (stops : e.endsWith result = true) : FeaturesActs ((feature, uri) :: rest) acts [result]
  | next {feature : Feature} {uri : Option Text} {rest : List (Feature × Option Text)}
      {acts more : List (Act η ω)} {result : FeatureResult} {results : List FeatureResult}
      (first : e.FeatureActs feature uri acts result) (goesOn : e.endsWith result = false)
      (others : FeaturesActs rest more results) :
      FeaturesActs ((feature, uri) :: rest) (acts ++ more) (result :: results)

/-- What is done between the hooks of a whole run, given what those in front came to. -/
inductive DocumentsActs (documents : List Document) :
    Option Failure → List (Act η ω) → List FeatureResult → Prop
  | hooksFailed {failure : Failure} : DocumentsActs documents (some failure) [] []
  | ran {acts : List (Act η ω)} {results : List FeatureResult}
      (features : e.FeaturesActs (featuresOf documents) acts results) :
      DocumentsActs documents none acts results

/-- What a whole run does, and its result. -/
inductive RunActs (documents : List Document) : List (Act η ω) → RunResult → Prop
  | intro {before after : Call ω} {middle : List (Act η ω)} {features : List FeatureResult}
      {result : RunResult}
      (ran : e.DocumentsActs documents before.failure middle features)
      (resulted : result =
        { features := features, summary := summarize features,
          hookError := before.failure <|> after.failure }) :
      RunActs documents
        ([.hooks .beforeAll {} none before] ++ middle ++ [.hooks .afterAll {} none after]) result

/-! ### Why a run ends early -/

/-- Whether a step is reached among those of a scenario: in front of it no step halts the scenario, and if
the scenario is not one that keeps going, this takes a definition for each of them. -/
inductive Reaches (tags : List Text) : List (Step × StepType) → Step × StepType → Prop
  | here {item : Step × StepType} {rest : List (Step × StepType)} : Reaches tags (item :: rest) item
  | later {step : Step} {type : StepType} {rest : List (Step × StepType)} {target : Step × StepType}
      (passes : e.keepsGoing = true ∨ ∃ found, e.matchOf tags step type = .ok (some found))
      (others : Reaches tags rest target) : Reaches tags ((step, type) :: rest) target

/-- Whether a step can be reached in the scenarios of some documents. -/
def Reachable (documents : List Document) (tags : List Text) (item : Step × StepType) : Prop :=
  ∃ placed ∈ featuresOf documents, ∃ background row scenario,
    Planned.executed background tags row scenario ∈ e.plan placed.1 ∧
      e.Reaches tags (withRoles (background ++ scenario.steps)) item

/-- Why a run ends early, given the steps that may be reached and the acts up to there: a listener fails;
there are no suggestions for a number that is no whole number; the conversion of an argument fails; or the
pause after a step cannot be taken. -/
inductive Cut (reached : List Text → Step × StepType → Prop) (acts : List (Act η ω)) : Failure → Prop
  | listener {event : Event} {failure : Failure} (told : Act.told event (some failure) ∈ acts) :
      Cut reached acts failure
  | limit (unlimited : e.config.suggestionLimit.sliceEnd? = none) : Cut reached acts badLimit
  | conversion {tags : List Text} {step : Step} {type : StepType} {failure : Failure}
      (reaches : reached tags (step, type)) (fails : e.matchOf tags step type = .error failure) :
      Cut reached acts failure
  | pause {tags : List Text} {step : Step} {type : StepType} {found : StepRegistry.Match η}
      {act : Act η ω} {failure : Failure} (reaches : reached tags (step, type))
      (matched : e.matchOf tags step type = .ok (some found)) (called : act ∈ acts)
      (passed : act.isPassedCall = true) (fails : e.config.pauseFailure = some failure) :
      Cut reached acts failure

variable {e}

theorem Cut.mono {reached : List Text → Step × StepType → Prop} {acts more : List (Act η ω)}
    {failure : Failure} (cut : e.Cut reached acts failure) (grows : ∀ act ∈ acts, act ∈ more) :
    e.Cut reached more failure := by
  cases cut with
  | listener told => exact .listener (grows _ told)
  | limit unlimited => exact .limit unlimited
  | conversion reaches fails => exact .conversion reaches fails
  | pause reaches matched called passed fails => exact .pause reaches matched (grows _ called) passed fails

/-- A cut among the later acts. -/
theorem Cut.append_left {reached : List Text → Step × StepType → Prop} {acts : List (Act η ω)}
    {failure : Failure} (cut : e.Cut reached acts failure) (before : List (Act η ω)) :
    e.Cut reached (before ++ acts) failure :=
  cut.mono fun _ => List.mem_append_right before

/-- A cut among the earlier acts. -/
theorem Cut.append_right {reached : List Text → Step × StepType → Prop} {acts : List (Act η ω)}
    {failure : Failure} (cut : e.Cut reached acts failure) (after : List (Act η ω)) :
    e.Cut reached (acts ++ after) failure :=
  cut.mono fun _ => List.mem_append_left after

variable (e) in
/-- What acts and an outcome have to do with each other: a part that gives something has done what `done`
says, and one that ends the run has a reason for it. -/
def Fits {α : Type} (reached : List Text → Step × StepType → Prop) (done : List (Act η ω) → α → Prop)
    (acts : List (Act η ω)) : Except Failure α → Prop
  | .ok a => done acts a
  | .error failure => e.Cut reached acts failure

/-- Two parts in turn do what the first does and then what the second does. -/
theorem records_bind {α β : Type} {reached : List Text → Step × StepType → Prop} {plain : Run σ α}
    {recorded : Run (σ × List (Act η ω)) α} {next : α → Run σ β}
    {nextRecorded : α → Run (σ × List (Act η ω)) β} {done : List (Act η ω) → α → Prop}
    {final : List (Act η ω) → β → Prop}
    (first : Records e.effects plain recorded (e.Fits reached done))
    (second : ∀ acts a, done acts a → Records e.effects (next a) (nextRecorded a)
      (e.Fits reached fun more b => final (acts ++ more) b)) :
    Records e.effects (plain >>= next) (recorded >>= nextRecorded) (e.Fits reached final) := by
  refine first.bind (fun _ _ cut => cut) ?_
  intro acts a did
  refine (second acts a did).mono ?_
  intro more outcome _ fits
  cases outcome with
  | ok b => exact fits
  | error failure => exact Cut.append_left fits acts

theorem records_pure {α : Type} {reached : List Text → Step × StepType → Prop}
    {done : List (Act η ω) → α → Prop} {a : α} (did : done [] a) :
    Records e.effects (pure a) (pure a) (e.Fits reached done) := .pure did

/-! ### Steps -/

section Steps

variable {reached : List Text → Step × StepType → Prop}

theorem notify_records (event : Event) :
    Records e.effects (e.notify event) (e.recorded.notify event)
      (e.Fits reached fun acts _ => acts = [.told event none]) := by
  refine Records.bind (show Records _ _ _ fun acts outcome =>
    ∃ answer, acts = [.told event answer] ∧ outcome = .ok answer from ?_) ?_ ?_
  · apply Records.perform
    · exact fun state => ⟨state, rfl⟩
    · exact fun answer _ => ⟨answer, rfl, rfl⟩
  · rintro acts failure ⟨_, _, impossible⟩
    cases impossible
  · rintro acts answer ⟨_, rfl, same⟩
    cases same
    cases answer with
    | none => exact .pure rfl
    | some failure => exact .throw (.listener List.mem_cons_self)

theorem hooks_records (scope : HookScope) (context : HookContext) (world : Option ω) :
    Records e.effects (e.hooks scope context world) (e.recorded.hooks scope context world)
      (e.Fits reached fun acts call => acts = [.hooks scope context world call]) := by
  apply Records.perform
  · exact fun state => ⟨state, rfl⟩
  · exact fun _ _ => rfl

/-- The hooks behind a part are run whether or not the run ends early in it. -/
theorem enclosed_records {α β : Type} {plain : Run σ α} {recorded : Run (σ × List (Act η ω)) α}
    {done : List (Act η ω) → α → Prop} {final : List (Act η ω) → β → Prop} (scope : HookScope)
    (context : HookContext) {next : α → Call ω → Run σ β}
    {nextRecorded : α → Call ω → Run (σ × List (Act η ω)) β}
    (inner : Records e.effects plain recorded (e.Fits reached done))
    (second : ∀ acts a after, done acts a → Records e.effects (next a after) (nextRecorded a after)
      (e.Fits reached fun more b => final (acts ++ [.hooks scope context none after] ++ more) b)) :
    Records e.effects
      (Run.attempt plain >>= fun outcome => e.hooks scope context none >>= fun after =>
        Run.settle outcome >>= fun a => next a after)
      (Run.attempt recorded >>= fun outcome => e.recorded.hooks scope context none >>= fun after =>
        Run.settle outcome >>= fun a => nextRecorded a after)
      (e.Fits reached final) := by
  have tried : Records e.effects (Run.attempt plain) (Run.attempt recorded) fun acts answer =>
      ∃ outcome, answer = .ok outcome ∧ e.Fits reached done acts outcome :=
    inner.attempt fun _ outcome fits => ⟨outcome, rfl, fits⟩
  refine tried.bind ?_ ?_
  · rintro _ _ ⟨_, impossible, _⟩
    cases impossible
  rintro acts outcome ⟨_, same, fits⟩
  cases same
  have called : Records e.effects (e.hooks scope context none) (e.recorded.hooks scope context none)
      (e.Fits reached fun acts call => acts = [.hooks scope context none call]) := hooks_records scope context none
  refine called.bind (fun _ _ cut => Cut.append_left cut acts) ?_
  rintro _ after rfl
  cases outcome with
  | error failure =>
    apply Records.throw
    rw [List.append_nil]
    exact Cut.append_right fits _
  | ok a =>
    refine (second acts a after fits).mono ?_
    intro more outcome _ fits
    rw [← List.append_assoc]
    cases outcome with
    | ok b => exact fits
    | error failure => exact Cut.append_left fits _

theorem callHandler_records (handler : η) (world : Option ω) (arguments : List Argument)
    (deadline : Deadline) :
    Records e.effects (Run.perform (e.effects.callHandler handler world arguments deadline))
      (Run.perform (e.recorded.effects.callHandler handler world arguments deadline))
      (e.Fits reached fun acts call => acts = [.handler handler world arguments deadline call]) := by
  apply Records.perform
  · exact fun state => ⟨state, rfl⟩
  · exact fun _ _ => rfl

theorem undefinedStep_records (tags : List Text) (step : Step) (type : StepType) (before : Call ω)
    (passed : before.failure = none) (unmatched : e.matchOf tags step type = .ok none) :
    Records e.effects (e.undefinedStep step before.world) (e.recorded.undefinedStep step before.world)
      (e.Fits reached (e.ExecuteActs tags step type before)) := by
  unfold undefinedStep
  rw [recorded_config]
  cases limited : e.config.suggestionLimit.sliceEnd? with
  | none => exact .throw (.limit limited)
  | some limit => exact .pure (.undefined passed unmatched limited rfl)

theorem execute_records (tags : List Text) (before : Call ω) (step : Step) (type : StepType)
    (reaches : reached tags (step, type)) :
    Records e.effects (e.execute tags before step type) (e.recorded.execute tags before step type)
      (e.Fits reached (e.ExecuteActs tags step type before)) := by
  unfold execute
  cases passed : before.failure with
  | some failure => exact .pure (.hooksFailed passed)
  | none =>
    simp only [invoke, recorded_steps]
    cases matched : e.steps.match? step.text (Role.ofType type) (some tags) with
    | error failure => exact .throw (.conversion reaches matched)
    | ok found =>
      cases found with
      | none => exact undefinedStep_records tags step type before passed matched
      | some found =>
        apply records_bind (callHandler_records _ before.world _ (e.stepDeadline step))
        rintro _ call rfl
        exact records_pure (.called passed matched)

theorem runStep_records (tags : List Text) (scene : Scene ω) (step : Step) (type : StepType)
    (reaches : reached tags (step, type)) :
    Records e.effects (e.runStep tags scene step type) (e.recorded.runStep tags scene step type)
      (e.Fits reached (e.StepActs tags scene step type)) := by
  apply records_bind (notify_records (.stepStarted step))
  rintro _ _ rfl
  apply records_bind (hooks_records .beforeStep (stepContext tags step none) scene.world)
  rintro _ before rfl
  apply records_bind (execute_records tags before step type reaches)
  intro middle invocation executed
  apply records_bind
    (hooks_records .afterStep (stepContext tags step invocation.call.failure) invocation.call.world)
  rintro _ after rfl
  apply records_bind (notify_records (.stepFinished _))
  rintro _ _ rfl
  apply records_pure
  have acts : e.StepActs tags scene step type _
      (_, (((e.bindOutput scene).after before).after invocation.call).after after) := .intro executed rfl rfl
  simpa only [List.append_assoc, List.cons_append, List.nil_append, List.append_nil] using acts

/-- A step that passed was matched, and its handler did not fail. -/
theorem StepActs.passed {tags : List Text} {scene next : Scene ω} {step : Step} {type : StepType}
    {acts : List (Act η ω)} {result : StepResult} (did : e.StepActs tags scene step type acts (result, next))
    (passed : result.status = .passed) :
    ∃ found, e.matchOf tags step type = .ok (some found) ∧ ∃ act ∈ acts, act.isPassedCall = true := by
  obtain ⟨executed, rfl, rfl⟩ := did
  cases executed with
  | hooksFailed _ => cases passed
  | undefined _ _ _ _ => cases passed
  | @called found call _ matched =>
    refine ⟨found, matched, _, by simp; exact .inr (.inr (.inl rfl)), ?_⟩
    cases failed : call.failure with
    | none => simp [Act.isPassedCall, failed]
    | some failure =>
      simp only [stepResult, statusOfCall, failed] at passed
      split at passed <;> cases passed

/-- A step that does not halt its scenario was matched, unless the scenario keeps going. -/
theorem StepActs.passes {tags : List Text} {scene next : Scene ω} {step : Step} {type : StepType}
    {acts : List (Act η ω)} {result : StepResult} (did : e.StepActs tags scene step type acts (result, next))
    (goesOn : e.halts result.status = false) :
    e.keepsGoing = true ∨ ∃ found, e.matchOf tags step type = .ok (some found) := by
  obtain ⟨executed, rfl, rfl⟩ := did
  cases executed with
  | hooksFailed _ => exact .inl (by simpa [halts, stepResult] using goesOn)
  | undefined _ _ _ _ => exact .inl (by simpa [halts, stepResult] using goesOn)
  | called _ matched => exact .inr ⟨_, matched⟩

/-- The steps after one that was executed, if there is no pause that fails. -/
theorem nextSteps_records {tags : List Text} {scene next : Scene ω} {step : Step} {type : StepType}
    {acts : List (Act η ω)} {result : StepResult} {rest : List (Step × StepType)}
    (first : e.StepActs tags scene step type acts (result, next))
    (others : Records e.effects (e.runSteps tags (e.halts result.status) next rest)
      (e.recorded.runSteps tags (e.halts result.status) next rest)
      (e.Fits reached (e.StepsActs tags (e.halts result.status) next rest)))
    (unpaused : e.config.pauseFailure = none ∨ result.status ≠ .passed) :
    Records e.effects
      (e.runSteps tags (e.halts result.status) next rest >>= fun (results, last) => pure (result :: results, last))
      (e.recorded.runSteps tags (e.halts result.status) next rest >>= fun (results, last) =>
        pure (result :: results, last))
      fun more outcome => e.Fits reached (e.StepsActs tags false scene ((step, type) :: rest)) (acts ++ more) outcome := by
  refine others.bind (fun _ _ cut => Cut.append_left cut acts) ?_
  rintro more ⟨results, last⟩ others
  apply Records.pure
  rw [List.append_nil]
  refine .run first (fun passed => ?_) others
  exact unpaused.resolve_right fun differs => differs passed

theorem runSteps_records (tags : List Text) (items : List (Step × StepType)) (halted : Bool)
    (scene : Scene ω) (reaches : halted = false → ∀ item, e.Reaches tags items item → reached tags item) :
    Records e.effects (e.runSteps tags halted scene items) (e.recorded.runSteps tags halted scene items)
      (e.Fits reached (e.StepsActs tags halted scene items)) := by
  induction items generalizing halted scene with
  | nil => cases halted <;> exact records_pure .nil
  | cons item rest ih =>
    obtain ⟨step, type⟩ := item
    cases halted with
    | true =>
      apply records_bind (ih true scene (by rintro ⟨⟩))
      rintro acts ⟨results, last⟩ others
      apply records_pure
      rw [List.append_nil]
      exact .skipped others
    | false =>
      rw [runSteps, runSteps]
      refine (runStep_records tags scene step type (reaches rfl _ .here)).bind (fun _ _ cut => cut) ?_
      rintro acts ⟨result, next⟩ first
      have later : e.halts result.status = false → ∀ item, e.Reaches tags rest item → reached tags item :=
        fun goesOn item others => reaches rfl item (.later (first.passes goesOn) others)
      have others := nextSteps_records first (ih (e.halts result.status) next later)
      cases paused : e.config.pauseFailure with
      | none => simpa only [pause, recorded_config, recorded_halts, paused, pure_bind] using others (.inl paused)
      | some failure =>
        by_cases passed : result.status = .passed
        · simp only [pause, recorded_config, paused, passed, beq_self_eq_true, if_true]
          obtain ⟨found, matched, act, called, isPassed⟩ := first.passed passed
          refine Records.bind (show Records _ _ _ fun acts outcome => acts = [] ∧ outcome = .error failure
            from .throw ⟨rfl, rfl⟩) ?_ ?_
          · rintro _ _ ⟨rfl, same⟩
            cases same
            rw [List.append_nil]
            exact .pause (reaches rfl _ .here) matched called isPassed paused
          · rintro _ _ ⟨_, impossible⟩
            cases impossible
        · have unpassed : (result.status == .passed) = false := by simpa using passed
          simpa only [pause, recorded_config, recorded_halts, paused, unpassed, Bool.false_eq_true, if_false,
            pure_bind] using others (.inr passed)

end Steps

/-! ### Scenarios -/

section Scenarios

variable {reached : List Text → Step × StepType → Prop}

theorem enter_records (context : HookContext) :
    Records e.effects (e.enter context) (e.recorded.enter context) (e.Fits reached (EnterActs context)) := by
  have made : Records e.effects (Run.perform e.effects.createWorld)
      (Run.perform e.recorded.effects.createWorld)
      (e.Fits reached fun acts answer => acts = [.world answer]) := by
    apply Records.perform
    · exact fun state => ⟨state, rfl⟩
    · exact fun _ _ => rfl
  apply records_bind made
  rintro _ answer rfl
  cases answer with
  | error failure => exact records_pure .noWorld
  | ok world =>
    apply records_bind (hooks_records .beforeScenario context world)
    rintro _ call rfl
    exact records_pure .entered

theorem runScenario_records (featureName : Text) (background : List Step) (tags : List Text)
    (row : Option ExampleRow) (scenario : Scenario)
    (reaches : ∀ item, e.Reaches tags (withRoles (background ++ scenario.steps)) item → reached tags item) :
    Records e.effects (e.runScenario featureName background tags row scenario)
      (e.recorded.runScenario featureName background tags row scenario)
      (e.Fits reached (e.ScenarioActs featureName background tags row scenario)) := by
  apply records_bind (notify_records (.scenarioStarted scenario featureName))
  rintro _ _ rfl
  apply records_bind (enter_records (scenarioContext featureName tags scenario none))
  rintro entry ⟨hookError, world⟩ entered
  apply records_bind (runSteps_records tags _ (hookError.isSome && !e.keepsGoing) ⟨world, {}⟩ fun _ => reaches)
  rintro middle ⟨steps, last⟩ ran
  apply records_bind (hooks_records .afterScenario (scenarioContext featureName tags scenario
    (some (scenarioStatus (steps.map StepResult.status) hookError.isSome))) last.world)
  rintro _ after rfl
  apply records_bind (notify_records (.scenarioFinished _ featureName))
  rintro _ _ rfl
  apply records_pure
  have acts : e.ScenarioActs featureName background tags row scenario
      ([.told (.scenarioStarted scenario featureName) none] ++ entry ++ middle ++
        [.hooks .afterScenario _ last.world after, .told (.scenarioFinished _ featureName) none]) _ :=
    .intro entered ran rfl rfl
  simp only [List.append_assoc, List.append_nil] at acts ⊢
  exact acts

theorem runPlan_records (featureName : Text) (plan : List Planned)
    (reaches : ∀ background tags row scenario, Planned.executed background tags row scenario ∈ plan →
      ∀ item, e.Reaches tags (withRoles (background ++ scenario.steps)) item → reached tags item) :
    Records e.effects (e.runPlan featureName plan) (e.recorded.runPlan featureName plan)
      (e.Fits reached (e.PlanActs featureName plan)) := by
  induction plan with
  | nil => exact records_pure .nil
  | cons planned rest ih =>
    have others := ih fun background tags row scenario member =>
      reaches background tags row scenario (List.mem_cons_of_mem _ member)
    simp only [runPlan, runUntilStopped, bind_assoc, pure_bind]
    cases planned with
    | skipped tags scenario =>
      simp only [runPlanned, pure_bind, stopsAfter_skipped, Bool.false_eq_true, if_false]
      apply records_bind others
      intro acts results ran
      apply records_pure
      rw [List.append_nil]
      exact .skipped ran
    | executed background tags row scenario =>
      have here := reaches background tags row scenario List.mem_cons_self
      apply records_bind (runScenario_records featureName background tags row scenario here)
      intro acts result first
      by_cases stops : e.stopsAfter [result] = true
      · have stopsRecorded : e.recorded.stopsAfter [result] = true := stops
        rw [if_pos stops, if_pos stopsRecorded]
        apply records_pure
        rw [List.append_nil]
        exact .last first stops
      · have stopsRecorded : ¬ e.recorded.stopsAfter [result] = true := stops
        rw [if_neg stops, if_neg stopsRecorded]
        apply records_bind others
        intro more results ran
        apply records_pure
        rw [List.append_nil]
        exact .executed first (by simpa using stops) ran

end Scenarios

/-! ### Features -/

section Features

variable {documents : List Document}

theorem runScenarios_records (feature : Feature) (uri : Option Text)
    (member : (feature, uri) ∈ featuresOf documents) (before : Option Failure) :
    Records e.effects (e.runScenarios before feature) (e.recorded.runScenarios before feature)
      (e.Fits (e.Reachable documents) (e.ScenariosActs feature before)) := by
  cases before with
  | some failure => exact records_pure .hooksFailed
  | none =>
    rw [runScenarios_eq_runPlan, runScenarios_eq_runPlan, recorded_plan]
    have ran : Records e.effects (e.runPlan feature.name (e.plan feature))
        (e.recorded.runPlan feature.name (e.plan feature))
        (e.Fits (e.Reachable documents) (e.PlanActs feature.name (e.plan feature))) := by
      apply runPlan_records
      intro background tags row scenario planned item reaches
      exact ⟨(feature, uri), member, background, row, scenario, planned, reaches⟩
    apply ran.mono
    intro acts outcome _ fits
    cases outcome with
    | ok results => exact .planned fits
    | error failure => exact fits

/-- The hooks behind a feature are run even when the run ends early in it. -/
theorem runFeature_records (feature : Feature) (uri : Option Text)
    (member : (feature, uri) ∈ featuresOf documents) :
    Records e.effects (e.runFeature feature uri) (e.recorded.runFeature feature uri)
      (e.Fits (e.Reachable documents) (e.FeatureActs feature uri)) := by
  apply records_bind (notify_records (.featureStarted feature))
  rintro _ _ rfl
  apply records_bind (hooks_records .beforeFeature (featureContext feature) none)
  rintro _ before rfl
  apply enclosed_records .afterFeature (featureContext feature)
    (runScenarios_records feature uri member before.failure)
  intro middle scenarios after ran
  apply records_bind (notify_records (.featureFinished _))
  rintro _ _ rfl
  apply records_pure
  have acts : e.FeatureActs feature uri
      ([.told (.featureStarted feature) none, .hooks .beforeFeature (featureContext feature) none before] ++
        middle ++ [.hooks .afterFeature (featureContext feature) none after, .told (.featureFinished _) none]) _ :=
    .intro ran rfl
  simp only [List.append_assoc, List.append_nil] at acts ⊢
  exact acts

theorem runFeatures_records (features : List (Feature × Option Text))
    (members : ∀ item ∈ features, item ∈ featuresOf documents) :
    Records e.effects (e.runFeatures features) (e.recorded.runFeatures features)
      (e.Fits (e.Reachable documents) (e.FeaturesActs features)) := by
  induction features with
  | nil => exact records_pure .nil
  | cons item rest ih =>
    obtain ⟨feature, uri⟩ := item
    have others := ih fun item member => members item (List.mem_cons_of_mem _ member)
    apply records_bind (runFeature_records feature uri (members _ List.mem_cons_self))
    intro acts result first
    by_cases stops : e.endsWith result = true
    · have stopsRecorded : e.recorded.endsWith result = true := stops
      rw [endsWith] at stops stopsRecorded
      rw [if_pos stops, if_pos stopsRecorded]
      apply records_pure
      rw [List.append_nil]
      exact .last first stops
    · have stopsRecorded : ¬ e.recorded.endsWith result = true := stops
      rw [endsWith] at stops stopsRecorded
      rw [if_neg stops, if_neg stopsRecorded]
      apply records_bind others
      intro more results ran
      apply records_pure
      rw [List.append_nil]
      exact .next first (by simpa [endsWith] using stops) ran

end Features

/-- What stands between the hooks of a run. -/
theorem runDocuments_records (documents : List Document) (failure : Option Failure) :
    Records e.effects
      (match failure with
        | some _ => pure []
        | none => e.runFeatures (featuresOf documents))
      (match failure with
        | some _ => pure []
        | none => e.recorded.runFeatures (featuresOf documents))
      (e.Fits (e.Reachable documents) (e.DocumentsActs documents failure)) := by
  cases failure with
  | some failure => exact records_pure .hooksFailed
  | none =>
    refine (runFeatures_records (featuresOf documents) fun _ => id).mono ?_
    intro acts outcome _ fits
    cases outcome with
    | ok results => exact .ran fits
    | error failure => exact fits

/-- What a whole run does: its acts and its result if it gives one, and else the reason for its end. -/
theorem run_records (documents : List Document) :
    Records e.effects (e.run documents) (e.recorded.run documents)
      (e.Fits (e.Reachable documents) (e.RunActs documents)) := by
  apply records_bind (hooks_records .beforeAll {} none)
  rintro _ before rfl
  apply enclosed_records .afterAll {} (runDocuments_records documents before.failure)
  intro acts features after ran
  apply records_pure
  rw [List.append_nil]
  exact .intro ran rfl

end Gherkin.Engine
