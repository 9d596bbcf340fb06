import Mathlib
import Gherkin.Proofs.Run.Parts
import Gherkin.Proofs.Run.Simulation
import Gherkin.Proofs.Run.StepResults
import Gherkin.Script.Stage

/-! # What listeners are told

Listeners are told when features, scenarios and steps start and, with their results, when they finish. In
a run that gives a result this stream of events and the result are two views of one tree: what is started
is finished inside of what encloses it, and the results that are told are those of the tree that were not
passed over, in order. Every listener of a run is told the whole stream
(`Gherkin.Runner.run_informs_listeners`).
-/

namespace Gherkin

variable {η ω σ τ α β : Type}

/-! ### Events -/

/-- Whether a step was executed. -/
def StepResult.isExecuted (r : StepResult) : Bool := r.status != .skipped

/-- The steps of a scenario that were executed. -/
def ScenarioResult.executedSteps (r : ScenarioResult) : List StepResult := r.steps.filter StepResult.isExecuted

/-- The steps of a feature that were executed. -/
def FeatureResult.executedSteps (r : FeatureResult) : List StepResult :=
  r.scenarios.flatMap ScenarioResult.executedSteps

/-- The steps of a run that were executed. -/
def RunResult.executedSteps (r : RunResult) : List StepResult := r.features.flatMap FeatureResult.executedSteps

/-- What was started and is not finished. -/
inductive Opened where
  | feature (feature : Feature)
  | scenario (scenario : Scenario) (featureName : Text)
  | step (step : Step)

namespace Event

/-- The result of a step that is told. -/
def step? : Event → Option StepResult
  | .stepFinished result => some result
  | _ => none

/-- The result of a scenario that is told. -/
def scenario? : Event → Option ScenarioResult
  | .scenarioFinished result _ => some result
  | _ => none

/-- The result of a feature that is told. -/
def feature? : Event → Option FeatureResult
  | .featureFinished result => some result
  | _ => none

/-- What is open after an event, innermost first. A step can only start in a scenario, a scenario in a
feature and a feature in nothing, and only what is innermost can finish, with a result of its own. -/
def track : List Opened → Event → Option (List Opened)
  | [], .featureStarted feature => some [.feature feature]
  | [.feature feature], .scenarioStarted scenario name =>
      if name = feature.name then some [.scenario scenario name, .feature feature] else none
  | .scenario scenario name :: outer, .stepStarted step => some (.step step :: .scenario scenario name :: outer)
  | .step step :: outer, .stepFinished result => if result.place = step.place then some outer else none
  | .scenario scenario name :: outer, .scenarioFinished result other =>
      if other = name ∧ result.name = scenario.name ∧ result.line = some scenario.line then some outer else none
  | .feature feature :: outer, .featureFinished result =>
      if result.name = feature.name ∧ result.tags = tagNames feature.tags then some outer else none
  | _, _ => none

end Event

/-- The event that an act tells. -/
def Act.event? : Act η ω → Option Event
  | .told event _ => some event
  | _ => none

/-- The events that acts tell, in order. -/
def eventsOf (acts : List (Act η ω)) : List Event := acts.filterMap Act.event?

@[simp] theorem eventsOf_append (acts more : List (Act η ω)) :
    eventsOf (acts ++ more) = eventsOf acts ++ eventsOf more := List.filterMap_append

/-- Whether events that come while something is open finish what they start, and tell of some steps,
scenarios and features. -/
structure Conveys (opened : List Opened) (events : List Event) (steps : List StepResult)
    (scenarios : List ScenarioResult) (features : List FeatureResult) : Prop where
  nested : events.foldlM Event.track opened = some opened
  steps : events.filterMap Event.step? = steps
  scenarios : events.filterMap Event.scenario? = scenarios
  features : events.filterMap Event.feature? = features

theorem filterMap_enclosed {α β : Type} (f : α → Option β) (first last : α) (middle : List α) :
    (first :: (middle ++ [last])).filterMap f = (f first).toList ++ middle.filterMap f ++ (f last).toList := by
  rw [← List.singleton_append, List.filterMap_append, List.filterMap_append, List.append_assoc]
  cases start : f first <;> cases finish : f last <;> simp [start, finish]

namespace Conveys

theorem nil {opened : List Opened} : Conveys opened [] [] [] [] := ⟨rfl, rfl, rfl, rfl⟩

theorem append {opened : List Opened} {events more : List Event} {steps moreSteps : List StepResult}
    {scenarios moreScenarios : List ScenarioResult} {features moreFeatures : List FeatureResult}
    (first : Conveys opened events steps scenarios features)
    (second : Conveys opened more moreSteps moreScenarios moreFeatures) :
    Conveys opened (events ++ more) (steps ++ moreSteps) (scenarios ++ moreScenarios)
      (features ++ moreFeatures) where
  nested := by
    rw [List.foldlM_append, first.nested]
    exact second.nested
  steps := by rw [List.filterMap_append, first.steps, second.steps]
  scenarios := by rw [List.filterMap_append, first.scenarios, second.scenarios]
  features := by rw [List.filterMap_append, first.features, second.features]

/-- What tells of a step encloses nothing that is told. -/
theorem step {scenario : Scenario} {name : Text} {outer : List Opened} {step : Step} {events : List Event}
    {result : StepResult} (own : result.place = step.place)
    (inner : Conveys (.step step :: .scenario scenario name :: outer) events [] [] []) :
    Conveys (.scenario scenario name :: outer) (.stepStarted step :: (events ++ [.stepFinished result]))
      [result] [] [] where
  nested := by
    rw [List.foldlM_cons]
    simp only [Event.track, Option.bind_eq_bind, Option.bind_some]
    rw [List.foldlM_append, inner.nested]
    simp [Event.track, own]
  steps := by simp [filterMap_enclosed, inner.steps, Event.step?]
  scenarios := by simp [filterMap_enclosed, inner.scenarios, Event.scenario?]
  features := by simp [filterMap_enclosed, inner.features, Event.feature?]

/-- What tells of a scenario encloses what tells of its steps. -/
theorem scenario {feature : Feature} {scenario : Scenario} {events : List Event} {steps : List StepResult}
    {result : ScenarioResult} (name : result.name = scenario.name) (line : result.line = some scenario.line)
    (inner : Conveys [.scenario scenario feature.name, .feature feature] events steps [] []) :
    Conveys [.feature feature]
      (.scenarioStarted scenario feature.name :: (events ++ [.scenarioFinished result feature.name])) steps
      [result] [] where
  nested := by
    rw [List.foldlM_cons]
    simp only [Event.track, if_true, Option.bind_eq_bind, Option.bind_some]
    rw [List.foldlM_append, inner.nested]
    simp [Event.track, name, line]
  steps := by simp [filterMap_enclosed, inner.steps, Event.step?]
  scenarios := by simp [filterMap_enclosed, inner.scenarios, Event.scenario?]
  features := by simp [filterMap_enclosed, inner.features, Event.feature?]

/-- What tells of a feature encloses what tells of its scenarios. -/
theorem feature {feature : Feature} {events : List Event} {steps : List StepResult}
    {scenarios : List ScenarioResult} {result : FeatureResult} (name : result.name = feature.name)
    (tags : result.tags = tagNames feature.tags)
    (inner : Conveys [.feature feature] events steps scenarios []) :
    Conveys [] (.featureStarted feature :: (events ++ [.featureFinished result])) steps scenarios [result] where
  nested := by
    rw [List.foldlM_cons]
    simp only [Event.track, Option.bind_eq_bind, Option.bind_some]
    rw [List.foldlM_append, inner.nested]
    simp [Event.track, name, tags]
  steps := by simp [filterMap_enclosed, inner.steps, Event.step?]
  scenarios := by simp [filterMap_enclosed, inner.scenarios, Event.scenario?]
  features := by simp [filterMap_enclosed, inner.features, Event.feature?]

end Conveys

/-! ### The events of a run -/

/-- Whether a planned scenario is executed. -/
def Planned.isExecuted : Planned → Bool
  | .executed .. => true
  | .skipped .. => false

/-- Of an act that runs the hooks in front of a feature, whether they passed. -/
def Act.entersFeature? : Act η ω → Option Bool
  | .hooks .beforeFeature _ _ call => some call.failure.isNone
  | _ => none

/-- Whether no listener failed at an act. -/
def Act.Heard : Act η ω → Prop
  | .told _ failure => failure = none
  | _ => True

/-- Whether acts that are done while something is open tell of some steps, scenarios and features without
a failure, and enter features or fail to as some flags say. -/
structure Relays (opened : List Opened) (acts : List (Act η ω)) (steps : List StepResult)
    (scenarios : List ScenarioResult) (features : List FeatureResult) (entered : List Bool) : Prop where
  tells : Conveys opened (eventsOf acts) steps scenarios features
  heard : ∀ act ∈ acts, act.Heard
  enters : acts.filterMap Act.entersFeature? = entered

namespace Relays

variable {opened : List Opened} {acts more : List (Act η ω)} {steps moreSteps : List StepResult}
  {scenarios moreScenarios : List ScenarioResult} {features moreFeatures : List FeatureResult}
  {entered moreEntered : List Bool}

theorem nil : Relays opened ([] : List (Act η ω)) [] [] [] [] :=
  ⟨.nil, List.forall_mem_nil _, rfl⟩

theorem append (first : Relays opened acts steps scenarios features entered)
    (second : Relays opened more moreSteps moreScenarios moreFeatures moreEntered) :
    Relays opened (acts ++ more) (steps ++ moreSteps) (scenarios ++ moreScenarios)
      (features ++ moreFeatures) (entered ++ moreEntered) where
  tells := by
    rw [eventsOf_append]
    exact first.tells.append second.tells
  heard := List.forall_mem_append.mpr ⟨first.heard, second.heard⟩
  enters := by rw [List.filterMap_append, first.enters, second.enters]

/-- Hooks tell nothing. -/
theorem hooks (scope : HookScope) (context : HookContext) (world : Option ω) (call : Call ω)
    (elsewhere : (Act.hooks (η := η) scope context world call).entersFeature? = none) :
    Relays opened [Act.hooks (η := η) scope context world call] [] [] [] [] :=
  ⟨.nil, by simp [Act.Heard], by simp [elsewhere]⟩

/-- The hooks in front of a feature enter it if they pass. -/
theorem enter (context : HookContext) (world : Option ω) (call : Call ω) :
    Relays opened [Act.hooks (η := η) .beforeFeature context world call] [] [] [] [call.failure.isNone] :=
  ⟨.nil, by simp [Act.Heard], rfl⟩

/-- Acts between two events that enclose what they tell. -/
theorem enclose {inside : List Opened} {start finish : Event}
    (inner : Relays inside acts moreSteps moreScenarios moreFeatures entered)
    (tells : Conveys opened (start :: (eventsOf acts ++ [finish])) steps scenarios features) :
    Relays opened ([.told start none] ++ acts ++ [.told finish none]) steps scenarios features entered where
  tells := by
    rw [eventsOf_append, eventsOf_append]
    exact tells
  heard := by simpa [Act.Heard, or_imp, forall_and] using inner.heard
  enters := by
    rw [List.filterMap_append, List.filterMap_append, inner.enters]
    exact List.append_nil entered

end Relays

namespace Engine

variable (e : Engine η ω σ)

/-- The results of what is executed of a plan, given the results of the plan. -/
def executedOf (plan : List Planned) (results : List ScenarioResult) : List ScenarioResult :=
  (plan.zip results).filterMap fun item => if item.1.isExecuted then some item.2 else none

/-- The results of the scenarios and rows of features that are executed, given for each feature whether the
hooks in front of it passed. If they did not, every scenario of the feature has a result in place of it. -/
def executedIn : List Bool → List (Feature × Option Text) → List FeatureResult → List ScenarioResult
  | entered :: flags, item :: items, result :: results =>
      (if entered then executedOf (e.plan item.1) result.scenarios else []) ++ executedIn flags items results
  | _, _, _ => []

/-- The results of the scenarios and rows that a run executes: those that do not stand in place of a
scenario that was passed over. -/
def executedScenarios (documents : List Document) (acts : List (Act η ω)) (result : RunResult) :
    List ScenarioResult :=
  e.executedIn (acts.filterMap Act.entersFeature?) (featuresOf documents) result.features

variable {e}

/-- While a step is executed, listeners are told nothing. -/
theorem ExecuteActs.relays {tags : List Text} {step : Step} {type : StepType} {before : Call ω}
    {acts : List (Act η ω)} {invocation : Invocation ω}
    (did : e.ExecuteActs tags step type before acts invocation) (opened : List Opened) :
    Relays opened acts [] [] [] [] := by
  cases did with
  | hooksFailed | undefined => exact .nil
  | called => exact ⟨.nil, by simp [Act.Heard], rfl⟩

theorem EnterActs.relays {context : HookContext} {acts : List (Act η ω)} {hookError : Option Failure}
    {world : Option ω} (entered : EnterActs context acts (hookError, world)) (opened : List Opened) :
    Relays opened acts [] [] [] [] := by
  cases entered <;> exact ⟨.nil, by simp [Act.Heard], rfl⟩

/-- Listeners are told that a step starts, and then its result. -/
theorem StepActs.relays {tags : List Text} {scene next : Scene ω} {step : Step} {type : StepType}
    {acts : List (Act η ω)} {result : StepResult} (did : e.StepActs tags scene step type acts (result, next))
    (scenario : Scenario) (name : Text) (outer : List Opened) :
    Relays (.scenario scenario name :: outer) acts [result] [] [] [] := by
  obtain @⟨before, after, middle, invocation, _, _, executed, _, resulted⟩ := did
  have place : result.place = step.place := by
    rw [resulted]
    rfl
  let opened : List Opened := .step step :: .scenario scenario name :: outer
  have front : Relays opened [Act.hooks (η := η) .beforeStep (stepContext tags step none) scene.world before]
      [] [] [] [] := .hooks _ _ _ _ rfl
  have inner := (front.append (executed.relays opened)).append
    (.hooks .afterStep (stepContext tags step invocation.call.failure) invocation.call.world after rfl)
  simpa using inner.enclose (.step place inner.tells)

/-- Listeners are told of the steps that are executed, in their order. -/
theorem StepsActs.relays {tags : List Text} {halted : Bool} {scene last : Scene ω}
    {items : List (Step × StepType)} {acts : List (Act η ω)} {results : List StepResult}
    (did : e.StepsActs tags halted scene items acts (results, last))
    (scenario : Scenario) (name : Text) (outer : List Opened) :
    Relays (.scenario scenario name :: outer) acts (results.filter StepResult.isExecuted) [] [] [] := by
  generalize same : (results, last) = outcome at did
  induction did generalizing results last with
  | nil =>
    cases same
    exact .nil
  | skipped _ ih =>
    cases same
    rw [List.filter_cons_of_neg (by simp [StepResult.isExecuted, skippedStep])]
    exact ih rfl
  | @run _ _ _ _ _ _ _ _ result _ first _ _ ih =>
    cases same
    have executed : result.isExecuted = true := by simpa [StepResult.isExecuted] using first.coherent.2
    rw [List.filter_cons_of_pos executed]
    exact (first.relays scenario name outer).append (ih rfl)

/-- Listeners are told that a scenario starts, of its steps, and then its result. -/
theorem ScenarioActs.relays {feature : Feature} {background : List Step} {tags : List Text}
    {row : Option ExampleRow} {scenario : Scenario} {acts : List (Act η ω)} {result : ScenarioResult}
    (did : e.ScenarioActs feature.name background tags row scenario acts result) :
    Relays [.feature feature] acts result.executedSteps [result] [] [] := by
  obtain @⟨entry, middle, _, _, last, steps, status, after, _, entered, ran, _, resulted⟩ := did
  have name : result.name = scenario.name := by rw [resulted]
  have line : result.line = some scenario.line := by rw [resulted]
  have stepsOf : result.executedSteps = steps.filter StepResult.isExecuted := by rw [resulted]; rfl
  have inner := ((entered.relays _).append (ran.relays scenario feature.name [.feature feature])).append
    (.hooks .afterScenario (scenarioContext feature.name tags scenario (some status)) last.world after rfl)
  rw [stepsOf]
  simpa using inner.enclose (.scenario name line inner.tells)

/-- Listeners are told of the scenarios that are run, in their order. -/
theorem PlanActs.relays {feature : Feature} {plan : List Planned} {acts : List (Act η ω)}
    {results : List ScenarioResult} (did : e.PlanActs feature.name plan acts results) :
    Relays [.feature feature] acts (results.flatMap ScenarioResult.executedSteps) (executedOf plan results)
      [] [] := by
  induction did with
  | nil => exact .nil
  | skipped _ ih => exact ih
  | last first _ =>
    rw [List.flatMap_singleton]
    simpa [executedOf, Planned.isExecuted] using first.relays
  | executed first _ _ ih => exact first.relays.append ih

/-- Nothing of a feature that is passed over was executed. -/
theorem skippedFeature_executedSteps (feature : Feature) :
    (skippedFeature feature).flatMap ScenarioResult.executedSteps = [] := by
  rw [List.flatMap_eq_nil_iff]
  intro result member
  obtain ⟨⟨tags, scenario⟩, _, rfl⟩ := List.mem_map.mp member
  rfl

/-- Listeners are told of the scenarios of a feature, unless the hooks in front of it failed. -/
theorem ScenariosActs.relays {feature : Feature} {before : Option Failure} {acts : List (Act η ω)}
    {results : List ScenarioResult} (did : e.ScenariosActs feature before acts results) :
    Relays [.feature feature] acts (results.flatMap ScenarioResult.executedSteps)
      (if before.isNone then executedOf (e.plan feature) results else []) [] [] := by
  cases did with
  | planned ran => exact ran.relays
  | hooksFailed =>
    rw [skippedFeature_executedSteps]
    exact .nil

/-- Listeners are told that a feature starts, of its scenarios, and then its result. -/
theorem FeatureActs.relays {feature : Feature} {uri : Option Text} {acts : List (Act η ω)}
    {result : FeatureResult} (did : e.FeatureActs feature uri acts result) :
    ∃ entered, Relays [] acts result.executedSteps
      (if entered then executedOf (e.plan feature) result.scenarios else []) [result] [entered] := by
  obtain @⟨before, after, middle, scenarios, _, ran, resulted⟩ := did
  have name : result.name = feature.name := by rw [resulted]
  have tags : result.tags = tagNames feature.tags := by rw [resulted]
  have same : result.scenarios = scenarios := by rw [resulted]
  have inner := ((Relays.enter (featureContext feature) none before).append ran.relays).append
    (.hooks .afterFeature (featureContext feature) none after rfl)
  refine ⟨before.failure.isNone, ?_⟩
  rw [FeatureResult.executedSteps, same]
  simpa using inner.enclose (.feature name tags inner.tells)

theorem FeaturesActs.relays {features : List (Feature × Option Text)} {acts : List (Act η ω)}
    {results : List FeatureResult} (did : e.FeaturesActs features acts results) :
    ∃ entered, Relays [] acts (results.flatMap FeatureResult.executedSteps)
      (e.executedIn entered features results) results entered := by
  induction did with
  | nil => exact ⟨[], .nil⟩
  | last first _ =>
    obtain ⟨entered, relays⟩ := first.relays
    refine ⟨[entered], ?_⟩
    rw [List.flatMap_singleton]
    simpa [executedIn] using relays
  | next first _ _ ih =>
    obtain ⟨entered, relays⟩ := first.relays
    obtain ⟨flags, others⟩ := ih
    exact ⟨entered :: flags, relays.append others⟩

/-- What a run tells is the tree of its results. -/
theorem RunActs.relays {documents : List Document} {acts : List (Act η ω)} {result : RunResult}
    (did : e.RunActs documents acts result) :
    Relays [] acts result.executedSteps (e.executedScenarios documents acts result) result.features
      (acts.filterMap Act.entersFeature?) := by
  obtain @⟨before, after, middle, features, _, ran, rfl⟩ := did
  have inner : ∃ entered, Relays [] middle (features.flatMap FeatureResult.executedSteps)
      (e.executedIn entered (featuresOf documents) features) features entered := by
    cases passed : before.failure with
    | some failure =>
      rw [passed] at ran
      cases ran with
      | hooksFailed => exact ⟨[], .nil⟩
    | none =>
      rw [passed] at ran
      cases ran with
      | ran ran => exact ran.relays
  obtain ⟨entered, inner⟩ := inner
  have front : Relays [] [Act.hooks (η := η) .beforeAll {} none before] [] [] [] [] :=
    .hooks _ _ _ _ rfl
  have whole := (front.append inner).append (.hooks .afterAll {} none after rfl)
  unfold executedScenarios
  rw [whole.enters]
  simpa [RunResult.executedSteps] using whole

end Engine

/-! ### Listeners -/

/-- A listener is told events, and may fail. -/
abbrev Listener (σ : Type) := Event → StateM σ (Option Failure)

/-- Conveys listeners an event in turn, up to the first that fails. -/
def tellAll : List (Listener σ) → Listener σ
  | [], _ => pure none
  | listener :: rest, event => do
      match ← listener event with
      | some failure => pure (some failure)
      | none => tellAll rest event

/-- A host that tells listeners. -/
def Host.telling {θ : Type} (host : Host η θ ω σ) (listeners : List (Listener σ)) : Host η θ ω σ :=
  { host with notify := tellAll listeners }

/-- One of the listeners of a stage. -/
def Stage.listens (listener : ScriptListener) : Listener StageState := fun event =>
  if listener.only.all fun names => names.contains event.name then
    tell event (listener.failsOn == some event.name) 1
  else pure none

/-- The host of a stage tells its listeners in turn. -/
theorem Stage.host_eq_telling (kind : WorldKind) (listener : ScriptListener) :
    Stage.host kind (some listener) =
      (Stage.host kind none).telling (List.replicate listener.count (listens listener)) := by
  unfold host Host.telling
  congr 1
  funext event
  simp only [notify]
  by_cases hears : (listener.only.all fun names => names.contains event.name) = true
  · have told : listens listener event = tell event (listener.failsOn == some event.name) 1 := if_pos hears
    rw [if_pos hears]
    induction listener.count with
    | zero => rfl
    | succ more ih =>
      rw [List.replicate_succ, tellAll, told, ← ih]
      cases listener.failsOn == some event.name <;> rfl
  · have deaf : listens listener event = pure none := if_neg hears
    rw [if_neg hears]
    induction listener.count with
    | zero => rfl
    | succ more ih => rw [List.replicate_succ, tellAll, deaf, pure_bind, ← ih]

/-- An action beside a state that it leaves alone. -/
def beside (action : StateM σ α) : StateM (σ × τ) α := fun (s, t) =>
  let (answer, s) := action.run s
  (answer, s, t)

/-- A listener beside what another one noted. -/
def Listener.beside (listener : Listener σ) : Listener (σ × τ) := fun event => Gherkin.beside (listener event)

/-- A listener that notes what it is told. -/
def Listener.noting (listener : Listener σ) : Listener (σ × List Event) := fun event => fun (s, told) =>
  let (answer, s) := (listener event).run s
  (answer, s, told ++ [event])

/-- A host that tells listeners, one of which notes what it is told. -/
def Host.noting {θ : Type} (host : Host η θ ω σ) (before : List (Listener σ)) (listener : Listener σ)
    (after : List (Listener σ)) : Host η θ ω (σ × List Event) where
  createWorld := beside host.createWorld
  setsOutlet := host.setsOutlet
  callHandler handler world arguments deadline := beside (host.callHandler handler world arguments deadline)
  callHook hook context world deadline := beside (host.callHook hook context world deadline)
  notify := tellAll (before.map Listener.beside ++ listener.noting :: after.map Listener.beside)

theorem beside_bind (action : StateM σ α) (next : α → StateM σ β) :
    (beside (action >>= next) : StateM (σ × τ) β) = beside action >>= fun a => beside (next a) := rfl

/-- More listeners are told behind others, unless one of these fails. -/
theorem tellAll_append (listeners more : List (Listener σ)) (event : Event) :
    tellAll (listeners ++ more) event = (tellAll listeners event >>= fun
      | some failure => pure (some failure)
      | none => tellAll more event) := by
  induction listeners with
  | nil => rfl
  | cons listener rest ih =>
    simp only [List.cons_append, tellAll, bind_assoc]
    congr 1
    funext answer
    cases answer with
    | some failure => rfl
    | none => exact ih

/-- Telling listeners does not touch what is kept beside the state. -/
theorem tellAll_beside (listeners : List (Listener σ)) (event : Event) :
    (tellAll (listeners.map Listener.beside) event : StateM (σ × τ) _) = beside (tellAll listeners event) := by
  induction listeners with
  | nil => rfl
  | cons listener rest ih =>
    rw [List.map_cons, tellAll, tellAll, beside_bind]
    change beside (listener event) >>= _ = beside (listener event) >>= _
    congr 1
    funext answer
    cases answer with
    | some failure => rfl
    | none => exact ih

/-- Listeners have no part in hooks. -/
theorem runHooks_telling {θ : Type} (host : Host η θ ω σ) (listeners : List (Listener σ)) (default : Value)
    (context : HookContext) (hooks : List (HookDefinition θ)) (world : Option ω) :
    (host.telling listeners).runHooks default context hooks world =
      host.runHooks default context hooks world := by
  induction hooks generalizing world with
  | nil => rfl
  | cons hook rest ih =>
    rw [Host.runHooks, Host.runHooks]
    simp only [ih]
    rfl

/-- Running hooks does not touch what is noted beside the state. -/
theorem runHooks_noting {θ : Type} (host : Host η θ ω σ) (before : List (Listener σ))
    (listener : Listener σ) (after : List (Listener σ)) (default : Value) (context : HookContext)
    (hooks : List (HookDefinition θ)) (world : Option ω) :
    (host.noting before listener after).runHooks default context hooks world =
      beside (host.runHooks default context hooks world) := by
  induction hooks generalizing world with
  | nil => rfl
  | cons hook rest ih =>
    rw [Host.runHooks, Host.runHooks, beside_bind]
    change beside (host.callHook _ _ _ _) >>= _ = beside (host.callHook _ _ _ _) >>= _
    congr 1
    funext first
    cases first.failure with
    | some failure => rfl
    | none =>
      change (host.noting before listener after).runHooks _ _ _ _ >>= _ = _
      rw [ih]
      rfl

/-- If none of the listeners fails, the one that notes has noted the event; and the others do what they
would do anyway. -/
theorem tellAll_noting (before : List (Listener σ)) (listener : Listener σ) (after : List (Listener σ))
    (event : Event) (s : σ) (told : List Event) :
    ∃ answer last noted, (tellAll (before ++ listener :: after) event).run s = (answer, last) ∧
      (tellAll (before.map Listener.beside ++ listener.noting :: after.map Listener.beside) event).run
        (s, told) = (answer, last, noted) ∧ (answer = none → noted = told ++ [event]) := by
  rw [tellAll_append, tellAll_append, tellAll_beside]
  simp only [StateT.run_bind]
  generalize front : (tellAll before event).run s = outcome
  have frontBeside : (beside (tellAll before event)).run (s, told) = (outcome.1, outcome.2, told) := by
    rw [← front]
    rfl
  rw [frontBeside]
  obtain ⟨answer, s⟩ := outcome
  cases answer with
  | some failure => exact ⟨_, _, told, rfl, rfl, by rintro ⟨⟩⟩
  | none =>
    change ∃ answer last noted, (listener event >>= _).run s = (answer, last) ∧
      (listener.noting event >>= _).run (s, told) = (answer, last, noted) ∧ _
    simp only [StateT.run_bind]
    generalize own : (listener event).run s = outcome
    have noting : (listener.noting event).run (s, told) = (outcome.1, outcome.2, told ++ [event]) := by
      rw [← own]
      rfl
    rw [noting]
    obtain ⟨answer, s⟩ := outcome
    cases answer with
    | some failure => exact ⟨_, _, told ++ [event], rfl, rfl, by rintro ⟨⟩⟩
    | none =>
      refine ⟨_, _, told ++ [event], rfl, ?_, fun _ => rfl⟩
      change (tellAll (after.map Listener.beside) event).run (s, told ++ [event]) = _
      rw [tellAll_beside]
      rfl

/-- What a listener has noted is what the acts up to now have told, unless a listener failed. -/
def Notes : σ × List (Act η ω) → σ × List Event → Prop
  | (s, acts), (other, told) => other = s ∧ ((∀ act ∈ acts, act.Heard) → told = eventsOf acts)

/-- An act that tells nothing is nothing to note. -/
theorem corresponds_of_quiet {operation : StateM σ α} (act : α → Act η ω) (quiet : ∀ a, (act a).event? = none) :
    Corresponds Notes (Effects.record operation act) (beside operation) := by
  rintro ⟨s, acts⟩ ⟨other, told⟩ ⟨rfl, noted⟩
  refine ⟨rfl, rfl, fun heard => ?_⟩
  have heardBefore : ∀ act ∈ acts, act.Heard := fun act member => heard act (List.mem_append_left _ member)
  change told = eventsOf (acts ++ [act (operation.run other).1])
  rw [noted heardBefore, eventsOf_append]
  simp [eventsOf, quiet]

/-- Of all listeners, one that is told in the middle is told the event that the run records. -/
theorem corresponds_tellAll (before : List (Listener σ)) (listener : Listener σ) (after : List (Listener σ))
    (event : Event) :
    Corresponds (Notes (η := η) (ω := ω)) (Effects.record (tellAll (before ++ listener :: after) event) (.told event))
      (tellAll (before.map Listener.beside ++ listener.noting :: after.map Listener.beside) event) := by
  rintro ⟨s, acts⟩ ⟨other, told⟩ ⟨rfl, noted⟩
  obtain ⟨answer, last, more, plain, watched, notes⟩ := tellAll_noting before listener after event other told
  have recorded : (Effects.record (tellAll (before ++ listener :: after) event) (.told event)).run
      (other, acts) = (answer, last, acts ++ [.told event answer]) := by
    unfold Effects.record
    simp only [StateT.run] at plain ⊢
    rw [plain]
  rw [recorded, watched]
  refine ⟨rfl, rfl, fun heard => ?_⟩
  have heardBefore : ∀ act ∈ acts, act.Heard := fun act member => heard act (List.mem_append_left _ member)
  have unfailed : answer = none := heard (.told event answer) (by simp)
  rw [notes unfailed, noted heardBefore, eventsOf_append]
  rfl

/-- A host that notes what one listener is told does what the recorded host does. -/
theorem Host.noting_parallel {θ : Type} (host : Host η θ ω σ) (before : List (Listener σ))
    (listener : Listener σ) (after : List (Listener σ)) (hooks : HookRegistry θ) (config : RunConfig) :
    Effects.Parallel Notes ((host.telling (before ++ listener :: after)).effects hooks config).recorded
      ((host.noting before listener after).effects hooks config) where
  createWorld := corresponds_of_quiet .world fun _ => rfl
  setsOutlet := rfl
  runHooks scope context world := by
    change Corresponds Notes (Effects.record ((host.telling _).runHooks _ _ _ _) _)
      ((host.noting before listener after).runHooks _ _ _ _)
    rw [runHooks_noting, runHooks_telling]
    exact corresponds_of_quiet (.hooks scope context world) fun _ => rfl
  callHandler handler world arguments deadline :=
    corresponds_of_quiet (.handler handler world arguments deadline) fun _ => rfl
  notify event := corresponds_tellAll before listener after event

namespace Runner

variable {θ : Type}

/-- In a run that gives a result, every listener is told the tree of the results: a started event for each
finished one, properly nested, the steps that were executed, the scenarios and rows that were executed,
and the features, each in the order of the tree. Noting what a listener is told changes nothing. -/
theorem run_informs_listeners (r : Runner η θ) (host : Host η θ ω σ) (before : List (Listener σ))
    (listener : Listener σ) (after : List (Listener σ)) (documents : List Document) (state : σ)
    (result : RunResult)
    (returned : ((r.run (host.telling (before ++ listener :: after)) documents).run state).1.1 = .ok result) :
    ∃ acts next told,
      ((r.engine (host.telling (before ++ listener :: after))).recorded.run documents).run.run (state, []) =
        (.ok result, next, acts) ∧
      (r.run (host.noting before listener after) documents).run (state, []) =
        ((.ok result, { r with status := .ready }), next, told) ∧
      told.foldlM Event.track [] = some [] ∧
      told.filterMap Event.step? = result.executedSteps ∧
      told.filterMap Event.scenario? =
        (r.engine (host.telling (before ++ listener :: after))).executedScenarios documents acts result ∧
      told.filterMap Event.feature? = result.features := by
  obtain ⟨acts, next, kept, did⟩ := r.run_acts _ returned
  obtain ⟨tells, heard, _⟩ := did.relays
  let watched := (r.engine (host.noting before listener after)).run documents
  have whole : (r.run (host.noting before listener after) documents).run (state, []) =
      (((watched.run.run (state, [])).1, { r with status := .ready }), (watched.run.run (state, [])).2) := rfl
  have parallel := (r.engine (host.telling (before ++ listener :: after))).recorded.run_parallel
    (host.noting_parallel before listener after r.hooks r.config) documents (state, []) (state, [])
    ⟨rfl, fun _ => rfl⟩
  change _ = (watched.run.run (state, [])).1 ∧ Notes _ (watched.run.run (state, [])).2 at parallel
  rw [kept] at parallel
  rw [whole]
  generalize watched.run.run (state, []) = outcome at parallel
  obtain ⟨answer, other, told⟩ := outcome
  obtain ⟨rfl, rfl, noted⟩ := parallel
  have same : told = eventsOf acts := noted heard
  subst same
  exact ⟨acts, other, eventsOf acts, kept, rfl, tells.nested, tells.steps, tells.scenarios, tells.features⟩

/-- A listener to which nothing matters. -/
def indifferent : Listener Unit := fun _ => pure none

/-- Of two steps the second is skipped, and a listener hears of the first only. -/
theorem run_informs_listeners_undefined :
    ∃ (result : RunResult) (told : List Event),
      ((bare.run (Host.idle.telling ([] ++ indifferent :: [])) [countingDocument]).run ()).1.1 = .ok result ∧
      told.filterMap Event.step? = result.executedSteps ∧
      told.filterMap Event.feature? = result.features ∧
      told.map Event.name = ["feature_started", "scenario_started", "step_started", "step_finished",
        "scenario_finished", "feature_finished"] := by
  let noted := ((bare.run (Host.idle.noting [] indifferent []) [countingDocument]).run ((), [])).2.2
  have returns : ((bare.outcome (Host.idle.telling ([] ++ indifferent :: [])) [countingDocument]
      ()).toOption.any fun _ => true) = true := by
    decide +kernel
  have names : noted.map Event.name = ["feature_started", "scenario_started", "step_started",
      "step_finished", "scenario_finished", "feature_finished"] := by
    decide +kernel
  obtain ⟨result, returned, _⟩ := exists_of_toOption_any returns
  obtain ⟨acts, next, told, _, watched, _, steps, _, features⟩ :=
    run_informs_listeners bare Host.idle [] indifferent [] [countingDocument] () result returned
  have same : noted = told := congrArg (fun outcome => outcome.2.2) watched
  rw [same] at names
  exact ⟨result, told, returned, steps, features, names⟩

end Runner

end Gherkin
