import Mathlib
import Gherkin.Proofs.Run.Isolation

/-! # Scenarios that go on after a failure

Whether scenarios go on after a step that failed or was undefined decides only what becomes of the steps behind it.
If handlers and hooks depend on nothing but what they are given and the world of their scenario, a run in which
scenarios stop there gives the scenarios of a run in which they go on, and in each the same results of steps up to
the first that failed or was undefined, and skipped steps behind it (`Gherkin.Runner.run_keepGoing_extends`). Up to
that step a scenario is in the same world in both runs.
-/

namespace Gherkin

variable {η θ ω σ : Type}

/-! ### Halted results -/

/-- The result of the same step if it is skipped. -/
def StepResult.skip (result : StepResult) : StepResult :=
  { keyword := result.keyword, text := result.text, status := .skipped, line := result.line }

/-- The results of steps if those behind the first that failed or was undefined are skipped. -/
def haltedAt : List StepResult → List StepResult
  | [] => []
  | result :: rest =>
      if result.status = .failed ∨ result.status = .undefined then result :: rest.map StepResult.skip
      else result :: haltedAt rest

theorem haltedAt_eq_self {results : List StepResult}
    (goesOn : ∀ result ∈ results, result.status ≠ .failed ∧ result.status ≠ .undefined) :
    haltedAt results = results := by
  induction results with
  | nil => rfl
  | cons result rest ih =>
    rw [List.forall_mem_cons, ← not_or] at goesOn
    rw [haltedAt, if_neg goesOn.1, ih goesOn.2]

/-- Skipped steps are determined by the places of the steps. -/
theorem skip_eq_skippedStep {results : List StepResult} {steps : List Step}
    (places : results.map StepResult.place = steps.map Step.place) :
    results.map StepResult.skip = steps.map Engine.skippedStep := by
  let atPlace (place : Text × Text × Option Nat) : StepResult :=
    { keyword := place.1, text := place.2.1, status := .skipped, line := place.2.2 }
  have skipped : results.map StepResult.skip = (results.map StepResult.place).map atPlace := by
    rw [List.map_map]
    rfl
  rw [skipped, places, List.map_map]
  rfl

/-- What the results of a scenario have in common however its steps end. -/
def ScenarioResult.place (result : ScenarioResult) :
    Text × List Text × Option Nat × Option Nat × Option Record × List (Text × Text × Option Nat) :=
  (result.name, result.tags, result.line, result.exampleIndex, result.exampleValues,
    result.steps.map StepResult.place)

/-- Whether a world can be made for a scenario and the hooks in front of the scenario succeed in it. -/
def Effects.Enters (effects : Effects η ω σ) (featureName : Text) (result : ScenarioResult) : Prop :=
  ∃ world call, effects.Gives (.world (.ok world)) ∧ call.failure = none ∧
    effects.Gives (.hooks .beforeScenario
      { featureName := some featureName, scenarioName := some result.name, scenarioTags := some result.tags }
      world call)

/-- Whether two results are of one scenario, and the first is the second with the steps behind a failure skipped if
the scenario can be entered. -/
structure Effects.Halts (effects : Effects η ω σ) (featureName : Text) (halted whole : ScenarioResult) : Prop where
  place : halted.place = whole.place
  steps : effects.Enters featureName halted → halted.steps = haltedAt whole.steps
  same : effects.Enters featureName halted →
    (∀ step ∈ whole.steps, step.status ≠ .failed ∧ step.status ≠ .undefined) → halted.steps = whole.steps

theorem Effects.Halts.of_haltedAt {effects : Effects η ω σ} {featureName : Text} {halted whole : ScenarioResult}
    (place : halted.place = whole.place)
    (steps : effects.Enters featureName halted → halted.steps = haltedAt whole.steps) :
    effects.Halts featureName halted whole :=
  ⟨place, steps, fun entered goesOn => (steps entered).trans (haltedAt_eq_self goesOn)⟩

/-- Whether two results are of one feature, and so scenario by scenario. -/
def Effects.HaltsFeature (effects : Effects η ω σ) (halted whole : FeatureResult) : Prop :=
  halted.name = whole.name ∧ halted.tags = whole.tags ∧ halted.uri = whole.uri ∧
    List.Forall₂ (effects.Halts halted.name) halted.scenarios whole.scenarios

/-! ### Acts of both runs -/

namespace Engine

variable {e : Engine η ω σ}

variable (e) in
/-- The engine with another setting for whether scenarios go on after a failure. -/
def withKeepGoing (value : Value) : Engine η ω σ := { e with config := { e.config with keepGoing := value } }

theorem withKeepGoing_keepsGoing (value : Value) : (e.withKeepGoing value).keepsGoing = value.isTrue := rfl

theorem ExecuteActs.ofKeepGoing {value : Value} {tags : List Text} {step : Step} {type : StepType} {before : Call ω}
    {acts : List (Act η ω)} {invocation : Invocation ω}
    (did : (e.withKeepGoing value).ExecuteActs tags step type before acts invocation) :
    e.ExecuteActs tags step type before acts invocation := by
  cases did with
  | hooksFailed failed => exact .hooksFailed failed
  | undefined passed unmatched limited suggested => exact .undefined passed unmatched limited suggested
  | called passed matched => exact .called passed matched

/-- What is done about a step does not depend on the setting. -/
theorem StepActs.ofKeepGoing {value : Value} {tags : List Text} {scene : Scene ω} {step : Step} {type : StepType}
    {acts : List (Act η ω)} {outcome : StepResult × Scene ω}
    (did : (e.withKeepGoing value).StepActs tags scene step type acts outcome) :
    e.StepActs tags scene step type acts outcome := by
  obtain ⟨executed, followed, resulted⟩ := did
  exact .intro executed.ofKeepGoing followed resulted

theorem StepsActs.skips {tags : List Text} {scene last : Scene ω} {items : List (Step × StepType)}
    {acts : List (Act η ω)} {results : List StepResult}
    (did : e.StepsActs tags true scene items acts (results, last)) :
    results = (items.map Prod.fst).map skippedStep := by
  induction items generalizing acts results last with
  | nil =>
    cases did
    rfl
  | cons item rest ih =>
    cases did with
    | skipped others => rw [ih others, List.map_cons, List.map_cons]

variable (stateless : e.effects.Stateless) {stop go : Value} (stops : stop.isTrue = false) (goes : go.isTrue = true)

include stateless stops goes

/-- Steps that begin in one world have the same results up to the first that failed or was undefined. -/
theorem StepsActs.haltedAt {tags : List Text} {scene last lastWhole : Scene ω} {items : List (Step × StepType)}
    {acts more : List (Act η ω)} {results whole : List StepResult}
    (did : (e.withKeepGoing stop).StepsActs tags false scene items acts (results, last))
    (gives : ∀ act ∈ acts, e.effects.Gives act)
    (again : (e.withKeepGoing go).StepsActs tags false scene items more (whole, lastWhole))
    (givesMore : ∀ act ∈ more, e.effects.Gives act) : results = haltedAt whole := by
  induction items generalizing scene acts more results whole with
  | nil =>
    cases did
    cases again
    rfl
  | cons item rest ih =>
    cases did with
    | run first _ others =>
    rename_i result _ _
    cases again with
    | run firstAgain _ othersAgain =>
    rw [List.forall_mem_append] at gives givesMore
    cases first.ofKeepGoing.unique stateless gives.1 firstAgain.ofKeepGoing givesMore.1
    have goesOn (status : Status) : (e.withKeepGoing go).halts status = false := by
      rw [halts, withKeepGoing_keepsGoing, goes, Bool.not_true, Bool.and_false]
    rw [goesOn] at othersAgain
    rw [Gherkin.haltedAt]
    by_cases failed : result.status = .failed ∨ result.status = .undefined
    · have halted : (e.withKeepGoing stop).halts result.status = true := by
        simpa [halts, withKeepGoing_keepsGoing, stops] using failed
      rw [halted] at others
      rw [if_pos failed, others.skips, skip_eq_skippedStep othersAgain.places]
    · have unhalted : (e.withKeepGoing stop).halts result.status = false := by
        simpa [halts, withKeepGoing_keepsGoing, stops] using failed
      rw [unhalted] at others
      rw [if_neg failed, ih others gives.2 othersAgain givesMore.2]

theorem ScenarioActs.halts {featureName : Text} {background : List Step} {tags : List Text}
    {row : Option ExampleRow} {scenario : Scenario} {acts more : List (Act η ω)} {result whole : ScenarioResult}
    (did : (e.withKeepGoing stop).ScenarioActs featureName background tags row scenario acts result)
    (gives : ∀ act ∈ acts, e.effects.Gives act)
    (again : (e.withKeepGoing go).ScenarioActs featureName background tags row scenario more whole)
    (givesMore : ∀ act ∈ more, e.effects.Gives act) : e.effects.Halts featureName result whole := by
  obtain ⟨entered, ran, -, rfl⟩ := did
  obtain ⟨enteredAgain, ranAgain, -, rfl⟩ := again
  simp only [List.forall_mem_append, List.forall_mem_cons] at gives givesMore
  obtain ⟨⟨⟨_, entry⟩, middle⟩, -⟩ := gives
  obtain ⟨⟨⟨_, entryAgain⟩, middleAgain⟩, -⟩ := givesMore
  cases entered.unique stateless entry enteredAgain entryAgain
  have places := ran.places.trans ranAgain.places.symm
  apply Effects.Halts.of_haltedAt
  · simp only [ScenarioResult.place, places]
  rintro ⟨fresh, call, made, passed, hooked⟩
  -- Both runs enter the scenario as this world and these hooks say.
  cases entered with
  | noWorld => cases stateless.world_unique made (entry _ List.mem_cons_self)
  | entered =>
    cases stateless.world_unique made (entry _ List.mem_cons_self)
    rw [List.forall_mem_cons, List.forall_mem_singleton] at entry
    obtain rfl := stateless.hooks_unique hooked entry.2
    rw [passed] at ran ranAgain
    exact ran.haltedAt stateless stops goes middle ranAgain middleAgain

theorem PlanActs.halts (patient : e.failsFast = false) {featureName : Text} {plan : List Planned}
    {acts more : List (Act η ω)} {results whole : List ScenarioResult}
    (did : (e.withKeepGoing stop).PlanActs featureName plan acts results) (gives : ∀ act ∈ acts, e.effects.Gives act)
    (again : (e.withKeepGoing go).PlanActs featureName plan more whole)
    (givesMore : ∀ act ∈ more, e.effects.Gives act) :
    List.Forall₂ (e.effects.Halts featureName) results whole := by
  have goesOn (value : Value) (results : List ScenarioResult) :
      (e.withKeepGoing value).stopsAfter results = false := by
    rw [stopsAfter, show (e.withKeepGoing value).failsFast = false from patient, Bool.false_and]
  induction did generalizing more whole with
  | nil =>
    cases again
    exact .nil
  | skipped _ ih =>
    cases again with
    | skipped later => exact .cons (.of_haltedAt rfl fun _ => rfl) (ih gives later givesMore)
  | last _ stops => cases (goesOn _ _).symm.trans stops
  | executed first _ _ ih =>
    cases again with
    | last _ stops => cases (goesOn _ _).symm.trans stops
    | executed firstAgain _ later =>
      rw [List.forall_mem_append] at gives givesMore
      exact .cons (first.halts stateless stops goes gives.1 firstAgain givesMore.1) (ih gives.2 later givesMore.2)

theorem FeatureActs.halts (patient : e.failsFast = false) {feature : Feature} {uri : Option Text}
    {acts more : List (Act η ω)} {result whole : FeatureResult}
    (did : (e.withKeepGoing stop).FeatureActs feature uri acts result) (gives : ∀ act ∈ acts, e.effects.Gives act)
    (again : (e.withKeepGoing go).FeatureActs feature uri more whole)
    (givesMore : ∀ act ∈ more, e.effects.Gives act) : e.effects.HaltsFeature result whole := by
  obtain ⟨ran, rfl⟩ := did
  rename_i before _ _ _
  obtain ⟨ranAgain, rfl⟩ := again
  simp only [List.forall_mem_append, List.forall_mem_cons] at gives givesMore
  obtain ⟨⟨⟨_, hooked, _⟩, middle⟩, -⟩ := gives
  obtain ⟨⟨⟨_, hookedAgain, _⟩, middleAgain⟩, -⟩ := givesMore
  obtain rfl := stateless.hooks_unique hooked hookedAgain
  refine ⟨rfl, rfl, rfl, ?_⟩
  cases passed : before.failure with
  | some failure =>
    rw [passed] at ran ranAgain
    cases ran
    cases ranAgain
    have empty : ∀ result ∈ skippedFeature feature, result.steps = haltedAt result.steps := by
      rw [skippedFeature_eq, List.forall_mem_map]
      exact fun _ _ => rfl
    exact List.forall₂_same.mpr fun result member => .of_haltedAt rfl fun _ => empty result member
  | none =>
    rw [passed] at ran ranAgain
    cases ran with
    | planned ran =>
    cases ranAgain with
    | planned ranAgain => exact ran.halts stateless stops goes patient middle ranAgain middleAgain

theorem FeaturesActs.halts (patient : e.failsFast = false) {features : List (Feature × Option Text)}
    {acts more : List (Act η ω)} {results whole : List FeatureResult}
    (did : (e.withKeepGoing stop).FeaturesActs features acts results) (gives : ∀ act ∈ acts, e.effects.Gives act)
    (again : (e.withKeepGoing go).FeaturesActs features more whole)
    (givesMore : ∀ act ∈ more, e.effects.Gives act) :
    List.Forall₂ e.effects.HaltsFeature results whole := by
  have goesOn (value : Value) (result : FeatureResult) : (e.withKeepGoing value).endsWith result = false := by
    rw [endsWith, show (e.withKeepGoing value).failsFast = false from patient, Bool.false_and]
  induction did generalizing more whole with
  | nil =>
    cases again
    exact .nil
  | last _ stops => cases (goesOn _ _).symm.trans stops
  | next first _ _ ih =>
    cases again with
    | last _ stops => cases (goesOn _ _).symm.trans stops
    | next firstAgain _ later =>
      rw [List.forall_mem_append] at gives givesMore
      exact .cons (first.halts stateless stops goes patient gives.1 firstAgain givesMore.1)
        (ih gives.2 later givesMore.2)

theorem RunActs.halts (patient : e.failsFast = false) {documents : List Document}
    {acts more : List (Act η ω)} {result whole : RunResult}
    (did : (e.withKeepGoing stop).RunActs documents acts result) (gives : ∀ act ∈ acts, e.effects.Gives act)
    (again : (e.withKeepGoing go).RunActs documents more whole) (givesMore : ∀ act ∈ more, e.effects.Gives act) :
    List.Forall₂ e.effects.HaltsFeature result.features whole.features := by
  obtain ⟨ran, rfl⟩ := did
  rename_i before _ _ _
  obtain ⟨ranAgain, rfl⟩ := again
  simp only [List.forall_mem_append, List.forall_mem_cons] at gives givesMore
  obtain ⟨⟨⟨hooked, _⟩, middle⟩, -⟩ := gives
  obtain ⟨⟨⟨hookedAgain, _⟩, middleAgain⟩, -⟩ := givesMore
  obtain rfl := stateless.hooks_unique hooked hookedAgain
  cases passed : before.failure with
  | some failure =>
    rw [passed] at ran ranAgain
    cases ran
    cases ranAgain
    exact .nil
  | none =>
    rw [passed] at ran ranAgain
    cases ran with
    | ran features =>
    cases ranAgain with
    | ran featuresAgain => exact features.halts stateless stops goes patient middle featuresAgain middleAgain

end Engine

/-! ### Runners -/

theorem HookRegistry.select_empty (scope : HookScope) (tags : List Text) :
    (empty : HookRegistry θ).select scope tags = [] := by
  simp [select, empty]

namespace Runner

/-- The runner with another setting for whether scenarios go on after a failure. -/
def withKeepGoing (r : Runner η θ) (value : Value) : Runner η θ :=
  { r with config := { r.config with keepGoing := value } }

/-- Of two runs that differ only in whether scenarios go on after a failure, with handlers and hooks that depend only
on what they are given, both give the same scenarios. In each scenario that can be entered, the one that does not go
on gives the results of the one that does, up to the first step that failed or was undefined, and skips the steps
behind it. -/
theorem run_keepGoing_extends (r : Runner η θ) (host : Host η θ ω σ) (isolated : host.Isolated)
    (patient : r.config.failFast.isTrue = false) (stop go : Value) (stops : stop.isTrue = false)
    (goes : go.isTrue = true) (documents : List Document) (state other : σ) (result whole : RunResult)
    (returned : (((r.withKeepGoing stop).run host documents).run state).1.1 = .ok result)
    (returnedWhole : (((r.withKeepGoing go).run host documents).run other).1.1 = .ok whole) :
    List.Forall₂ (host.effects r.hooks r.config).HaltsFeature result.features whole.features := by
  obtain ⟨acts, _, _, gives, did⟩ := run_gives (r.withKeepGoing stop) host returned
  obtain ⟨more, _, _, givesMore, again⟩ := run_gives (r.withKeepGoing go) host returnedWhole
  have stateless : (r.engine host).effects.Stateless := isolated.effects r.hooks r.config
  exact @Engine.RunActs.halts _ _ _ (r.engine host) stateless stop go stops goes patient _ _ _ _ _ did gives again
    givesMore

/-- Without hooks every scenario can be entered. -/
theorem tallying_enters (config : RunConfig) (name : Text) (scenario : ScenarioResult) :
    (tallying.effects .empty config).Enters name scenario := by
  refine ⟨some 0, .idle (some 0), ⟨(), rfl⟩, rfl, (), ?_⟩
  simp only [Host.effects, HookRegistry.select_empty]
  rfl

/-- A document with one scenario, which takes a step three times. -/
def thriceDocument : Document where
  feature := some {
    keyword := "Feature", name := "f", description := "", tags := [], line := 1, language := "en"
    children := [.element (.scenario {
      keyword := "Scenario", name := "s", description := "", tags := [], examples := [], line := 2
      isOutline := false
      steps := [⟨"Given", .context, "a", none, none, 3⟩, ⟨"And", .conjunction, "a", none, none, 4⟩,
        ⟨"And", .conjunction, "a", none, none, 5⟩] })] }
  comments := []
  uri := none
  diagnostics := []

/-- The statuses of steps, scenario by scenario. -/
def stepStatuses (result : RunResult) : List (List Status) :=
  (result.features.flatMap FeatureResult.scenarios).map fun scenario => scenario.steps.map StepResult.status

/-- Behind the second step, which fails, the third runs only if the scenario goes on. -/
theorem run_keepGoing_extends_third_step :
    ∃ (steps : StepRegistry Unit) (runner : Runner Unit Unit) (result whole : RunResult),
      repeatingSteps = .ok steps ∧ runner = plain steps ∧
      tallying.Isolated ∧ runner.config.failFast.isTrue = false ∧
      (Value.bool false).isTrue = false ∧ (Value.bool true).isTrue = true ∧
      (((runner.withKeepGoing (.bool false)).run tallying [thriceDocument]).run ()).1.1 = .ok result ∧
      (((runner.withKeepGoing (.bool true)).run tallying [thriceDocument]).run ()).1.1 = .ok whole ∧
      stepStatuses result = [[.passed, .failed, .skipped]] ∧ stepStatuses whole = [[.passed, .failed, .failed]] ∧
      (∀ name scenario, (tallying.effects runner.hooks runner.config).Enters name scenario) ∧
      List.Forall₂ (tallying.effects runner.hooks runner.config).HaltsFeature result.features whole.features := by
  have shape : (repeatingSteps.toOption.any fun steps =>
      ((((plain steps).withKeepGoing (.bool false)).outcome tallying [thriceDocument] ()).toOption.any fun result =>
        stepStatuses result == [[.passed, .failed, .skipped]]) &&
      (((plain steps).withKeepGoing (.bool true)).outcome tallying [thriceDocument] ()).toOption.any fun whole =>
        stepStatuses whole == [[.passed, .failed, .failed]]) = true := by
    decide +kernel
  obtain ⟨steps, built, shape⟩ := exists_of_toOption_any shape
  rw [Bool.and_eq_true] at shape
  obtain ⟨result, returned, halted⟩ := exists_of_toOption_any shape.1
  obtain ⟨whole, returnedWhole, went⟩ := exists_of_toOption_any shape.2
  have extended := run_keepGoing_extends (plain steps) tallying tallying_isolated rfl (.bool false)
    (.bool true) rfl rfl [thriceDocument] () () result whole returned returnedWhole
  exact ⟨steps, _, result, whole, built, rfl, tallying_isolated, rfl, rfl, rfl, returned, returnedWhole,
    beq_iff_eq.mp halted, beq_iff_eq.mp went, tallying_enters _, extended⟩

end Runner

end Gherkin
