import Mathlib
import Gherkin.Proofs.Run.Mirror

/-! # The parts of a run

A run is made of the scenarios that it executes, and a scenario of its steps. What holds of every executed
scenario holds throughout a run (`Gherkin.Engine.RunOf`), wherever the run ends; the acts of a scenario
are those in front of its steps, those of each step, and those behind them; and a world is handed from
call to call.
-/

namespace Gherkin

variable {η ω σ α β : Type}

/-- What is done about items in turn, and what comes of them: all of them, or those up to the first whose
result ends it. -/
inductive InTurn (done : α → List (Act η ω) → β → Prop) (ends : β → Bool) :
    List α → List (Act η ω) → List β → Prop
  | nil : InTurn done ends [] [] []
  | last {item : α} {rest : List α} {acts : List (Act η ω)} {result : β} (first : done item acts result)
      (stops : ends result = true) : InTurn done ends (item :: rest) acts [result]
  | next {item : α} {rest : List α} {acts more : List (Act η ω)} {result : β} {results : List β}
      (first : done item acts result) (goesOn : ends result = false)
      (others : InTurn done ends rest more results) :
      InTurn done ends (item :: rest) (acts ++ more) (result :: results)

namespace Engine

/-- A statement about a scenario or row that is executed: the steps of its backgrounds, its effective tags,
the scenario, the acts, and the result. -/
abbrev ScenarioProperty (η ω : Type) : Type :=
  List Step → List Text → Scenario → List (Act η ω) → ScenarioResult → Prop

variable (e : Engine η ω σ)

section Of

variable (property : ScenarioProperty η ω)

/-- What comes of a planned scenario, if what is executed has a property. -/
def PlannedOf : Planned → List (Act η ω) → ScenarioResult → Prop
  | .skipped tags scenario, acts, result => acts = [] ∧ result = skippedScenario tags scenario
  | .executed background tags _ scenario, acts, result => property background tags scenario acts result

/-- What comes of a feature, if what is executed in it has a property. If the hooks in front of it fail,
nothing is executed. -/
inductive FeatureOf (item : Feature × Option Text) : List (Act η ω) → FeatureResult → Prop
  | hooksFailed {before after : Call ω} {result : FeatureResult} (failed : before.failure ≠ none)
      (skipped : result.scenarios = item.1.placed.map fun placed =>
        skippedScenario placed.tags placed.scenario) :
      FeatureOf item
        [.told (.featureStarted item.1) none, .hooks .beforeFeature (featureContext item.1) none before,
          .hooks .afterFeature (featureContext item.1) none after, .told (.featureFinished result) none]
        result
  | planned {before after : Call ω} {middle : List (Act η ω)} {result : FeatureResult}
      (passed : before.failure = none)
      (ran : InTurn (PlannedOf property) (fun result => e.stopsAfter [result]) (e.plan item.1) middle
        result.scenarios) :
      FeatureOf item
        ([.told (.featureStarted item.1) none, .hooks .beforeFeature (featureContext item.1) none before] ++
          middle ++
          [.hooks .afterFeature (featureContext item.1) none after, .told (.featureFinished result) none])
        result

/-- What comes of a run, if every scenario and row that it executes has a property. -/
inductive RunOf (documents : List Document) : List (Act η ω) → RunResult → Prop
  | hooksFailed {before after : Call ω} {result : RunResult} (failed : before.failure ≠ none)
      (empty : result.features = []) :
      RunOf documents [.hooks .beforeAll {} none before, .hooks .afterAll {} none after] result
  | ran {before after : Call ω} {middle : List (Act η ω)} {result : RunResult}
      (passed : before.failure = none)
      (features : InTurn (FeatureOf e property) e.endsWith (featuresOf documents) middle result.features) :
      RunOf documents ([.hooks .beforeAll {} none before] ++ middle ++ [.hooks .afterAll {} none after])
        result

end Of

variable {e} {property : ScenarioProperty η ω}

/-! ### Runs of scenarios with a property -/

section Lifting

variable (holds : ∀ featureName background tags row scenario acts result,
  e.ScenarioActs featureName background tags row scenario acts result →
    property background tags scenario acts result)

include holds

theorem PlanActs.of {featureName : Text} {plan : List Planned} {acts : List (Act η ω)}
    {results : List ScenarioResult} (did : e.PlanActs featureName plan acts results) :
    InTurn (PlannedOf property) (fun result => e.stopsAfter [result]) plan acts results := by
  induction did with
  | nil => exact .nil
  | @skipped tags scenario _ _ _ _ ih =>
    have passedOver : PlannedOf property (.skipped tags scenario) [] (skippedScenario tags scenario) :=
      ⟨rfl, rfl⟩
    exact .next passedOver (e.stopsAfter_skipped _ _) ih
  | last first stops => exact .last (holds _ _ _ _ _ _ _ first) stops
  | executed first goesOn _ ih => exact .next (holds _ _ _ _ _ _ _ first) goesOn ih

theorem FeatureActs.of {item : Feature × Option Text} {acts : List (Act η ω)} {result : FeatureResult}
    (did : e.FeatureActs item.1 item.2 acts result) : e.FeatureOf property item acts result := by
  obtain ⟨ran, rfl⟩ := did
  rename_i before after middle scenarios
  cases passed : before.failure with
  | some failure =>
    rw [passed] at ran
    cases ran with
    | hooksFailed => exact .hooksFailed (by simp [passed]) (skippedFeature_eq item.1)
  | none =>
    rw [passed] at ran
    cases ran with
    | planned ran => exact .planned passed (ran.of holds)

theorem FeaturesActs.of {features : List (Feature × Option Text)} {acts : List (Act η ω)}
    {results : List FeatureResult} (did : e.FeaturesActs features acts results) :
    InTurn (e.FeatureOf property) e.endsWith features acts results := by
  induction did with
  | nil => exact .nil
  | last first stops => exact .last (first.of holds) stops
  | next first goesOn _ ih => exact .next (first.of holds) goesOn ih

/-- What holds of all that is done about a scenario holds throughout a run. -/
theorem RunActs.of {documents : List Document} {acts : List (Act η ω)} {result : RunResult}
    (did : e.RunActs documents acts result) : e.RunOf property documents acts result := by
  obtain ⟨ran, rfl⟩ := did
  rename_i before after middle features
  cases passed : before.failure with
  | some failure =>
    rw [passed] at ran
    cases ran with
    | hooksFailed => exact .hooksFailed (by simp [passed]) rfl
  | none =>
    rw [passed] at ran
    cases ran with
    | ran ran => exact .ran passed (ran.of holds)

end Lifting

/-! ### The steps of a scenario -/

variable (e) in
/-- What is done about a step of a scenario, and its result. -/
inductive StepDone (tags : List Text) (item : Step × StepType) : List (Act η ω) × StepResult → Prop
  | skipped : StepDone tags item ([], skippedStep item.1)
  | ran {scene next : Scene ω} {acts : List (Act η ω)} {result : StepResult}
      (did : e.StepActs tags scene item.1 item.2 acts (result, next)) : StepDone tags item (acts, result)

theorem StepsActs.parts {tags : List Text} {halted : Bool} {scene last : Scene ω}
    {items : List (Step × StepType)} {acts : List (Act η ω)} {results : List StepResult}
    (did : e.StepsActs tags halted scene items acts (results, last)) :
    ∃ parts, acts = parts.flatMap Prod.fst ∧ results = parts.map Prod.snd ∧
      List.Forall₂ (e.StepDone tags) items parts := by
  generalize same : (results, last) = outcome at did
  induction did generalizing results last with
  | nil =>
    cases same
    exact ⟨[], rfl, rfl, .nil⟩
  | @skipped _ _ step _ _ _ _ _ ih =>
    cases same
    obtain ⟨parts, rfl, rfl, done⟩ := ih rfl
    exact ⟨([], skippedStep step) :: parts, rfl, rfl, .cons .skipped done⟩
  | @run _ _ _ _ _ _ acts _ result _ first _ _ ih =>
    cases same
    obtain ⟨parts, rfl, rfl, done⟩ := ih rfl
    exact ⟨(acts, result) :: parts, rfl, rfl, .cons (.ran first) done⟩

/-! ### Worlds -/

end Engine

/-- The world that an act works on. -/
def Act.given? : Act η ω → Option (Option ω)
  | .hooks _ _ given _ => some given
  | .handler _ given _ _ _ => some given
  | _ => none

/-- The world after an act. -/
def Act.handsOn (world : Option ω) : Act η ω → Option ω
  | .world answer => answer.toOption.join
  | .hooks _ _ _ call => call.world
  | .handler _ _ _ _ call => call.world
  | .told _ _ => world

/-- Whether each act works on the world that those before it hand on. -/
inductive Threaded : Option ω → List (Act η ω) → Option ω → Prop
  | nil {world : Option ω} : Threaded world [] world
  | cons {world last : Option ω} {act : Act η ω} {rest : List (Act η ω)}
      (takes : ∀ given ∈ act.given?, given = world) (others : Threaded (act.handsOn world) rest last) :
      Threaded world (act :: rest) last

theorem Threaded.append {world next last : Option ω} {acts more : List (Act η ω)}
    (first : Threaded world acts next) (second : Threaded next more last) :
    Threaded world (acts ++ more) last := by
  induction first with
  | nil => exact second
  | cons takes _ ih => exact .cons takes (ih second)

namespace Engine

variable {e : Engine η ω σ}

theorem ExecuteActs.threaded {tags : List Text} {step : Step} {type : StepType} {before : Call ω}
    {acts : List (Act η ω)} {invocation : Invocation ω}
    (did : e.ExecuteActs tags step type before acts invocation) :
    Threaded before.world acts invocation.call.world := by
  cases did with
  | hooksFailed _ => exact .nil
  | undefined _ _ _ _ => exact .nil
  | called _ _ => exact .cons (by rintro _ ⟨⟩; rfl) .nil

theorem StepActs.threaded {tags : List Text} {scene next : Scene ω} {step : Step} {type : StepType}
    {acts : List (Act η ω)} {result : StepResult}
    (did : e.StepActs tags scene step type acts (result, next)) : Threaded scene.world acts next.world := by
  obtain ⟨executed, rfl, _⟩ := did
  refine .append (.append ?_ executed.threaded) ?_
  · exact .cons (by rintro _ ⟨⟩) (.cons (by rintro _ ⟨⟩; rfl) .nil)
  · exact .cons (by rintro _ ⟨⟩; rfl) (.cons (by rintro _ ⟨⟩) .nil)

theorem StepsActs.threaded {tags : List Text} {halted : Bool} {scene last : Scene ω}
    {items : List (Step × StepType)} {acts : List (Act η ω)} {results : List StepResult}
    (did : e.StepsActs tags halted scene items acts (results, last)) :
    Threaded scene.world acts last.world := by
  generalize same : (results, last) = outcome at did
  induction did generalizing results last with
  | nil =>
    cases same
    exact .nil
  | skipped _ ih =>
    cases same
    exact ih rfl
  | run first _ _ ih =>
    cases same
    exact first.threaded.append (ih rfl)

theorem EnterActs.threaded {context : HookContext} {acts : List (Act η ω)} {hookError : Option Failure}
    {world : Option ω} (entered : EnterActs context acts (hookError, world)) : Threaded none acts world := by
  cases entered with
  | noWorld => exact .cons (by rintro _ ⟨⟩) .nil
  | entered => exact .cons (by rintro _ ⟨⟩) (.cons (by rintro _ ⟨⟩; rfl) .nil)

/-- A scenario starts without a world. -/
theorem ScenarioActs.threaded {featureName : Text} {background : List Step} {tags : List Text}
    {row : Option ExampleRow} {scenario : Scenario} {acts : List (Act η ω)} {result : ScenarioResult}
    (did : e.ScenarioActs featureName background tags row scenario acts result) :
    ∃ last, Threaded none acts last := by
  obtain @⟨_, _, _, _, _, _, _, after, _, entered, ran, _, _⟩ := did
  refine ⟨after.world, .append (.append (.append ?_ entered.threaded) ran.threaded) ?_⟩
  · exact .cons (by rintro _ ⟨⟩) .nil
  · exact .cons (by rintro _ ⟨⟩; rfl) (.cons (by rintro _ ⟨⟩) .nil)

end Engine

end Gherkin
