import Mathlib
import Gherkin.Proofs.Run.Lifecycle
import Gherkin.Run.Runner

/-! # Runs that give a result

A run gives a result for all behaviours of handlers, hooks and worlds exactly when no step that it can
reach has an argument whose conversion fails, or is followed by a pause that cannot be taken
(`Gherkin.Runner.run_returns_iff`). That the condition is needed is seen from a host on which nothing
fails: on it every step that can be reached is reached.
-/

namespace Gherkin

/-- Whether nothing failed in an act. -/
def Act.Succeeded {η ω : Type} : Act η ω → Prop
  | .world answer => ∃ world, answer = .ok world
  | .hooks _ _ _ call => call.failure = none
  | .handler _ _ _ _ call => call.failure = none
  | .told _ failure => failure = none

/-- A scenario fails exactly if a hook or one of its steps did. -/
theorem scenarioStatus_eq_failed_iff {steps : List Status} {hookFailed : Bool} :
    scenarioStatus steps hookFailed = .failed ↔ hookFailed = true ∨ .failed ∈ steps := by
  unfold scenarioStatus
  by_cases failed : hookFailed = true ∨ .failed ∈ steps
  · simp [failed]
  · simp only [Bool.or_eq_true, List.contains_iff_mem, failed, if_false, iff_false]
    split
    · rintro ⟨⟩
    · split <;> rintro ⟨⟩

theorem featureStatus_eq_failed_iff {scenarios : List Status} {hookFailed : Bool} :
    featureStatus scenarios hookFailed = .failed ↔ hookFailed = true ∨ .failed ∈ scenarios := by
  unfold featureStatus
  by_cases failed : hookFailed = true ∨ .failed ∈ scenarios
  · simp [failed]
  · simp only [Bool.or_eq_true, List.contains_iff_mem, failed, if_false, iff_false]
    split <;> rintro ⟨⟩

theorem scenarioStatus_ne_failed {steps : List Status} (unfailed : Status.failed ∉ steps) :
    scenarioStatus steps false ≠ .failed := by
  simp [scenarioStatus_eq_failed_iff, unfailed]

theorem featureStatus_ne_failed {scenarios : List Status} (unfailed : Status.failed ∉ scenarios) :
    featureStatus scenarios false ≠ .failed := by
  simp [featureStatus_eq_failed_iff, unfailed]

namespace Engine

variable {η ω σ : Type} {e : Engine η ω σ}

variable (e) in
/-- Whether a step comes to a status: its arguments can be converted if a definition fits it, and then the
pause after it can be taken. -/
def Settles (tags : List Text) (step : Step) (type : StepType) : Prop :=
  ∃ found, e.matchOf tags step type = .ok found ∧ (found.isSome → e.config.pauseFailure = none)

/-! ### Runs in which nothing fails -/

/-- If nothing fails at a step, it settles, and its status tells whether it was matched. -/
theorem StepActs.settles {tags : List Text} {scene next : Scene ω} {step : Step} {type : StepType}
    {acts : List (Act η ω)} {result : StepResult} (did : e.StepActs tags scene step type acts (result, next))
    (paused : result.status = .passed → e.config.pauseFailure = none)
    (succeeded : ∀ act ∈ acts, act.Succeeded) :
    e.Settles tags step type ∧
      (result.status = .passed ∨ result.status = .undefined ∧ e.matchOf tags step type = .ok none) := by
  obtain ⟨executed, rfl, rfl⟩ := did
  cases executed with
  | hooksFailed failed =>
    have passed := succeeded _ (List.mem_append_left _ (List.mem_append_left _ (.tail _ (.head _))))
    rw [show _ = none from passed] at failed
    cases failed
  | undefined _ unmatched _ _ => exact ⟨⟨none, unmatched, by rintro ⟨⟩⟩, .inr ⟨rfl, unmatched⟩⟩
  | called _ matched =>
    have passed := succeeded _ (List.mem_append_left _ (List.mem_append_right _ (.head _)))
    have status : statusOfCall _ = .passed := congrArg statusOfCall passed
    exact ⟨⟨some _, matched, fun _ => paused status⟩, .inl status⟩

/-- If all calls succeed, no step fails, and every step that is reached settles. -/
theorem StepsActs.settles {tags : List Text} {halted : Bool} {scene last : Scene ω}
    {items : List (Step × StepType)} {acts : List (Act η ω)} {results : List StepResult}
    (did : e.StepsActs tags halted scene items acts (results, last))
    (succeeded : ∀ act ∈ acts, act.Succeeded) :
    (∀ result ∈ results, result.status ≠ .failed) ∧
      (halted = false → ∀ item, e.Reaches tags items item → e.Settles tags item.1 item.2) := by
  generalize same : (results, last) = outcome at did
  induction did generalizing results last with
  | nil =>
    cases same
    exact ⟨List.forall_mem_nil _, by rintro _ item ⟨⟩⟩
  | skipped _ ih =>
    cases same
    refine ⟨?_, by rintro ⟨⟩⟩
    intro result member
    obtain rfl | member := List.mem_cons.mp member
    · rintro ⟨⟩
    · exact (ih succeeded rfl).1 result member
  | run first paused _ ih =>
    cases same
    obtain ⟨settles, status⟩ := first.settles paused fun act member =>
      succeeded act (List.mem_append_left _ member)
    obtain ⟨unfailed, others⟩ := ih (fun act member => succeeded act (List.mem_append_right _ member)) rfl
    refine ⟨?_, fun _ item reaches => ?_⟩
    · intro result member
      obtain rfl | member := List.mem_cons.mp member
      · obtain passed | ⟨undefined, _⟩ := status
        · rw [passed]
          rintro ⟨⟩
        · rw [undefined]
          rintro ⟨⟩
      · exact unfailed result member
    · cases reaches with
      | here => exact settles
      | later passes reaches =>
        refine others ?_ item reaches
        obtain passed | ⟨undefined, unmatched⟩ := status
        · rw [passed]
          rfl
        · obtain goesOn | ⟨found, matched⟩ := passes
          · simp [halts, goesOn]
          · rw [matched] at unmatched
            cases unmatched

/-- If all calls succeed, a scenario does not fail, and every step of it that is reached settles. -/
theorem ScenarioActs.settles {featureName : Text} {background : List Step} {tags : List Text}
    {row : Option ExampleRow} {scenario : Scenario} {acts : List (Act η ω)} {result : ScenarioResult}
    (did : e.ScenarioActs featureName background tags row scenario acts result)
    (succeeded : ∀ act ∈ acts, act.Succeeded) :
    result.status ≠ .failed ∧ ∀ item, e.Reaches tags (withRoles (background ++ scenario.steps)) item →
      e.Settles tags item.1 item.2 := by
  obtain ⟨entered, ran, rfl, rfl⟩ := did
  rename_i entry middle hookError _ _ steps after
  simp only [List.forall_mem_append, List.forall_mem_cons, Act.Succeeded] at succeeded
  obtain ⟨⟨⟨_, entry⟩, middle⟩, passed, _⟩ := succeeded
  have unhooked : hookError = none := by
    cases entered with
    | noWorld =>
      obtain ⟨_, impossible⟩ := entry _ (.head _)
      cases impossible
    | entered => exact entry _ (.tail _ (.head _))
  subst unhooked
  obtain ⟨unfailed, settles⟩ := ran.settles middle
  refine ⟨?_, settles rfl⟩
  have noneFailed : Status.failed ∉ steps.map StepResult.status := by
    intro member
    obtain ⟨result, member, failed⟩ := List.mem_map.mp member
    exact unfailed result member failed
  simp only [conclude, passed]
  exact scenarioStatus_ne_failed noneFailed

theorem PlanActs.settles {featureName : Text} {plan : List Planned} {acts : List (Act η ω)}
    {results : List ScenarioResult} (did : e.PlanActs featureName plan acts results)
    (succeeded : ∀ act ∈ acts, act.Succeeded) :
    (∀ result ∈ results, result.status ≠ .failed) ∧
      ∀ background tags row scenario, Planned.executed background tags row scenario ∈ plan →
        ∀ item, e.Reaches tags (withRoles (background ++ scenario.steps)) item →
          e.Settles tags item.1 item.2 := by
  induction did with
  | nil => exact ⟨List.forall_mem_nil _, by rintro _ _ _ _ ⟨⟩⟩
  | skipped _ ih =>
    obtain ⟨unfailed, settles⟩ := ih succeeded
    refine ⟨List.forall_mem_cons.mpr ⟨by rintro ⟨⟩, unfailed⟩, ?_⟩
    intro background tags row scenario member
    cases member with
    | tail _ member => exact settles background tags row scenario member
  | last first stops =>
    have unfailed := (first.settles succeeded).1
    simp [stopsAfter, unfailed] at stops
  | executed first _ _ ih =>
    obtain ⟨unfailed, settles⟩ := first.settles fun act member => succeeded act (List.mem_append_left _ member)
    obtain ⟨others, settle⟩ := ih fun act member => succeeded act (List.mem_append_right _ member)
    refine ⟨List.forall_mem_cons.mpr ⟨unfailed, others⟩, ?_⟩
    intro background tags row scenario member
    cases member with
    | head => exact settles
    | tail _ member => exact settle background tags row scenario member

/-- If all calls succeed, a feature does not fail, and the steps that its scenarios reach settle. -/
theorem FeatureActs.settles {feature : Feature} {uri : Option Text} {acts : List (Act η ω)}
    {result : FeatureResult} (did : e.FeatureActs feature uri acts result)
    (succeeded : ∀ act ∈ acts, act.Succeeded) :
    result.status ≠ .failed ∧
      ∀ background tags row scenario, Planned.executed background tags row scenario ∈ e.plan feature →
        ∀ item, e.Reaches tags (withRoles (background ++ scenario.steps)) item →
          e.Settles tags item.1 item.2 := by
  obtain ⟨ran, rfl⟩ := did
  rename_i before after middle scenarios
  simp only [List.forall_mem_append, List.forall_mem_cons, Act.Succeeded] at succeeded
  obtain ⟨⟨⟨_, first, _⟩, middle⟩, last, _⟩ := succeeded
  rw [first] at ran
  cases ran with
  | planned ran =>
    obtain ⟨unfailed, settles⟩ := ran.settles middle
    refine ⟨?_, settles⟩
    have noneFailed : Status.failed ∉ scenarios.map ScenarioResult.status := by
      intro member
      obtain ⟨result, member, failed⟩ := List.mem_map.mp member
      exact unfailed result member failed
    simp only [first, last]
    exact featureStatus_ne_failed noneFailed

theorem FeaturesActs.settles {features : List (Feature × Option Text)} {acts : List (Act η ω)}
    {results : List FeatureResult} (did : e.FeaturesActs features acts results)
    (succeeded : ∀ act ∈ acts, act.Succeeded) :
    ∀ placed ∈ features, ∀ background tags row scenario,
      Planned.executed background tags row scenario ∈ e.plan placed.1 →
        ∀ item, e.Reaches tags (withRoles (background ++ scenario.steps)) item →
          e.Settles tags item.1 item.2 := by
  induction did with
  | nil => exact List.forall_mem_nil _
  | last first stops =>
    have unfailed := (first.settles succeeded).1
    simp [endsWith, unfailed] at stops
  | next first _ _ ih =>
    have settles := (first.settles fun act member => succeeded act (List.mem_append_left _ member)).2
    have others := ih fun act member => succeeded act (List.mem_append_right _ member)
    exact List.forall_mem_cons.mpr ⟨settles, others⟩

/-- In a run in which nothing fails, every step that can be reached settles. -/
theorem RunActs.settles {documents : List Document} {acts : List (Act η ω)} {result : RunResult}
    (did : e.RunActs documents acts result) (succeeded : ∀ act ∈ acts, act.Succeeded) (tags : List Text)
    (item : Step × StepType) (reachable : e.Reachable documents tags item) :
    e.Settles tags item.1 item.2 := by
  obtain ⟨ran, rfl⟩ := did
  simp only [List.forall_mem_append, List.forall_mem_cons, Act.Succeeded] at succeeded
  obtain ⟨⟨⟨first, _⟩, middle⟩, _⟩ := succeeded
  rw [first] at ran
  obtain ⟨placed, member, background, row, scenario, planned, reaches⟩ := reachable
  cases ran with
  | ran ran =>
    exact ran.settles middle placed member background tags row scenario planned item reaches

/-- Which steps can be reached does not depend on the operations. -/
theorem Reaches.on {ω' σ' : Type} {tags : List Text} {items : List (Step × StepType)}
    {item : Step × StepType} (reaches : e.Reaches tags items item) (effects : Effects η ω' σ') :
    Reaches ⟨e.config, e.filter, e.steps, effects⟩ tags items item := by
  induction reaches with
  | here => exact .here
  | later passes _ ih => exact .later passes ih

/-- Whether a run can reach a step does not depend on its operations. -/
theorem Reachable.on {ω' σ' : Type} {documents : List Document} {tags : List Text} {item : Step × StepType}
    (reachable : e.Reachable documents tags item) (effects : Effects η ω' σ') :
    Reachable ⟨e.config, e.filter, e.steps, effects⟩ documents tags item := by
  obtain ⟨placed, member, background, row, scenario, planned, reaches⟩ := reachable
  exact ⟨placed, member, background, row, scenario, planned, reaches.on effects⟩

end Engine

/-! ### Runners -/

namespace Host

variable {η θ ω σ : Type}

/-- No listener fails. -/
def Silent (host : Host η θ ω σ) : Prop := ∀ event state, ((host.notify event).run state).1 = none

/-- The host on which nothing happens and nothing fails. -/
def idle : Host η θ Unit Unit where
  createWorld := pure (.ok none)
  callHandler _ world _ _ := pure (.idle world)
  callHook _ _ world _ := pure (.idle world)
  notify _ := pure none

theorem idle_silent : (idle : Host η θ Unit Unit).Silent := fun _ _ => rfl

/-- Hooks of an idle host do not fail. -/
theorem idle_runHooks (default : Value) (context : HookContext) (hooks : List (HookDefinition θ))
    (world : Option Unit) (state : Unit) :
    (((idle : Host η θ Unit Unit).runHooks default context hooks world).run state).1.failure = none := by
  induction hooks generalizing world with
  | nil => rfl
  | cons hook rest ih => exact ih world

/-- Every call of an idle host succeeds. -/
theorem idle_succeeded {hooks : HookRegistry θ} {config : RunConfig} {act : Act η Unit}
    (gives : ((idle : Host η θ Unit Unit).effects hooks config).Gives act) : act.Succeeded := by
  cases act with
  | world answer =>
    obtain ⟨_, rfl⟩ := gives
    exact ⟨none, rfl⟩
  | hooks scope context world call =>
    obtain ⟨state, rfl⟩ := gives
    exact idle_runHooks _ _ _ _ state
  | handler handler world arguments deadline call =>
    obtain ⟨_, rfl⟩ := gives
    rfl
  | told event failure =>
    obtain ⟨_, rfl⟩ := gives
    rfl

end Host

/-- Something that was made without an error, and of which a test says that it holds. -/
theorem exists_of_toOption_any {ε α : Type} {made : Except ε α} {test : α → Bool}
    (holds : made.toOption.any test = true) : ∃ a, made = .ok a ∧ test a = true := by
  cases made with
  | error failure => cases holds
  | ok a => exact ⟨a, rfl, holds⟩

namespace Runner

variable {η θ : Type}

/-- What a run of documents from a state gives. -/
def outcome (r : Runner η θ) {ω σ : Type} (host : Host η θ ω σ) (documents : List Document) (state : σ) :
    Except Failure RunResult := ((r.run host documents).run state).1.1

/-- The runner with some definitions, without hooks and a filter, and with the settings that runners have by
default. -/
def plain (steps : StepRegistry η) : Runner η θ := ⟨{}, none, steps, .empty, {}, .ready⟩

/-- A run that gives a result has done the acts of a lifecycle, and got from its operations what they can give. -/
theorem run_gives (r : Runner η θ) {ω σ : Type} (host : Host η θ ω σ) {documents : List Document} {state : σ}
    {result : RunResult} (returned : ((r.run host documents).run state).1.1 = .ok result) :
    ∃ acts next, ((r.engine host).recorded.run documents).run.run (state, []) = (.ok result, next, acts) ∧
      (∀ act ∈ acts, (r.engine host).effects.Gives act) ∧ (r.engine host).RunActs documents acts result := by
  obtain ⟨acts, outcome, next, ran, kept, gives, did⟩ :=
    Engine.run_records (e := r.engine host) documents state []
  have same : outcome = .ok result := by
    rw [← returned]
    exact (congrArg Prod.fst ran).symm
  subst same
  exact ⟨acts, next, kept, gives, did⟩

/-- A run that returns gives a result whose acts can be followed. -/
theorem run_acts (r : Runner η θ) {ω σ : Type} (host : Host η θ ω σ) {documents : List Document} {state : σ}
    {result : RunResult} (returned : ((r.run host documents).run state).1.1 = .ok result) :
    ∃ acts next, ((r.engine host).recorded.run documents).run.run (state, []) = (.ok result, next, acts) ∧
      (r.engine host).RunActs documents acts result := by
  obtain ⟨acts, next, kept, _, did⟩ := r.run_gives host returned
  exact ⟨acts, next, kept, did⟩

/-- Whether a step of some documents can be reached, in a scenario with some effective tags. -/
def Reachable (r : Runner η θ) (documents : List Document) (tags : List Text) (item : Step × StepType) :
    Prop :=
  (r.engine Host.idle).Reachable documents tags item

/-- Whether a step comes to a status in a scenario with some effective tags. -/
def Settles (r : Runner η θ) (tags : List Text) (step : Step) (type : StepType) : Prop :=
  (r.engine Host.idle).Settles tags step type

/-- Whether a run ended early because an error of a kind was raised. -/
def endedBy (kind message : Text) : Except Failure RunResult → Bool
  | .error (.raised otherKind otherMessage) => otherKind == kind && otherMessage == message
  | _ => false

/-- Whether a run was ended by an exception of some kind and message can be computed. -/
theorem endedBy_iff {kind message : Text} {outcome : Except Failure RunResult} :
    endedBy kind message outcome = true ↔ outcome = .error (.raised kind message) := by
  unfold endedBy
  split
  · simp
  · rename_i other
    simp only [Bool.false_eq_true, false_iff]
    exact fun same => other _ _ same

/-- A run gives a result for all behaviours of handlers, hooks and worlds exactly when every step that can
be reached settles; and the results that runs give are those of their acts. -/
theorem run_returns_iff (r : Runner η θ) (documents : List Document)
    (limited : r.config.suggestionLimit.sliceEnd? ≠ none) :
    ((∀ (ω σ : Type) (host : Host η θ ω σ), host.Silent →
        ∀ state, ∃ result, ((r.run host documents).run state).1.1 = .ok result) ↔
      ∀ tags step type, r.Reachable documents tags (step, type) → r.Settles tags step type) ∧
    ∀ (ω σ : Type) (host : Host η θ ω σ) state result,
      ((r.run host documents).run state).1.1 = .ok result →
        ∃ acts next, ((r.engine host).recorded.run documents).run.run (state, []) = (.ok result, next, acts) ∧
          (r.engine host).RunActs documents acts result := by
  have recorded (ω σ : Type) (host : Host η θ ω σ) (state : σ) :=
    Engine.run_records (e := r.engine host) documents state []
  refine ⟨⟨fun returns tags step type reachable => ?_, fun settles ω σ host silent state => ?_⟩, ?_⟩
  · obtain ⟨result, returned⟩ := returns Unit Unit Host.idle Host.idle_silent ()
    obtain ⟨acts, outcome, next, ran, _, gives, did⟩ := recorded Unit Unit Host.idle ()
    have same : outcome = .ok result := by
      rw [← returned]
      exact (congrArg Prod.fst ran).symm
    subst same
    exact Engine.RunActs.settles did (fun act member => Host.idle_succeeded (gives act member)) tags
      (step, type) reachable
  · obtain ⟨acts, outcome, next, ran, _, gives, did⟩ := recorded ω σ host state
    cases outcome with
    | ok result => exact ⟨result, congrArg Prod.fst ran⟩
    | error failure =>
      exfalso
      cases did with
      | listener told =>
        have mute : (r.engine host).effects.Silent := silent
        cases mute.told (gives _ told)
      | limit unlimited => exact limited unlimited
      | conversion reaches fails =>
        obtain ⟨found, matched, _⟩ := settles _ _ _ (reaches.on _)
        cases fails.symm.trans matched
      | pause reaches matched _ _ fails =>
        obtain ⟨found, same, paused⟩ := settles _ _ _ (reaches.on _)
        cases matched.symm.trans same
        cases fails.symm.trans (paused rfl)
  · intro ω σ host state result returned
    obtain ⟨acts, outcome, next, ran, kept, _, did⟩ := recorded ω σ host state
    have same : outcome = .ok result := by
      rw [← returned]
      exact (congrArg Prod.fst ran).symm
    subst same
    exact ⟨acts, next, kept, did⟩

/-- A text with a step that counts. -/
def countingText : Text := "Feature: f\n  Scenario: s\n    Given I have abc items\n    Then done\n"

/-- The document of the text. -/
def countingDocument : Document where
  feature := some {
    keyword := "Feature", name := "f", description := "", tags := [], line := 1, language := "en"
    children := [.element (.scenario {
      keyword := "Scenario", name := "s", description := "", tags := [], examples := [], line := 2
      isOutline := false
      steps := [⟨"Given", .context, "I have abc items", none, none, 3⟩,
        ⟨"Then", .outcome, "done", none, none, 4⟩] })] }
  comments := []
  uri := none
  diagnostics := []

theorem parse_countingText : parseLenient .builtIn "en" countingText none = countingDocument :=
  (parseLenient_english (by cbv)).trans (by cbv)

/-- A runner without step definitions. -/
def bare : Runner Unit Unit := plain .empty

/-- Without definitions there is nothing to convert, so a run gives a result. -/
theorem run_returns_without_definitions :
    bare.config.suggestionLimit.sliceEnd? ≠ none ∧
      ∃ result, ((bare.run Host.idle [countingDocument]).run ()).1.1 = .ok result := by
  have limited : bare.config.suggestionLimit.sliceEnd? ≠ none := by decide
  refine ⟨limited, (run_returns_iff bare [countingDocument] limited).1.mpr ?_ Unit Unit Host.idle
    Host.idle_silent ()⟩
  exact fun tags step type _ => ⟨none, rfl, by rintro ⟨⟩⟩

/-- Definitions for the steps of the text; what is counted may be any word and is read as an integer. -/
def countingSteps : Except StepError (StepRegistry Unit) := do
  let (steps, _) ← StepRegistry.empty.defineType "count" "\\w+" .int
  let (steps, _) ← steps.register (.text "Given") (.text "I have {count} items") ⟨(), none, none, []⟩
  let (steps, _) ← steps.register (.text "Then") (.text "done") ⟨(), none, none, []⟩
  return steps

/-- A runner without time limits. -/
def counting (steps : StepRegistry Unit) : Runner Unit Unit :=
  { plain steps with config := { stepTimeout := .null, hookTimeout := .null } }

/-- A word where an integer is asked for ends the run, although nothing else fails in it. -/
theorem unconvertible_argument_ends_run :
    ∃ steps runner, countingSteps = .ok steps ∧
      create { stepTimeout := .null, hookTimeout := .null } steps (.empty : HookRegistry Unit) {} =
        .ok runner ∧
      ((runner.run Host.idle [parseLenient .builtIn "en" countingText none]).run ()).1.1 =
        .error (.raised "ValueError" "invalid literal for int() with base 10: 'abc'") := by
  have ends : (countingSteps.toOption.any fun steps => endedBy "ValueError"
      "invalid literal for int() with base 10: 'abc'" ((counting steps).outcome Host.idle [countingDocument] ())) =
        true := by
    decide +kernel
  rw [parse_countingText]
  obtain ⟨steps, built, ends⟩ := exists_of_toOption_any ends
  exact ⟨steps, _, built, rfl, endedBy_iff.mp ends⟩

/-- A feature whose first scenario takes a step twice, and whose second takes it once. -/
def repeatingFeature : Feature where
  keyword := "Feature"
  name := "f"
  description := ""
  tags := []
  line := 1
  language := "en"
  children := [
    .element (.scenario {
      keyword := "Scenario", name := "s", description := "", tags := [], examples := [], line := 2
      isOutline := false
      steps := [⟨"Given", .context, "a", none, none, 3⟩, ⟨"And", .conjunction, "a", none, none, 4⟩] }),
    .element (.scenario {
      keyword := "Scenario", name := "t", description := "", tags := [], examples := [], line := 5
      isOutline := false, steps := [⟨"Given", .context, "a", none, none, 6⟩] })]

/-- A document with a feature and nothing else. -/
def documentOnly (feature : Feature) : Document := ⟨some feature, [], none, []⟩

/-- A definition for the step of the feature. -/
def repeatingSteps : Except StepError (StepRegistry Unit) := do
  let (steps, _) ← StepRegistry.empty.register (.text "Given") (.text "a") ⟨(), none, none, []⟩
  return steps

/-- A feature with a background, a scenario that is tagged, and a rule with a background and an outline. The step
of the outline goes on with the role of the background of the rule, and has a table and a doc string. -/
def layeredFeature : Feature where
  keyword := "Feature"
  name := "f"
  description := ""
  tags := []
  line := 1
  language := "en"
  children := [
    .element (.background {
      keyword := "Background", name := "", description := "", line := 2
      steps := [⟨"Given", .context, "ready", none, none, 3⟩] }),
    .element (.scenario {
      keyword := "Scenario", name := "w", description := "", tags := [⟨"@wip", 4⟩], examples := [], line := 5
      isOutline := false, steps := [⟨"Given", .context, "idle", none, none, 6⟩] }),
    .rule {
      keyword := "Rule", name := "r", description := "", tags := [], line := 7
      children := [
        .background {
          keyword := "Background", name := "", description := "", line := 8
          steps := [⟨"When", .action, "started", none, none, 9⟩] },
        .scenario {
          keyword := "Scenario Outline", name := "o", description := "", tags := [], line := 10
          isOutline := true
          steps := [⟨"And", .conjunction, "count <n>", some ⟨[⟨["cell"], 12⟩]⟩, some ⟨"note", none, .quotes, 13⟩, 11⟩]
          examples := [
            ⟨"Examples", "", "", [], some ⟨["n"], 17⟩, [⟨["1"], 18⟩, ⟨["2"], 19⟩], 16⟩,
            ⟨"Examples", "", "", [⟨"@wip", 20⟩], some ⟨["n"], 22⟩, [⟨["3"], 23⟩], 21⟩] }] }]

/-- Definitions for the steps of the layered feature, with numbers as their handlers. The first has the pattern of
the last, and another role. -/
def layeredSteps : Except StepError (StepRegistry Nat) := do
  let (steps, _) ← StepRegistry.empty.register (.text "Given") (.text "count {int}") ⟨0, none, none, []⟩
  let (steps, _) ← steps.register (.text "Given") (.text "ready") ⟨1, none, none, []⟩
  let (steps, _) ← steps.register (.text "When") (.text "started") ⟨2, none, none, []⟩
  let (steps, _) ← steps.register (.text "When") (.text "count {int}") ⟨3, none, none, []⟩
  return steps

/-- A runner that leaves out what is tagged as unfinished. -/
def unfinishedLeftOut (steps : StepRegistry Nat) : Runner Nat Unit :=
  { plain steps with filter := some ⟨"not @wip", .not (.tag "@wip")⟩ }

end Runner

end Gherkin
