import Mathlib
import Gherkin.Proofs.Run.Returning

/-! # Runs that end with the first failure

A run that ends with the first failure gives what a run that does not gives, cut off: the same features up to the
first that fails, and of that one the scenarios up to the first that fails; and behind a scenario that fails it only
leaves the feature and the run (`Gherkin.Runner.run_truncates`). Up to the failure both runs are in the same states,
so each part of the one is related to the same part of the other from one state.
-/

namespace Gherkin

variable {η θ ω σ α β : Type}

/-! ### Parts that give something -/

namespace Run

/-- Whether a part of a run, from a state, gives something and a state. -/
def Yields (part : Run σ α) (state : σ) (a : α) (next : σ) : Prop := part.run.run state = (.ok a, next)

variable {state next : σ}

/-- A part gives one thing and leaves one state. -/
theorem Yields.unique {part : Run σ α} {a b : α} {other : σ} (first : Yields part state a next)
    (second : Yields part state b other) : a = b ∧ next = other := by
  have same := first.symm.trans second
  rw [Prod.mk.injEq, Except.ok.injEq] at same
  exact same

/-- What only gives a value leaves the state as it is. -/
theorem yields_pure {a b : α} : Yields (pure a : Run σ α) state b next ↔ b = a ∧ next = state := by
  constructor
  · intro given
    cases given
    exact ⟨rfl, rfl⟩
  · rintro ⟨rfl, rfl⟩
    rfl

/-- Two parts in a row give something if the first does and the second does from there. -/
theorem yields_bind {part : Run σ α} {rest : α → Run σ β} {b : β} :
    Yields (part >>= rest) state b next ↔
      ∃ a middle, Yields part state a middle ∧ Yields (rest a) middle b next := by
  simp only [Yields, ExceptT.run_bind, StateT.run_bind]
  rcases ran : part.run.run state with ⟨outcome, middle⟩
  cases outcome with
  | error failure =>
    constructor
    · intro given
      cases given
    · rintro ⟨a, middle, given, -⟩
      cases given
  | ok a =>
    constructor
    · exact fun given => ⟨a, middle, rfl, given⟩
    · rintro ⟨a, middle, given, others⟩
      cases given
      exact others

/-- What is tried gives its outcome, also if it has failed. -/
theorem yields_attempt {part : Run σ α} {outcome : Except Failure α} :
    Yields (attempt part) state outcome next ↔ part.run.run state = (outcome, next) := by
  change (Except.ok (part.run.run state).1, (part.run.run state).2) = (Except.ok outcome, next) ↔ _
  rw [Prod.mk.injEq, Except.ok.injEq, Prod.ext_iff]

/-- What is attempted and settled behind something else gives what it gives. -/
theorem yields_enclosed {part : Run σ α} {behind : Run σ β} {γ : Type} {rest : α → β → Run σ γ} {c : γ} :
    Yields (do
      let tried ← attempt part
      let b ← behind
      let a ← settle tried
      rest a b) state c next ↔
    ∃ a left b last, Yields part state a left ∧ Yields behind left b last ∧ Yields (rest a b) last c next := by
  simp only [yields_bind, yields_attempt]
  constructor
  · rintro ⟨outcome, left, ran, b, last, after, a, _, settled, others⟩
    cases outcome with
    | error failure => cases settled
    | ok value =>
      obtain ⟨rfl, rfl⟩ := yields_pure.mp settled
      exact ⟨a, left, b, _, ran, after, others⟩
  · rintro ⟨a, left, b, last, ran, after, others⟩
    exact ⟨.ok a, left, ran, b, last, after, a, last, yields_pure.mpr ⟨rfl, rfl⟩, others⟩

end Run

/-! ### Cut results -/

/-- The results up to the first that failed, with that one. -/
def upToFailed : List ScenarioResult → List ScenarioResult
  | [] => []
  | result :: rest => if result.status = .failed then [result] else result :: upToFailed rest

/-- Where nothing failed, nothing is cut off. -/
theorem upToFailed_eq_self {results : List ScenarioResult} (unfailed : ∀ result ∈ results, result.status ≠ .failed) :
    upToFailed results = results := by
  induction results with
  | nil => rfl
  | cons result rest ih =>
    rw [List.forall_mem_cons] at unfailed
    rw [upToFailed, if_neg unfailed.1, ih unfailed.2]

/-- A failure is not cut off. -/
theorem failed_mem_upToFailed {results : List ScenarioResult} (failed : ∃ result ∈ results, result.status = .failed) :
    ∃ result ∈ upToFailed results, result.status = .failed := by
  induction results with
  | nil =>
    obtain ⟨_, member, _⟩ := failed
    cases member
  | cons result rest ih =>
    by_cases here : result.status = .failed
    · rw [upToFailed, if_pos here]
      exact ⟨result, List.mem_singleton_self result, here⟩
    · rw [upToFailed, if_neg here]
      obtain ⟨other, member, failed⟩ := failed
      rcases List.mem_cons.mp member with rfl | later
      · exact absurd failed here
      · obtain ⟨cut, member, failed⟩ := ih ⟨other, later, failed⟩
        exact ⟨cut, List.mem_cons_of_mem _ member, failed⟩

/-- Whether results of features are others cut off behind the first feature that failed. Of its scenarios those behind
the first that failed are cut off. -/
inductive Truncated : List FeatureResult → List FeatureResult → Prop
  | nil : Truncated [] []
  | last {result other : FeatureResult} {after : List FeatureResult} (failed : result.status = .failed)
      (cut : result.scenarios = upToFailed other.scenarios) : Truncated [result] (other :: after)
  | next {result : FeatureResult} {results others : List FeatureResult} (passed : result.status ≠ .failed)
      (rest : Truncated results others) : Truncated (result :: results) (result :: others)

/-- Where no feature failed, no feature was cut off. -/
theorem Truncated.eq_of_passed {results others : List FeatureResult} (truncated : Truncated results others)
    (passed : ∀ result ∈ results, result.status ≠ .failed) : results = others := by
  induction truncated with
  | nil => rfl
  | last failed _ => exact absurd failed (passed _ (List.mem_singleton_self _))
  | next _ _ ih => rw [ih (List.forall_mem_cons.mp passed).2]

/-- Where a feature failed, what was cut off is known: the features before it are the same, its scenarios are those up
to the first that failed, and all features behind it are missing. -/
theorem Truncated.split {results others : List FeatureResult} (truncated : Truncated results others)
    (failed : ∃ result ∈ results, result.status = .failed) :
    ∃ before last other after, results = before ++ [last] ∧ others = before ++ other :: after ∧
      (∀ result ∈ before, result.status ≠ .failed) ∧ last.status = .failed ∧
      last.scenarios = upToFailed other.scenarios := by
  induction truncated with
  | nil =>
    obtain ⟨_, member, _⟩ := failed
    cases member
  | @last result other after lastFailed cut =>
    exact ⟨[], result, other, after, rfl, rfl, by simp, lastFailed, cut⟩
  | @next result results others passed _ ih =>
    obtain ⟨found, member, failed⟩ := failed
    rcases List.mem_cons.mp member with rfl | later
    · exact absurd failed passed
    · obtain ⟨before, last, other, after, rfl, rfl, unfailed, lastFailed, cut⟩ := ih ⟨found, later, failed⟩
      exact ⟨result :: before, last, other, after, rfl, rfl, List.forall_mem_cons.mpr ⟨passed, unfailed⟩,
        lastFailed, cut⟩

/-! ### Runs from one state -/

namespace Engine

variable {e : Engine η ω σ}

variable (e) in
/-- The engine with another setting for whether a run ends with the first failure. -/
def withFailFast (value : Value) : Engine η ω σ := { e with config := { e.config with failFast := value } }

theorem withFailFast_failsFast (value : Value) : (e.withFailFast value).failsFast = value.isTrue := rfl

/-- What is done about a scenario does not depend on the setting. -/
theorem withFailFast_runSteps (value : Value) (tags : List Text) (halted : Bool) (scene : Scene ω)
    (items : List (Step × StepType)) :
    (e.withFailFast value).runSteps tags halted scene items = e.runSteps tags halted scene items := by
  induction items generalizing halted scene with
  | nil => cases halted <;> rfl
  | cons item rest ih =>
    cases halted with
    | true => simp only [runSteps, ih]
    | false =>
      simp only [runSteps, ih]
      rfl

/-- Whether a run ends with the first failure makes no difference within a scenario. -/
theorem withFailFast_runPlanned (value : Value) (featureName : Text) (planned : Planned) :
    (e.withFailFast value).runPlanned featureName planned = e.runPlanned featureName planned := by
  cases planned with
  | skipped => rfl
  | executed background tags row scenario =>
    simp only [runPlanned, runScenario, withFailFast_runSteps]
    rfl

/-- The plan of a feature is run scenario by scenario: the rest is only run if the result of the first does not stop it.
-/
theorem runPlan_cons (featureName : Text) (planned : Planned) (rest : List Planned) :
    e.runPlan featureName (planned :: rest) = (do
      let result ← e.runPlanned featureName planned
      if e.stopsAfter [result] then pure [result]
      else do
        let others ← e.runPlan featureName rest
        pure (result :: others)) := by
  simp only [runPlan, runUntilStopped, bind_assoc, pure_bind, List.singleton_append]

variable {quick patient : Value} (stops : quick.isTrue = true) (goesOn : patient.isTrue = false)
include stops goesOn

/-- By induction on the plan, both runs are in one state up to the first scenario that fails. -/
theorem runPlan_truncates {featureName : Text} {plan : List Planned} {state next : σ} {results : List ScenarioResult}
    (whole : Run.Yields ((e.withFailFast patient).runPlan featureName plan) state results next) :
    ∃ cut, Run.Yields ((e.withFailFast quick).runPlan featureName plan) state (upToFailed results) cut ∧
      ((∀ result ∈ results, result.status ≠ .failed) → cut = next) := by
  induction plan generalizing state results with
  | nil =>
    obtain ⟨rfl, rfl⟩ := Run.yields_pure.mp whole
    exact ⟨next, Run.yields_pure.mpr ⟨rfl, rfl⟩, fun _ => rfl⟩
  | cons planned rest ih =>
    rw [runPlan_cons, Run.yields_bind] at whole
    obtain ⟨result, middle, first, others⟩ := whole
    rw [withFailFast_runPlanned] at first
    simp only [stopsAfter, withFailFast_failsFast, goesOn, Bool.false_and, Bool.false_eq_true, if_false,
      Run.yields_bind, Run.yields_pure] at others
    obtain ⟨others, _, ran, rfl, rfl⟩ := others
    obtain ⟨cut, quickRan, same⟩ := ih ran
    simp only [runPlan_cons, Run.yields_bind, withFailFast_runPlanned]
    by_cases failed : result.status = .failed
    · refine ⟨middle, ⟨result, middle, first, ?_⟩, fun unfailed => absurd failed (unfailed _ List.mem_cons_self)⟩
      simp [stopsAfter, withFailFast_failsFast, stops, upToFailed, failed, Run.yields_pure]
    · refine ⟨cut, ⟨result, middle, first, ?_⟩, fun unfailed => same (List.forall_mem_cons.mp unfailed).2⟩
      simp only [stopsAfter, withFailFast_failsFast, stops, Bool.true_and, List.any_cons, List.any_nil, Bool.or_false,
        beq_iff_eq, failed, if_false, upToFailed, Run.yields_bind, Run.yields_pure]
      exact ⟨_, cut, quickRan, rfl, rfl⟩

/-- The scenarios of a feature are cut off behind the first that fails. -/
theorem runScenarios_truncates {before : Option Failure} {feature : Feature} {state next : σ}
    {results : List ScenarioResult}
    (whole : Run.Yields ((e.withFailFast patient).runScenarios before feature) state results next) :
    ∃ cut, Run.Yields ((e.withFailFast quick).runScenarios before feature) state (upToFailed results) cut ∧
      ((∀ result ∈ results, result.status ≠ .failed) → cut = next) := by
  cases before with
  | none =>
    rw [runScenarios_eq_runPlan] at whole ⊢
    exact runPlan_truncates stops goesOn whole
  | some failure =>
    obtain ⟨rfl, rfl⟩ := Run.yields_pure.mp whole
    have unfailed : ∀ result ∈ skippedFeature feature, result.status ≠ .failed := by
      rw [skippedFeature_eq, List.forall_mem_map]
      rintro _ _ ⟨⟩
    refine ⟨next, Run.yields_pure.mpr ⟨upToFailed_eq_self unfailed, rfl⟩, fun _ => rfl⟩

omit stops goesOn in
/-- What gives the result of a feature, part by part: listeners, hooks, scenarios, hooks, listeners. -/
theorem runFeature_yields {feature : Feature} {uri : Option Text} {state next : σ} {result : FeatureResult}
    (given : Run.Yields (e.runFeature feature uri) state result next) :
    ∃ entered before opened scenarios left after closed,
      Run.Yields (e.notify (.featureStarted feature)) state () entered ∧
      Run.Yields (e.hooks .beforeFeature (featureContext feature) none) entered before opened ∧
      Run.Yields (e.runScenarios before.failure feature) opened scenarios left ∧
      Run.Yields (e.hooks .afterFeature (featureContext feature) none) left after closed ∧
      Run.Yields (e.notify (.featureFinished result)) closed () next ∧
      result =
        { name := feature.name
          status := featureStatus (scenarios.map ScenarioResult.status) (before.failure <|> after.failure).isSome
          scenarios := scenarios, tags := tagNames feature.tags, uri := uri
          hookError := before.failure <|> after.failure } := by
  unfold runFeature at given
  rw [Run.yields_bind] at given
  obtain ⟨_, entered, told, given⟩ := given
  rw [Run.yields_bind] at given
  obtain ⟨before, opened, hooked, given⟩ := given
  rw [Run.yields_enclosed] at given
  obtain ⟨scenarios, left, after, closed, ran, behind, given⟩ := given
  rw [Run.yields_bind] at given
  obtain ⟨_, _, finished, given⟩ := given
  obtain ⟨rfl, rfl⟩ := Run.yields_pure.mp given
  exact ⟨entered, before, opened, scenarios, left, after, closed, told, hooked, ran, behind, finished, rfl⟩

/-- From one state both runs give the same result of a feature, unless it fails; then the scenarios behind the first
that failed are cut off. -/
theorem runFeature_truncates {feature : Feature} {uri : Option Text} {state next left : σ}
    {result other : FeatureResult}
    (cut : Run.Yields ((e.withFailFast quick).runFeature feature uri) state result next)
    (whole : Run.Yields ((e.withFailFast patient).runFeature feature uri) state other left) :
    result.scenarios = upToFailed other.scenarios ∧
      (result.status ≠ .failed → result = other ∧ next = left) := by
  obtain ⟨entered, before, opened, scenarios, ended, after, closed, told, hooked, ran, behind, finished, rfl⟩ :=
    runFeature_yields cut
  obtain ⟨_, _, _, others, _, afterWhole, _, toldWhole, hookedWhole, ranWhole, behindWhole, finishedWhole, rfl⟩ :=
    runFeature_yields whole
  obtain ⟨-, rfl⟩ := told.unique toldWhole
  obtain ⟨rfl, rfl⟩ := hooked.unique hookedWhole
  obtain ⟨_, ranCut, same⟩ := runScenarios_truncates stops goesOn ranWhole
  obtain ⟨rfl, rfl⟩ := ran.unique ranCut
  refine ⟨rfl, fun passed => ?_⟩
  rw [Ne, featureStatus_eq_failed_iff, not_or] at passed
  have unfailed : ∀ result ∈ others, result.status ≠ .failed := by
    intro result member failed
    obtain ⟨cut, kept, cutFailed⟩ := failed_mem_upToFailed ⟨result, member, failed⟩
    exact passed.2 (List.mem_map.mpr ⟨cut, kept, cutFailed⟩)
  obtain rfl := same unfailed
  obtain ⟨rfl, rfl⟩ := behind.unique behindWhole
  rw [upToFailed_eq_self unfailed] at finished ⊢
  exact ⟨rfl, (finished.unique finishedWhole).2⟩

/-- By induction on the features, both runs give the same up to the first feature that fails. -/
theorem runFeatures_truncates {features : List (Feature × Option Text)} {state next left : σ}
    {results others : List FeatureResult}
    (cut : Run.Yields ((e.withFailFast quick).runFeatures features) state results next)
    (whole : Run.Yields ((e.withFailFast patient).runFeatures features) state others left) :
    Truncated results others := by
  induction features generalizing state next left results others with
  | nil =>
    obtain ⟨rfl, -⟩ := Run.yields_pure.mp cut
    obtain ⟨rfl, -⟩ := Run.yields_pure.mp whole
    exact .nil
  | cons item rest ih =>
    obtain ⟨feature, uri⟩ := item
    rw [runFeatures, Run.yields_bind] at cut whole
    obtain ⟨result, middle, first, cut⟩ := cut
    obtain ⟨other, middleWhole, firstWhole, whole⟩ := whole
    obtain ⟨scenarios, same⟩ := runFeature_truncates stops goesOn first firstWhole
    simp only [withFailFast_failsFast, stops, Bool.true_and, beq_iff_eq] at cut
    simp only [withFailFast_failsFast, goesOn, Bool.false_and, Bool.false_eq_true, if_false, Run.yields_bind,
      Run.yields_pure] at whole
    obtain ⟨otherResults, _, ranWhole, rfl, -⟩ := whole
    by_cases failed : result.status = .failed
    · rw [if_pos failed, Run.yields_pure] at cut
      obtain ⟨rfl, -⟩ := cut
      exact .last failed scenarios
    · rw [if_neg failed] at cut
      simp only [Run.yields_bind, Run.yields_pure] at cut
      obtain ⟨moreResults, _, ran, rfl, -⟩ := cut
      obtain ⟨rfl, rfl⟩ := same failed
      exact .next failed (ih ran ranWhole)

omit stops goesOn in
/-- What gives the result of a run, part by part: hooks, features, hooks. -/
theorem run_yields {documents : List Document} {state next : σ} {result : RunResult}
    (given : Run.Yields (e.run documents) state result next) :
    ∃ before opened left, Run.Yields (e.hooks .beforeAll {} none) state before opened ∧
      Run.Yields (match before.failure with
        | some _ => pure []
        | none => e.runFeatures (featuresOf documents)) opened result.features left := by
  unfold run at given
  rw [Run.yields_bind] at given
  obtain ⟨before, opened, hooked, given⟩ := given
  rw [Run.yields_enclosed] at given
  obtain ⟨features, left, after, closed, ran, behind, given⟩ := given
  obtain ⟨rfl, rfl⟩ := Run.yields_pure.mp given
  exact ⟨before, opened, left, hooked, ran⟩

/-- The features of a run are cut off behind the first that fails. -/
theorem run_truncated {documents : List Document} {state next left : σ} {result other : RunResult}
    (cut : Run.Yields ((e.withFailFast quick).run documents) state result next)
    (whole : Run.Yields ((e.withFailFast patient).run documents) state other left) :
    Truncated result.features other.features := by
  obtain ⟨before, opened, _, hooked, ran⟩ := run_yields cut
  obtain ⟨_, _, _, hookedWhole, ranWhole⟩ := run_yields whole
  obtain ⟨rfl, rfl⟩ := hooked.unique hookedWhole
  cases passed : before.failure with
  | some failure =>
    rw [passed, Run.yields_pure] at ran ranWhole
    rw [ran.1, ranWhole.1]
    exact .nil
  | none =>
    rw [passed] at ran ranWhole
    exact runFeatures_truncates stops goesOn ran ranWhole

end Engine

/-! ### Behind a failure -/

/-- Whether an act tells of the end of a scenario that failed. -/
def Act.endsFailed : Act η ω → Bool
  | .told (.scenarioFinished result _) _ => result.status == .failed
  | _ => false

/-- Whether an act belongs to the end of a feature or of a run. -/
def Act.closes : Act η ω → Bool
  | .hooks scope _ _ _ => scope == .afterFeature || scope == .afterAll
  | .told (.featureFinished _) _ => true
  | _ => false

/-- Whether no scenario fails in some acts. -/
def Unfailing (acts : List (Act η ω)) : Prop := ∀ act ∈ acts, act.endsFailed = false

/-- Whether behind a scenario that fails nothing is done but what ends its feature and the run. -/
def Closing (acts : List (Act η ω)) : Prop :=
  acts.Pairwise fun earlier later => earlier.endsFailed = true → later.closes = true

/-- Acts that tell of no failure may follow such acts. -/
theorem Unfailing.append {first second : List (Act η ω)} (left : Unfailing first) (right : Unfailing second) :
    Unfailing (first ++ second) := List.forall_mem_append.mpr ⟨left, right⟩

/-- In front of closing acts there may be acts that tell of no failure. -/
theorem Unfailing.closing_append {first second : List (Act η ω)} (left : Unfailing first) (right : Closing second) :
    Closing (first ++ second) := by
  refine List.pairwise_append.mpr ⟨?_, right, ?_⟩
  · refine List.pairwise_of_forall_mem_list fun earlier member _ _ failed => ?_
    rw [left earlier member] at failed
    cases failed
  · intro earlier member _ _ failed
    rw [left earlier member] at failed
    cases failed

/-- Behind closing acts there may be acts that only leave something. -/
theorem Closing.append {first second : List (Act η ω)} (left : Closing first)
    (right : ∀ act ∈ second, act.closes = true) : Closing (first ++ second) :=
  List.pairwise_append.mpr ⟨left, List.pairwise_of_forall_mem_list fun _ _ later member _ => right later member,
    fun _ _ later member _ => right later member⟩

namespace Engine

variable {e : Engine η ω σ}

/-- While a step is executed, no scenario is told to have failed. -/
theorem ExecuteActs.unfailing {tags : List Text} {step : Step} {type : StepType} {before : Call ω}
    {acts : List (Act η ω)} {invocation : Invocation ω}
    (did : e.ExecuteActs tags step type before acts invocation) : Unfailing acts := by
  cases did with
  | hooksFailed | undefined =>
    rintro _ ⟨⟩
  | called =>
    rw [Unfailing, List.forall_mem_singleton]
    rfl

/-- In a step no scenario is told to have failed. -/
theorem StepActs.unfailing {tags : List Text} {scene : Scene ω} {step : Step} {type : StepType}
    {acts : List (Act η ω)} {outcome : StepResult × Scene ω}
    (did : e.StepActs tags scene step type acts outcome) : Unfailing acts := by
  obtain ⟨executed, rfl, rfl⟩ := did
  refine (Unfailing.append ?_ executed.unfailing).append ?_ <;> simp [Unfailing, Act.endsFailed]

/-- In the steps of a scenario no scenario is told to have failed. -/
theorem StepsActs.unfailing {tags : List Text} {halted : Bool} {scene : Scene ω} {items : List (Step × StepType)}
    {acts : List (Act η ω)} {outcome : List StepResult × Scene ω}
    (did : e.StepsActs tags halted scene items acts outcome) : Unfailing acts := by
  induction did with
  | nil =>
    rintro _ ⟨⟩
  | skipped _ ih => exact ih
  | run first _ _ ih => exact first.unfailing.append ih

/-- While a scenario is entered, none is told to have failed. -/
theorem EnterActs.unfailing {context : HookContext} {acts : List (Act η ω)} {outcome : Option Failure × Option ω}
    (entered : EnterActs context acts outcome) : Unfailing acts := by
  cases entered <;> simp [Unfailing, Act.endsFailed]

/-- The end of a scenario is told last. -/
theorem ScenarioActs.told_last {featureName : Text} {background : List Step} {tags : List Text}
    {row : Option ExampleRow} {scenario : Scenario} {acts : List (Act η ω)} {result : ScenarioResult}
    (did : e.ScenarioActs featureName background tags row scenario acts result) :
    ∃ before, acts = before ++ [.told (.scenarioFinished result featureName) none] ∧ Unfailing before := by
  obtain ⟨entered, ran, -, rfl⟩ := did
  refine ⟨_, (List.append_assoc _ [_] [_]).symm, ?_⟩
  refine Unfailing.append ((Unfailing.append ?_ entered.unfailing).append ran.unfailing) ?_ <;>
    simp [Unfailing, Act.endsFailed]

/-- Whether acts do nothing behind a scenario that fails but end things, and have one only if something failed. -/
structure Closes (acts : List (Act η ω)) (failed : Prop) : Prop where
  closing : Closing acts
  unfailing : ¬ failed → Unfailing acts

/-- A scenario that fails is told to have failed by its last act. -/
theorem ScenarioActs.closes {featureName : Text} {background : List Step} {tags : List Text}
    {row : Option ExampleRow} {scenario : Scenario} {acts : List (Act η ω)} {result : ScenarioResult}
    (did : e.ScenarioActs featureName background tags row scenario acts result) :
    Closes acts (result.status = .failed) := by
  obtain ⟨before, rfl, unfailing⟩ := did.told_last
  refine ⟨unfailing.closing_append (List.pairwise_singleton _ _), fun passed => unfailing.append ?_⟩
  rw [Unfailing, List.forall_mem_singleton]
  exact beq_eq_false_iff_ne.mpr passed

/-- The plan of a feature ends with the act of the first scenario that fails. -/
theorem PlanActs.closes {featureName : Text} {plan : List Planned} {acts : List (Act η ω)}
    {results : List ScenarioResult} (quick : e.failsFast = true) (did : e.PlanActs featureName plan acts results) :
    Closes acts (∃ result ∈ results, result.status = .failed) := by
  induction did with
  | nil => exact ⟨List.Pairwise.nil, fun _ _ member => absurd member List.not_mem_nil⟩
  | skipped _ ih =>
    refine ⟨ih.closing, fun unfailed => ih.unfailing fun ⟨result, member, failed⟩ => ?_⟩
    exact unfailed ⟨result, List.mem_cons_of_mem _ member, failed⟩
  | last first _ =>
    refine ⟨first.closes.closing, fun unfailed => first.closes.unfailing fun failed => ?_⟩
    exact unfailed ⟨_, List.mem_singleton_self _, failed⟩
  | @executed _ _ _ _ _ _ _ result _ first goesOn _ ih =>
    have passed : result.status ≠ .failed := by simpa [stopsAfter, quick] using goesOn
    refine ⟨(first.closes.unfailing passed).closing_append ih.closing, fun unfailed =>
      (first.closes.unfailing passed).append (ih.unfailing fun ⟨result, member, failed⟩ => ?_)⟩
    exact unfailed ⟨result, List.mem_cons_of_mem _ member, failed⟩

/-- The scenarios of a feature end with the act of the first that fails. -/
theorem ScenariosActs.closes {feature : Feature} {before : Option Failure} {acts : List (Act η ω)}
    {results : List ScenarioResult} (quick : e.failsFast = true) (did : e.ScenariosActs feature before acts results) :
    Closes acts (∃ result ∈ results, result.status = .failed) := by
  cases did with
  | hooksFailed => exact ⟨List.Pairwise.nil, fun _ _ member => absurd member List.not_mem_nil⟩
  | planned ran => exact ran.closes quick

/-- Behind a scenario that fails, a feature is only left. -/
theorem FeatureActs.closes {feature : Feature} {uri : Option Text} {acts : List (Act η ω)} {result : FeatureResult}
    (quick : e.failsFast = true) (did : e.FeatureActs feature uri acts result) :
    Closes acts (result.status = .failed) := by
  obtain ⟨ran, rfl⟩ := did
  rename_i before after middle scenarios
  have inner := ran.closes quick
  have opening : Unfailing [(.told (.featureStarted feature) none : Act η ω),
      .hooks .beforeFeature (featureContext feature) none before] := by
    simp [Unfailing, Act.endsFailed]
  refine ⟨(opening.closing_append inner.closing).append (by simp [Act.closes]), fun passed => ?_⟩
  rw [featureStatus_eq_failed_iff, not_or] at passed
  refine (opening.append (inner.unfailing fun ⟨result, member, failed⟩ => ?_)).append ?_
  · exact passed.2 (List.mem_map.mpr ⟨result, member, failed⟩)
  · simp [Unfailing, Act.endsFailed]

/-- Behind a scenario that fails, no other feature is entered. -/
theorem FeaturesActs.closing {features : List (Feature × Option Text)} {acts : List (Act η ω)}
    {results : List FeatureResult} (quick : e.failsFast = true) (did : e.FeaturesActs features acts results) :
    Closing acts := by
  induction did with
  | nil => exact List.Pairwise.nil
  | last first _ => exact (first.closes quick).closing
  | @next _ _ _ _ _ result _ first goesOn _ ih =>
    have passed : result.status ≠ .failed := by simpa [endsWith, quick] using goesOn
    exact ((first.closes quick).unfailing passed).closing_append ih

/-- The same, whether or not the hooks before the run let documents be run. -/
theorem DocumentsActs.closing {documents : List Document} {before : Option Failure} {acts : List (Act η ω)}
    {results : List FeatureResult} (quick : e.failsFast = true)
    (did : e.DocumentsActs documents before acts results) : Closing acts := by
  cases did with
  | hooksFailed => exact List.Pairwise.nil
  | ran features => exact features.closing quick

/-- Behind a scenario that fails, a run only leaves the feature and itself. -/
theorem RunActs.closing {documents : List Document} {acts : List (Act η ω)} {result : RunResult}
    (quick : e.failsFast = true) (did : e.RunActs documents acts result) : Closing acts := by
  obtain ⟨ran, rfl⟩ := did
  rename_i before after middle features
  have opening : Unfailing [(.hooks .beforeAll {} none before : Act η ω)] := by simp [Unfailing, Act.endsFailed]
  exact (opening.closing_append (ran.closing quick)).append (by simp [Act.closes])

/-- Whether acts tell of the end of a scenario with a result. -/
def Tells (acts : List (Act η ω)) (result : ScenarioResult) : Prop :=
  ∃ name, Act.told (.scenarioFinished result name) none ∈ acts

/-- What some acts tell, more acts tell. -/
theorem Tells.mono {acts more : List (Act η ω)} {result : ScenarioResult} (tells : Tells acts result)
    (grows : acts ⊆ more) : Tells more result := by
  obtain ⟨name, member⟩ := tells
  exact ⟨name, grows member⟩

/-- What some acts tell is told with acts around them. -/
theorem Tells.enclosed {acts : List (Act η ω)} {result : ScenarioResult} (tells : Tells acts result)
    (before after : List (Act η ω)) : Tells (before ++ acts ++ after) result := by
  obtain ⟨name, member⟩ := tells
  exact ⟨name, List.mem_append_left _ (List.mem_append_right _ member)⟩

/-- The result of a scenario that was run is told to listeners. -/
theorem ScenarioActs.tells {featureName : Text} {background : List Step} {tags : List Text}
    {row : Option ExampleRow} {scenario : Scenario} {acts : List (Act η ω)} {result : ScenarioResult}
    (did : e.ScenarioActs featureName background tags row scenario acts result) : Tells acts result := by
  obtain ⟨before, rfl, -⟩ := did.told_last
  exact ⟨featureName, List.mem_append_right _ (List.mem_singleton_self _)⟩

/-- A scenario that is not told of is skipped, so it has not failed. -/
theorem PlanActs.tells {featureName : Text} {plan : List Planned} {acts : List (Act η ω)}
    {results : List ScenarioResult} (did : e.PlanActs featureName plan acts results) :
    ∀ result ∈ results, result.status = .failed → Tells acts result := by
  induction did with
  | nil =>
    rintro _ ⟨⟩
  | skipped _ ih =>
    refine List.forall_mem_cons.mpr ⟨?_, ih⟩
    rintro ⟨⟩
  | last first _ => exact List.forall_mem_singleton.mpr fun _ => first.tells
  | executed first _ _ ih =>
    refine List.forall_mem_cons.mpr ⟨fun _ => first.tells.mono (List.subset_append_left _ _), ?_⟩
    exact fun result member failed => (ih result member failed).mono (List.subset_append_right _ _)

/-- Each scenario of a feature that failed was told. -/
theorem ScenariosActs.tells {feature : Feature} {before : Option Failure} {acts : List (Act η ω)}
    {results : List ScenarioResult} (did : e.ScenariosActs feature before acts results) :
    ∀ result ∈ results, result.status = .failed → Tells acts result := by
  cases did with
  | hooksFailed =>
    rw [skippedFeature_eq, List.forall_mem_map]
    rintro _ _ ⟨⟩
  | planned ran => exact ran.tells

/-- Each scenario that failed in the result of a feature was told. -/
theorem FeatureActs.tells {feature : Feature} {uri : Option Text} {acts : List (Act η ω)} {result : FeatureResult}
    (did : e.FeatureActs feature uri acts result) :
    ∀ scenario ∈ result.scenarios, scenario.status = .failed → Tells acts scenario := by
  obtain ⟨ran, rfl⟩ := did
  exact fun scenario member failed => (ran.tells scenario member failed).enclosed _ _

/-- Each scenario that failed in the results of features was told. -/
theorem FeaturesActs.tells {features : List (Feature × Option Text)} {acts : List (Act η ω)}
    {results : List FeatureResult} (did : e.FeaturesActs features acts results) :
    ∀ result ∈ results, ∀ scenario ∈ result.scenarios, scenario.status = .failed → Tells acts scenario := by
  induction did with
  | nil =>
    rintro _ ⟨⟩
  | last first _ => exact List.forall_mem_singleton.mpr first.tells
  | next first _ _ ih =>
    refine List.forall_mem_cons.mpr ⟨?_, ?_⟩
    · exact fun scenario member failed => (first.tells scenario member failed).mono (List.subset_append_left _ _)
    · exact fun result among scenario member failed =>
        (ih result among scenario member failed).mono (List.subset_append_right _ _)

/-- Each scenario that failed in the results of documents was told. -/
theorem DocumentsActs.tells {documents : List Document} {before : Option Failure} {acts : List (Act η ω)}
    {results : List FeatureResult} (did : e.DocumentsActs documents before acts results) :
    ∀ result ∈ results, ∀ scenario ∈ result.scenarios, scenario.status = .failed → Tells acts scenario := by
  cases did with
  | hooksFailed =>
    rintro _ ⟨⟩
  | ran features => exact features.tells

/-- Each scenario that failed in the result of a run was told. -/
theorem RunActs.tells {documents : List Document} {acts : List (Act η ω)} {result : RunResult}
    (did : e.RunActs documents acts result) :
    ∀ feature ∈ result.features, ∀ scenario ∈ feature.scenarios, scenario.status = .failed →
      Tells acts scenario := by
  obtain ⟨ran, rfl⟩ := did
  exact fun feature among scenario member failed => (ran.tells feature among scenario member failed).enclosed _ _

end Engine

/-! ### Runners -/

namespace Runner

/-- The runner with another setting for whether a run ends with the first failure. -/
def withFailFast (r : Runner η θ) (value : Value) : Runner η θ :=
  { r with config := { r.config with failFast := value } }

/-- A run that returns gives its result from its first state. -/
theorem yields_of_returned {r : Runner η θ} {host : Host η θ ω σ} {documents : List Document} {state : σ}
    {result : RunResult} (returned : ((r.run host documents).run state).1.1 = .ok result) :
    ∃ next, Run.Yields ((r.engine host).run documents) state result next :=
  ⟨_, Prod.ext returned rfl⟩

/-- Of two runs from one state that differ only in whether they end with the first failure, the one that does gives
what the other gives, cut off behind the first feature that failed and behind the first scenario in it that failed;
and behind a scenario that failed it does nothing but end the feature and the run. -/
theorem run_truncates (r : Runner η θ) (host : Host η θ ω σ) (documents : List Document) (state : σ)
    (quick patient : Value) (stops : quick.isTrue = true) (goesOn : patient.isTrue = false) (result whole : RunResult)
    (returned : (((r.withFailFast quick).run host documents).run state).1.1 = .ok result)
    (returnedWhole : (((r.withFailFast patient).run host documents).run state).1.1 = .ok whole) :
    ((∀ feature ∈ result.features, feature.status ≠ .failed) → result.features = whole.features) ∧
    ((∃ feature ∈ result.features, feature.status = .failed) →
      ∃ before last other after, result.features = before ++ [last] ∧ whole.features = before ++ other :: after ∧
        (∀ feature ∈ before, feature.status ≠ .failed) ∧ last.status = .failed ∧
        last.scenarios = upToFailed other.scenarios) ∧
    ∃ acts next,
      (((r.withFailFast quick).engine host).recorded.run documents).run.run (state, []) = (.ok result, next, acts) ∧
      Closing acts ∧
      ∀ feature ∈ result.features, ∀ scenario ∈ feature.scenarios, scenario.status = .failed →
        ∃ name, Act.told (.scenarioFinished scenario name) none ∈ acts := by
  obtain ⟨_, given⟩ := yields_of_returned returned
  obtain ⟨_, givenWhole⟩ := yields_of_returned returnedWhole
  have truncated : Truncated result.features whole.features :=
    @Engine.run_truncated _ _ _ (r.engine host) quick patient stops goesOn _ _ _ _ _ _ given givenWhole
  obtain ⟨acts, next, kept, did⟩ := run_acts (r.withFailFast quick) host returned
  have quickly : ((r.withFailFast quick).engine host).failsFast = true := stops
  exact ⟨truncated.eq_of_passed, truncated.split, acts, next, kept, Engine.RunActs.closing quickly did, did.tells⟩

/-- The host on which every call of a handler fails. -/
def failing : Host Unit Unit Unit Unit where
  createWorld := pure (.ok none)
  callHandler _ world _ _ := pure ⟨some (.raised "AssertionError" ""), [], world⟩
  callHook _ _ world _ := pure (.idle world)
  notify _ := pure none

/-- The statuses of scenarios, feature by feature. -/
def statuses (result : RunResult) : List (List Status) :=
  result.features.map fun feature => feature.scenarios.map ScenarioResult.status

/-- The second scenario runs only if the run goes on behind the first. -/
theorem run_truncates_second_scenario :
    ∃ (steps : StepRegistry Unit) (runner : Runner Unit Unit) (result whole : RunResult),
      repeatingSteps = .ok steps ∧ runner = plain steps ∧
      (Value.bool true).isTrue = true ∧ (Value.bool false).isTrue = false ∧
      (((runner.withFailFast (.bool true)).run failing [documentOnly repeatingFeature]).run ()).1.1 = .ok result ∧
      (((runner.withFailFast (.bool false)).run failing [documentOnly repeatingFeature]).run ()).1.1 = .ok whole ∧
      statuses result = [[.failed]] ∧ statuses whole = [[.failed, .failed]] ∧
      ∃ before last other after, result.features = before ++ [last] ∧ whole.features = before ++ other :: after ∧
        last.scenarios = upToFailed other.scenarios := by
  have shape : (repeatingSteps.toOption.any fun steps =>
      ((((plain steps).withFailFast (.bool true)).outcome failing [documentOnly repeatingFeature] ()).toOption.any
        fun result => statuses result == [[.failed]] &&
          result.features.any fun feature => feature.status == .failed) &&
      (((plain steps).withFailFast (.bool false)).outcome failing [documentOnly repeatingFeature] ()).toOption.any
        fun whole => statuses whole == [[.failed, .failed]]) = true := by
    decide +kernel
  obtain ⟨steps, built, shape⟩ := exists_of_toOption_any shape
  rw [Bool.and_eq_true] at shape
  obtain ⟨result, returned, cut⟩ := exists_of_toOption_any shape.1
  obtain ⟨whole, returnedWhole, all⟩ := exists_of_toOption_any shape.2
  simp only [Bool.and_eq_true, beq_iff_eq, List.any_eq_true] at cut
  obtain ⟨_, truncates, _⟩ := run_truncates (plain steps) failing [documentOnly repeatingFeature] () (.bool true)
    (.bool false) rfl rfl result whole returned returnedWhole
  obtain ⟨before, last, other, after, features, features', _, _, scenarios⟩ := truncates cut.2
  exact ⟨steps, _, result, whole, built, rfl, rfl, rfl, returned, returnedWhole, cut.1, beq_iff_eq.mp all, before,
    last, other, after, features, features', scenarios⟩

end Runner

end Gherkin
