import Mathlib
import Gherkin.Proofs.Run.Returning

/-! # Verdicts

What the statuses of a run say about it. Every status is that of the results below it and of the hooks
around them, also where it is changed after the hooks behind a scenario. So a run succeeds exactly when
its results show no failure, and its results hide none of the failures that its acts met with
(`Gherkin.Runner.success_iff_nothing_failed`).
-/

namespace Gherkin

/-! ### Results -/

/-- Whether the status of a scenario is that of its steps and of what its hooks failed with. -/
def ScenarioResult.Agrees (r : ScenarioResult) : Prop :=
  r.status = scenarioStatus (r.steps.map StepResult.status) r.hookError.isSome

/-- Whether the status of a feature, and those of its scenarios, are those of the results below them. -/
structure FeatureResult.Agrees (r : FeatureResult) : Prop where
  status : r.status = featureStatus (r.scenarios.map ScenarioResult.status) r.hookError.isSome
  scenarios : ∀ scenario ∈ r.scenarios, scenario.Agrees

/-- A scenario whose status agrees did not fail exactly if no hook and no step did. -/
theorem ScenarioResult.Agrees.unfailed_iff {r : ScenarioResult} (agrees : r.Agrees) :
    r.status ≠ .failed ↔ r.hookError = none ∧ ∀ step ∈ r.steps, step.status ≠ .failed := by
  rw [agrees, ne_eq, scenarioStatus_eq_failed_iff]
  simp

/-- A feature whose status agrees did not fail exactly if no hook and no scenario did. -/
theorem FeatureResult.Agrees.unfailed_iff {r : FeatureResult} (agrees : r.Agrees) :
    r.status ≠ .failed ↔ r.hookError = none ∧ ∀ scenario ∈ r.scenarios, scenario.status ≠ .failed := by
  rw [agrees.status, ne_eq, featureStatus_eq_failed_iff]
  simp

/-- A run succeeds exactly if no hook and no feature failed. -/
theorem RunResult.success_iff_features (r : RunResult) :
    r.success = true ↔ r.hookError = none ∧ ∀ feature ∈ r.features, feature.status ≠ .failed := by
  simp [success]

/-- If the statuses of the features agree with what is below them, success means that no result at any
level shows a failure. -/
theorem RunResult.success_iff {r : RunResult} (agree : ∀ feature ∈ r.features, feature.Agrees) :
    r.success = true ↔ r.hookError = none ∧ ∀ feature ∈ r.features, feature.hookError = none ∧
      ∀ scenario ∈ feature.scenarios, scenario.hookError = none ∧
        ∀ step ∈ scenario.steps, step.status ≠ .failed := by
  rw [r.success_iff_features]
  refine and_congr_right fun _ => forall₂_congr fun feature member => ?_
  rw [(agree feature member).unfailed_iff]
  refine and_congr_right fun _ => forall₂_congr fun scenario among => ?_
  exact ((agree feature member).scenarios scenario among).unfailed_iff

/-! ### Acts -/

/-- Whether an act failed and this counts. A handler that is not written yet does not count, and the hooks
behind a step do not. -/
def Act.failed {η ω : Type} : Act η ω → Bool
  | .world (.error _) => true
  | .hooks .afterStep _ _ _ => false
  | .hooks _ _ _ call => call.failure.isSome
  | .handler _ _ _ _ call => call.failure.any fun failure => !failure.isPending
  | _ => false

namespace Engine

variable {η ω σ : Type} {e : Engine η ω σ}

/-- A step fails exactly with a failure that does not say that it is pending. -/
theorem statusOfCall_eq_failed (failure : Option Failure) :
    (statusOfCall failure == .failed) = failure.any fun failure => !failure.isPending := by
  cases failure with
  | none => rfl
  | some failure => cases pending : failure.isPending <;> simp [statusOfCall, pending]

/-- The hooks behind a scenario leave its status in agreement with its steps. -/
theorem conclude_agrees (steps : List Status) (before after : Option Failure) :
    (conclude (scenarioStatus steps before.isSome) before after).1 =
      scenarioStatus steps (conclude (scenarioStatus steps before.isSome) before after).2.isSome := by
  cases before with
  | some failure => rfl
  | none =>
    cases after with
    | none => rfl
    | some failure => exact (scenarioStatus_eq_failed_iff.mpr (.inl rfl)).symm

/-- A scenario has a hook error if a hook before or after its steps failed. -/
theorem conclude_hookError (status : Status) (before after : Option Failure) :
    (conclude status before after).2.isSome = (before.isSome || after.isSome) := by
  cases before <;> cases after <;> rfl

/-! ### Scenarios -/

/-- A step fails exactly if the hooks in front of it or its handler fail. -/
theorem StepActs.failed {tags : List Text} {scene next : Scene ω} {step : Step} {type : StepType}
    {acts : List (Act η ω)} {result : StepResult}
    (did : e.StepActs tags scene step type acts (result, next)) :
    acts.any Act.failed = (result.status == .failed) := by
  obtain ⟨executed, rfl, rfl⟩ := did
  cases executed with
  | hooksFailed failed => simp [Act.failed, failed, stepResult]
  | undefined passed _ _ _ => simp [Act.failed, passed, stepResult]
  | called passed _ => simp [Act.failed, passed, stepResult, statusOfCall_eq_failed]

/-- Among the acts of steps there is a failure exactly if a step failed. -/
theorem StepsActs.failed {tags : List Text} {halted : Bool} {scene last : Scene ω}
    {items : List (Step × StepType)} {acts : List (Act η ω)} {results : List StepResult}
    (did : e.StepsActs tags halted scene items acts (results, last)) :
    acts.any Act.failed = results.any fun result => result.status == .failed := by
  generalize same : (results, last) = outcome at did
  induction did generalizing results last with
  | nil =>
    cases same
    rfl
  | skipped _ ih =>
    cases same
    simp [ih rfl, skippedStep]
  | run first _ _ ih =>
    cases same
    rw [List.any_append, first.failed, ih rfl, List.any_cons]

theorem EnterActs.failed {context : HookContext} {acts : List (Act η ω)} {hookError : Option Failure}
    {world : Option ω} (entered : EnterActs context acts (hookError, world)) :
    acts.any Act.failed = hookError.isSome := by
  cases entered with
  | noWorld => rfl
  | entered => simp [Act.failed]

/-- The status of a scenario agrees with its steps and its hook error. -/
theorem ScenarioActs.agrees {featureName : Text} {background : List Step} {tags : List Text}
    {row : Option ExampleRow} {scenario : Scenario} {acts : List (Act η ω)} {result : ScenarioResult}
    (did : e.ScenarioActs featureName background tags row scenario acts result) : result.Agrees := by
  obtain ⟨_, _, rfl, rfl⟩ := did
  exact conclude_agrees _ _ _

theorem skippedScenario_agrees (tags : List Text) (scenario : Scenario) :
    (skippedScenario tags scenario).Agrees := rfl

/-- A scenario fails exactly if something that counts fails in it. -/
theorem ScenarioActs.failed {featureName : Text} {background : List Step} {tags : List Text}
    {row : Option ExampleRow} {scenario : Scenario} {acts : List (Act η ω)} {result : ScenarioResult}
    (did : e.ScenarioActs featureName background tags row scenario acts result) :
    acts.any Act.failed = (result.status == .failed) := by
  rw [Bool.eq_iff_iff, beq_iff_eq, did.agrees, scenarioStatus_eq_failed_iff]
  obtain ⟨entered, ran, _, rfl⟩ := did
  simp only [List.any_append, entered.failed, ran.failed, conclude_hookError]
  simp [Act.failed, or_assoc, or_left_comm, or_comm]

/-! ### Features -/

theorem PlanActs.agree {featureName : Text} {plan : List Planned} {acts : List (Act η ω)}
    {results : List ScenarioResult} (did : e.PlanActs featureName plan acts results) :
    ∀ result ∈ results, result.Agrees := by
  induction did with
  | nil => exact List.forall_mem_nil _
  | skipped _ ih => exact List.forall_mem_cons.mpr ⟨skippedScenario_agrees _ _, ih⟩
  | last first _ => exact List.forall_mem_singleton.mpr first.agrees
  | executed first _ _ ih => exact List.forall_mem_cons.mpr ⟨first.agrees, ih⟩

theorem PlanActs.failed {featureName : Text} {plan : List Planned} {acts : List (Act η ω)}
    {results : List ScenarioResult} (did : e.PlanActs featureName plan acts results) :
    acts.any Act.failed = results.any fun result => result.status == .failed := by
  induction did with
  | nil => rfl
  | skipped _ ih => simp [ih, skippedScenario]
  | last first _ => simp [first.failed]
  | executed first _ _ ih => rw [List.any_append, first.failed, ih, List.any_cons]

theorem skippedFeature_agrees (feature : Feature) : ∀ result ∈ skippedFeature feature, result.Agrees := by
  intro result member
  rw [skippedFeature_eq] at member
  obtain ⟨placed, _, rfl⟩ := List.mem_map.mp member
  exact skippedScenario_agrees _ _

theorem ScenariosActs.agree {feature : Feature} {before : Option Failure} {acts : List (Act η ω)}
    {results : List ScenarioResult} (did : e.ScenariosActs feature before acts results) :
    ∀ result ∈ results, result.Agrees := by
  cases did with
  | hooksFailed => exact skippedFeature_agrees feature
  | planned ran => exact ran.agree

/-- The status of a feature agrees with its scenarios and its hook error. -/
theorem FeatureActs.agrees {feature : Feature} {uri : Option Text} {acts : List (Act η ω)}
    {result : FeatureResult} (did : e.FeatureActs feature uri acts result) : result.Agrees := by
  obtain ⟨ran, rfl⟩ := did
  exact ⟨rfl, ran.agree⟩

/-- Whatever comes of the scenarios, a feature in front of which the hooks fail has failed. -/
theorem ScenariosActs.failed {feature : Feature} {before : Option Failure} {acts : List (Act η ω)}
    {results : List ScenarioResult} (did : e.ScenariosActs feature before acts results) :
    (before.isSome || acts.any Act.failed) =
      (before.isSome || results.any fun result => result.status == .failed) := by
  cases did with
  | hooksFailed => rfl
  | planned ran => rw [ran.failed]

/-- Among the acts of a feature there is a failure exactly if it failed. -/
theorem FeatureActs.failed {feature : Feature} {uri : Option Text} {acts : List (Act η ω)}
    {result : FeatureResult} (did : e.FeatureActs feature uri acts result) :
    acts.any Act.failed = (result.status == .failed) := by
  rw [Bool.eq_iff_iff, beq_iff_eq, did.agrees.status, featureStatus_eq_failed_iff]
  obtain ⟨ran, rfl⟩ := did
  rename_i before after middle scenarios
  have inner := ran.failed
  cases first : before.failure with
  | some failure => simp [Act.failed, first]
  | none =>
    simp only [first, Option.isSome_none, Bool.false_or] at inner
    simp [Act.failed, first, inner, or_comm]

/-! ### Runs -/

theorem FeaturesActs.agree {features : List (Feature × Option Text)} {acts : List (Act η ω)}
    {results : List FeatureResult} (did : e.FeaturesActs features acts results) :
    ∀ result ∈ results, result.Agrees := by
  induction did with
  | nil => exact List.forall_mem_nil _
  | last first _ => exact List.forall_mem_singleton.mpr first.agrees
  | next first _ _ ih => exact List.forall_mem_cons.mpr ⟨first.agrees, ih⟩

theorem FeaturesActs.failed {features : List (Feature × Option Text)} {acts : List (Act η ω)}
    {results : List FeatureResult} (did : e.FeaturesActs features acts results) :
    acts.any Act.failed = results.any fun result => result.status == .failed := by
  induction did with
  | nil => rfl
  | last first _ => simp [first.failed]
  | next first _ _ ih => rw [List.any_append, first.failed, ih, List.any_cons]

theorem DocumentsActs.agree {documents : List Document} {before : Option Failure} {acts : List (Act η ω)}
    {results : List FeatureResult} (did : e.DocumentsActs documents before acts results) :
    ∀ result ∈ results, result.Agrees := by
  cases did with
  | hooksFailed => exact List.forall_mem_nil _
  | ran features => exact features.agree

/-- Hooks in front apart, there is a failure among the acts of documents exactly if a feature failed. -/
theorem DocumentsActs.failed {documents : List Document} {before : Option Failure} {acts : List (Act η ω)}
    {results : List FeatureResult} (did : e.DocumentsActs documents before acts results) :
    (before.isSome || acts.any Act.failed) =
      (before.isSome || results.any fun result => result.status == .failed) := by
  cases did with
  | hooksFailed => rfl
  | ran features => rw [features.failed]

theorem RunActs.agree {documents : List Document} {acts : List (Act η ω)} {result : RunResult}
    (did : e.RunActs documents acts result) : ∀ feature ∈ result.features, feature.Agrees := by
  obtain ⟨ran, rfl⟩ := did
  exact ran.agree

/-- A run succeeds exactly if nothing that counts fails in it. -/
theorem RunActs.failed {documents : List Document} {acts : List (Act η ω)} {result : RunResult}
    (did : e.RunActs documents acts result) : acts.any Act.failed = !result.success := by
  obtain ⟨ran, rfl⟩ := did
  rename_i before after middle features
  have inner := ran.failed
  have unfailed : (features.all fun feature => feature.status != .failed) =
      !features.any fun feature => feature.status == .failed := by
    rw [List.not_any_eq_all_not]
    rfl
  cases first : before.failure with
  | some failure => simp [Act.failed, first, RunResult.success]
  | none =>
    simp only [first, Option.isSome_none, Bool.false_or] at inner
    cases last : after.failure <;> simp [Act.failed, first, last, inner, unfailed, RunResult.success]

end Engine

namespace Runner

variable {η θ ω σ : Type}

/-- A run that gives a result succeeds exactly when no result in it shows a failure, and exactly when
nothing failed in it; and all statuses are those of the results below them. -/
theorem success_iff_nothing_failed (r : Runner η θ) (host : Host η θ ω σ) (documents : List Document)
    (state : σ) (result : RunResult) (returned : ((r.run host documents).run state).1.1 = .ok result) :
    (result.success = true ↔ result.hookError = none ∧ ∀ feature ∈ result.features,
      feature.hookError = none ∧ ∀ scenario ∈ feature.scenarios, scenario.hookError = none ∧
        ∀ step ∈ scenario.steps, step.status ≠ .failed) ∧
    (∀ feature ∈ result.features,
      feature.status =
        featureStatus (feature.scenarios.map ScenarioResult.status) feature.hookError.isSome ∧
      ∀ scenario ∈ feature.scenarios, scenario.status =
        scenarioStatus (scenario.steps.map StepResult.status) scenario.hookError.isSome) ∧
    ∃ acts next,
      ((r.engine host).recorded.run documents).run.run (state, []) = (.ok result, next, acts) ∧
        (result.success = true ↔ ∀ act ∈ acts, act.failed = false) := by
  obtain ⟨acts, next, kept, did⟩ := r.run_acts host returned
  have agree := did.agree
  refine ⟨RunResult.success_iff agree, ?_, acts, next, kept, ?_⟩
  · intro feature member
    exact ⟨(agree feature member).status, (agree feature member).scenarios⟩
  · rw [← Bool.not_eq_false', ← did.failed, List.any_eq_false]
    simp

/-- A host on which every hook fails, and nothing else. -/
def brittle : Host Unit Unit Unit Unit :=
  { (Host.idle : Host Unit Unit Unit Unit) with
    callHook := fun _ _ world _ => pure ⟨some (.raised "RuntimeError" "no"), [], world⟩ }

/-- A runner with a hook behind every scenario. -/
def cleaning : Runner Unit Unit :=
  { bare with hooks := ⟨[⟨.afterScenario, (), none, none, none, .int 1000, .null⟩]⟩ }

/-- A hook that fails behind a scenario fails the run. -/
theorem failing_cleanup_fails_run :
    ∃ result acts next,
      ((cleaning.run brittle [countingDocument]).run ()).1.1 = .ok result ∧ result.success = false ∧
        ((cleaning.engine brittle).recorded.run [countingDocument]).run.run ((), []) =
          (.ok result, next, acts) ∧
        ∃ act ∈ acts, act.failed = true := by
  have fails : (cleaning.outcome brittle [countingDocument] ()).toOption.any
      (fun result => !result.success) = true := by
    decide +kernel
  obtain ⟨result, returned, fails⟩ := exists_of_toOption_any fails
  have fails : result.success = false := by simpa using fails
  obtain ⟨_, _, acts, next, kept, success⟩ :=
    success_iff_nothing_failed cleaning brittle [countingDocument] () result returned
  refine ⟨result, acts, next, returned, fails, kept, ?_⟩
  by_contra unfailed
  have succeeds : result.success = true := success.mpr fun act member =>
    Bool.eq_false_iff.mpr fun failed => unfailed ⟨act, member, failed⟩
  rw [fails] at succeeds
  cases succeeds

end Runner

end Gherkin
