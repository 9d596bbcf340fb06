import Mathlib
import Gherkin.Proofs.Run.Parts

/-! # The results of the steps of a scenario

Each step of an executed scenario has one result, in order. Unless the run keeps going, the results are
passed or pending up to the first that failed or is undefined, and skipped after it; a scenario that could
not be entered skips all of them. What a result carries besides its status follows from the status
(`Gherkin.Runner.run_step_results`).
-/

namespace Gherkin

/-- Whether what a result carries fits its status. -/
structure StepResult.Coherent (r : StepResult) : Prop where
  error_iff : r.error ≠ none ↔ r.status = .failed ∨ r.status = .undefined
  suggestions : r.suggestions ≠ [] → r.status = .undefined
  undefined : r.status = .undefined → r.error = some (.undefined r.keyword r.text r.suggestions)
  skipped : r.status = .skipped →
    r.error = none ∧ r.suggestions = [] ∧ r.logs = [] ∧ r.attachments = []

/-- Whether statuses are a block that passed or is pending, then at most one that failed or is undefined,
and skipped ones behind it. -/
def Halting (statuses : List Status) : Prop :=
  ∃ front back, statuses = front ++ back ∧ (∀ status ∈ front, status = .passed ∨ status = .pending) ∧
    (back = [] ∨ ∃ status count, (status = .failed ∨ status = .undefined) ∧
      back = status :: List.replicate count .skipped)

namespace Halting

theorem nil : Halting [] := ⟨[], [], rfl, List.forall_mem_nil _, .inl rfl⟩

theorem goesOn {status : Status} {rest : List Status} (passes : status = .passed ∨ status = .pending)
    (others : Halting rest) : Halting (status :: rest) := by
  obtain ⟨front, back, rfl, passed, stopped⟩ := others
  exact ⟨status :: front, back, rfl, List.forall_mem_cons.mpr ⟨passes, passed⟩, stopped⟩

theorem halts {status : Status} (stops : status = .failed ∨ status = .undefined) (count : Nat) :
    Halting (status :: List.replicate count .skipped) :=
  ⟨[], _, rfl, List.forall_mem_nil _, .inr ⟨status, count, stops, rfl⟩⟩

end Halting

variable {η ω σ : Type}

namespace Engine

variable (e : Engine η ω σ)

/-- What the statuses of the steps of a scenario look like, given what entering it failed with. -/
structure StepShape (hookError : Option Failure) (statuses : List Status) : Prop where
  keepsGoing : e.keepsGoing = true → .skipped ∉ statuses
  unentered : e.keepsGoing = false → hookError ≠ none → ∀ status ∈ statuses, status = .skipped
  entered : e.keepsGoing = false → hookError = none → Halting statuses

/-- What the acts of a step and its result say about it. A step that is skipped does nothing. -/
structure StepOutcome (step : Step) (part : List (Act η ω) × StepResult) : Prop where
  place : part.2.place = step.place
  coherent : part.2.Coherent
  skipped : part.2.status = .skipped → part.1 = []
  ran : part.2.status ≠ .skipped → ∃ middle,
    part.1 = [.told (.stepStarted step) none] ++ middle ++ [.told (.stepFinished part.2) none]

/-- The results of the steps of a scenario: one for each step, in order. Their shape depends on whether the
world was made and the hooks in front of the scenario passed. -/
def HasStepResults : ScenarioProperty η ω := fun background tags scenario acts result =>
  ∃ featureName entry hookError world last status after,
    ∃ parts : List (List (Act η ω) × StepResult),
      acts = [.told (.scenarioStarted scenario featureName) none] ++ entry ++ parts.flatMap Prod.fst ++
        [.hooks .afterScenario (scenarioContext featureName tags scenario (some status)) last after,
          .told (.scenarioFinished result featureName) none] ∧
      EnterActs (scenarioContext featureName tags scenario none) entry (hookError, world) ∧
      result.steps = parts.map Prod.snd ∧
      List.Forall₂ StepOutcome (background ++ scenario.steps) parts ∧
      e.StepShape hookError (result.steps.map StepResult.status)

variable {e}

/-! ### Steps -/

theorem skippedStep_coherent (step : Step) : (skippedStep step).Coherent where
  error_iff := by simp [skippedStep]
  suggestions := by simp [skippedStep]
  undefined := by rintro ⟨⟩
  skipped _ := ⟨rfl, rfl, rfl, rfl⟩

theorem ExecuteActs.coherent {tags : List Text} {step : Step} {type : StepType} {before : Call ω}
    {acts : List (Act η ω)} {invocation : Invocation ω}
    (did : e.ExecuteActs tags step type before acts invocation) (tray : Tray) :
    (stepResult step invocation tray).Coherent ∧ invocation.status ≠ .skipped := by
  cases did with
  | hooksFailed _ =>
    refine ⟨⟨?_, ?_, ?_, ?_⟩, ?_⟩
    all_goals simp [stepResult]
  | undefined _ _ _ _ =>
    refine ⟨⟨?_, ?_, ?_, ?_⟩, ?_⟩
    all_goals simp [stepResult]
  | @called _ call _ _ =>
    cases failure : call.failure with
    | none =>
      refine ⟨⟨?_, ?_, ?_, ?_⟩, ?_⟩
      all_goals simp [stepResult, statusOfCall, failure]
    | some reason =>
      by_cases pending : reason.isPending = true
      all_goals
        refine ⟨⟨?_, ?_, ?_, ?_⟩, ?_⟩
        all_goals simp [stepResult, statusOfCall, failure, pending]

theorem StepActs.coherent {tags : List Text} {scene next : Scene ω} {step : Step} {type : StepType}
    {acts : List (Act η ω)} {result : StepResult}
    (did : e.StepActs tags scene step type acts (result, next)) :
    result.Coherent ∧ result.status ≠ .skipped := by
  obtain ⟨executed, rfl, rfl⟩ := did
  exact executed.coherent _

theorem StepDone.outcome {tags : List Text} {item : Step × StepType} {part : List (Act η ω) × StepResult}
    (done : e.StepDone tags item part) : StepOutcome item.1 part := by
  cases done with
  | skipped => exact ⟨rfl, skippedStep_coherent item.1, fun _ => rfl, fun ran => absurd rfl ran⟩
  | @ran scene _ _ _ did =>
    obtain ⟨coherent, ran⟩ := did.coherent
    obtain @⟨before, after, middle, invocation, _, _, _, _, rfl⟩ := did
    refine ⟨rfl, coherent, fun skipped => absurd skipped ran, fun _ => ?_⟩
    refine ⟨.hooks .beforeStep (stepContext tags item.1 none) scene.world before :: (middle ++
      [.hooks .afterStep (stepContext tags item.1 invocation.call.failure) invocation.call.world after]), ?_⟩
    simp

/-! ### Scenarios -/

/-- A halted scenario does nothing, and all its steps are skipped. -/
theorem StepsActs.halted {tags : List Text} {scene last : Scene ω} {items : List (Step × StepType)}
    {acts : List (Act η ω)} {results : List StepResult}
    (did : e.StepsActs tags true scene items acts (results, last)) :
    results.map StepResult.status = List.replicate items.length .skipped := by
  induction items generalizing acts results last with
  | nil =>
    cases did
    rfl
  | cons item rest ih =>
    cases did with
    | skipped others => exact congrArg (List.cons _) (ih others)

theorem StepsActs.keepsGoing {tags : List Text} {halted : Bool} {scene last : Scene ω}
    {items : List (Step × StepType)} {acts : List (Act η ω)} {results : List StepResult}
    (keeps : e.keepsGoing = true) (started : halted = false)
    (did : e.StepsActs tags halted scene items acts (results, last)) :
    .skipped ∉ results.map StepResult.status := by
  generalize same : (results, last) = outcome at did
  induction did generalizing results last with
  | nil =>
    cases same
    exact List.not_mem_nil
  | skipped _ _ => cases started
  | run first _ _ ih =>
    cases same
    have others := ih (by simp [halts, keeps]) rfl
    have ran := first.coherent.2
    rw [List.map_cons, List.mem_cons, not_or]
    exact ⟨ran.symm, others⟩

theorem StepsActs.halting {tags : List Text} {halted : Bool} {scene last : Scene ω}
    {items : List (Step × StepType)} {acts : List (Act η ω)} {results : List StepResult}
    (stops : e.keepsGoing = false) (started : halted = false)
    (did : e.StepsActs tags halted scene items acts (results, last)) :
    Halting (results.map StepResult.status) := by
  generalize same : (results, last) = outcome at did
  induction did generalizing results last with
  | nil =>
    cases same
    exact .nil
  | skipped _ _ => cases started
  | @run _ _ _ _ _ rest _ _ result _ first _ others ih =>
    cases same
    have ran := first.coherent.2
    rw [List.map_cons]
    by_cases halts : e.halts result.status = true
    · rw [halts] at others
      rw [others.halted]
      exact .halts (by simpa [Engine.halts, stops] using halts) _
    · have goesOn : result.status = .passed ∨ result.status = .pending := by
        cases status : result.status <;> simp_all [Engine.halts]
      exact .goesOn goesOn (ih (Bool.eq_false_iff.mpr halts) rfl)

theorem ScenarioActs.stepResults {featureName : Text} {background : List Step} {tags : List Text}
    {row : Option ExampleRow} {scenario : Scenario} {acts : List (Act η ω)} {result : ScenarioResult}
    (did : e.ScenarioActs featureName background tags row scenario acts result) :
    e.HasStepResults background tags scenario acts result := by
  obtain @⟨entry, _, hookError, world, last, _, status, after, _, entered, ran, _, rfl⟩ := did
  obtain ⟨parts, rfl, same, done⟩ := ran.parts
  have outcomes : List.Forall₂ StepOutcome ((withRoles (background ++ scenario.steps)).map Prod.fst) parts :=
    List.forall₂_map_left_iff.mpr (done.imp fun _ _ done => done.outcome)
  rw [withRoles_fst] at outcomes
  refine ⟨featureName, entry, hookError, world, last.world, status, after, parts, rfl, entered, same, outcomes,
    ?_, ?_, ?_⟩
  · intro keeps
    exact ran.keepsGoing keeps (by simp [keeps])
  · intro stops failed
    have halted : (hookError.isSome && !e.keepsGoing) = true := by
      simp [stops, Option.isSome_iff_ne_none, failed]
    rw [halted] at ran
    rw [ran.halted]
    exact fun status member => List.eq_of_mem_replicate member
  · intro stops passed
    exact ran.halting stops (by simp [passed])

end Engine

namespace Runner

variable {θ : Type}

/-- In every run that gives a result, the steps of every scenario and row that is executed have one result
each, of which none is skipped if the run keeps going, all are if the scenario could not be entered, and
otherwise those behind the first that failed or is undefined. -/
theorem run_step_results (r : Runner η θ) (host : Host η θ ω σ) (documents : List Document) (state : σ)
    (result : RunResult) (returned : ((r.run host documents).run state).1.1 = .ok result) :
    ∃ acts next, ((r.engine host).recorded.run documents).run.run (state, []) = (.ok result, next, acts) ∧
      (r.engine host).RunOf (r.engine host).HasStepResults documents acts result := by
  obtain ⟨acts, next, kept, did⟩ := r.run_acts host returned
  exact ⟨acts, next, kept, did.of fun _ _ _ _ _ _ _ did => did.stepResults⟩

/-- A host on which the handler with the number two fails. -/
def stumbling : Host Nat Unit Unit Unit where
  createWorld := pure (.ok (some ()))
  callHandler handler world _ _ :=
    pure ⟨if handler = 2 then some (.raised "RuntimeError" "no") else none, [], world⟩
  callHook _ _ world _ := pure (.idle world)
  notify _ := pure none

/-- The texts and the statuses of the steps, scenario by scenario. -/
def textsAndStatuses (result : RunResult) : List (List (Text × Status)) :=
  (result.features.flatMap FeatureResult.scenarios).map fun scenario =>
    scenario.steps.map fun step => (step.text, step.status)

/-- The step in the background of the rule fails, behind that of the feature and in front of that of the outline,
which is skipped. -/
theorem run_step_results_backgrounds :
    ∃ (steps : StepRegistry Nat) (runner : Runner Nat Unit) (result : RunResult) (acts : List (Act Nat Unit)),
      layeredSteps = .ok steps ∧ runner = unfinishedLeftOut steps ∧
      ((runner.run stumbling [documentOnly layeredFeature]).run ()).1.1 = .ok result ∧
      (runner.engine stumbling).RunOf (runner.engine stumbling).HasStepResults [documentOnly layeredFeature] acts
        result ∧
      textsAndStatuses result = ([[], [("ready", .passed), ("started", .failed), ("count 1", .skipped)],
        [("ready", .passed), ("started", .failed), ("count 2", .skipped)]] : List (List (Text × Status))) := by
  have shape : (layeredSteps.toOption.any fun steps =>
      ((unfinishedLeftOut steps).outcome stumbling [documentOnly layeredFeature] ()).toOption.any fun result =>
        textsAndStatuses result == ([[], [("ready", .passed), ("started", .failed), ("count 1", .skipped)],
          [("ready", .passed), ("started", .failed), ("count 2", .skipped)]] : List (List (Text × Status)))) = true := by
    decide +kernel
  obtain ⟨steps, built, shape⟩ := exists_of_toOption_any shape
  obtain ⟨result, returned, statuses⟩ := exists_of_toOption_any shape
  obtain ⟨acts, _, _, held⟩ :=
    run_step_results (unfinishedLeftOut steps) stumbling [documentOnly layeredFeature] () result returned
  exact ⟨steps, _, result, acts, built, rfl, returned, held, beq_iff_eq.mp statuses⟩

end Runner

end Gherkin
