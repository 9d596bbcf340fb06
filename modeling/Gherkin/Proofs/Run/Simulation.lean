import Gherkin.Proofs.Run.Acts

/-! # Runs with operations that do the same

Two kinds of operations may work on different states and still do the same at each step, as far as a
relation between the states says. Then every run with the one gives what it gives with the other, and
leaves related states behind (`Gherkin.Engine.run_parallel`). What a run does to a state can so be seen by
watching it in another one.
-/

namespace Gherkin

variable {η ω σ τ α β : Type}

/-- Whether two actions answer alike in related states and leave related states behind. -/
def Corresponds (related : σ → τ → Prop) (first : StateM σ α) (second : StateM τ α) : Prop :=
  ∀ s t, related s t → (first.run s).1 = (second.run t).1 ∧ related (first.run s).2 (second.run t).2

/-- Whether two kinds of operations do the same in related states. -/
structure Effects.Parallel (related : σ → τ → Prop) (first : Effects η ω σ) (second : Effects η ω τ) :
    Prop where
  createWorld : Corresponds related first.createWorld second.createWorld
  setsOutlet : first.setsOutlet = second.setsOutlet
  runHooks : ∀ scope context world,
    Corresponds related (first.runHooks scope context world) (second.runHooks scope context world)
  callHandler : ∀ handler world arguments deadline,
    Corresponds related (first.callHandler handler world arguments deadline)
      (second.callHandler handler world arguments deadline)
  notify : ∀ event, Corresponds related (first.notify event) (second.notify event)

/-- An engine with other operations. -/
def Engine.withEffects (e : Engine η ω σ) (effects : Effects η ω τ) : Engine η ω τ :=
  ⟨e.config, e.filter, e.steps, effects⟩

@[simp] theorem Engine.withEffects_config (e : Engine η ω σ) (effects : Effects η ω τ) :
    (e.withEffects effects).config = e.config := rfl

@[simp] theorem Engine.withEffects_steps (e : Engine η ω σ) (effects : Effects η ω τ) :
    (e.withEffects effects).steps = e.steps := rfl

/-- Whether two parts of runs do the same in related states. -/
def Parallel (related : σ → τ → Prop) (first : Run σ α) (second : Run τ α) : Prop :=
  Corresponds related first.run second.run

namespace Parallel

variable {related : σ → τ → Prop}

/-- What only gives a value does the same on both sides. -/
theorem pure {a : α} : Parallel related (Pure.pure a) (Pure.pure a) := fun _ _ holds => ⟨rfl, holds⟩

/-- What only fails does the same on both sides. -/
theorem throw {failure : Failure} :
    Parallel related (MonadExcept.throw failure : Run σ α) (MonadExcept.throw failure) :=
  fun _ _ holds => ⟨rfl, holds⟩

/-- Actions that correspond do the same as parts of runs. -/
theorem perform {first : StateM σ α} {second : StateM τ α} (same : Corresponds related first second) :
    Parallel related (Run.perform first) (Run.perform second) := by
  intro s t holds
  obtain ⟨answers, states⟩ := same s t holds
  exact ⟨congrArg Except.ok answers, states⟩

/-- Parts that do the same may be followed by parts that do the same for every value given. -/
theorem bind {first : Run σ α} {second : Run τ α} {next : α → Run σ β} {after : α → Run τ β}
    (start : Parallel related first second) (others : ∀ a, Parallel related (next a) (after a)) :
    Parallel related (first >>= next) (second >>= after) := by
  intro s t holds
  obtain ⟨answers, states⟩ := start s t holds
  simp only [ExceptT.run_bind, StateT.run_bind]
  generalize first.run.run s = outcome at answers states
  generalize second.run.run t = other at answers states
  obtain ⟨answer, s⟩ := outcome
  obtain ⟨_, t⟩ := other
  cases answers
  cases answer with
  | error failure => exact ⟨rfl, states⟩
  | ok a => exact others a s t states

/-- Trying parts that do the same gives the same outcome, and what has failed leaves related states too. -/
theorem attempt {first : Run σ α} {second : Run τ α} (same : Parallel related first second) :
    Parallel related (Run.attempt first) (Run.attempt second) := perform same

/-- An outcome that is settled fails or gives its value on both sides. -/
theorem settle {outcome : Except Failure α} :
    Parallel related (Run.settle outcome : Run σ α) (Run.settle outcome) := by
  cases outcome with
  | ok a => exact pure
  | error failure => exact throw

end Parallel

namespace Engine

variable {related : σ → τ → Prop} (e : Engine η ω σ) {effects : Effects η ω τ}
  (same : e.effects.Parallel related effects)

include same

/-- Listeners are told the same, and answer alike. -/
theorem notify_parallel (event : Event) :
    Parallel related (e.notify event) ((e.withEffects effects).notify event) := by
  refine .bind (.perform (same.notify event)) fun answer => ?_
  cases answer with
  | none => exact .pure
  | some failure => exact .throw

/-- The hooks of a place come to the same call. -/
theorem hooks_parallel (scope : HookScope) (context : HookContext) (world : Option ω) :
    Parallel related (e.hooks scope context world) ((e.withEffects effects).hooks scope context world) :=
  .perform (same.runHooks scope context world)

/-- A step comes to the same invocation: its definition is found without the operations. -/
theorem execute_parallel (tags : List Text) (before : Call ω) (step : Step) (type : StepType) :
    Parallel related (e.execute tags before step type)
      ((e.withEffects effects).execute tags before step type) := by
  unfold execute
  cases before.failure with
  | some failure => exact .pure
  | none =>
    unfold invoke
    rw [withEffects_steps]
    cases e.steps.match? step.text (Role.ofType type) (some tags) with
    | error failure => exact .throw
    | ok found =>
      cases found with
      | some found => exact .bind (.perform (same.callHandler _ _ _ _)) fun _ => .pure
      | none =>
        dsimp only
        unfold undefinedStep
        rw [withEffects_config]
        cases e.config.suggestionLimit.sliceEnd? with
        | none => exact .throw
        | some limit => exact .pure

/-- Worlds whose outlets can be set alike are bound alike. -/
theorem bindOutput_parallel (scene : Scene ω) :
    (e.withEffects effects).bindOutput scene = e.bindOutput scene := by
  unfold bindOutput
  rw [same.setsOutlet, withEffects]

/-- A step has the same result and leaves the same scene. -/
theorem runStep_parallel (tags : List Text) (scene : Scene ω) (step : Step) (type : StepType) :
    Parallel related (e.runStep tags scene step type)
      ((e.withEffects effects).runStep tags scene step type) := by
  unfold runStep
  rw [e.bindOutput_parallel same]
  refine .bind (e.notify_parallel same _) fun _ => ?_
  refine .bind (e.hooks_parallel same _ _ _) fun before => ?_
  refine .bind (e.execute_parallel same _ _ _ _) fun invocation => ?_
  refine .bind (e.hooks_parallel same _ _ _) fun after => ?_
  exact .bind (e.notify_parallel same _) fun _ => .pure

omit same in
/-- A pause does not touch the states. -/
theorem pause_parallel (status : Status) :
    Parallel related (e.pause status) ((e.withEffects effects).pause status) := by
  unfold pause
  rw [withEffects_config]
  cases e.config.pauseFailure with
  | none => exact .pure
  | some failure =>
    by_cases passed : (status == .passed) = true
    · simp only [passed, if_true]
      exact .throw
    · simp only [passed]
      exact .pure

/-- Steps in turn have the same results, by induction on the steps. -/
theorem runSteps_parallel (tags : List Text) (halted : Bool) (scene : Scene ω)
    (items : List (Step × StepType)) :
    Parallel related (e.runSteps tags halted scene items)
      ((e.withEffects effects).runSteps tags halted scene items) := by
  induction items generalizing halted scene with
  | nil => cases halted <;> exact .pure
  | cons item rest ih =>
    cases halted with
    | true => exact .bind (ih _ _) fun _ => .pure
    | false =>
      refine .bind (e.runStep_parallel same _ _ _ _) fun outcome => ?_
      refine .bind (e.pause_parallel _) fun _ => ?_
      exact .bind (ih _ _) fun _ => .pure

/-- A scenario starts with the same world, or with the same failure. -/
theorem enter_parallel (context : HookContext) :
    Parallel related (e.enter context) ((e.withEffects effects).enter context) := by
  refine .bind (.perform same.createWorld) fun answer => ?_
  cases answer with
  | error failure => exact .pure
  | ok world => exact .bind (e.hooks_parallel same _ _ _) fun _ => .pure

/-- A scenario has the same result. -/
theorem runScenario_parallel (featureName : Text) (background : List Step) (tags : List Text)
    (row : Option ExampleRow) (scenario : Scenario) :
    Parallel related (e.runScenario featureName background tags row scenario)
      ((e.withEffects effects).runScenario featureName background tags row scenario) := by
  refine .bind (e.notify_parallel same _) fun _ => ?_
  refine .bind (e.enter_parallel same _) fun entered => ?_
  refine .bind (e.runSteps_parallel same _ _ _ _) fun ran => ?_
  refine .bind (e.hooks_parallel same _ _ _) fun after => ?_
  exact .bind (e.notify_parallel same _) fun _ => .pure

omit same in
/-- What is run in turn until something stops is stopped at the same place, for what stops is seen from results. -/
theorem runUntilStopped_parallel {first : α → Run σ (List ScenarioResult)}
    {second : α → Run τ (List ScenarioResult)} (same : ∀ item, Parallel related (first item) (second item))
    (items : List α) :
    Parallel related (e.runUntilStopped first items) ((e.withEffects effects).runUntilStopped second items) := by
  induction items with
  | nil => exact .pure
  | cons item rest ih =>
    refine .bind (same item) fun results => ?_
    change Parallel related _ (if e.stopsAfter results then _ else _)
    by_cases stops : e.stopsAfter results = true
    · simp only [stops, if_true]
      exact .pure
    · simp only [stops]
      exact .bind ih fun _ => .pure

/-- The scenarios of a feature have the same results. -/
theorem runScenarios_parallel (before : Option Failure) (feature : Feature) :
    Parallel related (e.runScenarios before feature)
      ((e.withEffects effects).runScenarios before feature) := by
  cases before with
  | some failure => exact .pure
  | none =>
    rw [runScenarios_eq_runPlan, runScenarios_eq_runPlan]
    refine e.runUntilStopped_parallel (fun planned => .bind ?_ fun _ => .pure) _
    cases planned with
    | skipped tags scenario => exact .pure
    | executed background tags row scenario => exact e.runScenario_parallel same _ _ _ _ _

/-- A feature has the same result. -/
theorem runFeature_parallel (feature : Feature) (uri : Option Text) :
    Parallel related (e.runFeature feature uri) ((e.withEffects effects).runFeature feature uri) := by
  refine .bind (e.notify_parallel same _) fun _ => ?_
  refine .bind (e.hooks_parallel same _ _ _) fun before => ?_
  refine .bind (.attempt (e.runScenarios_parallel same _ _)) fun scenarios => ?_
  refine .bind (e.hooks_parallel same _ _ _) fun after => ?_
  refine .bind .settle fun scenarios => ?_
  exact .bind (e.notify_parallel same _) fun _ => .pure

/-- Features in turn have the same results. -/
theorem runFeatures_parallel (features : List (Feature × Option Text)) :
    Parallel related (e.runFeatures features) ((e.withEffects effects).runFeatures features) := by
  induction features with
  | nil => exact .pure
  | cons item rest ih =>
    refine .bind (e.runFeature_parallel same _ _) fun result => ?_
    change Parallel related _ (if e.failsFast && result.status == .failed then _ else _)
    by_cases ends : (e.failsFast && result.status == .failed) = true
    · simp only [ends, if_true]
      exact .pure
    · simp only [ends]
      exact .bind ih fun _ => .pure

/-- Runs with operations that do the same give the same results, and leave related states behind. -/
theorem run_parallel (documents : List Document) :
    Parallel related (e.run documents) ((e.withEffects effects).run documents) := by
  refine .bind (e.hooks_parallel same _ _ _) fun before => ?_
  refine .bind (.attempt ?_) fun features => ?_
  · cases before.failure with
    | some failure => exact .pure
    | none => exact e.runFeatures_parallel same _
  · refine .bind (e.hooks_parallel same _ _ _) fun after => ?_
    exact .bind .settle fun _ => .pure

end Engine

end Gherkin
