import Mathlib
import Gherkin.Proofs.Run.Listening

/-! # Where outputs go

What handlers and hooks log and attach goes where the outlets of their world lead. A step that starts leads them to a
tray of its own, and the hooks behind a scenario find them led to another tray again, so the result of a step shows
what was given out while it was executed, and no result shows what was given out at other times
(`Gherkin.Runner.run_keeps_outputs`). This is said of the acts of a run, without regard to trays: between the start
and the end of each step are its hooks and its handler, and what these calls give out is what its result shows.
-/

namespace Gherkin

variable {η ω σ : Type}

/-! ### What results show -/

/-- Whether messages and attachments, taken one from either at a time, are some outputs. -/
inductive Interleaves : List Text → List Attachment → List Output → Prop
  | nil : Interleaves [] [] []
  | logged {message : Text} {messages : List Text} {attachments : List Attachment} {outputs : List Output}
      (others : Interleaves messages attachments outputs) :
      Interleaves (message :: messages) attachments (.logged message :: outputs)
  | attached {attachment : Attachment} {messages : List Text} {attachments : List Attachment} {outputs : List Output}
      (others : Interleaves messages attachments outputs) :
      Interleaves messages (attachment :: attachments) (.attached attachment :: outputs)

/-- What an act gives out. -/
def Act.outputs : Act η ω → List Output
  | .hooks _ _ _ call | .handler _ _ _ _ call => call.outputs
  | .world _ | .told _ _ => []

/-- Whether an act is a call in a step: of the hooks around it or of its handler. -/
def Act.inStep : Act η ω → Bool
  | .hooks .beforeStep _ _ _ | .hooks .afterStep _ _ _ | .handler .. => true
  | _ => false

/-- Whether an act tells of the start or the end of a step. -/
def Act.delimitsStep : Act η ω → Bool
  | .told (.stepStarted _) _ | .told (.stepFinished _) _ => true
  | _ => false

/-- Whether acts execute some steps, one after another and with other acts around them, and end with their results:
each step from its start to its end, with nothing but its calls between, and its result shows what these give out. -/
inductive Executions : List (Act η ω) → List StepResult → Prop
  | nil : Executions [] []
  | elsewhere {act : Act η ω} {acts : List (Act η ω)} {results : List StepResult} (uncalled : act.inStep = false)
      (between : act.delimitsStep = false) (others : Executions acts results) : Executions (act :: acts) results
  | step {step : Step} {calls acts : List (Act η ω)} {result : StepResult} {results : List StepResult}
      (place : result.place = step.place) (inside : ∀ act ∈ calls, act.inStep = true)
      (shows : Interleaves result.logs result.attachments (calls.flatMap Act.outputs))
      (others : Executions acts results) :
      Executions ([.told (.stepStarted step) none] ++ calls ++ [.told (.stepFinished result) none] ++ acts)
        (result :: results)

/-- Two executions in turn. -/
theorem Executions.append {acts more : List (Act η ω)} {results others : List StepResult}
    (first : Executions acts results) (second : Executions more others) :
    Executions (acts ++ more) (results ++ others) := by
  induction first with
  | nil => exact second
  | elsewhere uncalled between _ ih => exact .elsewhere uncalled between ih
  | step place inside shows _ ih =>
    rw [List.append_assoc, List.cons_append]
    exact .step place inside shows ih

/-- An act outside of steps. -/
theorem Executions.single {act : Act η ω} (uncalled : act.inStep = false) (between : act.delimitsStep = false) :
    Executions [act] [] := .elsewhere uncalled between .nil

/-! ### Trays -/

/-- Outputs are added behind those that are in a tray. -/
theorem Interleaves.append {messages moreMessages : List Text} {attachments moreAttachments : List Attachment}
    {outputs more : List Output} (first : Interleaves messages attachments outputs)
    (second : Interleaves moreMessages moreAttachments more) :
    Interleaves (messages ++ moreMessages) (attachments ++ moreAttachments) (outputs ++ more) := by
  induction first with
  | nil => exact second
  | logged _ ih => exact .logged ih
  | attached _ ih => exact .attached ih

namespace Desk

/-- Whether both outlets lead to a tray that was put out. -/
structure LeadsTo (d : Desk) (number : Nat) : Prop where
  attach : d.attachTo = some number
  log : d.logTo = some number
  within : number < d.trays.length

/-- What is taken goes into the tray that the outlets lead to, behind what is in it. -/
theorem LeadsTo.take {d : Desk} {number : Nat} (leads : d.LeadsTo number) (output : Output) {outputs : List Output}
    (holds : Interleaves (d.tray number).logs (d.tray number).attachments outputs) :
    (d.take output).LeadsTo number ∧
      Interleaves ((d.take output).tray number).logs ((d.take output).tray number).attachments
        (outputs ++ [output]) := by
  obtain ⟨attach, log, within⟩ := leads
  cases output with
  | logged message =>
    have last : Interleaves [message] [] [.logged message] := .logged .nil
    refine ⟨⟨?_, ?_, ?_⟩, ?_⟩
    · simpa [Desk.take, Desk.add, log] using attach
    · simp [Desk.take, Desk.add, log]
    · simpa [Desk.take, Desk.add, log] using within
    · simpa [Desk.take, Desk.add, log, Desk.tray, within] using holds.append last
  | attached attachment =>
    have last : Interleaves [] [attachment] [.attached attachment] := .attached .nil
    refine ⟨⟨?_, ?_, ?_⟩, ?_⟩
    · simp [Desk.take, Desk.add, attach]
    · simpa [Desk.take, Desk.add, attach] using log
    · simpa [Desk.take, Desk.add, attach] using within
    · simpa [Desk.take, Desk.add, attach, Desk.tray, within] using holds.append last

/-- What calls give out in turn is in the tray that the outlets lead to. -/
theorem LeadsTo.takeAll {d : Desk} {number : Nat} (leads : d.LeadsTo number) (more : List Output)
    {outputs : List Output} (holds : Interleaves (d.tray number).logs (d.tray number).attachments outputs) :
    (d.takeAll more).LeadsTo number ∧
      Interleaves ((d.takeAll more).tray number).logs ((d.takeAll more).tray number).attachments
        (outputs ++ more) := by
  induction more generalizing d outputs with
  | nil => exact ⟨leads, by simpa [Desk.takeAll] using holds⟩
  | cons output rest ih =>
    obtain ⟨leads, holds⟩ := leads.take output holds
    simpa [Desk.takeAll] using ih leads holds

/-- The outlets of a world that lets them be set lead to the new tray, which is empty. -/
theorem bind_leadsTo (d : Desk) {sets : Outlet → Bool} (free : ∀ outlet, sets outlet = true) :
    (d.bind (some sets)).LeadsTo d.trays.length ∧ (d.bind (some sets)).tray d.trays.length = {} := by
  have bound : d.bind (some sets) = ⟨d.trays ++ [({} : Tray)], some d.trays.length, some d.trays.length⟩ := by
    simp [Desk.bind, Desk.lead, free]
  rw [bound]
  exact ⟨⟨rfl, rfl, by simp⟩, by simp [Desk.tray]⟩

end Desk

/-! ### Worlds whose outlets can be set -/

/-- Whether the worlds of a host are there and let their outlets be set, as worlds do that are made by default: every
scenario gets one, and no call takes it away. -/
structure Host.DefaultWorlds {θ : Type} (host : Host η θ ω σ) : Prop where
  made : ∀ state, ∃ world, (host.createWorld.run state).1 = .ok (some world)
  free : ∀ world outlet, host.setsOutlet world outlet = true
  handler : ∀ handler world arguments deadline state,
    ((host.callHandler handler (some world) arguments deadline).run state).1.world ≠ none
  hook : ∀ hook context world deadline state,
    ((host.callHook hook context (some world) deadline).run state).1.world ≠ none

/-- Whether an act that is given a world hands one on. -/
def Act.KeepsWorld : Act η ω → Prop
  | .world answer => ∃ fresh, answer = .ok (some fresh)
  | .hooks _ _ given call => given ≠ none → call.world ≠ none
  | .handler _ given _ _ call => given ≠ none → call.world ≠ none
  | .told _ _ => True

namespace Host.DefaultWorlds

variable {θ : Type} {host : Host η θ ω σ} (default : host.DefaultWorlds)
include default

theorem runHooks (timeout : Value) (context : HookContext) (hooks : List (HookDefinition θ)) (world : Option ω)
    (present : world ≠ none) (state : σ) :
    ((host.runHooks timeout context hooks world).run state).1.world ≠ none := by
  induction hooks generalizing world state with
  | nil => exact present
  | cons hook rest ih =>
    obtain ⟨world, rfl⟩ := Option.ne_none_iff_exists'.mp present
    have kept := default.hook hook.hook context world (hook.deadline timeout) state
    rw [Host.runHooks, StateT.run_bind]
    generalize (host.callHook hook.hook context (some world) (hook.deadline timeout)).run state = outcome at kept
    obtain ⟨first, next⟩ := outcome
    cases failed : first.failure with
    | some failure =>
      simp only [bind, failed]
      exact kept
    | none =>
      simp only [bind, failed]
      exact ih first.world kept next

/-- What such a host can do keeps the worlds of scenarios. -/
theorem keepsWorld {hooks : HookRegistry θ} {config : RunConfig} {act : Act η ω}
    (gives : (host.effects hooks config).Gives act) : act.KeepsWorld := by
  cases act with
  | world answer =>
    obtain ⟨state, rfl⟩ := gives
    exact default.made state
  | hooks scope context world call =>
    obtain ⟨state, rfl⟩ := gives
    exact fun present => default.runHooks _ _ _ world present state
  | handler handler world arguments deadline call =>
    obtain ⟨state, rfl⟩ := gives
    intro present
    obtain ⟨world, rfl⟩ := Option.ne_none_iff_exists'.mp present
    exact default.handler handler world arguments deadline state
  | told event failure => trivial

end Host.DefaultWorlds

namespace Engine

variable {e : Engine η ω σ}

/-! ### Steps -/

/-- Between its hooks a step does at most one call, which gives out what the step does there. -/
theorem ExecuteActs.outputs {tags : List Text} {step : Step} {type : StepType} {before : Call ω}
    {acts : List (Act η ω)} {invocation : Invocation ω}
    (did : e.ExecuteActs tags step type before acts invocation) :
    (∀ act ∈ acts, act.inStep = true) ∧ acts.flatMap Act.outputs = invocation.call.outputs := by
  cases did with
  | hooksFailed => exact ⟨List.forall_mem_nil _, rfl⟩
  | undefined => exact ⟨List.forall_mem_nil _, rfl⟩
  | called => exact ⟨List.forall_mem_singleton.mpr rfl, List.flatMap_singleton _ _⟩

theorem ExecuteActs.keepsWorld {tags : List Text} {step : Step} {type : StepType} {before : Call ω}
    {acts : List (Act η ω)} {invocation : Invocation ω}
    (did : e.ExecuteActs tags step type before acts invocation) (keeps : ∀ act ∈ acts, act.KeepsWorld)
    (present : before.world ≠ none) : invocation.call.world ≠ none := by
  cases did with
  | hooksFailed => exact present
  | undefined => exact present
  | called => exact keeps _ List.mem_cons_self present

section Executions

variable (free : ∀ world outlet, e.effects.setsOutlet world outlet = true)
include free

/-- A step leads the outlets of its world to its own tray, and its result shows this tray. -/
theorem StepActs.executions {tags : List Text}
    {scene next : Scene ω} {step : Step} {type : StepType} {acts : List (Act η ω)} {result : StepResult}
    (did : e.StepActs tags scene step type acts (result, next)) (present : scene.world ≠ none)
    (keeps : ∀ act ∈ acts, act.KeepsWorld) : Executions acts [result] ∧ next.world ≠ none := by
  obtain @⟨before, after, middle, invocation, _, _, executed, rfl, resulted⟩ := did
  obtain ⟨inside, given⟩ := executed.outputs
  simp only [List.forall_mem_append, List.forall_mem_cons] at keeps
  obtain ⟨⟨⟨_, keepsBefore, _⟩, keepsMiddle⟩, keepsAfter, _⟩ := keeps
  have kept := keepsAfter (executed.keepsWorld keepsMiddle (keepsBefore present))
  obtain ⟨world, there⟩ := Option.ne_none_iff_exists'.mp present
  obtain ⟨leads, empty⟩ := scene.desk.bind_leadsTo (free world)
  have holds : Interleaves ((e.bindOutput scene).desk.tray scene.desk.trays.length).logs
      ((e.bindOutput scene).desk.tray scene.desk.trays.length).attachments [] := by
    rw [bindOutput, there, Option.map_some, empty]
    exact .nil
  have bound : (e.bindOutput scene).desk.LeadsTo scene.desk.trays.length := by
    rw [bindOutput, there, Option.map_some]
    exact leads
  obtain ⟨bound, holds⟩ := bound.takeAll before.outputs holds
  obtain ⟨bound, holds⟩ := bound.takeAll invocation.call.outputs holds
  obtain ⟨_, holds⟩ := bound.takeAll after.outputs holds
  let calls : List (Act η ω) := .hooks .beforeStep (stepContext tags step none) scene.world before :: (middle ++
    [.hooks .afterStep (stepContext tags step invocation.call.failure) invocation.call.world after])
  have within : ∀ act ∈ calls, act.inStep = true :=
    List.forall_mem_cons.mpr ⟨rfl, List.forall_mem_append.mpr ⟨inside, List.forall_mem_singleton.mpr rfl⟩⟩
  have shows : Interleaves result.logs result.attachments (calls.flatMap Act.outputs) := by
    rw [resulted]
    simpa [calls, stepResult, Scene.after, Act.outputs, given] using holds
  have place : result.place = step.place := by rw [resulted]; rfl
  exact ⟨by simpa [calls] using Executions.step place within shows .nil, kept⟩

/-- The steps of a scenario are executed one after another, up to those that are skipped. -/
theorem StepsActs.executions {tags : List Text}
    {halted : Bool} {scene last : Scene ω} {items : List (Step × StepType)} {acts : List (Act η ω)}
    {results : List StepResult} (did : e.StepsActs tags halted scene items acts (results, last))
    (present : scene.world ≠ none) (keeps : ∀ act ∈ acts, act.KeepsWorld) :
    Executions acts (results.filter StepResult.isExecuted) := by
  generalize same : (results, last) = outcome at did
  induction did generalizing results last with
  | nil =>
    cases same
    exact .nil
  | skipped _ ih =>
    cases same
    rw [List.filter_cons_of_neg (by simp [StepResult.isExecuted, skippedStep])]
    exact ih present keeps rfl
  | @run _ _ _ _ _ _ _ _ result _ first _ _ ih =>
    cases same
    rw [List.forall_mem_append] at keeps
    have executed : result.isExecuted = true := by simpa [StepResult.isExecuted] using first.coherent.2
    obtain ⟨execution, present⟩ := first.executions free present keeps.1
    rw [List.filter_cons_of_pos executed]
    exact execution.append (ih present keeps.2 rfl)

/-! ### Scenarios, features and runs -/

omit free in
/-- A scenario is entered with a world. -/
theorem EnterActs.executions {context : HookContext} {acts : List (Act η ω)} {hookError : Option Failure}
    {world : Option ω} (entered : EnterActs context acts (hookError, world)) (keeps : ∀ act ∈ acts, act.KeepsWorld) :
    Executions acts [] ∧ world ≠ none := by
  cases entered with
  | noWorld =>
    obtain ⟨_, impossible⟩ := keeps _ List.mem_cons_self
    cases impossible
  | @entered world call =>
    rw [List.forall_mem_cons, List.forall_mem_singleton] at keeps
    obtain ⟨⟨fresh, made⟩, kept⟩ := keeps
    cases made
    exact ⟨.elsewhere rfl rfl (.single rfl rfl), kept (Option.some_ne_none fresh)⟩

theorem ScenarioActs.executions {featureName : Text}
    {background : List Step} {tags : List Text} {row : Option ExampleRow} {scenario : Scenario}
    {acts : List (Act η ω)} {result : ScenarioResult}
    (did : e.ScenarioActs featureName background tags row scenario acts result)
    (keeps : ∀ act ∈ acts, act.KeepsWorld) : Executions acts result.executedSteps := by
  obtain @⟨entry, middle, _, _, last, steps, status, after, _, entered, ran, _, resulted⟩ := did
  simp only [List.forall_mem_append] at keeps
  obtain ⟨⟨⟨_, keepsEntry⟩, keepsMiddle⟩, _⟩ := keeps
  have stepsOf : result.executedSteps = steps.filter StepResult.isExecuted := by rw [resulted]; rfl
  obtain ⟨entry, present⟩ := entered.executions keepsEntry
  have started : Executions [Act.told (η := η) (ω := ω) (.scenarioStarted scenario featureName) none] [] :=
    .single rfl rfl
  have left : Executions [Act.hooks (η := η) .afterScenario (scenarioContext featureName tags scenario (some status))
      last.world after, .told (.scenarioFinished result featureName) none] [] := .elsewhere rfl rfl (.single rfl rfl)
  have whole := ((started.append entry).append (ran.executions free present keepsMiddle)).append left
  rw [stepsOf]
  simpa using whole

theorem PlanActs.executions {featureName : Text}
    {plan : List Planned} {acts : List (Act η ω)} {results : List ScenarioResult}
    (did : e.PlanActs featureName plan acts results) (keeps : ∀ act ∈ acts, act.KeepsWorld) :
    Executions acts (results.flatMap ScenarioResult.executedSteps) := by
  induction did with
  | nil => exact .nil
  | skipped _ ih => exact ih keeps
  | last first _ =>
    rw [List.flatMap_singleton]
    exact first.executions free keeps
  | executed first _ _ ih =>
    rw [List.forall_mem_append] at keeps
    exact (first.executions free keeps.1).append (ih keeps.2)

theorem ScenariosActs.executions
    {feature : Feature} {before : Option Failure} {acts : List (Act η ω)} {results : List ScenarioResult}
    (did : e.ScenariosActs feature before acts results) (keeps : ∀ act ∈ acts, act.KeepsWorld) :
    Executions acts (results.flatMap ScenarioResult.executedSteps) := by
  cases did with
  | planned ran => exact ran.executions free keeps
  | hooksFailed =>
    rw [skippedFeature_executedSteps]
    exact .nil

theorem FeatureActs.executions {feature : Feature}
    {uri : Option Text} {acts : List (Act η ω)} {result : FeatureResult}
    (did : e.FeatureActs feature uri acts result) (keeps : ∀ act ∈ acts, act.KeepsWorld) :
    Executions acts result.executedSteps := by
  obtain @⟨before, after, middle, scenarios, _, ran, resulted⟩ := did
  rw [List.forall_mem_append, List.forall_mem_append] at keeps
  have same : result.scenarios = scenarios := by rw [resulted]
  have started : Executions [Act.told (η := η) (ω := ω) (.featureStarted feature) none,
      .hooks .beforeFeature (featureContext feature) none before] [] := .elsewhere rfl rfl (.single rfl rfl)
  have left : Executions [Act.hooks (η := η) .afterFeature (featureContext feature) none after,
      .told (.featureFinished result) none] [] := .elsewhere rfl rfl (.single rfl rfl)
  rw [FeatureResult.executedSteps, same]
  simpa using (started.append (ran.executions free keeps.1.2)).append left

theorem FeaturesActs.executions
    {features : List (Feature × Option Text)} {acts : List (Act η ω)} {results : List FeatureResult}
    (did : e.FeaturesActs features acts results) (keeps : ∀ act ∈ acts, act.KeepsWorld) :
    Executions acts (results.flatMap FeatureResult.executedSteps) := by
  induction did with
  | nil => exact .nil
  | last first _ =>
    rw [List.flatMap_singleton]
    exact first.executions free keeps
  | next first _ _ ih =>
    rw [List.forall_mem_append] at keeps
    exact (first.executions free keeps.1).append (ih keeps.2)

/-- The acts of a whole run execute the steps whose results it has. -/
theorem RunActs.executions
    {documents : List Document} {acts : List (Act η ω)} {result : RunResult} (did : e.RunActs documents acts result)
    (keeps : ∀ act ∈ acts, act.KeepsWorld) : Executions acts result.executedSteps := by
  obtain @⟨before, after, middle, features, _, ran, rfl⟩ := did
  rw [List.forall_mem_append, List.forall_mem_append] at keeps
  have inner : Executions middle (features.flatMap FeatureResult.executedSteps) := by
    cases passed : before.failure with
    | some failure =>
      rw [passed] at ran
      cases ran with
      | hooksFailed => exact .nil
    | none =>
      rw [passed] at ran
      cases ran with
      | ran ran => exact ran.executions free keeps.1.2
  have entered : Executions [Act.hooks (η := η) .beforeAll {} none before] [] := .single rfl rfl
  have left : Executions [Act.hooks (η := η) .afterAll {} none after] [] := .single rfl rfl
  simpa [RunResult.executedSteps] using (entered.append inner).append left

end Executions

end Engine

/-! ### Every step of a run -/

theorem InTurn.forall_results {α β : Type} {done : α → List (Act η ω) → β → Prop} {ends : β → Bool}
    {items : List α} {acts : List (Act η ω)} {results : List β} {holds : β → Prop}
    (did : InTurn done ends items acts results) (each : ∀ item acts result, done item acts result → holds result) :
    ∀ result ∈ results, holds result := by
  induction did with
  | nil => exact List.forall_mem_nil _
  | last first _ => exact List.forall_mem_singleton.mpr (each _ _ _ first)
  | next first _ _ ih => exact List.forall_mem_cons.mpr ⟨each _ _ _ first, ih⟩

namespace Engine

variable {e : Engine η ω σ}

/-- What holds of the results of the scenarios that are executed and of those that are passed over, holds of
all results of scenarios. -/
theorem RunOf.forall_scenarios {property : ScenarioProperty η ω} {documents : List Document}
    {acts : List (Act η ω)} {result : RunResult} {holds : ScenarioResult → Prop}
    (did : e.RunOf property documents acts result)
    (executed : ∀ background tags scenario acts result, property background tags scenario acts result →
      holds result)
    (skipped : ∀ tags scenario, holds (skippedScenario tags scenario)) :
    ∀ feature ∈ result.features, ∀ scenario ∈ feature.scenarios, holds scenario := by
  cases did with
  | hooksFailed _ empty =>
    rw [empty]
    exact List.forall_mem_nil _
  | ran _ features =>
    refine features.forall_results fun item acts feature did => ?_
    cases did with
    | hooksFailed _ none =>
      rw [none]
      intro scenario member
      obtain ⟨placed, _, rfl⟩ := List.mem_map.mp member
      exact skipped _ _
    | planned _ ran =>
      refine ran.forall_results fun planned acts scenario did => ?_
      cases planned with
      | skipped tags other =>
        rw [did.2]
        exact skipped tags other
      | executed background tags row other => exact executed _ _ _ _ _ did

theorem RunActs.coherent {documents : List Document} {acts : List (Act η ω)} {result : RunResult}
    (did : e.RunActs documents acts result) :
    ∀ feature ∈ result.features, ∀ scenario ∈ feature.scenarios, ∀ step ∈ scenario.steps, step.Coherent := by
  have ran : e.RunOf e.HasStepResults documents acts result :=
    did.of fun _ _ _ _ _ _ _ did => did.stepResults
  refine ran.forall_scenarios (fun background _ scenario _ _ held => ?_) fun _ _ => List.forall_mem_nil _
  obtain ⟨_, _, _, _, _, _, _, parts, -, -, same, outcomes, -⟩ := held
  rw [same, List.forall_mem_map]
  clear same
  generalize background ++ scenario.steps = steps at outcomes
  induction outcomes with
  | nil => exact List.forall_mem_nil _
  | cons outcome _ ih => exact List.forall_mem_cons.mpr ⟨outcome.coherent, ih⟩

end Engine

/-! ### Single hooks -/

namespace Host

variable {θ : Type}

/-- The calls of hooks in turn, up to the first that fails. -/
def hookCalls (host : Host η θ ω σ) (default : Value) (context : HookContext) :
    List (HookDefinition θ) → Option ω → StateM σ (List (Call ω))
  | [], _ => pure []
  | h :: rest, world => do
      let first ← host.callHook h.hook context world (h.deadline default)
      match first.failure with
      | some _ => pure [first]
      | none =>
          let others ← host.hookCalls default context rest first.world
          pure (first :: others)

/-- What the hooks of a scope give out is what their calls give out, in order. -/
theorem runHooks_outputs (host : Host η θ ω σ) (default : Value) (context : HookContext)
    (hooks : List (HookDefinition θ)) (world : Option ω) (state : σ) :
    ((host.runHooks default context hooks world).run state).1.outputs =
      ((host.hookCalls default context hooks world).run state).1.flatMap Call.outputs := by
  induction hooks generalizing world state with
  | nil => rfl
  | cons hook rest ih =>
    rw [runHooks, hookCalls, StateT.run_bind, StateT.run_bind]
    generalize (host.callHook hook.hook context world (hook.deadline default)).run state = outcome
    obtain ⟨first, next⟩ := outcome
    cases failed : first.failure with
    | some failure =>
      simp only [bind, failed]
      exact (List.flatMap_singleton _ _).symm
    | none =>
      simp only [bind, failed]
      exact congrArg (first.outputs ++ ·) (ih first.world next)

end Host

namespace Runner

variable {θ : Type}

/-- In every run that gives a result, and whose worlds are such as are made by default, the acts of the run execute
the steps whose results it has, and each result shows what the calls of its step give out, each message and each
attachment once and in the order of the calls; steps that are skipped show nothing. What the hooks of a scope give
out is what the calls of the single hooks do. -/
theorem run_keeps_outputs (r : Runner η θ) (host : Host η θ ω σ) (default : host.DefaultWorlds)
    (documents : List Document) (state : σ) (result : RunResult)
    (returned : ((r.run host documents).run state).1.1 = .ok result) :
    ∃ acts next, ((r.engine host).recorded.run documents).run.run (state, []) = (.ok result, next, acts) ∧
      Executions acts result.executedSteps ∧
      (∀ feature ∈ result.features, ∀ scenario ∈ feature.scenarios, ∀ step ∈ scenario.steps,
        step.status = .skipped → step.logs = [] ∧ step.attachments = []) ∧
      ∀ scope context world call, Act.hooks scope context world call ∈ acts → ∃ state,
        call.outputs = ((host.hookCalls r.config.hookTimeout context (r.hooks.select scope context.tags)
          world).run state).1.flatMap Call.outputs := by
  obtain ⟨acts, next, kept, gives, did⟩ := r.run_gives host returned
  have keeps : ∀ act ∈ acts, act.KeepsWorld := fun act member => default.keepsWorld (gives act member)
  refine ⟨acts, next, kept, ?_, ?_, ?_⟩
  · exact Engine.RunActs.executions (e := r.engine host) default.free did keeps
  · intro feature member scenario among step inside skipped
    obtain ⟨_, _, unlogged, unattached⟩ := (did.coherent feature member scenario among step inside).skipped skipped
    exact ⟨unlogged, unattached⟩
  · intro scope context world call member
    obtain ⟨state, rfl⟩ := gives _ member
    exact ⟨state, host.runHooks_outputs _ _ _ _ _⟩

/-- An attachment with a text. -/
def note (text : Text) : Attachment := ⟨.value (.text text), "text/plain"⟩

/-- A host whose hooks log and attach the name of their scope, and whose handlers attach something, log a message and
fail. -/
def complaining : Host Unit HookScope Unit Unit where
  createWorld := pure (.ok (some ()))
  callHandler _ world _ _ :=
    pure ⟨some (.raised "RuntimeError" "no"), [.attached (note "called"), .logged "called"], world⟩
  callHook scope _ world _ := pure ⟨none, [.logged scope.name, .attached (note scope.name)], world⟩
  notify _ := pure none

theorem complaining_defaultWorlds : complaining.DefaultWorlds where
  made _ := ⟨(), rfl⟩
  free _ _ := rfl
  handler _ _ _ _ _ := Option.some_ne_none ()
  hook _ _ _ _ _ := Option.some_ne_none ()

/-- Hooks around scenarios and around steps. -/
def chattyHooks : HookRegistry HookScope :=
  ⟨[.beforeScenario, .afterScenario, .beforeStep, .afterStep].map fun scope =>
    ⟨scope, scope, none, none, none, .int 1000, .null⟩⟩

/-- A runner with these hooks. -/
def chatty (steps : StepRegistry Unit) : Runner Unit HookScope := ⟨{}, none, steps, chattyHooks, {}, .ready⟩

/-- The messages and the texts of the attachments of results. -/
def shownBy (results : List StepResult) : List (List Text × List Text) :=
  results.map fun result => (result.logs, result.attachments.map fun a => match a.data with
    | .value (.text t) => t
    | _ => [])

/-- In each of two scenarios the first step fails, and its result shows what its hooks and its handler gave out, and
not what the hooks around the scenario did. -/
theorem run_keeps_outputs_complaining :
    ∃ (steps : StepRegistry Unit) (runner : Runner Unit HookScope) (result : RunResult)
        (acts : List (Act Unit Unit)),
      repeatingSteps = .ok steps ∧ runner = chatty steps ∧ complaining.DefaultWorlds ∧
      ((runner.run complaining [documentOnly repeatingFeature]).run ()).1.1 = .ok result ∧
      Executions acts result.executedSteps ∧
      shownBy result.executedSteps = ([(["beforeStep", "called", "afterStep"], ["beforeStep", "called", "afterStep"]),
        (["beforeStep", "called", "afterStep"], ["beforeStep", "called", "afterStep"])] :
          List (List Text × List Text)) := by
  have shows : (repeatingSteps.toOption.any fun steps =>
      ((chatty steps).outcome complaining [documentOnly repeatingFeature] ()).toOption.any fun result =>
          shownBy result.executedSteps ==
            ([(["beforeStep", "called", "afterStep"], ["beforeStep", "called", "afterStep"]),
              (["beforeStep", "called", "afterStep"], ["beforeStep", "called", "afterStep"])] :
                List (List Text × List Text))) = true := by
    decide +kernel
  obtain ⟨steps, built, shows⟩ := exists_of_toOption_any shows
  obtain ⟨result, returned, shows⟩ := exists_of_toOption_any shows
  obtain ⟨acts, _, _, executions, _⟩ := run_keeps_outputs (chatty steps) complaining complaining_defaultWorlds
    [documentOnly repeatingFeature] () result returned
  exact ⟨steps, _, result, acts, built, rfl, complaining_defaultWorlds, returned, executions, beq_iff_eq.mp shows⟩

end Runner

end Gherkin
