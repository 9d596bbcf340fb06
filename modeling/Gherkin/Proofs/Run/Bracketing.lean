import Gherkin.Proofs.Run.Returning

/-! # Hooks come in pairs

What a run enters it leaves again: the whole run, a feature, a scenario and a step are each left by the
hooks behind them, once, and before what encloses them is left. Provided that no conversion of an argument
and no listener fails, this holds of a run exactly when the pause after its steps can be taken or no step
of it passes (`Gherkin.Runner.run_brackets_iff`).
-/

namespace Gherkin

/-- What is entered and left in a run. -/
inductive Level where
  | run
  | feature
  | scenario
  | step
  deriving DecidableEq, Repr

namespace Act

variable {η ω : Type}

/-- What an act enters. A scenario is entered with the making of its world. -/
def enters? : Act η ω → Option Level
  | .world _ => some .scenario
  | .hooks .beforeAll _ _ _ => some .run
  | .hooks .beforeFeature _ _ _ => some .feature
  | .hooks .beforeStep _ _ _ => some .step
  | _ => none

/-- What an act leaves. -/
def leaves? : Act η ω → Option Level
  | .hooks .afterAll _ _ _ => some .run
  | .hooks .afterFeature _ _ _ => some .feature
  | .hooks .afterScenario _ _ _ => some .scenario
  | .hooks .afterStep _ _ _ => some .step
  | _ => none

/-- What has been entered and not left after an act, innermost first. Only the innermost can be left. -/
def track (inside : List Level) (act : Act η ω) : Option (List Level) :=
  match act.enters?, act.leaves? with
  | some level, _ => some (level :: inside)
  | none, some level => if inside.head? = some level then some inside.tail else none
  | none, none => some inside

end Act

/-- A pause can be taken unless it lasts a whole number of seconds beyond the floating point numbers. -/
theorem RunConfig.pauseFailure_eq_none_iff (c : RunConfig) :
    c.pauseFailure = none ↔ ∀ seconds, c.slowMo = .int seconds → seconds < endlessSeconds := by
  unfold pauseFailure
  generalize endlessSeconds = bound
  cases c.slowMo with
  | int seconds =>
    simp only [ite_eq_right_iff, reduceCtorEq, imp_false, Int.not_le, Value.int.injEq, forall_eq']
  | _ => exact ⟨fun _ => by rintro _ ⟨⟩, fun _ => rfl⟩

variable {η ω σ : Type}

/-- Whether acts leave all that they enter, and nothing else. -/
def Bracketed (acts : List (Act η ω)) : Prop := ∀ inside, acts.foldlM Act.track inside = some inside

namespace Bracketed

theorem nil : Bracketed ([] : List (Act η ω)) := fun _ => rfl

theorem append {acts more : List (Act η ω)} (first : Bracketed acts) (second : Bracketed more) :
    Bracketed (acts ++ more) := by
  intro inside
  rw [List.foldlM_append, first inside]
  exact second inside

/-- Acts that enter and leave nothing may be put in front. -/
theorem cons {act : Act η ω} {acts : List (Act η ω)} (enters : act.enters? = none)
    (leaves : act.leaves? = none) (rest : Bracketed acts) : Bracketed (act :: acts) := by
  intro inside
  rw [List.foldlM_cons]
  simp only [Act.track, enters, leaves]
  exact rest inside

/-- What is entered in front of some acts and left behind them encloses them. -/
theorem enclose {first last : Act η ω} {acts more : List (Act η ω)} {level : Level}
    (enters : first.enters? = some level) (middle : Bracketed acts) (stays : last.enters? = none)
    (leaves : last.leaves? = some level) (rest : Bracketed more) :
    Bracketed (first :: (acts ++ last :: more)) := by
  intro inside
  rw [List.foldlM_cons]
  simp only [Act.track, enters, Option.bind_eq_bind, Option.bind_some]
  rw [List.foldlM_append, middle]
  simpa [Act.track, stays, leaves] using rest inside

end Bracketed

namespace Engine

variable {e : Engine η ω σ}

/-! ### Bracketed acts -/

theorem ExecuteActs.bracketed {tags : List Text} {step : Step} {type : StepType} {before : Call ω}
    {acts : List (Act η ω)} {invocation : Invocation ω}
    (did : e.ExecuteActs tags step type before acts invocation) : Bracketed acts := by
  cases did with
  | hooksFailed _ => exact .nil
  | undefined _ _ _ _ => exact .nil
  | called _ _ => exact .cons rfl rfl .nil

/-- A step that is entered is left. -/
theorem StepActs.bracketed {tags : List Text} {scene : Scene ω} {step : Step} {type : StepType}
    {acts : List (Act η ω)} {outcome : StepResult × Scene ω}
    (did : e.StepActs tags scene step type acts outcome) : Bracketed acts := by
  obtain ⟨executed, _⟩ := did
  simp only [List.cons_append, List.nil_append]
  exact .cons rfl rfl (.enclose rfl executed.bracketed rfl rfl (.cons rfl rfl .nil))

/-- Steps are entered and left in turn. -/
theorem StepsActs.bracketed {tags : List Text} {halted : Bool} {scene : Scene ω}
    {items : List (Step × StepType)} {acts : List (Act η ω)} {outcome : List StepResult × Scene ω}
    (did : e.StepsActs tags halted scene items acts outcome) : Bracketed acts := by
  induction did with
  | nil => exact .nil
  | skipped _ ih => exact ih
  | run first _ _ ih => exact first.bracketed.append ih

/-- A scenario that is entered is left, behind its steps. -/
theorem ScenarioActs.bracketed {featureName : Text} {background : List Step} {tags : List Text}
    {row : Option ExampleRow} {scenario : Scenario} {acts : List (Act η ω)} {result : ScenarioResult}
    (did : e.ScenarioActs featureName background tags row scenario acts result) : Bracketed acts := by
  obtain @⟨_, middle, _, _, _, _, _, _, _, entered, ran, _, _⟩ := did
  simp only [List.append_assoc, List.cons_append, List.nil_append]
  have last : Bracketed ([.told (.scenarioFinished result featureName) none] : List (Act η ω)) :=
    .cons rfl rfl .nil
  cases entered with
  | noWorld => exact .cons rfl rfl (.enclose rfl ran.bracketed rfl rfl last)
  | @entered world call =>
    have inner : Bracketed
        (.hooks .beforeScenario (scenarioContext featureName tags scenario none) world call :: middle) :=
      .cons rfl rfl ran.bracketed
    exact .cons rfl rfl (.enclose rfl inner rfl rfl last)

theorem PlanActs.bracketed {featureName : Text} {plan : List Planned} {acts : List (Act η ω)}
    {results : List ScenarioResult} (did : e.PlanActs featureName plan acts results) : Bracketed acts := by
  induction did with
  | nil => exact .nil
  | skipped _ ih => exact ih
  | last first _ => exact first.bracketed
  | executed first _ _ ih => exact first.bracketed.append ih

theorem ScenariosActs.bracketed {feature : Feature} {before : Option Failure} {acts : List (Act η ω)}
    {results : List ScenarioResult} (did : e.ScenariosActs feature before acts results) :
    Bracketed acts := by
  cases did with
  | hooksFailed => exact .nil
  | planned ran => exact ran.bracketed

/-- A feature that is entered is left, behind its scenarios. -/
theorem FeatureActs.bracketed {feature : Feature} {uri : Option Text} {acts : List (Act η ω)}
    {result : FeatureResult} (did : e.FeatureActs feature uri acts result) : Bracketed acts := by
  obtain ⟨ran, _⟩ := did
  simp only [List.cons_append, List.nil_append]
  exact .cons rfl rfl (.enclose rfl ran.bracketed rfl rfl (.cons rfl rfl .nil))

theorem FeaturesActs.bracketed {features : List (Feature × Option Text)} {acts : List (Act η ω)}
    {results : List FeatureResult} (did : e.FeaturesActs features acts results) : Bracketed acts := by
  induction did with
  | nil => exact .nil
  | last first _ => exact first.bracketed
  | next first _ _ ih => exact first.bracketed.append ih

theorem DocumentsActs.bracketed {documents : List Document} {before : Option Failure}
    {acts : List (Act η ω)} {results : List FeatureResult}
    (did : e.DocumentsActs documents before acts results) : Bracketed acts := by
  cases did with
  | hooksFailed => exact .nil
  | ran ran => exact ran.bracketed

/-- A run that gives a result leaves what it enters. -/
theorem RunActs.bracketed {documents : List Document} {acts : List (Act η ω)} {result : RunResult}
    (did : e.RunActs documents acts result) : Bracketed acts := by
  obtain ⟨ran, _⟩ := did
  exact .enclose rfl ran.bracketed rfl rfl .nil

/-! ### Pauses -/

variable (e) in
/-- Whether the pause after a step can be taken if some acts call a handler that does not fail. -/
def Paces (acts : List (Act η ω)) : Prop :=
  ∀ act ∈ acts, act.isPassedCall = true → e.config.pauseFailure = none

theorem Paces.append {acts more : List (Act η ω)} (first : e.Paces acts) (second : e.Paces more) :
    e.Paces (acts ++ more) := List.forall_mem_append.mpr ⟨first, second⟩

theorem Paces.cons {act : Act η ω} {acts : List (Act η ω)} (other : act.isPassedCall = false)
    (rest : e.Paces acts) : e.Paces (act :: acts) :=
  List.forall_mem_cons.mpr ⟨fun passed => (by simp [other] at passed), rest⟩

theorem Paces.nil : e.Paces [] := List.forall_mem_nil _

/-- A handler that is called without failing gives its step the status behind which a pause is taken. -/
theorem ExecuteActs.paces {tags : List Text} {step : Step} {type : StepType} {before : Call ω}
    {acts : List (Act η ω)} {invocation : Invocation ω}
    (did : e.ExecuteActs tags step type before acts invocation)
    (paused : invocation.status = .passed → e.config.pauseFailure = none) : e.Paces acts := by
  cases did with
  | hooksFailed _ => exact .nil
  | undefined _ _ _ _ => exact .nil
  | @called found call _ _ =>
    intro act member passed
    obtain rfl := List.mem_singleton.mp member
    have unfailed : call.failure = none := Option.isNone_iff_eq_none.mp passed
    exact paused (congrArg statusOfCall unfailed)

/-- In a step the pause can be taken, if it can be taken behind a step that passed. -/
theorem StepActs.paces {tags : List Text} {scene next : Scene ω} {step : Step} {type : StepType}
    {acts : List (Act η ω)} {result : StepResult} (did : e.StepActs tags scene step type acts (result, next))
    (paused : result.status = .passed → e.config.pauseFailure = none) : e.Paces acts := by
  obtain ⟨executed, rfl, rfl⟩ := did
  exact (Paces.cons rfl (.cons rfl .nil)).append (executed.paces paused) |>.append (.cons rfl (.cons rfl .nil))

/-- Behind each step that passed the pause has been taken, or the steps would not have ended. -/
theorem StepsActs.paces {tags : List Text} {halted : Bool} {scene : Scene ω}
    {items : List (Step × StepType)} {acts : List (Act η ω)} {outcome : List StepResult × Scene ω}
    (did : e.StepsActs tags halted scene items acts outcome) : e.Paces acts := by
  induction did with
  | nil => exact .nil
  | skipped _ ih => exact ih
  | run first paused _ ih => exact (first.paces paused).append ih

theorem EnterActs.paces {context : HookContext} {acts : List (Act η ω)} {outcome : Option Failure × Option ω}
    (did : EnterActs context acts outcome) : e.Paces acts := by
  cases did with
  | noWorld => exact .cons rfl .nil
  | entered => exact .cons rfl (.cons rfl .nil)

/-- In a scenario that ends, every pause could be taken. -/
theorem ScenarioActs.paces {featureName : Text} {background : List Step} {tags : List Text}
    {row : Option ExampleRow} {scenario : Scenario} {acts : List (Act η ω)} {result : ScenarioResult}
    (did : e.ScenarioActs featureName background tags row scenario acts result) : e.Paces acts := by
  obtain ⟨entered, ran, _, _⟩ := did
  exact ((Paces.cons rfl .nil).append entered.paces).append ran.paces |>.append (.cons rfl (.cons rfl .nil))

theorem PlanActs.paces {featureName : Text} {plan : List Planned} {acts : List (Act η ω)}
    {results : List ScenarioResult} (did : e.PlanActs featureName plan acts results) : e.Paces acts := by
  induction did with
  | nil => exact .nil
  | skipped _ ih => exact ih
  | last first _ => exact first.paces
  | executed first _ _ ih => exact first.paces.append ih

theorem ScenariosActs.paces {feature : Feature} {before : Option Failure} {acts : List (Act η ω)}
    {results : List ScenarioResult} (did : e.ScenariosActs feature before acts results) : e.Paces acts := by
  cases did with
  | hooksFailed => exact .nil
  | planned ran => exact ran.paces

theorem FeatureActs.paces {feature : Feature} {uri : Option Text} {acts : List (Act η ω)}
    {result : FeatureResult} (did : e.FeatureActs feature uri acts result) : e.Paces acts := by
  obtain ⟨ran, _⟩ := did
  exact (Paces.cons rfl (.cons rfl .nil)).append ran.paces |>.append (.cons rfl (.cons rfl .nil))

theorem FeaturesActs.paces {features : List (Feature × Option Text)} {acts : List (Act η ω)}
    {results : List FeatureResult} (did : e.FeaturesActs features acts results) : e.Paces acts := by
  induction did with
  | nil => exact .nil
  | last first _ => exact first.paces
  | next first _ _ ih => exact first.paces.append ih

theorem DocumentsActs.paces {documents : List Document} {before : Option Failure} {acts : List (Act η ω)}
    {results : List FeatureResult} (did : e.DocumentsActs documents before acts results) : e.Paces acts := by
  cases did with
  | hooksFailed => exact .nil
  | ran ran => exact ran.paces

/-- A run that gives a result can pause if one of its steps passes. -/
theorem RunActs.paces {documents : List Document} {acts : List (Act η ω)} {result : RunResult}
    (did : e.RunActs documents acts result) : e.Paces acts := by
  obtain ⟨ran, _⟩ := did
  exact ((Paces.cons rfl .nil).append ran.paces).append (.cons rfl .nil)

end Engine

/-! ### Runners -/

namespace Runner

variable {η θ : Type}

/-- Provided that no conversion of an argument and no listener fails, a run does the acts of a lifecycle
and leaves what it enters exactly when the pause after its steps can be taken or no step of it passes. The
runner is ready at the end in any case. -/
theorem run_brackets_iff (r : Runner η θ) (host : Host η θ ω σ) (documents : List Document)
    (limited : r.config.suggestionLimit.sliceEnd? ≠ none) (silent : host.Silent)
    (converts : ∀ tags step type, r.Reachable documents tags (step, type) →
      ∃ found, (r.engine host).matchOf tags step type = .ok found) (state : σ) :
    ∃ outcome next acts,
      (r.run host documents).run state = ((outcome, { r with status := .ready }), next) ∧
      ((r.engine host).recorded.run documents).run.run (state, []) = (outcome, next, acts) ∧
      ((∃ result, outcome = .ok result ∧ (r.engine host).RunActs documents acts result ∧ Bracketed acts) ↔
        r.config.pauseFailure = none ∨ ∀ act ∈ acts, act.isPassedCall = false) := by
  obtain ⟨acts, outcome, next, ran, kept, gives, did⟩ :=
    Engine.run_records (e := r.engine host) documents state []
  refine ⟨outcome, next, acts, ?_, kept, ?_, ?_⟩
  · change (((((r.engine host).run documents).run.run state).1, { r with status := .ready }),
      (((r.engine host).run documents).run.run state).2) = _
    rw [ran]
  · rintro ⟨result, rfl, did, _⟩
    by_cases passes : ∃ act ∈ acts, act.isPassedCall = true
    · obtain ⟨act, member, passed⟩ := passes
      exact .inl (did.paces act member passed)
    · exact .inr fun act member => Bool.eq_false_iff.mpr fun passed => passes ⟨act, member, passed⟩
  · intro paced
    cases outcome with
    | ok result => exact ⟨result, rfl, did, Engine.RunActs.bracketed did⟩
    | error failure =>
      exfalso
      cases did with
      | listener told =>
        have mute : (r.engine host).effects.Silent := silent
        cases mute.told (gives _ told)
      | limit unlimited => exact limited unlimited
      | conversion reaches fails =>
        obtain ⟨found, matched⟩ := converts _ _ _ (reaches.on _)
        cases fails.symm.trans matched
      | pause _ _ called passed fails =>
        obtain unpaused | unpassed := paced
        · change r.config.pauseFailure = _ at fails
          rw [unpaused] at fails
          cases fails
        · rw [unpassed _ called] at passed
          cases passed

/-- Without definitions no conversion fails and no step passes, so a run leaves what it enters. -/
theorem run_brackets_without_definitions :
    bare.config.suggestionLimit.sliceEnd? ≠ none ∧
      ∃ acts result, ((bare.engine Host.idle).recorded.run [countingDocument]).run.run ((), []) =
        (.ok result, (), acts) ∧ Bracketed acts := by
  have limited : bare.config.suggestionLimit.sliceEnd? ≠ none := by decide
  obtain ⟨outcome, next, acts, _, kept, brackets⟩ :=
    run_brackets_iff bare Host.idle [countingDocument] limited Host.idle_silent
      (fun tags step type _ => ⟨none, rfl⟩) ()
  have paced : bare.config.pauseFailure = none := by
    rw [RunConfig.pauseFailure_eq_none_iff]
    rintro _ ⟨⟩
    decide +kernel
  obtain ⟨result, rfl, _, bracketed⟩ := brackets.mpr (.inl paced)
  exact ⟨limited, acts, result, kept, bracketed⟩

/-- A text with a step. -/
def pausingText : Text := "Feature: f\n  Scenario: s\n    Given a\n"

/-- The document of the text. -/
def pausingDocument : Document where
  feature := some {
    keyword := "Feature", name := "f", description := "", tags := [], line := 1, language := "en"
    children := [.element (.scenario {
      keyword := "Scenario", name := "s", description := "", tags := [], examples := [], line := 2
      isOutline := false
      steps := [⟨"Given", .context, "a", none, none, 3⟩] })] }
  comments := []
  uri := none
  diagnostics := []

theorem parse_pausingText : parseLenient .builtIn "en" pausingText none = pausingDocument :=
  (parseLenient_english (by cbv)).trans (by cbv)

/-- A definition for the step of the text. -/
def pausingSteps : Except StepError (StepRegistry Unit) := do
  let (steps, _) ← StepRegistry.empty.register (.text "Given") (.text "a") ⟨(), none, none, []⟩
  return steps

/-- Settings with a pause of more seconds than any floating point number. -/
def pausingConfig : RunConfig :=
  { stepTimeout := .null, hookTimeout := .null, slowMo := .int (Nat.pow 10 200 * Nat.pow 10 200 : Nat) }

/-- A runner with these settings. -/
def pausing (steps : StepRegistry Unit) : Runner Unit Unit := { plain steps with config := pausingConfig }

/-- A pause that cannot be taken ends the run in the middle of a scenario, which is not left. -/
theorem endless_pause_skips_hooks :
    ∃ steps runner acts, pausingSteps = .ok steps ∧
      create pausingConfig steps (.empty : HookRegistry Unit) {} = .ok runner ∧
      ((runner.engine Host.idle).recorded.run [parseLenient .builtIn "en" pausingText none]).run.run
        ((), []) = (.error RunConfig.endlessPause, (), acts) ∧
      (∃ act ∈ acts, act.enters? = some .scenario) ∧ ∀ act ∈ acts, act.leaves? ≠ some .scenario := by
  let ran (steps : StepRegistry Unit) :=
    (((pausing steps).engine Host.idle).recorded.run [pausingDocument]).run.run ((), [])
  have ends : (pausingSteps.toOption.any fun steps =>
      endedBy "OverflowError" "int too large to convert to float" (ran steps).1 &&
        (ran steps).2.2.any (fun act => act.enters? == some .scenario) &&
        (ran steps).2.2.all (fun act => act.leaves? != some .scenario)) = true := by
    decide +kernel
  rw [parse_pausingText]
  obtain ⟨steps, built, ends⟩ := exists_of_toOption_any ends
  simp only [Bool.and_eq_true, List.any_eq_true, List.all_eq_true, beq_iff_eq, bne_iff_ne, endedBy_iff] at ends
  obtain ⟨⟨failed, entered⟩, unleft⟩ := ends
  exact ⟨steps, pausing steps, (ran steps).2.2, built, rfl, Prod.ext failed rfl, entered, unleft⟩

end Runner

end Gherkin
