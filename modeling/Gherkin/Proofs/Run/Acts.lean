import Gherkin.Proofs.Run.Plan

/-! # The acts of a run

A run acts through operations: it makes worlds, runs the hooks of a scope, calls handlers and tells
listeners. An act is one such operation with what it was given and what came of it. Recorded operations
keep the list of their acts beside the state that they work on, and a part of a run that uses them does
and gives what it did before (`Gherkin.Records`).
-/

namespace Gherkin

/-- An operation of a run, with what it was given and what came of it. -/
inductive Act (η ω : Type) where
  | world (answer : Except Failure (Option ω))
  | hooks (scope : HookScope) (context : HookContext) (world : Option ω) (call : Call ω)
  | handler (handler : η) (world : Option ω) (arguments : List Argument) (deadline : Deadline)
      (call : Call ω)
  | told (event : Event) (failure : Option Failure)

variable {η ω σ α β : Type}

/-- Whether an act is the call of a handler that did not fail. -/
def Act.isPassedCall : Act η ω → Bool
  | .handler _ _ _ _ call => call.failure.isNone
  | _ => false

namespace Effects

/-- An operation that adds its act to those already done. -/
def record (operation : StateM σ α) (act : α → Act η ω) : StateM (σ × List (Act η ω)) α :=
  fun (state, acts) =>
    let (answer, state) := operation.run state
    (answer, state, acts ++ [act answer])

/-- The operations with a record of their acts. -/
def recorded (effects : Effects η ω σ) : Effects η ω (σ × List (Act η ω)) where
  createWorld := record effects.createWorld .world
  setsOutlet := effects.setsOutlet
  runHooks scope context world := record (effects.runHooks scope context world) (.hooks scope context world)
  callHandler handler world arguments deadline :=
    record (effects.callHandler handler world arguments deadline) (.handler handler world arguments deadline)
  notify event := record (effects.notify event) (.told event)

/-- Whether the operations can give what an act has got from them. -/
def Gives (effects : Effects η ω σ) : Act η ω → Prop
  | .world answer => ∃ state, (effects.createWorld.run state).1 = answer
  | .hooks scope context world call => ∃ state, ((effects.runHooks scope context world).run state).1 = call
  | .handler handler world arguments deadline call =>
      ∃ state, ((effects.callHandler handler world arguments deadline).run state).1 = call
  | .told event failure => ∃ state, ((effects.notify event).run state).1 = failure

/-- No listener fails. -/
def Silent (effects : Effects η ω σ) : Prop :=
  ∀ event state, ((effects.notify event).run state).1 = none

theorem Silent.told {effects : Effects η ω σ} (silent : effects.Silent) {event : Event}
    {failure : Option Failure} (gives : effects.Gives (.told event failure)) : failure = none := by
  obtain ⟨state, answer⟩ := gives
  rw [← answer, silent]

end Effects

/-- The engine with recorded operations. -/
def Engine.recorded (e : Engine η ω σ) : Engine η ω (σ × List (Act η ω)) :=
  ⟨e.config, e.filter, e.steps, e.effects.recorded⟩

@[simp] theorem Engine.recorded_config (e : Engine η ω σ) : e.recorded.config = e.config := rfl

@[simp] theorem Engine.recorded_steps (e : Engine η ω σ) : e.recorded.steps = e.steps := rfl

@[simp] theorem Engine.recorded_halts (e : Engine η ω σ) (status : Status) :
    e.recorded.halts status = e.halts status := rfl

@[simp] theorem Engine.recorded_plan (e : Engine η ω σ) (feature : Feature) :
    e.recorded.plan feature = e.plan feature := rfl

/-- A part of a run and the same part with recorded operations: both do and give the same, the latter adds
acts that the operations can give, and these acts fit what comes out as `fits` says. -/
def Records (effects : Effects η ω σ) (plain : Run σ α) (recorded : Run (σ × List (Act η ω)) α)
    (fits : List (Act η ω) → Except Failure α → Prop) : Prop :=
  ∀ state acts, ∃ added outcome next,
    plain.run.run state = (outcome, next) ∧
      recorded.run.run (state, acts) = (outcome, next, acts ++ added) ∧
        (∀ act ∈ added, effects.Gives act) ∧ fits added outcome

namespace Records

variable {effects : Effects η ω σ} {fits other : List (Act η ω) → Except Failure α → Prop}
  {after : List (Act η ω) → Except Failure β → Prop}

theorem mono {plain : Run σ α} {recorded : Run (σ × List (Act η ω)) α}
    (first : Records effects plain recorded fits)
    (weaker : ∀ acts outcome, (∀ act ∈ acts, effects.Gives act) → fits acts outcome → other acts outcome) :
    Records effects plain recorded other := by
  intro state acts
  obtain ⟨added, outcome, next, ran, kept, gives, fit⟩ := first state acts
  exact ⟨added, outcome, next, ran, kept, gives, weaker added outcome gives fit⟩

/-- What does nothing adds no act. -/
theorem pure {a : α} (fit : fits [] (.ok a)) :
    Records effects (Pure.pure a : Run σ α) (Pure.pure a) fits := by
  intro state acts
  exact ⟨[], .ok a, state, rfl, by rw [List.append_nil]; rfl, by simp, fit⟩

theorem throw {failure : Failure} (fit : fits [] (.error failure)) :
    Records effects (MonadExcept.throw failure : Run σ α) (MonadExcept.throw failure) fits := by
  intro state acts
  exact ⟨[], .error failure, state, rfl, by rw [List.append_nil]; rfl, by simp, fit⟩

/-- An operation adds its own act. -/
theorem perform {operation : StateM σ α} {act : α → Act η ω}
    (gives : ∀ state, effects.Gives (act (operation.run state).1))
    (fit : ∀ answer, effects.Gives (act answer) → fits [act answer] (.ok answer)) :
    Records effects (Run.perform operation) (Run.perform (Effects.record operation act)) fits := by
  intro state acts
  refine ⟨[act (operation.run state).1], .ok (operation.run state).1, (operation.run state).2, rfl, rfl,
    ?_, fit _ (gives state)⟩
  intro added member
  rw [List.mem_singleton.mp member]
  exact gives state

/-- The acts of two parts in turn are those of the first and then those of the second; if the first ends
the run early, there is no second. -/
theorem bind {plain : Run σ α} {recorded : Run (σ × List (Act η ω)) α} {next : α → Run σ β}
    {nextRecorded : α → Run (σ × List (Act η ω)) β}
    (first : Records effects plain recorded fits)
    (ends : ∀ acts failure, fits acts (.error failure) → after acts (.error failure))
    (second : ∀ acts a, fits acts (.ok a) →
      Records effects (next a) (nextRecorded a) fun more outcome => after (acts ++ more) outcome) :
    Records effects (plain >>= next) (recorded >>= nextRecorded) after := by
  intro state acts
  obtain ⟨added, outcome, middle, ran, kept, gives, fit⟩ := first state acts
  cases outcome with
  | error failure =>
    refine ⟨added, .error failure, middle, ?_, ?_, gives, ends added failure fit⟩
    · simp only [ExceptT.run_bind, StateT.run_bind, ran]
      rfl
    · simp only [ExceptT.run_bind, StateT.run_bind, kept]
      rfl
  | ok a =>
    obtain ⟨more, outcome, last, ranNext, keptNext, givesNext, fitNext⟩ :=
      second added a fit middle (acts ++ added)
    refine ⟨added ++ more, outcome, last, ?_, ?_, ?_, fitNext⟩
    · simp only [ExceptT.run_bind, StateT.run_bind, ran]
      exact ranNext
    · simp only [ExceptT.run_bind, StateT.run_bind, kept, ← List.append_assoc]
      exact keptNext
    · intro act member
      obtain inFirst | inSecond := List.mem_append.mp member
      · exact gives act inFirst
      · exact givesNext act inSecond

/-- What is attempted never ends the run early. -/
theorem attempt {plain : Run σ α} {recorded : Run (σ × List (Act η ω)) α}
    {tried : List (Act η ω) → Except Failure (Except Failure α) → Prop}
    (first : Records effects plain recorded fits)
    (fit : ∀ acts outcome, fits acts outcome → tried acts (.ok outcome)) :
    Records effects (Run.attempt plain) (Run.attempt recorded) tried := by
  intro state acts
  obtain ⟨added, outcome, next, ran, kept, gives, fitted⟩ := first state acts
  refine ⟨added, .ok outcome, next, ?_, ?_, gives, fit added outcome fitted⟩
  · change (Except.ok (plain.run.run state).1, (plain.run.run state).2) = _
    rw [ran]
  · change (Except.ok (recorded.run.run (state, acts)).1, (recorded.run.run (state, acts)).2) = _
    rw [kept]

end Records

end Gherkin
