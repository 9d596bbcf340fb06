import Gherkin.Proofs.TagExpr.Filters
import Gherkin.Hook.Registry

/-! # Registering hooks

A registry of hooks is changed in place, so what a refused hook leaves behind depends on the order of the
statements. This module writes registering as a program with a state, says what a call can do
(`Gherkin.HookRegistryCall.effect`), and derives from it that in every registry that calls make, a hook has the
filter that its text is read as (`Gherkin.HookRegistry.made_after`).
-/

namespace Gherkin

variable {θ : Type}

/-- A call that may change a registry of hooks. -/
inductive HookRegistryCall (θ : Type) where
  | register (scope : Value) (first second : HookTarget θ) (options : HookOptions)
  | clear

namespace HookRegistry

/-- Registers a hook in place: the scope is looked up, then the filter and the hook are told apart, the hook is
looked at, the filter is read, and only then the hook is put behind the others. -/
def registering (scope : Value) (first second : HookTarget θ) (options : HookOptions) :
    ExceptT HookError (StateM (HookRegistry θ)) (HookDefinition θ) := do
  let scope ← match HookScope.ofValue? scope with
    | some scope => pure scope
    | none => throw (.unknownScope scope)
  let (tagFilter, target) ← ofExcept (targetOf first second)
  let hook ← match target with
    | .hook hook => pure hook
    | .other v => throw (.notCallable scope v)
  let filter ← match filterOf tagFilter with
    | .ok filter => pure filter
    | .error e => throw (.badFilter e)
  let definition : HookDefinition θ :=
    ⟨scope, hook, tagFilter, filter, options.name, options.priority, options.timeout⟩
  modify fun r => ⟨r.hooks ++ [definition]⟩
  return definition

/-- Registering in place agrees with the operation that gives a new registry; after an error the old one
stands. -/
theorem run_registering (r : HookRegistry θ) (scope : Value) (first second : HookTarget θ)
    (options : HookOptions) :
    (registering scope first second options).run.run r =
      match r.register scope first second options with
      | .ok (next, definition) => (.ok definition, next)
      | .error e => (.error e, r) := by
  unfold registering register
  cases HookScope.ofValue? scope with
  | none => rfl
  | some scope =>
    cases targetOf first second with
    | error e => rfl
    | ok given =>
      obtain ⟨tagFilter, target⟩ := given
      cases target with
      | other v => rfl
      | hook hook =>
        simp only [add, ofExcept, pure_bind]
        cases filterOf tagFilter with
        | error e => rfl
        | ok filter => rfl

end HookRegistry

namespace HookRegistryCall

/-- What a call answers on a registry, and the registry that it leaves behind. The answer to a registration is the
hook. -/
def on (r : HookRegistry θ) : HookRegistryCall θ → Except HookError (Option (HookDefinition θ)) × HookRegistry θ
  | register scope first second options =>
      let (answer, next) := (HookRegistry.registering scope first second options).run.run r
      (answer.map some, next)
  | clear => (.ok none, .empty)

/-- Whether a call asks for a hook at a known scope, with no tag filter or one that can be read. -/
def Asks (definition : HookDefinition θ) : HookRegistryCall θ → Prop
  | register scope first second options =>
      HookScope.ofValue? scope = some definition.scope ∧
      (first = .hook definition.hook ∧ definition.tagFilter = none ∨
        ∃ text, first = .other (.text text) ∧ second = .hook definition.hook ∧ definition.tagFilter = some text) ∧
      HookRegistry.filterOf definition.tagFilter = .ok definition.filter ∧
      options = ⟨definition.name, definition.priority, definition.timeout⟩
  | clear => False

/-- What one call on a registry can do, by its answer and the registry afterwards. -/
inductive Effect (r : HookRegistry θ) :
    HookRegistryCall θ → Except HookError (Option (HookDefinition θ)) → HookRegistry θ → Prop where
  | registered {call : HookRegistryCall θ} {definition : HookDefinition θ} :
      call.Asks definition → Effect r call (.ok (some definition)) ⟨r.hooks ++ [definition]⟩
  | refused {scope : Value} {first second : HookTarget θ} {options : HookOptions} (e : HookError) :
      (∀ definition, ¬(register scope first second options).Asks definition) →
      Effect r (register scope first second options) (.error e) r
  | cleared : Effect r clear (.ok none) .empty

end HookRegistryCall

namespace HookRegistry

/-- Two arguments that give a hook. -/
theorem targetOf_eq_hook_iff {first second : HookTarget θ} {tagFilter : Option Text} {hook : θ} :
    targetOf first second = .ok (tagFilter, .hook hook) ↔
      first = .hook hook ∧ tagFilter = none ∨
        ∃ text, first = .other (.text text) ∧ second = .hook hook ∧ tagFilter = some text := by
  constructor
  · intro given
    unfold targetOf at given
    split at given
    · cases given
    · cases given
      exact .inr ⟨_, rfl, rfl, rfl⟩
    · cases given
      exact .inl ⟨rfl, rfl⟩
  · intro given
    rcases given with ⟨rfl, rfl⟩ | ⟨text, rfl, rfl, rfl⟩
    · rfl
    · rfl

/-- A registration succeeds with the hook that was asked for, which is put behind the others. -/
theorem register_eq_ok_iff {r next : HookRegistry θ} {scope : Value} {first second : HookTarget θ}
    {options : HookOptions} {definition : HookDefinition θ} :
    r.register scope first second options = .ok (next, definition) ↔
      (HookRegistryCall.register scope first second options).Asks definition ∧ next = ⟨r.hooks ++ [definition]⟩ := by
  constructor
  · intro did
    unfold register at did
    split at did
    · cases did
    · rename_i known
      split at did
      · cases did
      · cases did
      · rename_i tagFilter hook given
        unfold add at did
        split at did
        · cases did
        · rename_i filter read
          cases did
          exact ⟨⟨known, targetOf_eq_hook_iff.mp given, read, rfl⟩, rfl⟩
  · intro ⟨⟨known, given, read, same⟩, rest⟩
    subst rest same
    rw [register, known]
    simp only [targetOf_eq_hook_iff.mpr given, add, read]

end HookRegistry

/-- Every call does one of the things that calls can do. -/
theorem HookRegistryCall.effect (call : HookRegistryCall θ) (r : HookRegistry θ) :
    Effect r call (call.on r).1 (call.on r).2 := by
  cases call with
  | clear => exact .cleared
  | register scope first second options =>
    simp only [on, HookRegistry.run_registering]
    cases did : r.register scope first second options with
    | ok outcome =>
      obtain ⟨next, definition⟩ := outcome
      obtain ⟨asks, rfl⟩ := HookRegistry.register_eq_ok_iff.mp did
      exact .registered asks
    | error e =>
      apply Effect.refused e
      intro definition asks
      rw [HookRegistry.register_eq_ok_iff.mpr ⟨asks, rfl⟩] at did
      cases did

/-- A hook that is asked for is put behind the others. -/
theorem HookRegistryCall.on_of_asks {call : HookRegistryCall θ} {definition : HookDefinition θ}
    (asks : call.Asks definition) (r : HookRegistry θ) :
    call.on r = (.ok (some definition), ⟨r.hooks ++ [definition]⟩) := by
  cases call with
  | clear => cases asks
  | register scope first second options =>
    simp only [on, HookRegistry.run_registering, HookRegistry.register_eq_ok_iff.mpr ⟨asks, rfl⟩]
    rfl

/-- A registration that asks for no hook is refused. -/
theorem HookRegistryCall.refused_of_not_asks (call : HookRegistryCall θ) (r : HookRegistry θ)
    (nothing : ∀ definition, ¬call.Asks definition) : call = .clear ∨ ∃ e, call.on r = (.error e, r) := by
  have effect := call.effect r
  cases did : call.on r with
  | mk answer next =>
    rw [did] at effect
    cases effect with
    | registered asks => exact absurd asks (nothing _)
    | refused e => exact .inr ⟨e, rfl⟩
    | cleared => exact .inl rfl

/-! ### Sessions -/

namespace HookRegistry

/-- The registry after calls in turn. -/
def after (r : HookRegistry θ) (calls : List (HookRegistryCall θ)) : HookRegistry θ :=
  calls.foldl (fun r call => (call.on r).2) r

/-- What every call keeps, a session keeps. -/
theorem after_induction {motive : HookRegistry θ → Prop} (calls : List (HookRegistryCall θ)) (r : HookRegistry θ)
    (start : motive r)
    (step : ∀ (r next : HookRegistry θ) call answer, HookRegistryCall.Effect r call answer next → motive r →
      motive next) : motive (r.after calls) := by
  induction calls generalizing r with
  | nil => exact start
  | cons call rest ih => exact ih _ (step _ _ call _ (call.effect r) start)

/-- In every registry that calls make, a hook has the filter that its text is read as. -/
theorem made_after (calls : List (HookRegistryCall θ)) :
    ∀ h ∈ ((empty : HookRegistry θ).after calls).hooks, filterOf h.tagFilter = .ok h.filter := by
  apply after_induction (motive := fun r => ∀ h ∈ r.hooks, filterOf h.tagFilter = .ok h.filter) calls
  · exact List.forall_mem_nil _
  · intro r next call answer did made
    cases did with
    | refused => exact made
    | cleared => exact List.forall_mem_nil _
    | registered asks =>
      intro h member
      rcases List.mem_append.mp member with held | new
      · exact made h held
      · rw [List.mem_singleton.mp new]
        cases call with
        | clear => cases asks
        | register => exact asks.2.2.1

end HookRegistry

end Gherkin
