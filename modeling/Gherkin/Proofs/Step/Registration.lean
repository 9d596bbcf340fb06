import Mathlib.Data.List.Forall2
import Gherkin.Step.Registry

/-! # Sessions with a registry

A session is a list of calls on one registry that is changed in place, some of which may fail. This module
writes the calls as programs with a state, so that what a failed call leaves behind is a fact about the
order of its statements, and shows that they agree with the operations on registries. The state after a
session then follows from what one call can do. -/

namespace Gherkin

open Regex (CharacterNames)

/-- A program on a registry that is changed in place. An error leaves what was changed before it. -/
abbrev InPlace (η α : Type) := ExceptT StepError (StateM (StepRegistry η)) α

/-- A call that may change a registry. The calls `add` are those of the decorators, which know the role. -/
inductive RegistryCall (η : Type) where
  | register (role : Value) (pattern : Pattern) (options : StepOptions η)
  | add (role : Role) (pattern : Pattern) (options : StepOptions η)
  | define (name pattern : Text) (transform : Transform)
  | clear

/-- What a call that does not fail gives back. -/
inductive RegistryAnswer (η : Type) where
  | added (definition : StepDefinition η)
  | defined (type : ParameterType)
  | cleared

variable {η : Type}

/-- Whether a call has added a definition. -/
def RegistryAnswer.adds : RegistryAnswer η → Bool
  | added _ => true
  | defined _ | cleared => false

/-- Two definitions with one regular expression text and one role, which a registry does not hold. -/
def StepDefinition.Clashes (a b : StepDefinition η) : Prop :=
  a.regex.pattern = b.regex.pattern ∧ a.role = b.role

namespace InPlace

/-- Refuses a regular expression that a definition for the role has already. -/
def refuseDuplicate (role : Role) (readable : Text) (location : Option Text) (regex : Regex) :
    List (StepDefinition η) → InPlace η Unit
  | [] => pure ()
  | existing :: rest =>
      if existing.regex.pattern == regex.pattern && existing.role == role then
        throw (.duplicate role readable location existing.pattern existing.location)
      else refuseDuplicate role readable location regex rest

/-- Adds a definition for a role. -/
def add [CharacterNames] (role : Role) (pattern : Pattern) (options : StepOptions η) :
    InPlace η (StepDefinition η) := do
  let registry ← get
  let (regex, readable, names) ← ofExcept (registry.compile pattern)
  let location := StepRegistry.knownLocation options.location
  refuseDuplicate role readable location regex registry.definitions
  let definition : StepDefinition η :=
    ⟨role, readable, regex, names, options.handler, options.tagScope, location, options.description⟩
  modify fun r => { r with definitions := r.definitions ++ [definition] }
  return definition

/-- Adds a definition for a role given by its name. -/
def register [CharacterNames] (role : Value) (pattern : Pattern) (options : StepOptions η) :
    InPlace η (StepDefinition η) :=
  match Role.ofValue? role with
  | some role => add role pattern options
  | none => throw (.unknownRole role)

/-- Defines a parameter type. -/
def define [CharacterNames] (name pattern : Text) (transform : Transform) : InPlace η ParameterType := do
  let regex ← match Regex.compile pattern with
    | .ok regex => pure regex
    | .error e => throw (if e.cause.isSyntax then .badTypeRegex name e else .badRegex e)
  if 1 < regex.groups then throw (.tooManyGroups name regex.groups)
  let fragment := if regex.groups = 0 then ['('] ++ pattern ++ [')'] else pattern
  let type : ParameterType := ⟨name, fragment, transform⟩
  modify fun r => { r with types := r.types.store name type }
  return type

/-- Forgets the definitions and then the parameter types. -/
def clear : InPlace η Unit := do
  modify fun r => { r with definitions := [] }
  modify fun r => { r with types := [] }

/-- What a program answers on a registry, and the registry that it leaves behind. -/
def on {α : Type} (program : InPlace η α) (r : StepRegistry η) : Except StepError α × StepRegistry η :=
  program.run.run r

/-- The outcome of an operation that gives a new registry; after an error the old one stands. -/
def updated {α : Type} (r : StepRegistry η) :
    Except StepError (StepRegistry η × α) → Except StepError α × StepRegistry η
  | .ok (next, answer) => (.ok answer, next)
  | .error e => (.error e, r)

section

variable {α β : Type} (r : StepRegistry η)

@[simp] theorem on_pure (a : α) : on (pure a) r = (.ok a, r) := rfl

@[simp] theorem on_throw (e : StepError) : on (throw e : InPlace η α) r = (.error e, r) := rfl

@[simp] theorem on_get : on get r = (.ok r, r) := rfl

@[simp] theorem on_modify (f : StepRegistry η → StepRegistry η) : on (modify f) r = (.ok (), f r) := rfl

@[simp] theorem on_ofExcept (result : Except StepError α) : on (ofExcept result) r = (result, r) := by
  cases result <;> rfl

@[simp] theorem on_bind (program : InPlace η α) (next : α → InPlace η β) :
    on (program >>= next) r =
      match on program r with
      | (.ok a, r) => on (next a) r
      | (.error e, r) => (.error e, r) := by
  unfold on
  rw [ExceptT.run_bind, StateT.run_bind]
  rcases program.run.run r with ⟨⟨_⟩ | ⟨_⟩, _⟩ <;> rfl

@[simp] theorem on_map (f : α → β) (program : InPlace η α) :
    on (f <$> program) r = ((on program r).1.map f, (on program r).2) := by
  rw [map_eq_pure_bind, on_bind]
  rcases on program r with ⟨⟨_⟩ | ⟨_⟩, _⟩ <;> rfl

end

/-- A duplicate is refused without a change; otherwise the definitions stay as they are too. -/
theorem on_refuseDuplicate (role : Role) (readable : Text) (location : Option Text) (regex : Regex)
    (definitions : List (StepDefinition η)) (r : StepRegistry η) :
    on (refuseDuplicate role readable location regex definitions) r =
      match definitions.find? fun d => d.regex.pattern == regex.pattern && d.role == role with
      | some existing => (.error (.duplicate role readable location existing.pattern existing.location), r)
      | none => (.ok (), r) := by
  induction definitions with
  | nil => rfl
  | cons existing rest ih =>
    unfold refuseDuplicate
    by_cases same : (existing.regex.pattern == regex.pattern && existing.role == role) = true
    · simp [same]
    · simp [same, ih]

variable [CharacterNames]

/-- Adding in place gives what adding gives, and changes nothing if it fails. -/
theorem on_add (role : Role) (pattern : Pattern) (options : StepOptions η) (r : StepRegistry η) :
    on (add role pattern options) r = updated r (r.add role pattern options) := by
  unfold add StepRegistry.add
  cases compiled : r.compile pattern with
  | error e => simp [compiled, updated]
  | ok parts =>
    obtain ⟨regex, readable, names⟩ := parts
    cases found : r.definitions.find? fun d => d.regex.pattern == regex.pattern && d.role == role with
    | some existing => simp [compiled, on_refuseDuplicate, found, updated]
    | none => simp [compiled, on_refuseDuplicate, found, updated, Except.map]

/-- Registering in place gives what registering gives, and changes nothing if it fails. -/
theorem on_register (role : Value) (pattern : Pattern) (options : StepOptions η) (r : StepRegistry η) :
    on (register role pattern options) r = updated r (r.register role pattern options) := by
  unfold register StepRegistry.register
  cases Role.ofValue? role with
  | none => rfl
  | some role => exact on_add role pattern options r

/-- Defining a type in place gives what defining it gives, and changes nothing if it fails. -/
theorem on_define (name pattern : Text) (transform : Transform) (r : StepRegistry η) :
    on (define name pattern transform) r = updated r (r.defineType name pattern transform) := by
  unfold define StepRegistry.defineType
  cases Regex.compile pattern with
  | error e => simp [updated]
  | ok regex =>
    by_cases many : 1 < regex.groups
    · simp [many, updated]
    · simp [many, updated, Except.map]

end InPlace

/-! ### Selections -/

namespace StepRegistry

/-- From two lists of definitions one from the first list is selected, or else one from the second. -/
theorem selectFrom_append {text : Text} {role : Role} {tags : Option (List Text)} {index : Nat}
    (definitions more : List (StepDefinition η)) :
    selectFrom text role tags index (definitions ++ more) =
      (selectFrom text role tags index definitions).or
        (selectFrom text role tags (index + definitions.length) more) := by
  induction definitions generalizing index with
  | nil => rfl
  | cons definition rest ih =>
    rw [List.cons_append, selectFrom, selectFrom, ih, List.length_cons, Nat.add_right_comm index 1, Nat.add_assoc]
    split <;> rfl

/-- What is selected is one of the definitions, and its regular expression finds the groups. -/
theorem mem_of_selectFrom {text : Text} {role : Role} {tags : Option (List Text)} {index : Nat}
    {definitions : List (StepDefinition η)} {found : Nat × StepDefinition η × List (Option Text)}
    (selected : selectFrom text role tags index definitions = some found) :
    found.2.1 ∈ definitions ∧ found.2.1.regex.search text = some found.2.2 := by
  induction definitions generalizing index with
  | nil => cases selected
  | cons definition rest ih =>
    unfold selectFrom at selected
    split at selected
    · next groups fits =>
      cases selected
      split at fits
      · exact ⟨List.mem_cons_self, fits⟩
      · cases fits
    · exact (ih selected).imp_left (List.mem_cons_of_mem _)

end StepRegistry

/-! ### Calls -/

section Calls

variable [CharacterNames]

namespace RegistryCall

/-- The program of a call. -/
def program : RegistryCall η → InPlace η (RegistryAnswer η)
  | register role pattern options => .added <$> InPlace.register role pattern options
  | add role pattern options => .added <$> InPlace.add role pattern options
  | define name pattern transform => .defined <$> InPlace.define name pattern transform
  | clear => (fun _ => .cleared) <$> InPlace.clear

/-- The pattern that a call wants to add for a role, and what goes with it. -/
def asks? : RegistryCall η → Option (Role × Pattern × StepOptions η)
  | register role pattern options => (Role.ofValue? role).map fun role => (role, pattern, options)
  | add role pattern options => some (role, pattern, options)
  | define .. | clear => none

/-- Whether an answer is one to a call: a definition or a type is the one that the call asked for. -/
def Fits : RegistryCall η → Except StepError (RegistryAnswer η) → Prop
  | _, .error _ => True
  | define name _ transform, .ok (.defined type) => type.name = name ∧ type.transform = transform
  | clear, .ok .cleared => True
  | call, .ok (.added definition) => ∃ pattern options,
      call.asks? = some (definition.role, pattern, options) ∧
        (pattern = .text definition.pattern ∨ pattern = .regex definition.regex) ∧
        definition.handler = options.handler ∧ definition.tagScope = options.tagScope ∧
        definition.description = options.description
  | _, _ => False

/-- What one call on a registry can do, by its answer and the registry afterwards. -/
inductive Effect (r : StepRegistry η) :
    RegistryCall η → Except StepError (RegistryAnswer η) → StepRegistry η → Prop where
  | refused (call : RegistryCall η) (e : StepError) : Effect r call (.error e) r
  | added {call : RegistryCall η} {role : Role} {pattern : Pattern} {options : StepOptions η}
      {regex : Regex} {readable : Text} {names : List Text} {definition : StepDefinition η} :
      call.asks? = some (role, pattern, options) → r.compile pattern = .ok (regex, readable, names) →
      definition = ⟨role, readable, regex, names, options.handler, options.tagScope,
        StepRegistry.knownLocation options.location, options.description⟩ →
      (∀ existing ∈ r.definitions, ¬existing.Clashes definition) →
      Effect r call (.ok (.added definition)) { r with definitions := r.definitions ++ [definition] }
  | defined {name pattern : Text} {regex : Regex} {transform : Transform} {type : ParameterType} :
      Regex.compile pattern = .ok regex → regex.groups ≤ 1 →
      type = ⟨name, if regex.groups = 0 then ['('] ++ pattern ++ [')'] else pattern, transform⟩ →
      Effect r (define name pattern transform) (.ok (.defined type)) { r with types := r.types.store name type }
  | cleared : Effect r clear (.ok .cleared) .empty

end RegistryCall

/-- An addition that succeeds puts the definition that was asked for behind the others, with none of which
it clashes. -/
theorem StepRegistry.add_eq_ok {r next : StepRegistry η} {role : Role} {pattern : Pattern}
    {options : StepOptions η} {definition : StepDefinition η}
    (did : r.add role pattern options = .ok (next, definition)) :
    ∃ regex readable names, r.compile pattern = .ok (regex, readable, names) ∧
      definition = ⟨role, readable, regex, names, options.handler, options.tagScope,
        knownLocation options.location, options.description⟩ ∧
      (∀ existing ∈ r.definitions, ¬existing.Clashes definition) ∧
      next = { r with definitions := r.definitions ++ [definition] } := by
  unfold add at did
  cases compiled : r.compile pattern with
  | error e => simp [compiled] at did
  | ok parts =>
    obtain ⟨regex, readable, names⟩ := parts
    simp only [compiled] at did
    split at did
    · cases did
    · next new =>
      injection did with did
      injection did with next_eq definition_eq
      subst definition_eq
      refine ⟨regex, readable, names, rfl, rfl, ?_, next_eq.symm⟩
      intro existing held clashes
      have other := List.find?_eq_none.mp new existing held
      simp [clashes.1, clashes.2] at other

/-- A definition of a type that succeeds stores the type under its name, its fragment with one group. -/
theorem StepRegistry.defineType_eq_ok {r next : StepRegistry η} {name pattern : Text}
    {transform : Transform} {type : ParameterType}
    (did : r.defineType name pattern transform = .ok (next, type)) :
    ∃ regex, Regex.compile pattern = .ok regex ∧ regex.groups ≤ 1 ∧
      type = ⟨name, if regex.groups = 0 then ['('] ++ pattern ++ [')'] else pattern, transform⟩ ∧
      next = { r with types := r.types.store name type } := by
  unfold defineType at did
  cases compiled : Regex.compile pattern with
  | error e => simp [compiled] at did
  | ok regex =>
    simp only [compiled] at did
    split at did
    · cases did
    · next few =>
      injection did with did
      injection did with next_eq type_eq
      subst type_eq
      exact ⟨regex, rfl, by omega, rfl, next_eq.symm⟩

/-- A compiled pattern is the text that readers see, or the regular expression itself. -/
theorem StepRegistry.pattern_of_compile {r : StepRegistry η} {pattern : Pattern} {regex : Regex}
    {readable : Text} {names : List Text} (compiled : r.compile pattern = .ok (regex, readable, names)) :
    pattern = .text readable ∨ pattern = .regex regex := by
  cases pattern with
  | other kindName => cases compiled
  | regex given =>
    cases compiled
    exact .inr rfl
  | text t =>
    unfold compile at compiled
    dsimp only at compiled
    split at compiled
    · cases compiled
      exact .inl rfl
    · cases compiled

namespace RegistryCall

/-- The answer of a call is of the kind that was asked for. -/
theorem Effect.fits {r next : StepRegistry η} {call : RegistryCall η}
    {answer : Except StepError (RegistryAnswer η)} (did : Effect r call answer next) : call.Fits answer := by
  cases did with
  | refused => cases call <;> trivial
  | added asks compiled eq _ =>
    subst eq
    have readable := StepRegistry.pattern_of_compile compiled
    cases call with
    | register | add => exact ⟨_, _, asks, readable, rfl, rfl, rfl⟩
    | define | clear => cases asks
  | defined _ _ eq => exact ⟨congrArg _ eq, congrArg _ eq⟩
  | cleared => trivial

/-- Every call does one of the things that calls can do. -/
theorem effect (call : RegistryCall η) (r : StepRegistry η) :
    Effect r call (call.program.on r).1 (call.program.on r).2 := by
  have adds {call : RegistryCall η} {role : Role} {pattern : Pattern} {options : StepOptions η}
      (asks : call.asks? = some (role, pattern, options)) :
      Effect r call ((InPlace.updated r (r.add role pattern options)).1.map .added)
        (InPlace.updated r (r.add role pattern options)).2 := by
    cases did : r.add role pattern options with
    | error e => exact .refused call e
    | ok outcome =>
      obtain ⟨next, definition⟩ := outcome
      obtain ⟨regex, readable, names, compiled, rfl, fresh, rfl⟩ := StepRegistry.add_eq_ok did
      exact .added asks compiled rfl fresh
  cases call with
  | register role pattern options =>
    simp only [program, InPlace.on_map, InPlace.on_register, StepRegistry.register]
    cases known : Role.ofValue? role with
    | none => exact .refused _ _
    | some role => exact adds (by simp [asks?, known])
  | add role pattern options =>
    simp only [program, InPlace.on_map, InPlace.on_add]
    exact adds rfl
  | define name pattern transform =>
    simp only [program, InPlace.on_map, InPlace.on_define]
    cases did : r.defineType name pattern transform with
    | error e => exact .refused _ e
    | ok outcome =>
      obtain ⟨next, type⟩ := outcome
      obtain ⟨regex, compiled, few, rfl, rfl⟩ := StepRegistry.defineType_eq_ok did
      exact .defined compiled few rfl
  | clear => exact .cleared

end RegistryCall

/-! ### Sessions -/

namespace StepRegistry

/-- The answers of calls in turn, and the registry that they leave behind. -/
def session (r : StepRegistry η) :
    List (RegistryCall η) → List (Except StepError (RegistryAnswer η)) × StepRegistry η
  | [] => ([], r)
  | call :: rest =>
      let (answer, next) := call.program.on r
      let (answers, last) := session next rest
      (answer :: answers, last)

/-- The registry after calls in turn. -/
def after (r : StepRegistry η) (calls : List (RegistryCall η)) : StepRegistry η := (r.session calls).2

/-- The definitions that the answers leave standing, in their order, behind those that stood before. -/
def standing (held : List (StepDefinition η)) :
    List (Except StepError (RegistryAnswer η)) → List (StepDefinition η)
  | [] => held
  | .ok (.added definition) :: rest => standing (held ++ [definition]) rest
  | .ok .cleared :: rest => standing [] rest
  | .ok (.defined _) :: rest | .error _ :: rest => standing held rest

/-- The first call of a session is answered from the registry at its start, the others from what it leaves. -/
theorem session_cons (r : StepRegistry η) (call : RegistryCall η) (rest : List (RegistryCall η)) :
    (r.session (call :: rest)).1 = (call.program.on r).1 :: ((call.program.on r).2.session rest).1 := rfl

@[simp] theorem after_nil (r : StepRegistry η) : r.after [] = r := rfl

@[simp] theorem after_cons (r : StepRegistry η) (call : RegistryCall η) (rest : List (RegistryCall η)) :
    r.after (call :: rest) = (call.program.on r).2.after rest := rfl

/-- Calls may be made in two sessions. -/
theorem after_append (r : StepRegistry η) (calls more : List (RegistryCall η)) :
    r.after (calls ++ more) = (r.after calls).after more := by
  induction calls generalizing r with
  | nil => rfl
  | cons call rest ih => simp [ih]

/-- What every call keeps, a session keeps. -/
theorem after_induction {motive : StepRegistry η → Prop} (r : StepRegistry η) (calls : List (RegistryCall η))
    (start : motive r)
    (step : ∀ (r next : StepRegistry η) (answer : Except StepError (RegistryAnswer η)), ∀ call ∈ calls,
      RegistryCall.Effect r call answer next → motive r → motive next) : motive (r.after calls) := by
  induction calls generalizing r with
  | nil => exact start
  | cons call rest ih =>
    refine ih _ (step _ _ _ call (by simp) (call.effect r) start) ?_
    exact fun r next answer other member => step r next answer other (by simp [member])

/-- Every call of a session is answered with what it asked for, or with an error. -/
theorem session_fits (r : StepRegistry η) (calls : List (RegistryCall η)) :
    List.Forall₂ RegistryCall.Fits calls (r.session calls).1 := by
  induction calls generalizing r with
  | nil => exact .nil
  | cons call rest ih => exact .cons (call.effect r).fits (ih _)

/-- The definitions of a registry are those that the answers leave standing. -/
theorem after_definitions (r : StepRegistry η) (calls : List (RegistryCall η)) :
    (r.after calls).definitions = standing r.definitions (r.session calls).1 := by
  induction calls generalizing r with
  | nil => rfl
  | cons call rest ih =>
    rw [after_cons, ih, session_cons]
    have effect := call.effect r
    generalize call.program.on r = outcome at effect
    obtain ⟨answer, next⟩ := outcome
    cases effect <;> rfl

/-- Without clashes at its start, a registry never holds a clash. -/
theorem after_unambiguous (r : StepRegistry η) (calls : List (RegistryCall η))
    (start : r.definitions.Pairwise fun a b => ¬a.Clashes b) :
    (r.after calls).definitions.Pairwise fun a b => ¬a.Clashes b := by
  refine after_induction (motive := fun r => r.definitions.Pairwise fun a b => ¬a.Clashes b) r calls start ?_
  intro r next answer call _ did unambiguous
  cases did with
  | refused | defined => exact unambiguous
  | added _ _ _ fresh => exact List.pairwise_append.mpr ⟨unambiguous, List.pairwise_singleton _ _, by simpa⟩
  | cleared => exact .nil

/-- A call that fails changes nothing. -/
theorem unchanged_of_error {call : RegistryCall η} {r : StepRegistry η} {e : StepError}
    (failed : (call.program.on r).1 = .error e) : (call.program.on r).2 = r := by
  have effect := call.effect r
  rw [failed] at effect
  generalize (call.program.on r).2 = next at effect
  cases effect
  rfl

/-- Without a clearing, the definitions that are there stay in front. -/
theorem definitions_prefix_after (r : StepRegistry η) (calls : List (RegistryCall η))
    (uncleared : ∀ call ∈ calls, call ≠ .clear) : r.definitions <+: (r.after calls).definitions := by
  refine after_induction (motive := fun later => r.definitions <+: later.definitions) r calls
    List.prefix_rfl ?_
  intro next later answer call member did front
  cases did with
  | refused | defined => exact front
  | added => exact front.trans (List.prefix_append _ _)
  | cleared => exact absurd rfl (uncleared _ member)

/-- Without a clearing, a definition that was found is found behind any further calls. -/
theorem select_after {r : StepRegistry η} {calls : List (RegistryCall η)} {text : Text} {role : Role}
    {tags : Option (List Text)} {found : Nat × StepDefinition η × List (Option Text)}
    (uncleared : ∀ call ∈ calls, call ≠ .clear) (selected : r.select text role tags = some found) :
    (r.after calls).select text role tags = some found := by
  obtain ⟨more, front⟩ := r.definitions_prefix_after calls uncleared
  rw [select] at selected
  rw [select, ← front, selectFrom_append, selected, Option.some_or]

/-- After every session that starts with an empty registry, no two definitions have one regular expression
text and one role, and the definitions are those that the answers say were added since the registry was
last cleared, in order. A further call that fails changes nothing, and a definition that is selected for a
text stays selected for it as long as the registry is not cleared. -/
theorem session_consistent (calls : List (RegistryCall η)) :
    ((empty.after calls).definitions.Pairwise fun a b => ¬a.Clashes b) ∧
    (List.Forall₂ RegistryCall.Fits calls (empty.session calls).1 ∧
      (empty.after calls).definitions = standing [] (empty.session calls).1) ∧
    (∀ (call : RegistryCall η) e, (call.program.on (empty.after calls)).1 = .error e →
      (call.program.on (empty.after calls)).2 = empty.after calls) ∧
    ∀ more text role tags found, (∀ call ∈ more, call ≠ .clear) →
      (empty.after calls).select text role tags = some found →
      (empty.after (calls ++ more)).select text role tags = some found := by
  refine ⟨empty.after_unambiguous calls .nil, ⟨empty.session_fits calls, empty.after_definitions calls⟩,
    fun call e failed => unchanged_of_error failed, fun more text role tags found uncleared selected => ?_⟩
  rw [after_append]
  exact select_after uncleared selected

end StepRegistry

end Calls

namespace StepRegistry

/-- Calls that register a pattern, define the type of its placeholder, and register the pattern again. -/
def retypingCalls : List (RegistryCall Nat) :=
  [.register (.text "given") (.text "I have \x7bcount\x7d") ⟨0, none, none, []⟩,
    .define "count" "\\d+" .int,
    .add .context (.text "I have \x7bcount\x7d") ⟨1, none, none, []⟩]

/-- The pattern registered again is another regular expression, and a third time it is refused. The text
that the first definition fits stays with it. -/
theorem session_consistent_retyping :
    (empty.after retypingCalls).definitions.length = 2 ∧
    ((empty.after retypingCalls).definitions.Pairwise fun a b => ¬a.Clashes b) ∧
    (∃ call : RegistryCall Nat, (∃ e, (call.program.on (empty.after retypingCalls)).1 = .error e) ∧
      (call.program.on (empty.after retypingCalls)).2 = empty.after retypingCalls) ∧
    ∃ found, (empty.after retypingCalls).select "I have 3" .context none = some found ∧
      (empty.after (retypingCalls ++ [.define "count" "x" .text])).select "I have 3" .context none =
        some found := by
  let again : RegistryCall Nat := .add .context (.text "I have \x7bcount\x7d") ⟨2, none, none, []⟩
  have refuses : (again.program.on (empty.after retypingCalls)).1.isOk = false := by decide +kernel
  have selects : ((empty.after retypingCalls).select "I have 3" .context none).isSome = true := by
    decide +kernel
  obtain ⟨unambiguous, _, unchanged, stays⟩ := session_consistent retypingCalls
  refine ⟨by decide +kernel, unambiguous, ⟨again, ?_⟩, ?_⟩
  · cases failed : (again.program.on (empty.after retypingCalls)).1 with
    | ok answer =>
      rw [failed] at refuses
      cases refuses
    | error e => exact ⟨⟨e, rfl⟩, unchanged again e failed⟩
  · obtain ⟨found, selected⟩ := Option.isSome_iff_exists.mp selects
    exact ⟨found, selected, stays _ _ _ _ _ (by simp) selected⟩

end StepRegistry

end Gherkin
