import Mathlib
import Gherkin.Proofs.Run.Parts

/-! # Dispatch

Which handler a step calls. A step that is reached asks for definitions with the role of the nearest
concrete step before it, and the first definition in the registry that serves this role and the tags of
the scenario, and whose regular expression finds something in the text, is called once, with the world that
was handed to it, the values of its groups, and its table and doc string. A step is undefined exactly if there is no
such definition (`Gherkin.Runner.run_dispatches`).
-/

namespace Gherkin

/-! ### Roles -/

namespace Engine

/-- The type of the nearest concrete step at a place in a list or before it. -/
def typeAt (steps : List Step) (index : Nat) : StepType :=
  (((steps.take (index + 1)).map Step.type).reverse.find? StepType.isConcrete).getD .context

/-- The role with which a step of a list is looked up. -/
def roleAt (steps : List Step) (index : Nat) : Role := Role.ofType (typeAt steps index)

theorem getElem?_resolveTypes (current : StepType) (types : List StepType) (index : Nat)
    (within : index < types.length) :
    (resolveTypes current types)[index]? =
      some (((types.take (index + 1)).reverse.find? StepType.isConcrete).getD current) := by
  induction types generalizing current index with
  | nil => cases within
  | cons type rest ih =>
    cases index with
    | zero => by_cases concrete : type.isConcrete = true <;> simp [resolveTypes, concrete]
    | succ index =>
      rw [resolveTypes, List.getElem?_cons_succ, ih _ _ (Nat.lt_of_succ_lt_succ within),
        List.take_succ_cons, List.reverse_cons, List.find?_append]
      cases (rest.take (index + 1)).reverse.find? StepType.isConcrete with
      | some other => rfl
      | none => by_cases concrete : type.isConcrete = true <;> simp [concrete]

theorem withRoles_eq (steps : List Step) :
    withRoles steps = steps.zipIdx.map fun item => (item.1, typeAt steps item.2) := by
  apply List.ext_getElem?
  intro index
  by_cases within : index < steps.length
  · have resolved := getElem?_resolveTypes .context (steps.map Step.type) index (by simpa using within)
    simp [withRoles, List.zip_eq_zipWith, List.getElem?_zipWith, List.getElem?_eq_getElem within, resolved,
      typeAt, List.map_take]
  · have outside : steps.length ≤ index := Nat.le_of_not_lt within
    simp [withRoles, outside]

/-- No step asks for definitions of all roles. -/
theorem roleAt_ne_any (steps : List Step) (index : Nat) : roleAt steps index ≠ .any := by
  unfold roleAt typeAt
  cases found : ((steps.take (index + 1)).map Step.type).reverse.find? StepType.isConcrete with
  | none => rintro ⟨⟩
  | some type =>
    have concrete : type.isConcrete = true := List.find?_some found
    cases type with
    | context | action | outcome => rintro ⟨⟩
    | conjunction | unknown => cases concrete

end Engine

/-! ### Definitions -/

variable {η ω σ : Type}

/-- Whether a definition fits a text for a role and some tags. -/
structure StepDefinition.Fits (definition : StepDefinition η) (text : Text) (role : Role)
    (tags : List Text) (groups : List (Option Text)) : Prop where
  role : definition.role = .any ∨ definition.role = role
  scope : definition.tagScope = none ∨ definition.tagScope = some [] ∨
    ∃ tag ∈ tags, definition.tagScope = some tag
  found : definition.regex.search text = some groups

namespace StepRegistry

/-- Whether a definition is the earliest that fits. -/
def Earliest (r : StepRegistry η) (text : Text) (role : Role) (tags : List Text)
    (definition : StepDefinition η) (groups : List (Option Text)) : Prop :=
  ∃ before after, r.definitions = before ++ definition :: after ∧
    (∀ other ∈ before, ∀ groups, ¬ other.Fits text role tags groups) ∧
      definition.Fits text role tags groups

/-- Whether values are what the groups of a definition captured, converted in order. -/
structure Converts (r : StepRegistry η) (names : List Text) (groups : List (Option Text))
    (values : List Value) : Prop where
  length : values.length = groups.length
  value : ∀ (index : Nat) captured, groups[index]? = some captured →
    ∃ value, values[index]? = some value ∧ r.argument names[index]? captured = .ok value

variable {text : Text} {role : Role} {tags : List Text} {groups : List (Option Text)}

theorem admits_iff {definition : StepDefinition η} (specific : role ≠ .any) :
    admits definition role (some tags) = true ↔
      (definition.role = .any ∨ definition.role = role) ∧
        (definition.tagScope = none ∨ definition.tagScope = some [] ∨
          ∃ tag ∈ tags, definition.tagScope = some tag) := by
  unfold admits Role.serves
  rcases scope : definition.tagScope with _ | _ | ⟨c, rest⟩ <;> simp [specific]

/-- What one definition contributes to the selection of the first. -/
theorem fits_iff {definition : StepDefinition η} (specific : role ≠ .any) :
    definition.Fits text role tags groups ↔
      (if admits definition role (some tags) then definition.regex.search text else none) =
        some groups := by
  by_cases admitted : admits definition role (some tags) = true
  · obtain ⟨serves, inScope⟩ := (admits_iff specific).mp admitted
    rw [if_pos admitted]
    exact ⟨StepDefinition.Fits.found, fun found => ⟨serves, inScope, found⟩⟩
  · rw [if_neg admitted]
    constructor
    · intro fits
      exact absurd ((admits_iff specific).mpr ⟨fits.role, fits.scope⟩) admitted
    · rintro ⟨⟩

theorem selectFrom_eq_none (specific : role ≠ .any) {index : Nat} {definitions : List (StepDefinition η)}
    (unselected : selectFrom text role (some tags) index definitions = none) :
    ∀ definition ∈ definitions, ∀ groups, ¬ definition.Fits text role tags groups := by
  induction definitions generalizing index with
  | nil => exact List.forall_mem_nil _
  | cons first rest ih =>
    unfold selectFrom at unselected
    split at unselected
    · cases unselected
    · rename_i unfound
      refine List.forall_mem_cons.mpr ⟨fun groups fits => ?_, ih unselected⟩
      rw [(fits_iff specific).mp fits] at unfound
      cases unfound

theorem selectFrom_eq_some (specific : role ≠ .any) {index place : Nat}
    {definitions : List (StepDefinition η)} {definition : StepDefinition η}
    (selected : selectFrom text role (some tags) index definitions = some (place, definition, groups)) :
    ∃ before after, definitions = before ++ definition :: after ∧
      (∀ other ∈ before, ∀ groups, ¬ other.Fits text role tags groups) ∧
        definition.Fits text role tags groups := by
  induction definitions generalizing index with
  | nil => cases selected
  | cons first rest ih =>
    unfold selectFrom at selected
    split at selected
    · rename_i found
      cases selected
      exact ⟨[], rest, rfl, List.forall_mem_nil _, (fits_iff specific).mpr found⟩
    · rename_i unfound
      obtain ⟨before, after, rfl, none, fits⟩ := ih selected
      refine ⟨first :: before, after, rfl, List.forall_mem_cons.mpr ⟨fun groups fits => ?_, none⟩, fits⟩
      rw [(fits_iff specific).mp fits] at unfound
      cases unfound

/-- At most one definition is the earliest, and it captures one list of groups. -/
theorem Earliest.unique {r : StepRegistry η} {definition other : StepDefinition η}
    {captured : List (Option Text)} (first : r.Earliest text role tags definition groups)
    (second : r.Earliest text role tags other captured) : definition = other ∧ groups = captured := by
  obtain ⟨before, after, split, unfit, fits⟩ := first
  obtain ⟨before', after', split', unfit', fits'⟩ := second
  rw [split] at split'
  rcases List.append_eq_append_iff.mp split' with ⟨between, rfl, rest⟩ | ⟨between, rfl, rest⟩
  · cases between with
    | nil =>
      obtain ⟨rfl, _⟩ := List.cons.inj rest
      exact ⟨rfl, Option.some.inj (fits.found.symm.trans fits'.found)⟩
    | cons head _ =>
      obtain ⟨rfl, _⟩ := List.cons.inj rest
      exact absurd fits (unfit' _ (by simp) _)
  · cases between with
    | nil =>
      obtain ⟨rfl, _⟩ := List.cons.inj rest
      exact ⟨rfl, Option.some.inj (fits.found.symm.trans fits'.found)⟩
    | cons head _ =>
      obtain ⟨rfl, _⟩ := List.cons.inj rest
      exact absurd fits' (unfit _ (by simp) _)

theorem converts_of_arguments {r : StepRegistry η} {names : List Text} {values : List Value}
    (converted : r.arguments names groups = .ok values) : r.Converts names groups values := by
  induction groups generalizing names values with
  | nil =>
    cases converted
    exact ⟨rfl, by rintro _ _ ⟨⟩⟩
  | cons captured rest ih =>
    unfold arguments at converted
    split at converted
    · cases converted
    · rename_i value head
      split at converted
      · cases converted
      · rename_i others tail
        cases converted
        have inner := ih tail
        refine ⟨congrArg Nat.succ inner.length, ?_⟩
        intro index other at_
        cases index with
        | zero =>
          cases at_
          exact ⟨value, rfl, by rwa [← List.head?_eq_getElem?]⟩
        | succ index =>
          obtain ⟨value, place, same⟩ := inner.value index other at_
          exact ⟨value, place, by rwa [List.getElem?_tail] at same⟩

/-- What a lookup finds is the earliest definition that fits, with its converted groups. -/
theorem earliest_of_match? {r : StepRegistry η} {found : Match η} (specific : role ≠ .any)
    (matched : r.match? text role (some tags) = .ok (some found)) :
    ∃ groups, r.Earliest text role tags found.definition groups ∧
      r.Converts found.definition.names groups found.arguments := by
  unfold match? at matched
  split at matched
  · cases matched
  · rename_i index definition groups selected
    split at matched
    · rename_i values converted
      cases matched
      exact ⟨groups, selectFrom_eq_some specific selected, converts_of_arguments converted⟩
    · cases matched

theorem unfit_of_match? {r : StepRegistry η} (specific : role ≠ .any)
    (unmatched : r.match? text role (some tags) = .ok none) :
    ∀ definition ∈ r.definitions, ∀ groups, ¬ definition.Fits text role tags groups := by
  unfold match? at unmatched
  split at unmatched
  · rename_i unselected
    exact selectFrom_eq_none specific unselected
  · split at unmatched <;> cases unmatched

end StepRegistry

/-! ### Steps -/

/-- The handler that an act calls. -/
def Act.handler? : Act η ω → Option η
  | .handler called _ _ _ _ => some called
  | _ => none

namespace Engine

variable (e : Engine η ω σ)

/-- What a handler is given: the values of the captures, behind them the table of the step if it has one, and last
the content of its doc string if it has one. -/
def handed (values : List Value) : Option DataTable → Option DocString → List Argument
  | none, none => values.map .value
  | some table, none => values.map .value ++ [.table table]
  | none, some doc => values.map .value ++ [.value (.text doc.content)]
  | some table, some doc => values.map .value ++ [.table table, .value (.text doc.content)]

theorem argumentsOf_eq (values : List Value) (step : Step) :
    argumentsOf values step = handed values step.table step.doc := by
  unfold argumentsOf
  cases step.table <;> cases step.doc <;> simp [handed]

/-- What is called for a step between its hooks, and what this says about its status, given what the hooks
in front of it came to. -/
structure Dispatch (tags : List Text) (role : Role) (step : Step) (before : Call ω)
    (called : List (Act η ω)) (status : Status) : Prop where
  hooksFailed : before.failure ≠ none → called = [] ∧ status = .failed
  undefined : status = .undefined → called = []
  undefined_iff : before.failure = none → (status = .undefined ↔
    ∀ definition ∈ e.steps.definitions, ∀ groups, ¬ definition.Fits step.text role tags groups)
  selected : before.failure = none → ∀ definition groups,
    e.steps.Earliest step.text role tags definition groups → ∃ values call,
      e.steps.Converts definition.names groups values ∧
        called = [.handler definition.handler before.world (handed values step.table step.doc)
          (e.stepDeadline step) call] ∧
          status = statusOfCall call.failure

/-- What is done about the step at a place in a list: it is skipped, or what it calls between its hooks is
dispatched with the role of this place. -/
inductive StepDispatched (tags : List Text) (steps : List Step) (item : Step × Nat) :
    List (Act η ω) × StepResult → Prop
  | skipped : StepDispatched tags steps item ([], skippedStep item.1)
  | ran {world given : Option ω} {before after : Call ω} {called : List (Act η ω)}
      {failure : Option Failure} {result : StepResult}
      (dispatched : e.Dispatch tags (roleAt steps item.2) item.1 before called result.status) :
      StepDispatched tags steps item
        ([.told (.stepStarted item.1) none, .hooks .beforeStep (stepContext tags item.1 none) world before] ++
            called ++
            [.hooks .afterStep (stepContext tags item.1 failure) given after,
              .told (.stepFinished result) none],
          result)

/-- Whether the handlers that a scenario calls are those that its steps dispatch, in the order of the
steps, each working on the world that was handed on to it. -/
def Dispatches : ScenarioProperty η ω := fun background tags scenario acts result =>
  ∃ entry parts exit last, acts = entry ++ parts.flatMap Prod.fst ++ exit ∧
    result.steps = parts.map Prod.snd ∧
    (∀ act ∈ entry ++ exit, act.handler? = none) ∧ Threaded none acts last ∧
    List.Forall₂ (e.StepDispatched tags (background ++ scenario.steps))
      (background ++ scenario.steps).zipIdx parts

variable {e}

theorem statusOfCall_ne_undefined (failure : Option Failure) : statusOfCall failure ≠ .undefined := by
  cases failure with
  | none => rintro ⟨⟩
  | some failure => by_cases pending : failure.isPending = true <;> simp [statusOfCall, pending]

theorem ExecuteActs.dispatch {tags : List Text} {step : Step} {type : StepType} {before : Call ω}
    {called : List (Act η ω)} {invocation : Invocation ω} (specific : Role.ofType type ≠ .any)
    (did : e.ExecuteActs tags step type before called invocation) :
    e.Dispatch tags (Role.ofType type) step before called invocation.status := by
  cases did with
  | hooksFailed failed =>
    have notPassed : before.failure ≠ none := by simp [failed]
    exact ⟨fun _ => ⟨rfl, rfl⟩, by rintro ⟨⟩, fun passed => absurd passed notPassed,
      fun passed => absurd passed notPassed⟩
  | undefined passed unmatched _ _ =>
    have unfit := StepRegistry.unfit_of_match? specific unmatched
    refine ⟨fun failed => absurd passed failed, fun _ => rfl, fun _ => ⟨fun _ => unfit, fun _ => rfl⟩, ?_⟩
    rintro _ definition groups ⟨before, after, split, _, fits⟩
    exact absurd fits (unfit definition (by simp [split]) groups)
  | @called found call passed matched =>
    obtain ⟨groups, earliest, converts⟩ := StepRegistry.earliest_of_match? specific matched
    have defined := statusOfCall_ne_undefined call.failure
    refine ⟨fun failed => absurd passed failed, fun undefined => absurd undefined defined, fun _ => ?_, ?_⟩
    · refine ⟨fun undefined => absurd undefined defined, fun unfit => ?_⟩
      obtain ⟨before, after, split, _, fits⟩ := earliest
      exact absurd fits (unfit found.definition (by simp [split]) groups)
    · intro _ definition captured other
      obtain ⟨rfl, rfl⟩ := earliest.unique other
      exact ⟨found.arguments, call, converts, by rw [argumentsOf_eq], rfl⟩

theorem StepDone.dispatched {tags : List Text} {steps : List Step} {item : Step × Nat}
    {part : List (Act η ω) × StepResult}
    (done : e.StepDone tags (item.1, typeAt steps item.2) part) : e.StepDispatched tags steps item part := by
  cases done with
  | skipped => exact .skipped
  | ran did =>
    obtain ⟨executed, _, rfl⟩ := did
    exact .ran (executed.dispatch (roleAt_ne_any steps item.2))

theorem EnterActs.handler? {context : HookContext} {acts : List (Act η ω)} {hookError : Option Failure}
    {world : Option ω} (entered : EnterActs context acts (hookError, world)) :
    ∀ act ∈ acts, act.handler? = none := by
  cases entered <;> simp [Act.handler?]

theorem ScenarioActs.dispatches {featureName : Text} {background : List Step} {tags : List Text}
    {row : Option ExampleRow} {scenario : Scenario} {acts : List (Act η ω)} {result : ScenarioResult}
    (did : e.ScenarioActs featureName background tags row scenario acts result) :
    e.Dispatches background tags scenario acts result := by
  obtain ⟨last, threaded⟩ := did.threaded
  obtain ⟨entered, ran, _, rfl⟩ := did
  obtain ⟨parts, rfl, rfl, done⟩ := ran.parts
  rw [withRoles_eq, List.forall₂_map_left_iff] at done
  refine ⟨_, parts, _, last, rfl, rfl, ?_, threaded, done.imp fun _ _ done => done.dispatched⟩
  have inner := entered.handler?
  simpa [Act.handler?, or_imp, forall_and] using inner

end Engine

namespace Runner

variable {θ : Type}

/-- In every run that gives a result, every scenario and row that is executed dispatches its steps, never
with a role that stands for all. -/
theorem run_dispatches (r : Runner η θ) (host : Host η θ ω σ) (documents : List Document) (state : σ)
    (result : RunResult) (returned : ((r.run host documents).run state).1.1 = .ok result) :
    (∃ acts next, ((r.engine host).recorded.run documents).run.run (state, []) = (.ok result, next, acts) ∧
      (r.engine host).RunOf (r.engine host).Dispatches documents acts result) ∧
    ∀ steps index, Engine.roleAt steps index ≠ .any := by
  obtain ⟨acts, next, kept, did⟩ := r.run_acts host returned
  refine ⟨⟨acts, next, kept, ?_⟩, Engine.roleAt_ne_any⟩
  exact did.of fun _ _ _ _ _ _ _ did => did.dispatches

/-- An argument that is a whole number, a text or a table. -/
inductive PlainArgument where
  | number (n : Int)
  | text (t : Text)
  | table (t : DataTable)
  deriving DecidableEq

/-- What kind of plain argument an argument is, if it is one. -/
def PlainArgument.ofArgument? : Argument → Option PlainArgument
  | .value (.int n) => some (.number n)
  | .value (.text t) => some (.text t)
  | .table t => some (.table t)
  | _ => none

/-- What acts hand to handlers: the number of each handler, and its arguments. -/
def handlerCalls (acts : List (Act Nat Unit)) : List (Nat × List (Option PlainArgument)) :=
  acts.filterMap fun
    | .handler handler _ arguments _ _ => some (handler, arguments.map PlainArgument.ofArgument?)
    | _ => none

/-- The table of the last step of the layered feature. -/
def layeredTable : DataTable := ⟨[⟨["cell"], 12⟩]⟩

/-- The handler of the last step is that for actions, although that for contexts comes first; it is given the number,
the table and the content of the doc string. -/
theorem run_dispatches_layers :
    ∃ (steps : StepRegistry Nat) (runner : Runner Nat Unit) (result : RunResult) (acts : List (Act Nat Unit)),
      layeredSteps = .ok steps ∧ runner = unfinishedLeftOut steps ∧
      ((runner.run Host.idle [documentOnly layeredFeature]).run ()).1.1 = .ok result ∧
      (runner.engine Host.idle).RunOf (runner.engine Host.idle).Dispatches [documentOnly layeredFeature] acts result ∧
      handlerCalls acts = [(1, []), (2, []),
        (3, [some (.number 1), some (.table layeredTable), some (.text "note")]), (1, []), (2, []),
        (3, [some (.number 2), some (.table layeredTable), some (.text "note")])] := by
  have calls : (layeredSteps.toOption.any fun steps =>
      ((unfinishedLeftOut steps).outcome Host.idle [documentOnly layeredFeature] ()).toOption.any fun _ =>
        handlerCalls ((((unfinishedLeftOut steps).engine Host.idle).recorded.run
          [documentOnly layeredFeature]).run.run ((), [])).2.2 == [(1, []), (2, []),
            (3, [some (.number 1), some (.table layeredTable), some (.text "note")]), (1, []), (2, []),
            (3, [some (.number 2), some (.table layeredTable), some (.text "note")])]) = true := by
    decide +kernel
  obtain ⟨steps, built, calls⟩ := exists_of_toOption_any calls
  obtain ⟨result, returned, called⟩ := exists_of_toOption_any calls
  obtain ⟨⟨acts, next, kept, dispatches⟩, _⟩ :=
    run_dispatches (unfinishedLeftOut steps) Host.idle [documentOnly layeredFeature] () result returned
  refine ⟨steps, _, result, acts, built, rfl, returned, dispatches, ?_⟩
  rw [kept] at called
  exact beq_iff_eq.mp called

end Runner

end Gherkin
