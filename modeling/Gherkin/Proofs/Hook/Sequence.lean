import Mathlib.Data.Int.Order.Basic
import Gherkin.Proofs.Hook.Registration
import Gherkin.Proofs.Sorting
import Gherkin.Run.Host

/-! # Hooks in sequence

The hooks of a scope that apply at a place are selected by ascending priority and, within a priority, in the order
of registration, each of them once. They are run in this order, one at a time, up to and including the first that
fails, and its failure is that of the sequence (`Gherkin.HookRegistry.runs_in_order`).
-/

namespace Gherkin

variable {η θ ω σ : Type}

/-! ### Selecting -/

namespace HookDefinition

/-- Whether a hook applies at a place with some tags: it has no tag filter or an empty one, or there are tags and
its tag filter is true on them. -/
def Applies (h : HookDefinition θ) (tags : List Text) : Prop :=
  h.tagFilter = none ∨ h.tagFilter = some [] ∨
    ∃ text, h.tagFilter = some text ∧ tags ≠ [] ∧ matchesTags text tags = .ok true

/-- The priority of a hook as an integer. -/
def rank (h : HookDefinition θ) : Int := h.priority.int?.getD 0

/-- A hook with the filter that its text is read as applies by this filter. -/
theorem appliesTo_iff {h : HookDefinition θ} (read : HookRegistry.filterOf h.tagFilter = .ok h.filter)
    (tags : List Text) : h.appliesTo tags = true ↔ h.Applies tags := by
  unfold Applies appliesTo
  cases given : h.tagFilter with
  | none =>
    rw [given] at read
    obtain absent := Except.ok.inj read
    simp [← absent]
  | some text =>
    rw [given] at read
    cases text with
    | nil =>
      obtain absent := Except.ok.inj read
      simp [← absent]
    | cons c text =>
      rw [HookRegistry.filterOf, TagFilter.ofText_eq] at read
      cases parsed : TagExpr.parse (c :: text) with
      | error e =>
        rw [parsed] at read
        cases read
      | ok e =>
        rw [parsed] at read
        obtain present := Except.ok.inj read
        simp [← present, matchesTags, parsed, TagFilter.holds]

end HookDefinition

/-- Integers among values are compared as such. -/
theorem Value.less_eq_decide {v w : Value} {m n : Int} (left : v.int? = some m) (right : w.int? = some n) :
    v.less w = decide (m < n) := by
  cases v <;> cases left <;> cases w <;> cases right <;> rfl

namespace HookRegistry

/-- The hooks that are selected from hooks with integers as priorities are those at sorted places. -/
theorem select_places {r : HookRegistry θ} (read : ∀ h ∈ r.hooks, filterOf h.tagFilter = .ok h.filter)
    (whole : ∀ h ∈ r.hooks, ∃ n, h.priority.int? = some n) (scope : HookScope) (tags : List Text) :
    ∃ places, SortedPlaces r.hooks (fun h => h.scope = scope ∧ h.Applies tags) HookDefinition.rank places ∧
      places.map (r.hooks[·]?) = (r.select scope tags).map some := by
  have byRank : ∀ a ∈ r.hooks, ∀ b ∈ r.hooks, runsBefore a b = decide (a.rank ≤ b.rank) := by
    intro a first b second
    obtain ⟨m, left⟩ := whole a first
    obtain ⟨n, right⟩ := whole b second
    have ranks : a.rank = m ∧ b.rank = n := by simp [HookDefinition.rank, left, right]
    rw [runsBefore, Value.less_eq_decide right left, ranks.1, ranks.2, ← decide_not, decide_eq_decide]
    exact not_lt
  obtain ⟨places, sorted, selected⟩ := exists_sortedPlaces HookDefinition.rank r.hooks
    (fun h => h.scope == scope && h.appliesTo tags) byRank
  refine ⟨places, sorted.congr fun h member => ?_, selected⟩
  rw [Bool.and_eq_true, beq_iff_eq, HookDefinition.appliesTo_iff (read h member)]

end HookRegistry

/-! ### Running -/

/-- A call of a hook: what it was given, and in which state; what it came to, and the state afterwards. -/
structure HookTurn (θ ω σ : Type) where
  hook : θ
  context : HookContext
  world : Option ω
  deadline : Deadline
  before : σ
  call : Call ω
  after : σ

namespace Host

/-- Performs an operation beside notes that grow by what is noted of it. -/
def withNotes {α τ : Type} (operation : StateM σ α) (note : σ → α → σ → List τ) : StateM (σ × List τ) α :=
  fun (before, noted) =>
    let (answer, after) := operation.run before
    (answer, after, noted ++ note before answer after)

/-- A host that notes its calls of hooks. -/
def notingHooks (host : Host η θ ω σ) : Host η θ ω (σ × List (HookTurn θ ω σ)) where
  createWorld := withNotes host.createWorld fun _ _ _ => []
  setsOutlet := host.setsOutlet
  callHandler handler world arguments deadline :=
    withNotes (host.callHandler handler world arguments deadline) fun _ _ _ => []
  callHook hook context world deadline :=
    withNotes (host.callHook hook context world deadline) fun before call after =>
      [⟨hook, context, world, deadline, before, call, after⟩]
  notify event := withNotes (host.notify event) fun _ _ _ => []

/-- Whether turns are taken one after another: each is given the context, and the world and the state that the one
before has left, and comes to what the host makes of its hook. -/
inductive Takes (host : Host η θ ω σ) (context : HookContext) :
    Option ω → σ → List (HookTurn θ ω σ) → Option ω → σ → Prop where
  | none {world : Option ω} {state : σ} : Takes host context world state [] world state
  | turn {hook : θ} {deadline : Deadline} {world lastWorld : Option ω} {state next last : σ} {call : Call ω}
      {turns : List (HookTurn θ ω σ)} :
      (host.callHook hook context world deadline).run state = (call, next) →
      Takes host context call.world next turns lastWorld last →
      Takes host context world state (⟨hook, context, world, deadline, state, call, next⟩ :: turns) lastWorld last

/-- Whether turns run some hooks in their order, each up to its deadline: one at a time, up to and including the
first that fails, whose failure is the outcome, and all of them if none does. -/
structure RunsInOrder (host : Host η θ ω σ) (default : Value) (context : HookContext)
    (hooks : List (HookDefinition θ)) (world : Option ω) (state : σ) (turns : List (HookTurn θ ω σ))
    (outcome : Call ω) (last : σ) : Prop where
  called : turns.map (fun turn => (turn.hook, turn.deadline)) <+: hooks.map fun h => (h.hook, h.deadline default)
  taken : host.Takes context world state turns outcome.world last
  earlier : ∀ turn ∈ turns.dropLast, turn.call.failure = none
  failure : outcome.failure = turns.getLast?.bind fun turn => turn.call.failure
  outputs : outcome.outputs = turns.flatMap fun turn => turn.call.outputs
  all : outcome.failure = none → turns.length = hooks.length

namespace RunsInOrder

variable {host : Host η θ ω σ} {default : Value} {context : HookContext} {h : HookDefinition θ}
  {rest : List (HookDefinition θ)} {world : Option ω} {state next last : σ} {first outcome : Call ω}
  {turns : List (HookTurn θ ω σ)}

theorem nil : host.RunsInOrder default context [] world state [] (.idle world) state where
  called := List.prefix_rfl
  taken := .none
  earlier _ among := by cases among
  failure := rfl
  outputs := rfl
  all _ := rfl

/-- Behind a hook that fails no other is run. -/
theorem stop (did : (host.callHook h.hook context world (h.deadline default)).run state = (first, next))
    {failure : Failure} (failed : first.failure = some failure) :
    host.RunsInOrder default context (h :: rest) world state
      [⟨h.hook, context, world, h.deadline default, state, first, next⟩] first next where
  called := ⟨_, List.singleton_append⟩
  taken := .turn did .none
  earlier _ among := by cases among
  failure := rfl
  outputs := (List.flatMap_singleton _ _).symm
  all passed := by
    rw [failed] at passed
    cases passed

/-- Behind a hook that does not fail the others are run, in the world and the state that it has left. -/
theorem onward (did : (host.callHook h.hook context world (h.deadline default)).run state = (first, next))
    (passed : first.failure = none)
    (others : host.RunsInOrder default context rest first.world next turns outcome last) :
    host.RunsInOrder default context (h :: rest) world state
      (⟨h.hook, context, world, h.deadline default, state, first, next⟩ :: turns)
      { outcome with outputs := first.outputs ++ outcome.outputs } last where
  called := List.cons_prefix_cons.mpr ⟨rfl, others.called⟩
  taken := .turn did others.taken
  earlier turn among := by
    cases turns with
    | nil => cases among
    | cons second turns =>
      rw [List.dropLast_cons_cons] at among
      rcases List.mem_cons.mp among with rfl | later
      · exact passed
      · exact others.earlier turn later
  failure := by
    cases turns with
    | nil => exact others.failure.trans passed.symm
    | cons second turns =>
      rw [List.getLast?_cons_cons]
      exact others.failure
  outputs := by
    rw [List.flatMap_cons, others.outputs]
  all unfailed := congrArg (· + 1) (others.all unfailed)

end RunsInOrder

/-- A run of hooks by the call of the first. -/
theorem run_runHooks_cons {host : Host η θ ω σ} {default : Value} {context : HookContext} {h : HookDefinition θ}
    {world : Option ω} {state next : σ} {first : Call ω}
    (did : (host.callHook h.hook context world (h.deadline default)).run state = (first, next))
    (rest : List (HookDefinition θ)) :
    (host.runHooks default context (h :: rest) world).run state =
      match first.failure with
      | some _ => (first, next)
      | none =>
          let (others, last) := (host.runHooks default context rest first.world).run next
          ({ others with outputs := first.outputs ++ others.outputs }, last) := by
  rw [runHooks, StateT.run_bind, did]
  cases failed : first.failure with
  | some failure =>
    simp only [bind, failed]
    rfl
  | none =>
    simp only [bind, failed]
    rfl

/-- Hooks are run in their order, and notes of the calls do not change what comes of them. -/
theorem runHooks_runsInOrder (host : Host η θ ω σ) (default : Value) (context : HookContext)
    (hooks : List (HookDefinition θ)) (world : Option ω) (state : σ) (noted : List (HookTurn θ ω σ)) :
    ∃ turns outcome last,
      (host.notingHooks.runHooks default context hooks world).run (state, noted) = (outcome, last, noted ++ turns) ∧
      (host.runHooks default context hooks world).run state = (outcome, last) ∧
      host.RunsInOrder default context hooks world state turns outcome last := by
  induction hooks generalizing world state noted with
  | nil =>
    refine ⟨[], .idle world, state, ?_, rfl, .nil⟩
    rw [List.append_nil]
    rfl
  | cons h rest ih =>
    cases did : (host.callHook h.hook context world (h.deadline default)).run state with
    | mk first next =>
      let turn : HookTurn θ ω σ := ⟨h.hook, context, world, h.deadline default, state, first, next⟩
      have notes : (host.notingHooks.callHook h.hook context world (h.deadline default)).run (state, noted) =
          (first, next, noted ++ [turn]) := by
        simp only [notingHooks, withNotes, StateT.run] at did ⊢
        rw [did]
      rw [run_runHooks_cons did, run_runHooks_cons notes]
      cases failed : first.failure with
      | some failure => exact ⟨[turn], first, next, rfl, rfl, .stop did failed⟩
      | none =>
        obtain ⟨turns, outcome, last, beside, plain, inOrder⟩ := ih first.world next (noted ++ [turn])
        refine ⟨turn :: turns, _, last, ?_, ?_, .onward did failed inOrder⟩
        · rw [beside, List.append_assoc, List.singleton_append]
        · rw [plain]

end Host

/-! ### Sessions -/

namespace HookRegistry

/-- In every registry that calls make from hooks with integers as priorities, the selected hooks of a scope are
those of it that apply, each once, by ascending priority and within a priority in the order of registration. They
are run in this order, one at a time, up to and including the first that fails. A registration that is refused
leaves the registry as it is, and is refused if it asks for no hook; any other puts its hook behind the others. -/
theorem runs_in_order {calls : List (HookRegistryCall θ)} {r : HookRegistry θ} (made : empty.after calls = r)
    (whole : ∀ h ∈ r.hooks, ∃ n, h.priority.int? = some n) :
    (∀ scope tags, ∃ places,
      SortedPlaces r.hooks (fun h => h.scope = scope ∧ h.Applies tags) HookDefinition.rank places ∧
      places.map (r.hooks[·]?) = (r.select scope tags).map some) ∧
    (∀ (host : Host η θ ω σ) (config : RunConfig) (scope : HookScope) (context : HookContext) (world : Option ω)
        (state : σ), ∃ turns outcome last,
      ((host.notingHooks.effects r config).runHooks scope context world).run (state, []) = (outcome, last, turns) ∧
      ((host.effects r config).runHooks scope context world).run state = (outcome, last) ∧
      host.RunsInOrder config.hookTimeout context (r.select scope context.tags) world state turns outcome last) ∧
    ∀ call : HookRegistryCall θ,
      (∀ e next, call.on r = (.error e, next) → next = r) ∧
      (∀ definition, call.Asks definition → call.on r = (.ok (some definition), ⟨r.hooks ++ [definition]⟩)) ∧
      ((∀ definition, ¬call.Asks definition) → call = .clear ∨ ∃ e, call.on r = (.error e, r)) := by
  have read : ∀ h ∈ r.hooks, filterOf h.tagFilter = .ok h.filter := by
    rw [← made]
    exact made_after calls
  refine ⟨select_places read whole, ?_, ?_⟩
  · intro host config scope context world state
    exact host.runHooks_runsInOrder config.hookTimeout context (r.select scope context.tags) world state []
  · intro call
    refine ⟨?_, fun definition asks => HookRegistryCall.on_of_asks asks r, call.refused_of_not_asks r⟩
    intro e next did
    have effect := call.effect r
    rw [did] at effect
    cases effect with
    | refused => rfl

/-- Two hooks in front of every scenario, one in front of smoke tests that is given between them, and one at a
place that does not exist. -/
def mixedCalls : List (HookRegistryCall Nat) := [
  .register (.text "beforeScenario") (.hook 1) (.other .null) { priority := .int 2000 },
  .register (.text "BEFORE_SCENARIO") (.other (.text "@smoke")) (.hook 2) { priority := .int 10 },
  .register (.text "sometimes") (.hook 3) (.other .null) {},
  .register (.text "before_scenario") (.hook 4) (.other .null) { priority := .int 10 }]

/-- The registry that these calls make. -/
def mixed : HookRegistry Nat := ⟨[
  ⟨.beforeScenario, 1, none, none, none, .int 2000, .null⟩,
  ⟨.beforeScenario, 2, some "@smoke", some ⟨"@smoke", .tag "@smoke"⟩, none, .int 10, .null⟩,
  ⟨.beforeScenario, 4, none, none, none, .int 10, .null⟩]⟩

/-- A host on which one hook fails. -/
def failingFourth : Host Unit Nat Unit Unit where
  createWorld := pure (.ok (some ()))
  callHandler _ world _ _ := pure (.idle world)
  callHook hook _ world _ := pure ⟨if hook = 4 then some (.raised "RuntimeError" "no") else none, [], world⟩
  notify _ := pure none

/-- Before a smoke test its hook is run, and then the one behind it, which fails; the hook that was registered
first would be the last and is not run. -/
theorem runs_in_order_to_failure :
    empty.after mixedCalls = mixed ∧ (∀ h ∈ mixed.hooks, ∃ n, h.priority.int? = some n) ∧
    ∃ places turns outcome last,
      SortedPlaces mixed.hooks (fun h => h.scope = .beforeScenario ∧ h.Applies ["@smoke"]) HookDefinition.rank
        places ∧
      places.map (mixed.hooks[·]?) = (mixed.select .beforeScenario ["@smoke"]).map some ∧
      (mixed.select .beforeScenario ["@smoke"]).map HookDefinition.hook = [2, 4, 1] ∧
      failingFourth.RunsInOrder (RunConfig.hookTimeout {}) { scenarioTags := some ["@smoke"] }
        (mixed.select .beforeScenario ["@smoke"]) (some ()) () turns outcome last ∧
      turns.map HookTurn.hook = [2, 4] ∧ outcome.failure = some (.raised "RuntimeError" "no") := by
  have made : empty.after mixedCalls = mixed := rfl
  have whole : ∀ h ∈ mixed.hooks, ∃ n, h.priority.int? = some n := by simp [mixed, Value.int?]
  have order : mixed.select .beforeScenario ["@smoke"] = [
      ⟨.beforeScenario, 2, some "@smoke", some ⟨"@smoke", .tag "@smoke"⟩, none, .int 10, .null⟩,
      ⟨.beforeScenario, 4, none, none, none, .int 10, .null⟩,
      ⟨.beforeScenario, 1, none, none, none, .int 2000, .null⟩] := by
    simp +decide [select, mixed, List.mergeSort]
  obtain ⟨sorted, runs, _⟩ := runs_in_order (η := Unit) (ω := Unit) (σ := Unit) made whole
  obtain ⟨places, atPlaces, selected⟩ := sorted .beforeScenario ["@smoke"]
  obtain ⟨turns, outcome, last, noted, _, inOrder⟩ :=
    runs failingFourth {} .beforeScenario { scenarioTags := some ["@smoke"] } (some ()) ()
  refine ⟨made, whole, places, turns, outcome, last, atPlaces, selected, ?_, inOrder, ?_, ?_⟩
  · rw [order]
    rfl
  all_goals
    simp only [Host.effects, HookContext.tags, order] at noted
    cases noted
    rfl

end HookRegistry

end Gherkin
