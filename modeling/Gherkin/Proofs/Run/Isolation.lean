import Mathlib
import Gherkin.Proofs.Run.Mirror

/-! # Scenarios are isolated

If handlers and hooks depend on nothing but what they are given and the world of their scenario, the results of a
scenario depend on nothing but its place in its feature: they are those of the feature with all other scenarios
removed, whichever scenarios stand beside it (`Gherkin.Runner.run_isolates_scenarios`). Such operations answer an
act in one way only, so the acts of a part of a run determine what comes of it.
-/

namespace Gherkin

/-! ### Lists related item by item -/

section Related

variable {α β γ : Type}

theorem forall₂_comp {first : α → β → Prop} {second : β → γ → Prop} {both : α → γ → Prop}
    (comp : ∀ a b c, first a b → second b c → both a c) {as : List α} {bs : List β} {cs : List γ}
    (left : List.Forall₂ first as bs) (right : List.Forall₂ second bs cs) : List.Forall₂ both as cs := by
  induction left generalizing cs with
  | nil =>
    cases right
    exact .nil
  | cons here _ ih =>
    cases right with
    | cons there rest => exact .cons (comp _ _ _ here there) (ih rest)

theorem exists_forall₂ {relation : α → β → Prop} {as : List α}
    (each : ∀ a ∈ as, ∃ b, relation a b) : ∃ bs, List.Forall₂ relation as bs := by
  induction as with
  | nil => exact ⟨[], .nil⟩
  | cons a rest ih =>
    rw [List.forall_mem_cons] at each
    obtain ⟨⟨b, here⟩, others⟩ := each
    obtain ⟨bs, all⟩ := ih others
    exact ⟨b :: bs, .cons here all⟩

end Related

/-! ### Features with one scenario -/

section PickOne

variable {α β γ : Type} (alone others : α → List α)

/-- The lists in which one member stands as one of the items that `alone` makes of it, and of each other member only
`others` is left. -/
def pickOne : List α → List (List α)
  | [] => []
  | item :: rest => (alone item).map (· :: rest.flatMap others) ++ (pickOne rest).map (others item ++ ·)

variable {alone others}

/-- If nothing comes of the others, what comes of the picked lists is what comes of each item by itself. -/
theorem pickOne_flatMap {f : α → List β} (bare : ∀ item, (others item).flatMap f = [])
    {items : List α} (single : ∀ item ∈ items, (alone item).map f = (f item).map ([·])) :
    (pickOne alone others items).map (·.flatMap f) = (items.flatMap f).map ([·]) := by
  induction items with
  | nil => rfl
  | cons item rest ih =>
    rw [List.forall_mem_cons] at single
    have empty : (rest.flatMap others).flatMap f = [] := by simp [List.flatMap_assoc, bare]
    simp only [pickOne, List.map_append, List.map_map, Function.comp_def, List.flatMap_cons, List.flatMap_append,
      empty, bare, List.append_nil, List.nil_append, ih single.2, single.1]

/-- What is found first is found in the first item or in the rest. -/
theorem findSome?_cons_or {f : α → Option γ} (item : α) (rest : List α) :
    (item :: rest).findSome? f = (f item).or (rest.findSome? f) := by
  cases found : f item <;> simp [found]

/-- What is found first among all items is found first in each of the picked lists, if it is left of the others. -/
theorem findSome?_pickOne {f : α → Option γ} (left : ∀ item, (others item).findSome? f = f item)
    (kept : ∀ item, ∀ picked ∈ alone item, f picked = f item) {items picked : List α}
    (member : picked ∈ pickOne alone others items) : picked.findSome? f = items.findSome? f := by
  have bare (items : List α) : (items.flatMap others).findSome? f = items.findSome? f := by
    induction items with
    | nil => rfl
    | cons item rest ih => rw [List.flatMap_cons, List.findSome?_append, left, ih, findSome?_cons_or]
  induction items generalizing picked with
  | nil => cases member
  | cons item rest ih =>
    rw [findSome?_cons_or]
    obtain here | later := List.mem_append.mp member
    · obtain ⟨single, among, rfl⟩ := List.mem_map.mp here
      rw [findSome?_cons_or, kept item single among, bare]
    · obtain ⟨picked, among, rfl⟩ := List.mem_map.mp later
      rw [List.findSome?_append, left, ih among]

end PickOne

/-- A scenario by itself. -/
def Element.alone : Element → List Element
  | .background _ => []
  | .scenario s => [.scenario s]

/-- What is left of an element without scenarios. -/
def Element.others : Element → List Element
  | .background b => [.background b]
  | .scenario _ => []

/-- The child of a feature with each of its scenarios alone. -/
def Child.alone : Child → List Child
  | .rule r => (pickOne Element.alone Element.others r.children).map fun children =>
      .rule { r with children := children }
  | .element e => e.alone.map .element

/-- What is left of a child of a feature without scenarios. -/
def Child.others : Child → List Child
  | .rule r => [.rule { r with children := r.children.flatMap Element.others }]
  | .element e => e.others.map .element

/-- The feature with each of its scenarios alone, all others being removed, in the order of the document. -/
def Feature.alone (feature : Feature) : List Feature :=
  (pickOne Child.alone Child.others feature.children).map fun children => { feature with children := children }

/-- A feature of a single scenario has the name, the tags and the background of the whole one. -/
theorem Feature.of_mem_alone {feature single : Feature} (member : single ∈ feature.alone) :
    single.name = feature.name ∧ single.tags = feature.tags ∧ single.background? = feature.background? := by
  obtain ⟨children, among, rfl⟩ := List.mem_map.mp member
  refine ⟨rfl, rfl, findSome?_pickOne ?_ ?_ among⟩
  · rintro (r | ⟨b | s⟩) <;> rfl
  · rintro (r | ⟨b | s⟩) picked inside
    · obtain ⟨_, _, rfl⟩ := List.mem_map.mp inside
      rfl
    · cases inside
    · obtain rfl := List.mem_singleton.mp inside
      rfl

/-- A rule of a single scenario has the background of the whole one. -/
theorem Rule.background?_of_mem_pickOne {r : Rule} {children : List Element}
    (member : children ∈ pickOne Element.alone Element.others r.children) :
    children.findSome? Element.background? = r.background? := by
  refine findSome?_pickOne ?_ ?_ member
  · rintro (b | s) <;> rfl
  · rintro (b | s) picked inside
    · cases inside
    · obtain rfl := List.mem_singleton.mp inside
      rfl

/-- The scenarios of a child are placed as each of them alone. -/
theorem Child.placed_alone (background : List Step) (featureTags : List Text) (child : Child) :
    child.alone.map (Child.placed background featureTags) =
      (child.placed background featureTags).map ([·]) := by
  cases child with
  | element element => cases element <;> rfl
  | rule r =>
    let place (s : Scenario) : PlacedScenario :=
      ⟨background ++ firstBackground r.children, featureTags ++ tagNames r.tags ++ tagNames s.tags, s⟩
    let placeElement (element : Element) : List PlacedScenario := element.scenario?.toList.map place
    have placed {children : List Element} (same : children.findSome? Element.background? = r.background?) :
        Child.placed background featureTags (.rule { r with children := children }) =
          children.flatMap placeElement := by
      have scenarios : (children.filterMap Element.scenario?).map place = children.flatMap placeElement := by
        rw [List.filterMap_eq_flatMap_toList, List.map_flatMap]
      have steps : firstBackground children = firstBackground r.children := by
        rw [← r.backgroundSteps, ← Rule.backgroundSteps { r with children := children }]
        exact congrArg Engine.backgroundSteps same
      rw [← scenarios, Child.placed, steps]
      rfl
    have whole : Child.placed background featureTags (.rule r) = r.children.flatMap placeElement := placed rfl
    have picked : (pickOne Element.alone Element.others r.children).map (·.flatMap placeElement) =
        (r.children.flatMap placeElement).map ([·]) := by
      apply pickOne_flatMap
      · rintro (b | s) <;> rfl
      · rintro (b | s) _ <;> rfl
    rw [Child.alone, List.map_map, whole, ← picked]
    exact List.map_congr_left fun children member => placed (Rule.background?_of_mem_pickOne member)

/-- What is kept beside a single scenario places no other scenario. -/
theorem Child.placed_others (background : List Step) (featureTags : List Text) (child : Child) :
    child.others.flatMap (Child.placed background featureTags) = [] := by
  rcases child with r | ⟨b | s⟩
  · have empty (children : List Element) :
        (children.flatMap Element.others).filterMap Element.scenario? = [] := by
      induction children with
      | nil => rfl
      | cons element rest ih =>
        rw [List.flatMap_cons, List.filterMap_append, ih]
        cases element <;> rfl
    simp [Child.others, Child.placed, Rule.scenarios, empty]
  · rfl
  · rfl

/-- A scenario alone stands at the place where it stands among the others. -/
theorem Feature.placed_alone (feature : Feature) :
    feature.alone.map Feature.placed = feature.placed.map ([·]) := by
  let place := Child.placed (firstBackground (feature.children.filterMap Child.element?)) (tagNames feature.tags)
  have picked : (pickOne Child.alone Child.others feature.children).map (·.flatMap place) =
      (feature.children.flatMap place).map ([·]) :=
    pickOne_flatMap (Child.placed_others _ _) fun child _ => child.placed_alone _ _
  rw [Feature.placed, ← picked, Feature.alone, List.map_map]
  refine List.map_congr_left fun children member => ?_
  obtain ⟨_, _, same⟩ := Feature.of_mem_alone (List.mem_map_of_mem (f := fun children : List Child =>
    { feature with children := children }) member)
  rw [Function.comp, Feature.placed, ← Feature.backgroundSteps, same, Feature.backgroundSteps]

/-- Whether a feature has the name and tags of another, and one scenario, at a place of that one. -/
def Feature.Singles (feature : Feature) (placed : PlacedScenario) (single : Feature) : Prop :=
  single.name = feature.name ∧ single.tags = feature.tags ∧ single.placed = [placed]

/-- The features of single scenarios are there for each placed scenario in turn. -/
theorem Feature.alone_singles (feature : Feature) :
    List.Forall₂ feature.Singles feature.placed feature.alone := by
  have stand : List.Forall₂ (fun single placed => single.placed = [placed]) feature.alone feature.placed := by
    rw [← List.forall₂_map_right_iff (f := fun placed : PlacedScenario => [placed]),
      ← List.forall₂_map_left_iff (f := Feature.placed), feature.placed_alone, List.forall₂_eq_eq_eq]
  have named : ∀ single ∈ feature.alone, single.name = feature.name ∧ single.tags = feature.tags :=
    fun single member => ⟨(Feature.of_mem_alone member).1, (Feature.of_mem_alone member).2.1⟩
  exact ((List.forall₂_and_left _ _).mpr ⟨named, stand⟩).flip.imp fun _ _ ⟨⟨name, tags⟩, placed⟩ =>
    ⟨name, tags, placed⟩

/-! ### Operations without a memory -/

variable {η θ ω σ : Type}

/-- Whether answers depend only on what is asked, and not on the state. -/
structure Effects.Stateless (effects : Effects η ω σ) : Prop where
  world : ∀ state other, (effects.createWorld.run state).1 = (effects.createWorld.run other).1
  hooks : ∀ scope context world state other,
    ((effects.runHooks scope context world).run state).1 = ((effects.runHooks scope context world).run other).1
  handler : ∀ handler world arguments deadline state other,
    ((effects.callHandler handler world arguments deadline).run state).1 =
      ((effects.callHandler handler world arguments deadline).run other).1

/-- Whether new worlds are all the same, and what handlers and hooks come to depends only on what they are given,
which includes the world of their scenario. -/
structure Host.Isolated (host : Host η θ ω σ) : Prop where
  world : ∃ fresh, ∀ state, (host.createWorld.run state).1 = .ok (some fresh)
  handler : ∀ handler world arguments deadline state other,
    ((host.callHandler handler world arguments deadline).run state).1 =
      ((host.callHandler handler world arguments deadline).run other).1
  hook : ∀ hook context world deadline state other,
    ((host.callHook hook context world deadline).run state).1 =
      ((host.callHook hook context world deadline).run other).1

/-- Hooks that depend only on what they are given do so in turn. -/
theorem Host.Isolated.runHooks {host : Host η θ ω σ} (isolated : host.Isolated) (default : Value)
    (context : HookContext) (hooks : List (HookDefinition θ)) (world : Option ω) (state other : σ) :
    ((host.runHooks default context hooks world).run state).1 =
      ((host.runHooks default context hooks world).run other).1 := by
  induction hooks generalizing world state other with
  | nil => rfl
  | cons h rest ih =>
    have first := isolated.hook h.hook context world (h.deadline default) state other
    rw [Host.runHooks, StateT.run_bind, StateT.run_bind]
    generalize (host.callHook h.hook context world (h.deadline default)).run state = here at first ⊢
    generalize (host.callHook h.hook context world (h.deadline default)).run other = there at first ⊢
    obtain ⟨call, next⟩ := here
    obtain ⟨_, later⟩ := there
    obtain rfl : call = _ := first
    cases failed : call.failure with
    | some failure => simp only [bind, failed]; rfl
    | none =>
      simp only [bind, failed]
      exact congrArg (fun others : Call ω => { others with outputs := call.outputs ++ others.outputs })
        (ih call.world next later)

/-- With an isolated host, the operations of a run do not depend on its state. -/
theorem Host.Isolated.effects {host : Host η θ ω σ} (isolated : host.Isolated) (hooks : HookRegistry θ)
    (config : RunConfig) : (host.effects hooks config).Stateless where
  world state other := by
    obtain ⟨fresh, made⟩ := isolated.world
    exact (made state).trans (made other).symm
  hooks _ _ _ := isolated.runHooks _ _ _ _
  handler := isolated.handler

namespace Effects.Stateless

variable {effects : Effects η ω σ} (stateless : effects.Stateless)
include stateless

theorem world_unique {first second : Except Failure (Option ω)} (gives : effects.Gives (.world first))
    (other : effects.Gives (.world second)) : first = second := by
  obtain ⟨state, rfl⟩ := gives
  obtain ⟨later, rfl⟩ := other
  exact stateless.world state later

theorem hooks_unique {scope : HookScope} {context : HookContext} {world : Option ω} {first second : Call ω}
    (gives : effects.Gives (.hooks scope context world first))
    (other : effects.Gives (.hooks scope context world second)) : first = second := by
  obtain ⟨state, rfl⟩ := gives
  obtain ⟨later, rfl⟩ := other
  exact stateless.hooks scope context world state later

/-- A handler comes to one call with the same arguments. -/
theorem handler_unique {handler : η} {world : Option ω} {arguments : List Argument} {deadline : Deadline}
    {first second : Call ω} (gives : effects.Gives (.handler handler world arguments deadline first))
    (other : effects.Gives (.handler handler world arguments deadline second)) : first = second := by
  obtain ⟨state, rfl⟩ := gives
  obtain ⟨later, rfl⟩ := other
  exact stateless.handler handler world arguments deadline state later

end Effects.Stateless

/-! ### What comes of acts is determined -/

namespace Engine

variable {e : Engine η ω σ}

section Unique

variable (stateless : e.effects.Stateless)
include stateless

/-- A step that is executed again comes to the same invocation. -/
theorem ExecuteActs.unique {tags : List Text} {step : Step} {type : StepType} {before : Call ω}
    {acts more : List (Act η ω)} {invocation other : Invocation ω}
    (did : e.ExecuteActs tags step type before acts invocation) (gives : ∀ act ∈ acts, e.effects.Gives act)
    (again : e.ExecuteActs tags step type before more other) (givesMore : ∀ act ∈ more, e.effects.Gives act) :
    invocation = other := by
  cases did with
  | hooksFailed failed =>
    cases again with
    | hooksFailed same =>
      cases failed.symm.trans same
      rfl
    | undefined passed | called passed => cases failed.symm.trans passed
  | undefined passed unmatched limited suggested =>
    cases again with
    | hooksFailed failed => cases failed.symm.trans passed
    | undefined _ _ alike same =>
      cases limited.symm.trans alike
      rw [suggested, same]
    | called _ matched => cases unmatched.symm.trans matched
  | called passed matched =>
    cases again with
    | hooksFailed failed => cases failed.symm.trans passed
    | undefined _ unmatched => cases matched.symm.trans unmatched
    | called _ same =>
      cases matched.symm.trans same
      rw [stateless.handler_unique (gives _ List.mem_cons_self) (givesMore _ List.mem_cons_self)]

/-- A step that is run again has the same result and leaves the same scene. -/
theorem StepActs.unique {tags : List Text} {scene : Scene ω} {step : Step} {type : StepType}
    {acts more : List (Act η ω)} {outcome other : StepResult × Scene ω}
    (did : e.StepActs tags scene step type acts outcome) (gives : ∀ act ∈ acts, e.effects.Gives act)
    (again : e.StepActs tags scene step type more other) (givesMore : ∀ act ∈ more, e.effects.Gives act) :
    outcome = other := by
  obtain ⟨executed, rfl, rfl⟩ := did
  obtain ⟨executedAgain, rfl, rfl⟩ := again
  simp only [List.forall_mem_append, List.forall_mem_cons] at gives givesMore
  obtain ⟨⟨⟨_, before, _⟩, middle⟩, after, _⟩ := gives
  obtain ⟨⟨⟨_, beforeAgain, _⟩, middleAgain⟩, afterAgain, _⟩ := givesMore
  obtain rfl := stateless.hooks_unique before beforeAgain
  obtain rfl := executed.unique stateless middle executedAgain middleAgain
  obtain rfl := stateless.hooks_unique after afterAgain
  rfl

/-- Steps that are run again have the same results, by induction on the steps. -/
theorem StepsActs.unique {tags : List Text} {halted : Bool} {scene : Scene ω} {items : List (Step × StepType)}
    {acts more : List (Act η ω)} {outcome other : List StepResult × Scene ω}
    (did : e.StepsActs tags halted scene items acts outcome) (gives : ∀ act ∈ acts, e.effects.Gives act)
    (again : e.StepsActs tags halted scene items more other) (givesMore : ∀ act ∈ more, e.effects.Gives act) :
    outcome = other := by
  induction did generalizing more other with
  | nil =>
    cases again
    rfl
  | skipped _ ih =>
    cases again with
    | skipped others =>
      cases ih gives others givesMore
      rfl
  | run first _ _ ih =>
    cases again with
    | run firstAgain _ others =>
      rw [List.forall_mem_append] at gives givesMore
      cases first.unique stateless gives.1 firstAgain givesMore.1
      cases ih gives.2 others givesMore.2
      rfl

theorem EnterActs.unique {context : HookContext} {acts more : List (Act η ω)}
    {outcome other : Option Failure × Option ω} (entered : EnterActs context acts outcome)
    (gives : ∀ act ∈ acts, e.effects.Gives act) (again : EnterActs context more other)
    (givesMore : ∀ act ∈ more, e.effects.Gives act) : outcome = other := by
  cases entered with
  | noWorld =>
    cases again with
    | noWorld =>
      cases stateless.world_unique (gives _ List.mem_cons_self) (givesMore _ List.mem_cons_self)
      rfl
    | entered => cases stateless.world_unique (gives _ List.mem_cons_self) (givesMore _ List.mem_cons_self)
  | entered =>
    cases again with
    | noWorld => cases stateless.world_unique (gives _ List.mem_cons_self) (givesMore _ List.mem_cons_self)
    | entered =>
      cases stateless.world_unique (gives _ List.mem_cons_self) (givesMore _ List.mem_cons_self)
      rw [List.forall_mem_cons, List.forall_mem_singleton] at gives givesMore
      rw [stateless.hooks_unique gives.2 givesMore.2]

/-- A scenario that is run again has the same result. -/
theorem ScenarioActs.unique {featureName : Text} {background : List Step} {tags : List Text}
    {row : Option ExampleRow} {scenario : Scenario} {acts more : List (Act η ω)} {result other : ScenarioResult}
    (did : e.ScenarioActs featureName background tags row scenario acts result)
    (gives : ∀ act ∈ acts, e.effects.Gives act)
    (again : e.ScenarioActs featureName background tags row scenario more other)
    (givesMore : ∀ act ∈ more, e.effects.Gives act) : result = other := by
  obtain ⟨entered, ran, rfl, rfl⟩ := did
  obtain ⟨enteredAgain, ranAgain, rfl, rfl⟩ := again
  simp only [List.forall_mem_append, List.forall_mem_cons] at gives givesMore
  obtain ⟨⟨⟨_, entry⟩, middle⟩, after, _⟩ := gives
  obtain ⟨⟨⟨_, entryAgain⟩, middleAgain⟩, afterAgain, _⟩ := givesMore
  cases entered.unique stateless entry enteredAgain entryAgain
  cases ran.unique stateless middle ranAgain middleAgain
  cases stateless.hooks_unique after afterAgain
  rfl

theorem PlanActs.unique {featureName : Text} {plan : List Planned} {acts more : List (Act η ω)}
    {results others : List ScenarioResult} (did : e.PlanActs featureName plan acts results)
    (gives : ∀ act ∈ acts, e.effects.Gives act) (again : e.PlanActs featureName plan more others)
    (givesMore : ∀ act ∈ more, e.effects.Gives act) : results = others := by
  induction did generalizing more others with
  | nil =>
    cases again
    rfl
  | skipped _ ih =>
    cases again with
    | skipped later => rw [ih gives later givesMore]
  | last first stops =>
    cases again with
    | last firstAgain _ => rw [first.unique stateless gives firstAgain givesMore]
    | executed firstAgain goesOn _ =>
      rw [List.forall_mem_append] at givesMore
      rw [first.unique stateless gives firstAgain givesMore.1, goesOn] at stops
      cases stops
  | executed first goesOn _ ih =>
    rw [List.forall_mem_append] at gives
    cases again with
    | last firstAgain stops =>
      rw [first.unique stateless gives.1 firstAgain givesMore, stops] at goesOn
      cases goesOn
    | executed firstAgain _ later =>
      rw [List.forall_mem_append] at givesMore
      rw [first.unique stateless gives.1 firstAgain givesMore.1, ih gives.2 later givesMore.2]

end Unique

/-! ### What comes of a scenario -/

variable (e) in
/-- What can come of a scenario at its place in a feature. It is passed over if the hooks in front of the feature
fail. -/
inductive Comes (feature : Feature) (placed : PlacedScenario) : List ScenarioResult → Prop
  | skipped {before : Call ω} (failed : before.failure ≠ none)
      (gives : e.effects.Gives (.hooks .beforeFeature (featureContext feature) none before)) :
      Comes feature placed [skippedScenario placed.tags placed.scenario]
  | planned {before : Call ω} {acts : List (Act η ω)} {results : List ScenarioResult}
      (passed : before.failure = none)
      (gives : e.effects.Gives (.hooks .beforeFeature (featureContext feature) none before))
      (did : e.PlanActs feature.name (e.planPlaced placed) acts results)
      (inner : ∀ act ∈ acts, e.effects.Gives act) : Comes feature placed results

/-- One thing comes of a scenario. -/
theorem Comes.unique (stateless : e.effects.Stateless) {feature : Feature} {placed : PlacedScenario}
    {results others : List ScenarioResult} (first : e.Comes feature placed results)
    (second : e.Comes feature placed others) : results = others := by
  cases first with
  | skipped failed gives =>
    cases second with
    | skipped => rfl
    | planned passed same =>
      rw [stateless.hooks_unique gives same] at failed
      exact absurd passed failed
  | planned passed gives did inner =>
    cases second with
    | skipped failed same =>
      rw [stateless.hooks_unique gives same] at passed
      exact absurd passed failed
    | planned _ _ again innerAgain => exact did.unique stateless inner again innerAgain

/-- What comes of a scenario does not depend on what else its feature holds. -/
theorem Comes.congr {feature other : Feature} {placed : PlacedScenario} {results : List ScenarioResult}
    (comes : e.Comes feature placed results) (name : feature.name = other.name)
    (tags : tagNames feature.tags = tagNames other.tags) : e.Comes other placed results := by
  have context : featureContext feature = featureContext other := by rw [featureContext, name, tags, featureContext]
  cases comes with
  | skipped failed gives =>
    rw [context] at gives
    exact .skipped failed gives
  | planned passed gives did inner =>
    rw [context] at gives
    rw [name] at did
    exact .planned passed gives did inner

variable (e) in
/-- Whether a feature result has, for each scenario of the feature in turn, what can come of it. -/
def Collects (feature : Feature) (result : FeatureResult) : Prop :=
  ∃ parts, result.scenarios = parts.flatten ∧ List.Forall₂ (e.Comes feature) feature.placed parts

/-- A feature that is not cut short collects what comes of each scenario. -/
theorem FeatureActs.collects {feature : Feature} {uri : Option Text} {acts : List (Act η ω)}
    {result : FeatureResult} (patient : e.failsFast = false) (did : e.FeatureActs feature uri acts result)
    (gives : ∀ act ∈ acts, e.effects.Gives act) : e.Collects feature result := by
  obtain ⟨ran, rfl⟩ := did
  rename_i before after middle scenarios
  simp only [List.forall_mem_append, List.forall_mem_cons] at gives
  obtain ⟨⟨⟨_, first, _⟩, inner⟩, -⟩ := gives
  cases passed : before.failure with
  | some failure =>
    rw [passed] at ran
    cases ran
    refine ⟨feature.placed.map fun placed => [skippedScenario placed.tags placed.scenario], ?_, ?_⟩
    · exact (skippedFeature_eq feature).trans (List.map_eq_flatMap.trans List.flatMap_def)
    · rw [List.forall₂_map_right_iff, List.forall₂_same]
      exact fun placed _ => .skipped (by simp [passed]) first
  | none =>
    rw [passed] at ran
    cases ran with
    | planned ran =>
      obtain ⟨parts, rfl, rfl, done⟩ := ran.parts patient
      refine ⟨parts.map Prod.snd, List.flatMap_def .., List.forall₂_map_right_iff.mpr ?_⟩
      clear ran
      generalize feature.placed = all at done
      induction done with
      | nil => exact .nil
      | cons did _ ih =>
        rw [List.flatMap_cons, List.forall_mem_append] at inner
        exact .cons (.planned passed first did inner.1) (ih inner.2)

theorem FeaturesActs.collects {features : List (Feature × Option Text)} {acts : List (Act η ω)}
    {results : List FeatureResult} (patient : e.failsFast = false) (did : e.FeaturesActs features acts results)
    (gives : ∀ act ∈ acts, e.effects.Gives act) :
    List.Forall₂ (fun item result => e.Collects item.1 result) features results := by
  induction did with
  | nil => exact .nil
  | last _ stops => simp [endsWith, patient] at stops
  | next first _ _ ih =>
    rw [List.forall_mem_append] at gives
    exact .cons (first.collects patient gives.1) (ih gives.2)

variable (e) in
/-- What a run collects: nothing if the hooks in front of it fail, and otherwise the results of each feature. -/
inductive RunCollects (documents : List Document) (results : List FeatureResult) : Prop
  | hooksFailed {before : Call ω} (failed : before.failure ≠ none)
      (gives : e.effects.Gives (.hooks .beforeAll {} none before)) (empty : results = []) :
      RunCollects documents results
  | ran {before : Call ω} (passed : before.failure = none)
      (gives : e.effects.Gives (.hooks .beforeAll {} none before))
      (features : List.Forall₂ (fun item result => e.Collects item.1 result) (featuresOf documents) results) :
      RunCollects documents results

theorem RunActs.collects {documents : List Document} {acts : List (Act η ω)} {result : RunResult}
    (patient : e.failsFast = false) (did : e.RunActs documents acts result)
    (gives : ∀ act ∈ acts, e.effects.Gives act) : e.RunCollects documents result.features := by
  obtain ⟨ran, rfl⟩ := did
  rename_i before after middle features
  simp only [List.forall_mem_append, List.forall_mem_cons] at gives
  obtain ⟨⟨⟨first, _⟩, inner⟩, -⟩ := gives
  cases passed : before.failure with
  | some failure =>
    rw [passed] at ran
    cases ran
    exact .hooksFailed (by simp [passed]) first rfl
  | none =>
    rw [passed] at ran
    cases ran with
    | ran features => exact .ran passed first (features.collects patient inner)

/-- If a run has results, every run collects results of its features. -/
theorem RunCollects.ran_of {documents others : List Document} {results more : List FeatureResult}
    (stateless : e.effects.Stateless) (first : e.RunCollects documents results) (occupied : results ≠ [])
    (second : e.RunCollects others more) :
    List.Forall₂ (fun item result => e.Collects item.1 result) (featuresOf others) more := by
  cases first with
  | hooksFailed _ _ empty => exact absurd empty occupied
  | ran passed gives =>
    cases second with
    | hooksFailed failed same =>
      rw [stateless.hooks_unique gives same] at passed
      exact absurd passed failed
    | ran _ _ features => exact features

/-- From a run of a feature with one scenario comes what can come of that scenario among others. -/
theorem Collects.comes {feature single : Feature} {placed : PlacedScenario} {result : FeatureResult}
    (singles : feature.Singles placed single) (collected : e.Collects single result) :
    e.Comes feature placed result.scenarios := by
  obtain ⟨name, tags, only⟩ := singles
  obtain ⟨parts, flattened, comes⟩ := collected
  rw [only] at comes
  cases comes with
  | cons here others =>
    cases others
    rw [flattened, List.flatten_singleton]
    exact here.congr name (by rw [tags])

/-- What is collected from a document of a single scenario comes of that scenario. -/
theorem Collects.comes_all {feature single : Feature} {placed : PlacedScenario} {document : Document}
    {results : List FeatureResult} (singles : feature.Singles placed single)
    (holds : document.feature = some single)
    (collected : List.Forall₂ (fun item result => e.Collects item.1 result) (featuresOf [document]) results) :
    e.Comes feature placed (results.flatMap FeatureResult.scenarios) := by
  have only : featuresOf [document] = [(single, document.uri)] := by simp [featuresOf, holds]
  rw [only] at collected
  cases collected with
  | cons here rest =>
    cases rest
    rw [List.flatMap_singleton]
    exact here.comes singles

variable (e) in
/-- What comes of a scenario, by the name and the tags of its feature and its place in it. -/
noncomputable def own (name : Text) (tags : List Text) (placed : PlacedScenario) : List ScenarioResult :=
  Classical.epsilon fun results => ∃ feature : Feature, feature.name = name ∧ tagNames feature.tags = tags ∧
    e.Comes feature placed results

/-- What comes of a scenario is known from the scenario and what it is placed under. -/
theorem Comes.own_eq (stateless : e.effects.Stateless) {feature : Feature} {placed : PlacedScenario}
    {results : List ScenarioResult} (comes : e.Comes feature placed results) :
    e.own feature.name (tagNames feature.tags) placed = results := by
  have possible : ∃ results, ∃ other : Feature, other.name = feature.name ∧
      tagNames other.tags = tagNames feature.tags ∧ e.Comes other placed results :=
    ⟨results, feature, rfl, rfl, comes⟩
  obtain ⟨other, name, tags, others⟩ := Classical.epsilon_spec possible
  exact (others.congr name tags).unique stateless comes

end Engine

/-! ### Runners -/

namespace Runner

/-- Whether a run of some documents, from some state, gives a result. -/
def Gives (r : Runner η θ) (host : Host η θ ω σ) (documents : List Document) (result : RunResult) : Prop :=
  ∃ state, ((r.run host documents).run state).1.1 = .ok result

theorem Gives.collects {r : Runner η θ} {host : Host η θ ω σ} {documents : List Document} {result : RunResult}
    (patient : r.config.failFast.isTrue = false) (given : r.Gives host documents result) :
    (r.engine host).RunCollects documents result.features := by
  obtain ⟨state, returned⟩ := given
  obtain ⟨acts, _, _, gives, did⟩ := r.run_gives host returned
  exact Engine.RunActs.collects patient did gives

/-- In runs that do not end with the first failure, with handlers and hooks that depend only on what they are
given, the results of a feature are those of its scenarios alone, in order; and what comes of a scenario depends on
its place in a feature with some name and tags, and on nothing that stands beside it. -/
theorem run_isolates_scenarios (r : Runner η θ) (host : Host η θ ω σ)
    (patient : r.config.failFast.isTrue = false) (isolated : host.Isolated) :
    (∀ documents result, r.Gives host documents result →
      ∀ (index : Nat) feature uri whole, (Engine.featuresOf documents)[index]? = some (feature, uri) →
        result.features[index]? = some whole →
        ∀ runs, List.Forall₂ (fun single run => ∃ document : Document, document.feature = some single ∧
          r.Gives host [document] run) feature.alone runs →
        whole.scenarios = runs.flatMap fun run => run.features.flatMap FeatureResult.scenarios) ∧
    (∃ own : Text → List Text → PlacedScenario → List ScenarioResult,
      ∀ documents result, r.Gives host documents result →
        ∀ (index : Nat) feature uri whole, (Engine.featuresOf documents)[index]? = some (feature, uri) →
          result.features[index]? = some whole →
          whole.scenarios = feature.placed.flatMap (own feature.name (tagNames feature.tags))) ∧
    ∀ feature : Feature, List.Forall₂ feature.Singles feature.placed feature.alone := by
  have stateless : (r.engine host).effects.Stateless := isolated.effects r.hooks r.config
  have occupied {features : List FeatureResult} {index : Nat} {whole : FeatureResult}
      (found : features[index]? = some whole) : features ≠ [] := by
    rintro rfl
    cases found
  -- Every run that gives results collects those of the feature at the index.
  have collected {documents : List Document} {result : RunResult} (given : r.Gives host documents result)
      {index : Nat} {feature : Feature} {uri : Option Text} {whole : FeatureResult}
      (item : (Engine.featuresOf documents)[index]? = some (feature, uri))
      (found : result.features[index]? = some whole) : (r.engine host).Collects feature whole := by
    have collects := given.collects patient
    have all := collects.ran_of stateless (occupied found) collects
    obtain ⟨before, item⟩ := List.getElem?_eq_some_iff.mp item
    obtain ⟨after, rfl⟩ := List.getElem?_eq_some_iff.mp found
    have here := all.get before after
    rwa [List.get_eq_getElem, List.get_eq_getElem, item] at here
  refine ⟨?_, ⟨(r.engine host).own, ?_⟩, Feature.alone_singles⟩
  · intro documents result given index feature uri whole item found runs alone
    obtain ⟨parts, flattened, comes⟩ := collected given item found
    have others : List.Forall₂ ((r.engine host).Comes feature) feature.placed
        (runs.map fun run => run.features.flatMap FeatureResult.scenarios) := by
      rw [List.forall₂_map_right_iff]
      refine forall₂_comp ?_ feature.alone_singles alone
      rintro placed single run singles ⟨document, holds, givenAlone⟩
      exact Engine.Collects.comes_all singles holds
        ((given.collects patient).ran_of stateless (occupied found) (givenAlone.collects patient))
    rw [flattened, List.flatMap_def]
    exact congrArg List.flatten (List.right_unique_forall₂' (fun _ _ _ first second =>
      first.unique stateless second) comes others)
  · intro documents result given index feature uri whole item found
    obtain ⟨parts, flattened, comes⟩ := collected given item found
    have parts_eq : parts = feature.placed.map ((r.engine host).own feature.name (tagNames feature.tags)) := by
      rw [← List.forall₂_eq_eq_eq, List.forall₂_map_right_iff]
      exact comes.flip.imp fun _ _ comes => (comes.own_eq stateless).symm
    rw [flattened, parts_eq, List.flatMap_def]

/-- The host whose worlds count calls, and on which every call of a handler but the first in a world fails. -/
def tallying : Host Unit Unit Nat Unit where
  createWorld := pure (.ok (some 0))
  callHandler _ world _ _ :=
    pure ⟨if world = some 0 then none else some (.raised "AssertionError" ""), [], world.map (· + 1)⟩
  callHook _ _ world _ := pure (.idle world)
  notify _ := pure none

theorem tallying_isolated : tallying.Isolated where
  world := ⟨0, fun _ => rfl⟩
  handler _ _ _ _ _ _ := rfl
  hook _ _ _ _ _ _ := rfl

/-- That the first scenario fails is no matter to the second, alone or behind it. -/
theorem run_isolates_tallies :
    ∃ (steps : StepRegistry Unit) (runner : Runner Unit Unit) (result : RunResult) (runs : List RunResult),
      repeatingSteps = .ok steps ∧ runner = plain steps ∧
      runner.config.failFast.isTrue = false ∧ tallying.Isolated ∧
      runner.Gives tallying [documentOnly repeatingFeature] result ∧
      List.Forall₂ (fun single run => runner.Gives tallying [documentOnly single] run) repeatingFeature.alone runs ∧
      (result.features.flatMap FeatureResult.scenarios).map ScenarioResult.status = [.failed, .passed] ∧
      result.features.flatMap FeatureResult.scenarios =
        runs.flatMap fun run => run.features.flatMap FeatureResult.scenarios := by
  have shape : (repeatingSteps.toOption.any fun steps =>
      (((plain steps).outcome tallying [documentOnly repeatingFeature] ()).toOption.any fun result =>
        result.features.length == 1 &&
          (result.features.flatMap FeatureResult.scenarios).map ScenarioResult.status == [.failed, .passed]) &&
      repeatingFeature.alone.all fun single =>
        ((plain steps).outcome tallying [documentOnly single] ()).toOption.any fun _ => true) = true := by
    decide +kernel
  obtain ⟨steps, built, shape⟩ := exists_of_toOption_any shape
  rw [Bool.and_eq_true, List.all_eq_true] at shape
  obtain ⟨result, returned, whole⟩ := exists_of_toOption_any shape.1
  rw [Bool.and_eq_true, beq_iff_eq, beq_iff_eq] at whole
  obtain ⟨feature, features⟩ := List.length_eq_one_iff.mp whole.1
  obtain ⟨runs, ran⟩ : ∃ runs, List.Forall₂ (fun single run =>
      (plain steps).outcome tallying [documentOnly single] () = .ok run) repeatingFeature.alone runs := by
    apply exists_forall₂
    intro single member
    obtain ⟨run, returned, _⟩ := exists_of_toOption_any (shape.2 single member)
    exact ⟨run, returned⟩
  have patient : (plain steps : Runner Unit Unit).config.failFast.isTrue = false := rfl
  have isolates := (run_isolates_scenarios (plain steps) tallying patient tallying_isolated).1
    [documentOnly repeatingFeature] result ⟨(), returned⟩ 0 repeatingFeature none feature rfl
    (by rw [features]; rfl) runs (ran.imp fun single run returned => ⟨documentOnly single, rfl, (), returned⟩)
  refine ⟨steps, _, result, runs, built, rfl, patient, tallying_isolated, ⟨(), returned⟩,
    ran.imp fun _ _ returned => ⟨(), returned⟩, whole.2, ?_⟩
  rw [features, List.flatMap_singleton, isolates]

end Runner

end Gherkin
