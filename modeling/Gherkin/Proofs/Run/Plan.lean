import Gherkin.Run.Engine

/-! # The plan of a feature

A feature is run scenario by scenario, through rules and outlines. Its plan is the flat list of what
comes of them: a scenario that is passed over, or a scenario or row that is executed with the steps of
its backgrounds and its effective tags. Running a feature is running its plan up to the first result
after which the run ends (`Gherkin.Engine.runScenarios_eq_runPlan`).
-/

namespace Gherkin

/-- A scenario at its place in a feature: the background steps in front of it, and its effective tags. -/
structure PlacedScenario where
  background : List Step
  tags : List Text
  scenario : Scenario

/-- What a run makes of a scenario, or of a row of an outline. -/
inductive Planned where
  | skipped (tags : List Text) (scenario : Scenario)
  | executed (background : List Step) (tags : List Text) (row : Option ExampleRow) (scenario : Scenario)

/-- A row of an outline that is executed. -/
def Planned.ofRow (background : List Step) : List Text × ExampleRow × Scenario → Planned
  | (tags, row, scenario) => .executed background tags (some row) scenario

/-- The steps of the first background among the children of a rule. -/
def firstBackground : List Element → List Step
  | [] => []
  | .background background :: _ => background.steps
  | .scenario _ :: rest => firstBackground rest

/-- The scenarios of a child of a feature at their places. Behind the steps of the background of the feature
come those of the background of the rule. -/
def Child.placed (background : List Step) (featureTags : List Text) : Child → List PlacedScenario
  | .element (.background _) => []
  | .element (.scenario scenario) => [⟨background, featureTags ++ tagNames scenario.tags, scenario⟩]
  | .rule r => r.scenarios.map fun scenario =>
      ⟨background ++ firstBackground r.children,
        featureTags ++ tagNames r.tags ++ tagNames scenario.tags, scenario⟩

/-- The children of a feature that stand in no rule. -/
def Child.element? : Child → Option Element
  | .element e => some e
  | .rule _ => none

/-- The scenarios of a feature at their places, in the order of the document. -/
def Feature.placed (feature : Feature) : List PlacedScenario :=
  feature.children.flatMap
    (Child.placed (firstBackground (feature.children.filterMap Child.element?)) (tagNames feature.tags))

/-- The background of a rule is the first among its children. -/
theorem Rule.backgroundSteps (r : Rule) : Engine.backgroundSteps r.background? = firstBackground r.children := by
  rw [Rule.background?]
  induction r.children with
  | nil => rfl
  | cons element rest ih =>
    cases element with
    | background background => rfl
    | scenario _ => exact ih

/-- The background of a feature is the first among its children that stand in no rule. -/
theorem Feature.backgroundSteps (feature : Feature) :
    Engine.backgroundSteps feature.background? =
      firstBackground (feature.children.filterMap Child.element?) := by
  rw [Feature.background?]
  induction feature.children with
  | nil => rfl
  | cons child rest ih =>
    rcases child with r | ⟨background | scenario⟩
    · exact ih
    · rfl
    · exact ih

theorem Child.placed_scenario (background : List Step) (featureTags : List Text) (child : Child) :
    (child.placed background featureTags).map PlacedScenario.scenario =
      match child with
      | .element e => e.scenario?.toList
      | .rule r => r.scenarios := by
  cases child with
  | rule rule => simp [Child.placed, Function.comp_def]
  | element element => cases element <;> simp [Child.placed, Element.scenario?]

/-- Every scenario of a feature has one place, in the order of the document. -/
theorem Feature.placed_scenario (feature : Feature) :
    feature.placed.map PlacedScenario.scenario = feature.allScenarios := by
  rw [Feature.placed, Feature.allScenarios, List.map_flatMap]
  congr 1
  funext child
  exact child.placed_scenario _ _

namespace Engine

variable {η ω σ α β : Type} (e : Engine η ω σ)

/-- What comes of a scenario at its place. -/
def planPlaced (placed : PlacedScenario) : List Planned :=
  if placed.scenario.examples.isEmpty then
    if e.selects placed.tags then [.executed placed.background placed.tags none placed.scenario]
    else [.skipped placed.tags placed.scenario]
  else
    match e.selectedRows placed.tags placed.scenario with
    | [] => [.skipped placed.tags placed.scenario]
    | row :: rows => (row :: rows).map (.ofRow placed.background)

/-- The plan of a feature. -/
def plan (feature : Feature) : List Planned := feature.placed.flatMap e.planPlaced

/-- Runs what is planned. -/
def runPlanned (featureName : Text) : Planned → Run σ ScenarioResult
  | .skipped tags scenario => pure (skippedScenario tags scenario)
  | .executed background tags row scenario => e.runScenario featureName background tags row scenario

/-- Runs a plan up to the first result after which the run ends. -/
def runPlan (featureName : Text) (plan : List Planned) : Run σ (List ScenarioResult) :=
  e.runUntilStopped (fun planned => do
    let result ← e.runPlanned featureName planned
    pure [result]) plan

/-! ### Running nested lists -/

@[simp] theorem stopsAfter_nil : e.stopsAfter [] = false := by simp [stopsAfter]

theorem stopsAfter_append (first second : List ScenarioResult) :
    e.stopsAfter (first ++ second) = (e.stopsAfter first || e.stopsAfter second) := by
  simp only [stopsAfter, List.any_append, Bool.and_or_distrib_left]

/-- A skipped scenario ends no run. -/
@[simp] theorem stopsAfter_skipped (tags : List Text) (scenario : Scenario) :
    e.stopsAfter [skippedScenario tags scenario] = false := by
  simp [stopsAfter, skippedScenario]

theorem runUntilStopped_append (run : α → Run σ (List ScenarioResult)) (first second : List α) :
    e.runUntilStopped run (first ++ second) =
      e.runUntilStopped run first >>= fun results =>
        if e.stopsAfter results then pure results
        else e.runUntilStopped run second >>= fun others => pure (results ++ others) := by
  induction first with
  | nil => simp [runUntilStopped]
  | cons item rest ih =>
    simp only [List.cons_append, runUntilStopped, ih, bind_assoc]
    congr 1
    funext results
    by_cases stops : e.stopsAfter results = true
    · simp [stops]
    · simp only [stops, Bool.false_eq_true, ↓reduceIte, bind_assoc, pure_bind, stopsAfter_append,
        Bool.false_or]
      congr 1
      funext others
      by_cases ends : e.stopsAfter others = true <;> simp [ends]

theorem runUntilStopped_congr {run other : α → Run σ (List ScenarioResult)} {items : List α}
    (same : ∀ item ∈ items, run item = other item) :
    e.runUntilStopped run items = e.runUntilStopped other items := by
  induction items with
  | nil => rfl
  | cons item rest ih =>
    simp only [runUntilStopped, same item List.mem_cons_self,
      ih fun item member => same item (List.mem_cons_of_mem _ member)]

/-- Running groups one after another is running their members one after another. -/
theorem runUntilStopped_flatMap (run : β → Run σ (List ScenarioResult)) (members : α → List β)
    (items : List α) :
    e.runUntilStopped (fun item => e.runUntilStopped run (members item)) items =
      e.runUntilStopped run (items.flatMap members) := by
  induction items with
  | nil => rfl
  | cons item rest ih => rw [List.flatMap_cons, runUntilStopped_append, ← ih, runUntilStopped]

theorem runUntilStopped_map (run : β → Run σ (List ScenarioResult)) (f : α → β) (items : List α) :
    e.runUntilStopped run (items.map f) = e.runUntilStopped (fun item => run (f item)) items := by
  induction items with
  | nil => rfl
  | cons item rest ih => simp only [List.map_cons, runUntilStopped, ih]

theorem runPlan_singleton (featureName : Text) (planned : Planned) :
    e.runPlan featureName [planned] =
      e.runPlanned featureName planned >>= fun result => pure [result] := by
  simp [runPlan, runUntilStopped]

/-- A plan that is not empty has a result, so what is done about no results does not matter. -/
private theorem map_runPlan_cons (featureName : Text) (planned : Planned) (rest : List Planned)
    (f : List ScenarioResult → List ScenarioResult)
    (same : ∀ results, results ≠ [] → f results = results) :
    f <$> e.runPlan featureName (planned :: rest) = e.runPlan featureName (planned :: rest) := by
  simp only [runPlan, runUntilStopped, map_eq_pure_bind, bind_assoc, pure_bind]
  congr 1
  funext result
  by_cases stops : e.stopsAfter [result] = true <;> simp [stops, same]

/-! ### Features -/

theorem runSelected_eq_runPlan (featureName : Text) (background : List Step) (parentTags : List Text)
    (scenario : Scenario) :
    e.runSelected featureName background parentTags scenario =
      e.runPlan featureName
        (e.planPlaced ⟨background, parentTags ++ tagNames scenario.tags, scenario⟩) := by
  simp only [runSelected, planPlaced]
  by_cases plain : scenario.examples.isEmpty = true
  · by_cases selected : e.selects (parentTags ++ tagNames scenario.tags) = true
    · simp [plain, selected, runPlan_singleton, runPlanned]
    · simp [plain, selected, runPlan_singleton, runPlanned]
  · simp only [plain, Bool.false_eq_true, ↓reduceIte]
    cases rows : e.selectedRows (parentTags ++ tagNames scenario.tags) scenario with
    | nil => simp [runUntilStopped, runPlan_singleton, runPlanned]
    | cons row rest =>
      have mapped : e.runPlan featureName ((row :: rest).map (.ofRow background)) =
          e.runUntilStopped (fun (tags, row, scenario) => do
            let result ← e.runScenario featureName background tags (some row) scenario
            pure [result]) (row :: rest) := by
        rw [runPlan, runUntilStopped_map]
        rfl
      rw [← mapped, ← map_eq_pure_bind]
      apply e.map_runPlan_cons
      intro results some
      simp [some]

theorem runChild_eq_runPlan (featureName : Text) (featureTags : List Text) (background : List Step)
    (child : Child) :
    e.runChild featureName featureTags background child =
      e.runPlan featureName ((child.placed background featureTags).flatMap e.planPlaced) := by
  cases child with
  | rule rule =>
    simp only [runChild, Child.placed, List.flatMap_map, rule.backgroundSteps]
    rw [runPlan, ← runUntilStopped_flatMap]
    apply runUntilStopped_congr
    intro scenario _
    exact e.runSelected_eq_runPlan featureName _ _ scenario
  | element element =>
    cases element with
    | background _ => simp [runChild, Child.placed, runPlan, runUntilStopped]
    | scenario scenario =>
      simp only [runChild, Child.placed, List.flatMap_cons, List.flatMap_nil, List.append_nil]
      exact e.runSelected_eq_runPlan featureName background featureTags scenario

/-- Running the scenarios of a feature is running its plan. -/
theorem runScenarios_eq_runPlan (feature : Feature) :
    e.runScenarios none feature = e.runPlan feature.name (e.plan feature) := by
  simp only [runScenarios, plan, Feature.placed, List.flatMap_assoc, feature.backgroundSteps]
  rw [runPlan, ← runUntilStopped_flatMap]
  apply runUntilStopped_congr
  intro child _
  exact e.runChild_eq_runPlan feature.name _ _ child

/-- A feature that does not run has one skipped result for each scenario, with its effective tags. -/
theorem skippedFeature_eq (feature : Feature) :
    skippedFeature feature =
      feature.placed.map fun placed => skippedScenario placed.tags placed.scenario := by
  simp only [skippedFeature, Feature.placed, List.map_flatMap]
  congr 1
  funext child
  cases child with
  | rule rule => simp [taggedScenarios, Child.placed]
  | element element => cases element <;> simp [taggedScenarios, Child.placed]

end Engine

end Gherkin
