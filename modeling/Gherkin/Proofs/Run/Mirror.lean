import Mathlib.Data.List.Forall2
import Gherkin.Proofs.Run.Returning

/-! # Results mirror documents

A run that does not end with the first failure gives a result for every feature of its documents and, in
it, for every scenario of the feature: one if the scenario is executed or passed over, and one for each
selected row of an outline (`Gherkin.Runner.run_mirrors_documents`). Each result belongs to a part of the
acts of the run. What is selected is said by the filter of the runner alone: there is none, or it holds of the
effective tags.
-/

namespace Gherkin

/-- What a step and its result share: keyword, text and line. -/
def Step.place (step : Step) : Text × Text × Option Nat := (step.keyword, step.text, some step.line)

/-- What a step and its result share: keyword, text and line. -/
def StepResult.place (result : StepResult) : Text × Text × Option Nat :=
  (result.keyword, result.text, result.line)

/-- The features of documents in order, each with what its document is called. -/
def featuresIn : List Document → List (Feature × Option Text)
  | [] => []
  | document :: rest =>
      match document.feature with
      | none => featuresIn rest
      | some feature => (feature, document.uri) :: featuresIn rest

/-- Whether a filter for tags lets something with some tags run: there is no filter, or it holds of the tags. -/
def Selected (filter : Option TagFilter) (tags : List Text) : Prop :=
  filter = none ∨ ∃ f, filter = some f ∧ f.holds tags = true

/-- The result of a scenario that is passed over: it has no steps, and nothing is told of it but where it
stands. -/
structure PassedOver (tags : List Text) (scenario : Scenario) (result : ScenarioResult) : Prop where
  name : result.name = scenario.name
  status : result.status = .skipped
  steps : result.steps = []
  tags : result.tags = tags
  line : result.line = some scenario.line
  index : result.exampleIndex = none
  values : result.exampleValues = none
  hookError : result.hookError = none

/-- The rows that are executed of a block of examples, given the tags of its scenario: none if the block has no
header or its tags are not selected, and otherwise each row of its body, with the effective tags, the place of the
row in the block, and its cells by column name. -/
inductive RowsOf (filter : Option TagFilter) (tags : List Text) (block : Examples) :
    List (List Text × Nat × Record) → Prop
  | headless (header : block.header = none) : RowsOf filter tags block []
  | filtered (unselected : ¬ Selected filter (tags ++ tagNames block.tags)) : RowsOf filter tags block []
  | selected {header : Row} (headed : block.header = some header)
      (selected : Selected filter (tags ++ tagNames block.tags)) :
      RowsOf filter tags block (block.body.zipIdx.map fun (row, index) =>
        (tags ++ tagNames block.tags, index, block.rowValues row))

namespace Engine

variable {η ω σ : Type} (e : Engine η ω σ)

/-- A scenario or row that is executed by some acts, and its result. -/
structure Executes (featureName : Text) (background : List Step) (tags : List Text)
    (row : Option ExampleRow) (scenario : Scenario) (acts : List (Act η ω)) (result : ScenarioResult) :
    Prop where
  did : e.ScenarioActs featureName background tags row scenario acts result
  name : result.name = scenario.name
  tags : result.tags = tags
  line : result.line = some scenario.line
  index : result.exampleIndex = row.map ExampleRow.index
  values : result.exampleValues = row.map ExampleRow.values
  steps : result.steps.map StepResult.place = (background ++ scenario.steps).map Step.place

/-- What a scenario comes to: the acts of a part of a run, and the results of this part. The rows of an outline are
those of its blocks in order. -/
inductive Mirrors (filter : Option TagFilter) (featureName : Text) (placed : PlacedScenario) :
    List (Act η ω) × List ScenarioResult → Prop
  | plain {acts : List (Act η ω)} {result : ScenarioResult} (isPlain : placed.scenario.examples = [])
      (selected : Selected filter placed.tags)
      (executed : e.Executes featureName placed.background placed.tags none placed.scenario acts result) :
      Mirrors filter featureName placed (acts, [result])
  | filtered {result : ScenarioResult} (isPlain : placed.scenario.examples = [])
      (unselected : ¬ Selected filter placed.tags) (passedOver : PassedOver placed.tags placed.scenario result) :
      Mirrors filter featureName placed ([], [result])
  | outline {blocks : List (List (List Text × Nat × Record))} {parts : List (List (Act η ω) × ScenarioResult)}
      (isOutline : placed.scenario.examples ≠ [])
      (rows : List.Forall₂ (RowsOf filter placed.tags) placed.scenario.examples blocks)
      (hasRows : blocks.flatten ≠ [])
      (executed : List.Forall₂ (fun row part => e.Executes featureName placed.background row.1
        (some ⟨row.2.1, row.2.2⟩) (placed.scenario.substitute row.2.2) part.1 part.2) blocks.flatten parts) :
      Mirrors filter featureName placed (parts.flatMap Prod.fst, parts.map Prod.snd)
  | emptied {blocks : List (List (List Text × Nat × Record))} {result : ScenarioResult}
      (isOutline : placed.scenario.examples ≠ [])
      (rows : List.Forall₂ (RowsOf filter placed.tags) placed.scenario.examples blocks)
      (noRows : blocks.flatten = []) (passedOver : PassedOver placed.tags placed.scenario result) :
      Mirrors filter featureName placed ([], [result])

/-- What a feature comes to. If the hooks in front of it fail, every scenario is passed over. -/
inductive MirrorsFeature (filter : Option TagFilter) (feature : Feature) (uri : Option Text) :
    List (Act η ω) × FeatureResult → Prop
  | intro {before after : Call ω} {middle : List (Act η ω)} {result : FeatureResult}
      (name : result.name = feature.name) (tags : result.tags = tagNames feature.tags)
      (source : result.uri = uri)
      (skipped : before.failure ≠ none → middle = [] ∧
        List.Forall₂ (fun placed => PassedOver placed.tags placed.scenario) feature.placed result.scenarios)
      (mirrored : before.failure = none → ∃ parts, middle = parts.flatMap Prod.fst ∧
        result.scenarios = parts.flatMap Prod.snd ∧
          List.Forall₂ (e.Mirrors filter feature.name) feature.placed parts) :
      MirrorsFeature filter feature uri
        ([.told (.featureStarted feature) none, .hooks .beforeFeature (featureContext feature) none before] ++
            middle ++
            [.hooks .afterFeature (featureContext feature) none after,
              .told (.featureFinished result) none],
          result)

variable {e}

/-! ### Selection -/

theorem featuresOf_eq (documents : List Document) : featuresOf documents = featuresIn documents := by
  induction documents with
  | nil => rfl
  | cons document rest ih =>
    rw [featuresOf, List.filterMap_cons, featuresIn]
    cases document.feature with
    | none => exact ih
    | some feature => exact congrArg (List.cons _) ih

theorem selects_iff (tags : List Text) : e.selects tags = true ↔ Selected e.filter tags := by
  unfold selects Selected
  cases e.filter <;> simp

theorem skippedScenario_passedOver (tags : List Text) (scenario : Scenario) :
    PassedOver tags scenario (skippedScenario tags scenario) := ⟨rfl, rfl, rfl, rfl, rfl, rfl, rfl, rfl⟩

variable (e) in
/-- The rows that are executed of a block of examples. -/
def blockRows (tags : List Text) (block : Examples) : List (List Text × Nat × Record) :=
  if block.header.isSome && e.selects (tags ++ tagNames block.tags) then
    block.body.zipIdx.map fun (row, index) => (tags ++ tagNames block.tags, index, block.rowValues row)
  else []

theorem blockRows_rowsOf (tags : List Text) (block : Examples) :
    RowsOf e.filter tags block (e.blockRows tags block) := by
  unfold blockRows
  cases headed : block.header with
  | none => exact .headless headed
  | some header =>
    by_cases selected : e.selects (tags ++ tagNames block.tags) = true
    · simpa [selected] using RowsOf.selected headed (selects_iff _ |>.mp selected)
    · simpa [selected] using RowsOf.filtered fun other => selected (selects_iff _ |>.mpr other)

/-- The rows of each block of an outline. -/
theorem forall₂_blockRows (placed : PlacedScenario) :
    List.Forall₂ (RowsOf e.filter placed.tags) placed.scenario.examples
      (placed.scenario.examples.map (e.blockRows placed.tags)) := by
  rw [List.forall₂_map_right_iff, List.forall₂_same]
  exact fun block _ => blockRows_rowsOf placed.tags block

variable (e) in
/-- The rows of an outline that are executed, block by block. -/
def rowsOf (placed : PlacedScenario) : List (List Text × Nat × Record) :=
  (placed.scenario.examples.map (e.blockRows placed.tags)).flatten

/-! ### Scenarios -/

theorem resolveTypes_length (current : StepType) (types : List StepType) :
    (resolveTypes current types).length = types.length := by
  induction types generalizing current with
  | nil => rfl
  | cons type rest ih => rw [resolveTypes, List.length_cons, ih, List.length_cons]

/-- Every step gets one role. -/
theorem withRoles_fst (steps : List Step) : (withRoles steps).map Prod.fst = steps := by
  apply List.map_fst_zip
  exact Nat.le_of_eq (by rw [resolveTypes_length, List.length_map])

/-- Every step of a scenario has one result. -/
theorem StepsActs.places {tags : List Text} {halted : Bool} {scene last : Scene ω}
    {items : List (Step × StepType)} {acts : List (Act η ω)} {results : List StepResult}
    (did : e.StepsActs tags halted scene items acts (results, last)) :
    results.map StepResult.place = (items.map Prod.fst).map Step.place := by
  generalize same : (results, last) = outcome at did
  induction did generalizing results last with
  | nil =>
    cases same
    rfl
  | skipped _ ih =>
    cases same
    exact congrArg (List.cons _) (ih rfl)
  | run first _ _ ih =>
    cases same
    obtain ⟨_, _, rfl⟩ := first
    exact congrArg (List.cons _) (ih rfl)

theorem ScenarioActs.executes {featureName : Text} {background : List Step} {tags : List Text}
    {row : Option ExampleRow} {scenario : Scenario} {acts : List (Act η ω)} {result : ScenarioResult}
    (did : e.ScenarioActs featureName background tags row scenario acts result) :
    e.Executes featureName background tags row scenario acts result := by
  have whole := did
  obtain ⟨_, ran, _, rfl⟩ := did
  exact ⟨whole, rfl, rfl, rfl, rfl, rfl, by rw [ran.places, withRoles_fst]⟩

theorem selectedRows_eq (placed : PlacedScenario) :
    e.selectedRows placed.tags placed.scenario = (e.rowsOf placed).map fun (tags, index, values) =>
      (tags, ⟨index, values⟩, placed.scenario.substitute values) := by
  simp only [selectedRows, rowsOf]
  induction placed.scenario.examples with
  | nil => rfl
  | cons block rest ih =>
    rw [List.flatMap_cons, ih, List.map_cons, List.flatten_cons, List.map_append]
    congr 1
    unfold blockRows
    cases header : block.header with
    | none => simp [Scenario.expand, Examples.rows, header]
    | some row =>
      by_cases selected : e.selects (placed.tags ++ tagNames block.tags) = true
      · simp [Scenario.expand, Examples.rows, header, selected, Function.comp_def]
      · simp [selected]

/-! ### Plans -/

/-- In a run that goes on after failures, two plans in turn are done in turn. -/
theorem PlanActs.split {featureName : Text} (first : List Planned) {second : List Planned} {acts : List (Act η ω)}
    {results : List ScenarioResult} (patient : e.failsFast = false)
    (did : e.PlanActs featureName (first ++ second) acts results) :
    ∃ acts₁ results₁ acts₂ results₂, acts = acts₁ ++ acts₂ ∧ results = results₁ ++ results₂ ∧
      e.PlanActs featureName first acts₁ results₁ ∧ e.PlanActs featureName second acts₂ results₂ := by
  induction first generalizing acts results with
  | nil => exact ⟨[], [], acts, results, rfl, rfl, .nil, did⟩
  | cons planned rest ih =>
    cases did with
    | skipped others =>
      obtain ⟨acts₁, results₁, acts₂, results₂, rfl, rfl, did₁, did₂⟩ := ih others
      exact ⟨acts₁, _ :: results₁, acts₂, results₂, rfl, rfl, .skipped did₁, did₂⟩
    | last _ stops => simp [stopsAfter, patient] at stops
    | executed head goesOn others =>
      obtain ⟨acts₁, results₁, acts₂, results₂, rfl, rfl, did₁, did₂⟩ := ih others
      exact ⟨_ ++ acts₁, _ :: results₁, acts₂, results₂, (List.append_assoc _ _ _).symm, rfl,
        .executed head goesOn did₁, did₂⟩

/-- Doing the plans of scenarios in turn is doing each of them. -/
theorem PlanActs.parts {featureName : Text} {placed : List PlacedScenario} {acts : List (Act η ω)}
    {results : List ScenarioResult} (patient : e.failsFast = false)
    (did : e.PlanActs featureName (placed.flatMap e.planPlaced) acts results) :
    ∃ parts, acts = parts.flatMap Prod.fst ∧ results = parts.flatMap Prod.snd ∧
      List.Forall₂ (fun placed part => e.PlanActs featureName (e.planPlaced placed) part.1 part.2) placed
        parts := by
  induction placed generalizing acts results with
  | nil =>
    cases did
    exact ⟨[], rfl, rfl, .nil⟩
  | cons first rest ih =>
    rw [List.flatMap_cons] at did
    obtain ⟨acts₁, results₁, acts₂, results₂, rfl, rfl, did₁, did₂⟩ := did.split _ patient
    obtain ⟨parts, rfl, rfl, others⟩ := ih did₂
    exact ⟨(acts₁, results₁) :: parts, rfl, rfl, .cons did₁ others⟩

theorem PlanActs.skips {featureName : Text} {tags : List Text} {scenario : Scenario}
    {acts : List (Act η ω)} {results : List ScenarioResult}
    (did : e.PlanActs featureName [.skipped tags scenario] acts results) :
    acts = [] ∧ results = [skippedScenario tags scenario] := by
  cases did with
  | skipped others =>
    cases others
    exact ⟨rfl, rfl⟩

theorem PlanActs.executes {featureName : Text} {background : List Step} {tags : List Text}
    {row : Option ExampleRow} {scenario : Scenario} {acts : List (Act η ω)} {results : List ScenarioResult}
    (did : e.PlanActs featureName [.executed background tags row scenario] acts results) :
    ∃ result, results = [result] ∧ e.Executes featureName background tags row scenario acts result := by
  cases did with
  | last first _ => exact ⟨_, rfl, first.executes⟩
  | executed first _ others =>
    cases others
    exact ⟨_, rfl, by simpa using first.executes⟩

theorem PlanActs.executes_rows {featureName : Text} {background : List Step} {scenario : Scenario}
    {rows : List (List Text × Nat × Record)} {acts : List (Act η ω)} {results : List ScenarioResult}
    (patient : e.failsFast = false)
    (did : e.PlanActs featureName (rows.map fun (tags, index, values) =>
      .executed background tags (some ⟨index, values⟩) (scenario.substitute values)) acts results) :
    ∃ parts, acts = parts.flatMap Prod.fst ∧ results = parts.map Prod.snd ∧
      List.Forall₂ (fun row part => e.Executes featureName background row.1 (some ⟨row.2.1, row.2.2⟩)
        (scenario.substitute row.2.2) part.1 part.2) rows parts := by
  induction rows generalizing acts results with
  | nil =>
    cases did
    exact ⟨[], rfl, rfl, .nil⟩
  | cons row rest ih =>
    obtain ⟨acts₁, results₁, acts₂, results₂, rfl, rfl, did₁, did₂⟩ :=
      PlanActs.split [_] patient did
    obtain ⟨result, rfl, executed⟩ := did₁.executes
    obtain ⟨parts, rfl, rfl, others⟩ := ih did₂
    exact ⟨(acts₁, result) :: parts, rfl, rfl, .cons executed others⟩

/-- Doing the plan of a scenario mirrors the scenario. -/
theorem PlanActs.mirrors {featureName : Text} {placed : PlacedScenario} {acts : List (Act η ω)}
    {results : List ScenarioResult} (patient : e.failsFast = false)
    (did : e.PlanActs featureName (e.planPlaced placed) acts results) :
    e.Mirrors e.filter featureName placed (acts, results) := by
  have passedOver := skippedScenario_passedOver placed.tags placed.scenario
  unfold planPlaced at did
  by_cases isPlain : placed.scenario.examples = []
  · rw [if_pos (List.isEmpty_iff.mpr isPlain)] at did
    by_cases selected : e.selects placed.tags = true
    · rw [if_pos selected] at did
      obtain ⟨result, rfl, executed⟩ := did.executes
      exact .plain isPlain ((selects_iff _).mp selected) executed
    · rw [if_neg selected] at did
      obtain ⟨rfl, rfl⟩ := did.skips
      exact .filtered isPlain (fun other => selected ((selects_iff _).mpr other)) passedOver
  · rw [if_neg fun empty => isPlain (List.isEmpty_iff.mp empty), selectedRows_eq] at did
    cases rows : e.rowsOf placed with
    | nil =>
      rw [rows] at did
      obtain ⟨rfl, rfl⟩ := did.skips
      exact .emptied isPlain (forall₂_blockRows placed) rows passedOver
    | cons row rest =>
      rw [rows] at did
      have did : e.PlanActs featureName ((row :: rest).map fun (tags, index, values) =>
          .executed placed.background tags (some ⟨index, values⟩) (placed.scenario.substitute values))
          acts results := by
        simpa [Planned.ofRow, Function.comp_def] using did
      obtain ⟨parts, rfl, rfl, executed⟩ := PlanActs.executes_rows patient did
      rw [← rows] at executed
      exact .outline isPlain (forall₂_blockRows placed) (fun empty => by cases rows.symm.trans empty) executed

theorem PlanActs.mirrors_all {featureName : Text} {placed : List PlacedScenario} {acts : List (Act η ω)}
    {results : List ScenarioResult} (patient : e.failsFast = false)
    (did : e.PlanActs featureName (placed.flatMap e.planPlaced) acts results) :
    ∃ parts, acts = parts.flatMap Prod.fst ∧ results = parts.flatMap Prod.snd ∧
      List.Forall₂ (e.Mirrors e.filter featureName) placed parts := by
  obtain ⟨parts, rfl, rfl, done⟩ := did.parts patient
  exact ⟨parts, rfl, rfl, done.imp fun _ _ did => did.mirrors patient⟩

/-! ### Features -/

/-- A feature that is passed over has one result for each scenario, in the order of the document. -/
theorem skippedFeature_passedOver (feature : Feature) :
    List.Forall₂ (fun placed => PassedOver placed.tags placed.scenario) feature.placed
      (skippedFeature feature) := by
  rw [skippedFeature_eq, List.forall₂_map_right_iff, List.forall₂_same]
  exact fun placed _ => skippedScenario_passedOver placed.tags placed.scenario

theorem ScenariosActs.mirrors {feature : Feature} {before : Option Failure} {acts : List (Act η ω)}
    {results : List ScenarioResult} (patient : e.failsFast = false)
    (did : e.ScenariosActs feature before acts results) :
    (before ≠ none → acts = [] ∧
      List.Forall₂ (fun placed => PassedOver placed.tags placed.scenario) feature.placed results) ∧
    (before = none → ∃ parts, acts = parts.flatMap Prod.fst ∧ results = parts.flatMap Prod.snd ∧
      List.Forall₂ (e.Mirrors e.filter feature.name) feature.placed parts) := by
  cases did with
  | hooksFailed => exact ⟨fun _ => ⟨rfl, skippedFeature_passedOver feature⟩, by rintro ⟨⟩⟩
  | planned ran => exact ⟨fun failed => absurd rfl failed, fun _ => ran.mirrors_all patient⟩

theorem FeatureActs.mirrors {feature : Feature} {uri : Option Text} {acts : List (Act η ω)}
    {result : FeatureResult} (patient : e.failsFast = false) (did : e.FeatureActs feature uri acts result) :
    e.MirrorsFeature e.filter feature uri (acts, result) := by
  obtain ⟨ran, rfl⟩ := did
  obtain ⟨skipped, mirrored⟩ := ran.mirrors patient
  exact .intro rfl rfl rfl skipped mirrored

theorem FeaturesActs.mirrors {features : List (Feature × Option Text)} {acts : List (Act η ω)}
    {results : List FeatureResult} (patient : e.failsFast = false)
    (did : e.FeaturesActs features acts results) :
    ∃ parts, acts = parts.flatMap Prod.fst ∧ results = parts.map Prod.snd ∧
      List.Forall₂ (fun item part => e.MirrorsFeature e.filter item.1 item.2 part) features parts := by
  induction did with
  | nil => exact ⟨[], rfl, rfl, .nil⟩
  | last _ stops => simp [endsWith, patient] at stops
  | next first _ _ ih =>
    obtain ⟨parts, rfl, rfl, others⟩ := ih
    exact ⟨(_, _) :: parts, rfl, rfl, .cons (first.mirrors patient) others⟩

end Engine

/-! ### Runners -/

namespace Runner

variable {η θ ω σ : Type}

/-- A run that does not end with the first failure, and whose first hooks do not fail, has one result for
each document with a feature, and each result mirrors its feature, as far as the filter of the runner selects
its scenarios and rows. -/
theorem run_mirrors_documents (r : Runner η θ) (host : Host η θ ω σ) (documents : List Document)
    (patient : r.config.failFast.isTrue = false) (state : σ) (result : RunResult)
    (returned : ((r.run host documents).run state).1.1 = .ok result) :
    ∃ before middle after next,
      ((r.engine host).recorded.run documents).run.run (state, []) =
        (.ok result, next,
          [.hooks .beforeAll {} none before] ++ middle ++ [.hooks .afterAll {} none after]) ∧
      (before.failure = none → ∃ parts, middle = parts.flatMap Prod.fst ∧
        result.features = parts.map Prod.snd ∧
        List.Forall₂ (fun item part => (r.engine host).MirrorsFeature r.filter item.1 item.2 part)
          (featuresIn documents) parts) ∧
      ∀ item ∈ featuresIn documents,
        item.1.placed.map PlacedScenario.scenario = item.1.allScenarios := by
  obtain ⟨acts, outcome, next, ran, kept, _, did⟩ :=
    Engine.run_records (e := r.engine host) documents state []
  have same : outcome = .ok result := by
    rw [← returned]
    exact (congrArg Prod.fst ran).symm
  subst same
  obtain ⟨middle, resulted⟩ := did
  refine ⟨_, _, _, next, kept, ?_, fun item _ => item.1.placed_scenario⟩
  intro passed
  rw [passed] at middle
  cases middle with
  | ran features =>
    obtain ⟨parts, rfl, rfl, mirrored⟩ := Engine.FeaturesActs.mirrors (e := r.engine host) patient features
    rw [Engine.featuresOf_eq] at mirrored
    exact ⟨parts, rfl, by rw [resulted], mirrored⟩

/-- The scenario that is tagged is passed over, and of the outline only the rows of the first block are executed. -/
theorem run_mirrors_layers :
    ∃ (steps : StepRegistry Nat) (runner : Runner Nat Unit) (result : RunResult),
      layeredSteps = .ok steps ∧ runner = unfinishedLeftOut steps ∧ runner.config.failFast.isTrue = false ∧
      ((runner.run Host.idle [documentOnly layeredFeature]).run ()).1.1 = .ok result ∧
      (∃ before middle after next,
        ((runner.engine Host.idle).recorded.run [documentOnly layeredFeature]).run.run ((), []) =
          (.ok result, next,
            [.hooks .beforeAll {} none before] ++ middle ++ [.hooks .afterAll {} none after]) ∧
        (before.failure = none → ∃ parts, middle = parts.flatMap Prod.fst ∧
          result.features = parts.map Prod.snd ∧
          List.Forall₂ (fun item part => (runner.engine Host.idle).MirrorsFeature runner.filter item.1 item.2 part)
            (featuresIn [documentOnly layeredFeature]) parts)) ∧
      (result.features.flatMap FeatureResult.scenarios).map (fun s => (s.name, s.status, s.exampleIndex)) =
        [(['w'], .skipped, none), (['o'], .passed, some 0), (['o'], .passed, some 1)] := by
  have shape : (layeredSteps.toOption.any fun steps =>
      ((unfinishedLeftOut steps).outcome Host.idle [documentOnly layeredFeature] ()).toOption.any fun result =>
        (result.features.flatMap FeatureResult.scenarios).map (fun s => (s.name, s.status, s.exampleIndex)) ==
          [(['w'], .skipped, none), (['o'], .passed, some 0), (['o'], .passed, some 1)]) = true := by
    decide +kernel
  obtain ⟨steps, built, shape⟩ := exists_of_toOption_any shape
  obtain ⟨result, returned, scenarios⟩ := exists_of_toOption_any shape
  obtain ⟨before, middle, after, next, kept, mirrored, _⟩ :=
    run_mirrors_documents (unfinishedLeftOut steps) Host.idle [documentOnly layeredFeature] rfl () result returned
  exact ⟨steps, _, result, built, rfl, rfl, returned, ⟨before, middle, after, next, kept, mirrored⟩,
    beq_iff_eq.mp scenarios⟩

end Runner

end Gherkin
