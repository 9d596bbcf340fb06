import Mathlib.Algebra.BigOperators.Group.List.Basic
import Gherkin.Run.Summary

/-! # What summaries count

Counting a list of statuses gives the sum of the counts of its items, so it can be done in parts. Every item is counted
once, whatever its status is counted under. So the counts of features, scenarios and steps are those of their statuses,
and a summary of the features of two runs is the sum of their summaries (`Gherkin.summarize_conserves`).
-/

namespace Gherkin

namespace StatusCounts

/-! ### Sums of counts -/

/-- The counts of two groups of items together. -/
instance : Add StatusCounts where
  add c d := {
    total := c.total + d.total
    passed := c.passed + d.passed
    failed := c.failed + d.failed
    skipped := c.skipped + d.skipped
    pending := c.pending + d.pending
    undefined := c.undefined + d.undefined }

/-- How many items are counted under a status. -/
def under (c : StatusCounts) : Status → Nat
  | .passed => c.passed
  | .failed => c.failed
  | .skipped => c.skipped
  | .pending => c.pending
  | .undefined => c.undefined

/-- The counts of one item. -/
def one (status : Status) : StatusCounts := add {} status

/-- How many items are counted under some status. -/
def counted (c : StatusCounts) : Nat := c.passed + c.failed + c.skipped + c.pending + c.undefined

@[simp]
theorem total_add (c d : StatusCounts) : (c + d).total = c.total + d.total := rfl

@[simp]
theorem under_add (c d : StatusCounts) (status : Status) : (c + d).under status = c.under status + d.under status := by
  cases status <;> rfl

@[simp]
theorem counted_add (c d : StatusCounts) : (c + d).counted = c.counted + d.counted := by
  change c.passed + d.passed + (c.failed + d.failed) + (c.skipped + d.skipped) + (c.pending + d.pending) +
    (c.undefined + d.undefined) = _
  unfold counted
  omega

@[simp]
theorem total_one (status : Status) : (one status).total = 1 := by
  cases status <;> rfl

@[simp]
theorem counted_one (status : Status) : (one status).counted = 1 := by
  cases status <;> rfl

@[simp]
theorem under_one (status other : Status) : (one status).under other = if status = other then 1 else 0 := by
  cases status <;> cases other <;> rfl

/-- Counts are known by their total and by what is counted under each status. -/
theorem eq_of_under {c d : StatusCounts} (total : c.total = d.total) (under : ∀ status, c.under status = d.under status) :
    c = d := by
  have passed : c.passed = d.passed := under .passed
  have failed : c.failed = d.failed := under .failed
  have skipped : c.skipped = d.skipped := under .skipped
  have pending : c.pending = d.pending := under .pending
  have undefined : c.undefined = d.undefined := under .undefined
  cases c
  cases d
  simp_all

/-! ### Counting a list -/

/-- Counting one more status adds the counts of this one. -/
theorem add_eq_add_one (c : StatusCounts) (status : Status) : c.add status = c + one status := by
  cases status <;> rfl

/-- Counting on from some counts adds to them. -/
theorem foldl_add (statuses : List Status) (c : StatusCounts) : statuses.foldl add c = c + ofList statuses := by
  induction statuses generalizing c with
  | nil => rfl
  | cons status rest ih =>
    have first : ofList (status :: rest) = one status + ofList rest := ih (one status)
    rw [List.foldl_cons, ih, add_eq_add_one, first]
    apply eq_of_under
    · simp only [total_add, Nat.add_assoc]
    · intro other
      simp only [under_add, Nat.add_assoc]

theorem ofList_cons (status : Status) (rest : List Status) : ofList (status :: rest) = one status + ofList rest :=
  foldl_add rest (one status)

/-- The counts of lists add up. -/
theorem ofList_append (first second : List Status) : ofList (first ++ second) = ofList first + ofList second := by
  unfold ofList
  rw [List.foldl_append]
  exact foldl_add second _

/-- The total is the length of the list. -/
theorem total_ofList (statuses : List Status) : (ofList statuses).total = statuses.length := by
  induction statuses with
  | nil => rfl
  | cons status rest ih => rw [ofList_cons, total_add, total_one, ih, List.length_cons, Nat.add_comm]

/-- Every item is counted under one status. -/
theorem counted_ofList (statuses : List Status) : (ofList statuses).counted = statuses.length := by
  induction statuses with
  | nil => rfl
  | cons status rest ih => rw [ofList_cons, counted_add, counted_one, ih, List.length_cons, Nat.add_comm]

/-- Under a status its occurrences are counted. -/
theorem under_ofList (statuses : List Status) (status : Status) :
    (ofList statuses).under status = statuses.count status := by
  induction statuses with
  | nil => cases status <;> rfl
  | cons first rest ih =>
    rw [ofList_cons, under_add, under_one, ih, List.count_cons, Nat.add_comm]
    simp only [beq_iff_eq]

/-- Whether counts are those of items with some statuses: of all the items, each under one status, and under each status
of those that have one of the statuses in its place. -/
structure Counts (c : StatusCounts) (statuses : List Status) (place : Status → List Status) : Prop where
  total : c.total = statuses.length
  once : c.total = c.passed + c.failed + c.skipped + c.pending + c.undefined
  under : ∀ status, c.under status = statuses.countP fun own => own ∈ place status

/-- Items are counted under the status that each of theirs becomes. -/
theorem counts_ofList_map {α : Type} (fold : Status → Status) {place : Status → List Status}
    (folded : ∀ own status, fold own = status ↔ own ∈ place status) (items : List α) (status : α → Status) :
    (ofList (items.map fun item => fold (status item))).Counts (items.map status) place where
  total := by rw [total_ofList, List.length_map, List.length_map]
  once := by
    rw [total_ofList, ← counted_ofList]
    rfl
  under wanted := by
    rw [under_ofList, List.count, List.countP_map, List.countP_map]
    exact List.countP_congr fun item _ => by simp [folded]

end StatusCounts

/-! ### Summaries -/

namespace Status

/-- The statuses of the scenarios that are counted under a status: undefined ones count as pending. -/
def amongScenarios : Status → List Status
  | pending => [pending, undefined]
  | undefined => []
  | status => [status]

/-- The statuses of the features that are counted under a status: pending and undefined ones count as skipped. -/
def amongFeatures : Status → List Status
  | skipped => [skipped, pending, undefined]
  | pending | undefined => []
  | status => [status]

/-- The statuses that a scenario is counted under a status for. -/
theorem ofScenario_eq_iff (own status : Status) : own.ofScenario = status ↔ own ∈ status.amongScenarios := by
  cases own <;> cases status <;> decide

/-- The statuses that a feature is counted under a status for. -/
theorem ofFeature_eq_iff (own status : Status) : own.ofFeature = status ↔ own ∈ status.amongFeatures := by
  cases own <;> cases status <;> decide

end Status

/-- The sum of two summaries, level by level. -/
instance : Add Summary where
  add s t := { features := s.features + t.features, scenarios := s.scenarios + t.scenarios, steps := s.steps + t.steps }

/-- The summaries of lists of features add up. -/
theorem summarize_append (first second : List FeatureResult) :
    summarize (first ++ second) = summarize first + summarize second := by
  unfold summarize
  simp only [List.flatMap_append, List.map_append, StatusCounts.ofList_append]
  rfl

theorem counts_features (features : List FeatureResult) :
    (summarize features).features.Counts (features.map FeatureResult.status) Status.amongFeatures :=
  StatusCounts.counts_ofList_map Status.ofFeature Status.ofFeature_eq_iff features FeatureResult.status

theorem counts_scenarios (features : List FeatureResult) :
    (summarize features).scenarios.Counts
      ((features.flatMap FeatureResult.scenarios).map ScenarioResult.status) Status.amongScenarios :=
  StatusCounts.counts_ofList_map Status.ofScenario Status.ofScenario_eq_iff _ ScenarioResult.status

theorem counts_steps (features : List FeatureResult) :
    (summarize features).steps.Counts
      (((features.flatMap FeatureResult.scenarios).flatMap ScenarioResult.steps).map StepResult.status)
      fun status => [status] :=
  StatusCounts.counts_ofList_map id (fun _ _ => List.mem_singleton.symm) _ StepResult.status

/-- A summary counts every feature, every scenario and every step once. On every level, passed and failed are those
that did; steps are counted under each status, undefined scenarios as pending, and pending and undefined features as
skipped. The summary of some features with others behind them is the sum of their summaries. -/
theorem summarize_conserves (features others : List FeatureResult) :
    let scenarios := features.flatMap FeatureResult.scenarios
    let steps := scenarios.flatMap ScenarioResult.steps
    (summarize features).features.Counts (features.map FeatureResult.status) Status.amongFeatures ∧
    (summarize features).scenarios.Counts (scenarios.map ScenarioResult.status) Status.amongScenarios ∧
    (summarize features).steps.Counts (steps.map StepResult.status) (fun status => [status]) ∧
    summarize (features ++ others) = summarize features + summarize others :=
  ⟨counts_features features, counts_scenarios features, counts_steps features, summarize_append features others⟩

end Gherkin
