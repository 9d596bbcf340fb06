import Gherkin.Proofs.Dialect.Keywords

/-! # The longest step keyword wins

Which step keyword a line starts with, in every dialect: its keywords may start one another and may stand in several
groups. Of the step keywords that fit a line with a space behind them the longest is read, as what the first group
that holds it stands for (`Gherkin.Dialect.reads_longest_keyword`). The keywords are tried in the order of their
lengths, so none that is tried later is longer.
-/

namespace Gherkin.Dialect

variable (d : Dialect)

/-- The groups of step keywords with what they stand for, in the order in which a keyword of several is looked up. -/
def groups : List (List Text × StepType) :=
  [(d.context, .context), (d.action, .action), (d.outcome, .outcome), (d.addition, .conjunction),
    (d.contrast, .conjunction)]

/-- The step keywords of all groups. -/
def stepWords : List Text := d.groups.flatMap Prod.fst

/-- What the first group stands for that holds a keyword. -/
def stepType? (keyword : Text) : Option StepType :=
  (d.groups.find? fun group => group.1.contains keyword).map Prod.snd

/-- Whether a keyword is the longest of the step keywords that a line starts with, each with a space behind it. -/
structure LongestStep (t keyword : Text) : Prop where
  known : keyword ∈ d.stepWords
  starts : keyword ++ [' '] <+: t
  longest : ∀ other ∈ d.stepWords, other ++ [' '] <+: t → other.length ≤ keyword.length

variable {d}

/-! ### Types -/

/-- Of the entries of each keyword the first is kept. -/
theorem mem_firstOfEach {entries : List (Text × StepType)} {keyword : Text} {type : StepType} :
    (keyword, type) ∈ firstOfEach entries ↔ entries.lookup keyword = some type := by
  induction entries with
  | nil => simp [firstOfEach]
  | cons entry rest ih =>
    obtain ⟨word, other⟩ := entry
    rw [firstOfEach, List.mem_cons, List.mem_filter, ih, List.lookup_cons]
    by_cases same : keyword = word
    · subst same
      simp [eq_comm]
    · rw [beq_false_of_ne same]
      simp [same]

/-- A keyword is looked up in the first group that holds it. -/
theorem lookup_groups (groups : List (List Text × StepType)) (keyword : Text) :
    (groups.flatMap fun group => group.1.map (·, group.2)).lookup keyword =
      (groups.find? fun group => group.1.contains keyword).map Prod.snd := by
  have words (words : List Text) (type : StepType) :
      (words.map (·, type)).lookup keyword = if keyword ∈ words then some type else none := by
    induction words with
    | nil => rfl
    | cons word rest ih =>
      rw [List.map_cons, List.lookup_cons, ih]
      by_cases same : keyword = word
      · simp [same]
      · rw [beq_false_of_ne same]
        simp [same]
  induction groups with
  | nil => rfl
  | cons group rest ih =>
    rw [List.flatMap_cons, List.lookup_append, words, ih, List.find?_cons]
    by_cases held : keyword ∈ group.1 <;> simp [held]

theorem stepGroups_eq (d : Dialect) :
    d.stepGroups = d.groups.flatMap fun group => group.1.map (·, group.2) := by
  simp [stepGroups, groups]

theorem mem_stepKeywords {keyword : Text} {type : StepType} :
    (keyword, type) ∈ d.stepKeywords ↔ d.stepType? keyword = some type := by
  rw [stepKeywords, List.mem_mergeSort, mem_firstOfEach, stepGroups_eq, lookup_groups, stepType?]

/-- A step keyword is what some group holds. -/
theorem mem_stepWords {keyword : Text} : keyword ∈ d.stepWords ↔ ∃ type, d.stepType? keyword = some type := by
  rw [stepWords, List.mem_flatMap, stepType?]
  constructor
  · intro ⟨group, among, held⟩
    cases search : d.groups.find? fun group => group.1.contains keyword with
    | none => exact absurd (List.contains_iff_mem.mpr held) (List.find?_eq_none.mp search group among)
    | some first => exact ⟨first.2, rfl⟩
  · intro ⟨type, found⟩
    obtain ⟨group, first, -⟩ := Option.map_eq_some_iff.mp found
    have holds := List.find?_some first
    exact ⟨group, List.mem_of_find?_eq_some first, List.contains_iff_mem.mp holds⟩

/-! ### Lengths -/

/-- No step keyword is tried before a longer one. -/
theorem pairwise_stepKeywords (d : Dialect) :
    d.stepKeywords.Pairwise fun first second => second.1.length ≤ first.1.length := by
  have sorted : d.stepKeywords.Pairwise fun first second => decide (second.1.length ≤ first.1.length) = true := by
    apply List.pairwise_mergeSort
    · intro first second third one two
      simp only [decide_eq_true_eq] at one two ⊢
      exact Nat.le_trans two one
    · intro first second
      simpa using Nat.le_total second.1.length first.1.length
  exact sorted.imp of_decide_eq_true

/-- What a step keyword reads of a line. -/
theorem afterPrefix?_map_eq_some {t keyword : Text} {type : StepType} {step : Text × StepType × Text} :
    (Text.afterPrefix? (keyword ++ [' ']) t).map (fun rest => (keyword, type, Text.trim rest)) = some step ↔
      keyword ++ [' '] <+: t ∧ step = (keyword, type, Text.trim (t.drop (keyword.length + 1))) := by
  constructor
  · intro found
    obtain ⟨rest, after, rfl⟩ := Option.map_eq_some_iff.mp found
    obtain rfl := Text.afterPrefix?_eq_some.mp after
    have drops : (keyword ++ [' ']).length = keyword.length + 1 := List.length_append
    exact ⟨⟨rest, rfl⟩, by rw [← drops, List.drop_left]⟩
  · rintro ⟨⟨rest, rfl⟩, rfl⟩
    have drops : (keyword ++ [' ']).length = keyword.length + 1 := List.length_append
    rw [Text.afterPrefix?_eq_some.mpr rfl, ← drops, List.drop_left, Option.map_some]

section Lines

variable {t : Text} (plain : ¬ ['*', ' '] <+: t)

include plain

/-- The step keywords are tried one after another. -/
theorem step?_eq_findSome? :
    d.step? t = d.stepKeywords.findSome? fun entry =>
      (Text.afterPrefix? (entry.1 ++ [' ']) t).map fun rest => (entry.1, entry.2, Text.trim rest) := by
  rw [step?]
  split
  · rename_i rest star
    exact absurd ⟨rest, (Text.afterPrefix?_eq_some.mp star).symm⟩ plain
  · rfl

/-- The keyword of a step is the longest that fits, and has the type of its first group. -/
theorem longestStep_of_step? {keyword text : Text} {type : StepType}
    (found : d.step? t = some (keyword, type, text)) :
    d.LongestStep t keyword ∧ d.stepType? keyword = some type ∧ text = Text.trim (t.drop (keyword.length + 1)) := by
  rw [step?_eq_findSome? plain, List.findSome?_eq_some_iff] at found
  obtain ⟨before, entry, behind, split, read, missed⟩ := found
  obtain ⟨starts, same⟩ := afterPrefix?_map_eq_some.mp read
  cases same
  have typed : d.stepType? entry.1 = some entry.2 := by
    rw [← mem_stepKeywords, split]
    exact List.mem_append_right _ List.mem_cons_self
  refine ⟨⟨mem_stepWords.mpr ⟨_, typed⟩, starts, fun other known fits => ?_⟩, typed, rfl⟩
  obtain ⟨type, typed⟩ := mem_stepWords.mp known
  have among := mem_stepKeywords.mpr typed
  have sorted := pairwise_stepKeywords d
  rw [split] at among sorted
  -- What was tried in front of the keyword does not fit, and what comes behind it is not longer.
  obtain earlier | here | later := (List.mem_append.mp among).imp id List.mem_cons.mp
  · have gone := missed _ earlier
    rw [afterPrefix?_map_eq_some.mpr ⟨fits, rfl⟩] at gone
    cases gone
  · exact Nat.le_of_eq (congrArg (fun entry => entry.1.length) here)
  · obtain ⟨-, below, -⟩ := List.pairwise_append.mp sorted
    exact (List.pairwise_cons.mp below).1 _ later

theorem step?_eq_none : d.step? t = none ↔ ∀ keyword ∈ d.stepWords, ¬ keyword ++ [' '] <+: t := by
  rw [step?_eq_findSome? plain, List.findSome?_eq_none_iff]
  constructor
  · intro missed keyword known fits
    obtain ⟨type, typed⟩ := mem_stepWords.mp known
    have gone := missed _ (mem_stepKeywords.mpr typed)
    rw [afterPrefix?_map_eq_some.mpr ⟨fits, rfl⟩] at gone
    cases gone
  · intro missed entry among
    rw [Option.map_eq_none_iff, Option.eq_none_iff_forall_ne_some]
    intro rest after
    have known := mem_stepWords.mpr ⟨entry.2, mem_stepKeywords.mp among⟩
    exact missed entry.1 known ⟨rest, (Text.afterPrefix?_eq_some.mp after).symm⟩

end Lines

/-- Two keywords that are the longest of a line are the same. -/
theorem LongestStep.unique {t first second : Text} (one : d.LongestStep t first) (two : d.LongestStep t second) :
    first = second := by
  have lengths : (first ++ [' ']).length = (second ++ [' ']).length := by
    rw [List.length_append, List.length_append,
      Nat.le_antisymm (two.longest first one.known one.starts) (one.longest second two.known two.starts)]
  have nested := List.prefix_of_prefix_length_le one.starts two.starts (Nat.le_of_eq lengths)
  exact List.append_cancel_right (nested.eq_of_length lengths)

/-- A line that does not start with a star is a step of a keyword exactly if this is the longest step keyword of the
dialect that fits it with a space behind it. The step has the type of the first group that holds the keyword, and its
text is what comes behind the space. A line that no step keyword fits is no step. -/
theorem reads_longest_keyword (d : Dialect) {t : Text} (plain : ¬ ['*', ' '] <+: t) :
    (∀ keyword, (∃ type text, d.step? t = some (keyword, type, text)) ↔ d.LongestStep t keyword) ∧
    (∀ keyword type text, d.step? t = some (keyword, type, text) →
      d.stepType? keyword = some type ∧ text = Text.trim (t.drop (keyword.length + 1))) ∧
    (d.step? t = none ↔ ∀ keyword ∈ d.stepWords, ¬ keyword ++ [' '] <+: t) := by
  refine ⟨fun keyword => ⟨?_, fun longest => ?_⟩, fun _ _ _ found => (longestStep_of_step? plain found).2,
    step?_eq_none plain⟩
  · intro ⟨type, text, found⟩
    exact (longestStep_of_step? plain found).1
  · cases found : d.step? t with
    | none => exact absurd longest.starts ((step?_eq_none plain).mp found keyword longest.known)
    | some step =>
      obtain ⟨other, type, text⟩ := step
      obtain rfl := longest.unique (longestStep_of_step? plain found).1
      exact ⟨type, text, rfl⟩

/-- A dialect with keywords that start one another, one of them in two groups. -/
def overlapping : Dialect where
  feature := ["F"]
  rule := []
  scenario := ["S"]
  outline := []
  background := []
  examples := []
  context := ["E", "Dado"]
  action := ["E se"]
  outcome := ["E se", "E"]
  addition := ["E"]
  contrast := ["E se não for"]

theorem reads_longest_keyword_overlapping :
    ¬ ['*', ' '] <+: ("E se  não" : Text) ∧
      overlapping.step? "E se  não" = some (("E se" : Text), .action, ("não" : Text)) := by
  have plain : ¬ ['*', ' '] <+: ("E se  não" : Text) := by decide
  obtain ⟨read, means, -⟩ := reads_longest_keyword overlapping plain
  obtain ⟨type, text, found⟩ := (read "E se").mpr ⟨by decide, by decide, by decide⟩
  obtain ⟨typed, rfl⟩ := means _ _ _ found
  obtain rfl : StepType.action = type := Option.some.inj typed
  exact ⟨plain, found⟩

end Gherkin.Dialect
