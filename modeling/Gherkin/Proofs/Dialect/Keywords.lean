import Gherkin.Dialect.BuiltIn
import Gherkin.Document.Mark

/-! # Keywords

What the dialects that are built in have in common: their keywords cannot be mistaken for one another nor
for anything else that starts a line (`Gherkin.Languages.regular_of_mem_builtIn`). For such a dialect a
line that starts with a keyword is recognized by this keyword alone.
-/

namespace Gherkin

/-- The characters that start what is no keyword: a star, tags, table rows, comments and fences. -/
def reservedStarts : List Char := ['*', '@', '|', '#', '"', '\x60']

/-- Whether a text can be a keyword: it does not start like something else, and it holds neither a colon
nor a line feed. -/
structure Keyword (k : Text) : Prop where
  nonempty : k ≠ []
  start : ∀ c ∈ k.head?, isBlank c = false ∧ c ∉ reservedStarts
  colon : ':' ∉ k
  lineFeed : '\n' ∉ k

instance (k : Text) : Decidable (Keyword k) :=
  decidable_of_iff
    (k ≠ [] ∧ k.head?.all (fun c => !isBlank c && !reservedStarts.contains c) = true ∧ ':' ∉ k ∧ '\n' ∉ k)
    ⟨fun ⟨nonempty, start, colon, lineFeed⟩ => ⟨nonempty, by simpa [Option.all_eq_true] using start, colon, lineFeed⟩,
      fun k => ⟨k.nonempty, by simpa [Option.all_eq_true] using k.start, k.colon, k.lineFeed⟩⟩

/-- The kind of a heading without what its place says about it. -/
def Heading.bare : Heading → Heading
  | .background _ => .background false
  | .scenario _ outline => .scenario false outline
  | kind => kind

namespace Dialect

/-- The keywords that open a heading of a kind. -/
def keywords (d : Dialect) : Heading → List Text
  | .feature => d.feature
  | .rule => d.rule
  | .background _ => d.background
  | .scenario _ true => d.outline
  | .scenario _ false => d.scenario
  | .examples => d.examples

theorem keywords_subset (d : Dialect) (kind : Heading) : ∀ k ∈ d.keywords kind, k ∈ d.headings := by
  intro k member
  simp only [headings, List.mem_append]
  cases kind with
  | feature => simp_all [keywords]
  | rule => simp_all [keywords]
  | background nested => simp_all [keywords]
  | scenario nested outline => cases outline <;> simp_all [keywords]
  | examples => simp_all [keywords]

/-- The kinds of headings, whatever their place. -/
def kinds : List Heading :=
  [.feature, .rule, .scenario false false, .scenario false true, .background false, .examples]

/-- A dialect in which no keyword can be taken for another one: the headings of two kinds share no keyword,
and a step keyword with its space starts no other keyword. -/
structure Regular (d : Dialect) : Prop where
  heading : ∀ k ∈ d.headings, Keyword k
  step : ∀ entry ∈ d.stepGroups, Keyword entry.1
  distinct : ∀ kind ∈ kinds, ∀ other ∈ kinds, kind ≠ other → ∀ k ∈ d.keywords kind, k ∉ d.keywords other
  apart : ∀ entry ∈ d.stepGroups, ∀ other ∈ d.stepGroups,
    (entry.1 ++ [' ']).isPrefixOf other.1 = false
  below : ∀ entry ∈ d.stepGroups, ∀ k ∈ d.headings, (entry.1 ++ [' ']).isPrefixOf k = false

instance (d : Dialect) : Decidable d.Regular :=
  decidable_of_iff
    ((∀ k ∈ d.headings, Keyword k) ∧ (∀ entry ∈ d.stepGroups, Keyword entry.1) ∧
      (∀ kind ∈ kinds, ∀ other ∈ kinds, kind ≠ other → ∀ k ∈ d.keywords kind, k ∉ d.keywords other) ∧
      (∀ entry ∈ d.stepGroups, ∀ other ∈ d.stepGroups,
        (entry.1 ++ [' ']).isPrefixOf other.1 = false) ∧
      ∀ entry ∈ d.stepGroups, ∀ k ∈ d.headings, (entry.1 ++ [' ']).isPrefixOf k = false)
    ⟨fun ⟨heading, step, distinct, apart, below⟩ => ⟨heading, step, distinct, apart, below⟩,
      fun d => ⟨d.heading, d.step, d.distinct, d.apart, d.below⟩⟩

end Dialect

/-- The dialects that are built in are regular. -/
theorem Languages.regular_of_mem_builtIn : ∀ entry ∈ Languages.builtIn, entry.2.Regular := by
  decide +kernel

/-! ### Text behind a keyword -/

theorem Text.afterPrefix?_eq_some {before t rest : Text} :
    Text.afterPrefix? before t = some rest ↔ t = before ++ rest := by
  induction before generalizing t with
  | nil => exact ⟨fun same => Option.some.inj same, fun same => congrArg some same⟩
  | cons c before ih =>
    cases t with
    | nil => exact ⟨by rintro ⟨⟩, by rintro ⟨⟩⟩
    | cons d t =>
      rw [Text.afterPrefix?, List.cons_append, List.cons.injEq]
      by_cases same : c = d
      · rw [if_pos same, ih]
        exact ⟨fun rest => ⟨same.symm, rest⟩, And.right⟩
      · rw [if_neg same]
        exact ⟨by rintro ⟨⟩, fun both => absurd both.1.symm same⟩

/-- What stands in front of the first colon of a text is determined by the text. -/
theorem Text.colon_unique {first second rest others : Text} (plain : ':' ∉ first) (bare : ':' ∉ second)
    (same : first ++ ':' :: rest = second ++ ':' :: others) : first = second ∧ rest = others := by
  induction first generalizing second with
  | nil =>
    cases second with
    | nil => exact ⟨rfl, (List.cons.inj same).2⟩
    | cons c second =>
      obtain ⟨rfl, _⟩ := List.cons.inj same
      exact absurd List.mem_cons_self bare
  | cons c first ih =>
    cases second with
    | nil =>
      obtain ⟨rfl, _⟩ := List.cons.inj same
      exact absurd List.mem_cons_self plain
    | cons d second =>
      obtain ⟨rfl, tails⟩ := List.cons.inj same
      obtain ⟨rfl, rfl⟩ := ih (List.not_mem_of_not_mem_cons plain) (List.not_mem_of_not_mem_cons bare) tails
      exact ⟨rfl, rfl⟩

/-- A search with one possible answer finds it. -/
theorem findSome?_eq_of_unique {α β : Type} {l : List α} {f : α → Option β} {x : α} {y : β}
    (member : x ∈ l) (found : f x = some y) (unique : ∀ z ∈ l, ∀ w, f z = some w → w = y) :
    l.findSome? f = some y := by
  cases search : l.findSome? f with
  | none =>
    have missing := List.findSome?_eq_none_iff.mp search x member
    rw [found] at missing
    cases missing
  | some w =>
    obtain ⟨z, among, same⟩ := List.exists_of_findSome?_eq_some search
    rw [unique z among w same]

/-! ### Headings -/

theorem of_heading?_eq_some {keywords : List Text} {t keyword name : Text}
    (found : heading? keywords t = some (keyword, name)) :
    keyword ∈ keywords ∧ ∃ rest, t = keyword ++ ':' :: rest ∧ name = Text.trim rest := by
  obtain ⟨k, member, same⟩ := List.exists_of_findSome?_eq_some found
  obtain ⟨rest, after, pair⟩ := Option.map_eq_some_iff.mp same
  cases pair
  refine ⟨member, rest, ?_, rfl⟩
  rw [Text.afterPrefix?_eq_some.mp after, List.append_assoc]
  rfl

/-- A keyword and a colon are a heading exactly of the keywords that it is among. -/
theorem heading?_of_mem {keywords : List Text} (plain : ∀ k ∈ keywords, ':' ∉ k) {keyword : Text}
    (bare : ':' ∉ keyword) (member : keyword ∈ keywords) (rest : Text) :
    heading? keywords (keyword ++ ':' :: rest) = some (keyword, Text.trim rest) := by
  apply findSome?_eq_of_unique member
  · have after := Text.afterPrefix?_eq_some.mpr
      (show keyword ++ ':' :: rest = (keyword ++ [':']) ++ rest by simp)
    rw [after]
    rfl
  · intro k among pair same
    obtain ⟨others, after, rfl⟩ := Option.map_eq_some_iff.mp same
    have split := Text.afterPrefix?_eq_some.mp after
    rw [List.append_assoc] at split
    obtain ⟨rfl, rfl⟩ := Text.colon_unique bare (plain k among) split
    rfl

theorem heading?_of_not_mem {keywords : List Text} (plain : ∀ k ∈ keywords, ':' ∉ k) {keyword : Text}
    (bare : ':' ∉ keyword) (absent : keyword ∉ keywords) (rest : Text) :
    heading? keywords (keyword ++ ':' :: rest) = none := by
  cases search : heading? keywords (keyword ++ ':' :: rest) with
  | none => rfl
  | some pair =>
    obtain ⟨k, name⟩ := pair
    obtain ⟨member, others, split, _⟩ := of_heading?_eq_some search
    obtain ⟨rfl, _⟩ := Text.colon_unique bare (plain k member) split
    exact absurd member absent

namespace Dialect

variable {d : Dialect}

theorem keywords_bare (d : Dialect) (kind : Heading) : d.keywords kind.bare = d.keywords kind := by
  cases kind with
  | scenario nested outline => cases outline <;> rfl
  | _ => rfl

theorem bare_mem_kinds (kind : Heading) : kind.bare ∈ kinds := by
  cases kind with
  | scenario nested outline => cases outline <;> simp [Heading.bare, kinds]
  | _ => simp [Heading.bare, kinds]

theorem Regular.colon (regular : d.Regular) {kind : Heading} {k : Text} (member : k ∈ d.keywords kind) :
    ':' ∉ k := (regular.heading k (d.keywords_subset kind k member)).colon

/-- A keyword of a kind and a colon are a heading of this kind. -/
theorem Regular.heading?_eq (regular : d.Regular) (kind : Heading) {keyword : Text}
    (member : keyword ∈ d.keywords kind) (rest : Text) :
    heading? (d.keywords kind) (keyword ++ ':' :: rest) = some (keyword, Text.trim rest) :=
  heading?_of_mem (fun _ among => regular.colon among) (regular.colon member) member rest

/-- A keyword of a kind and a colon are a heading of no other kind. -/
theorem Regular.heading?_other (regular : d.Regular) (kind other : Heading) (apart : kind.bare ≠ other.bare)
    {keyword : Text} (member : keyword ∈ d.keywords kind) (rest : Text) :
    heading? (d.keywords other) (keyword ++ ':' :: rest) = none := by
  apply heading?_of_not_mem (fun _ among => regular.colon among) (regular.colon member)
  rw [← keywords_bare] at member ⊢
  exact regular.distinct _ (bare_mem_kinds kind) _ (bare_mem_kinds other) apart _ member

end Dialect

/-! ### Steps -/

namespace Dialect

variable {d : Dialect}

/-- The step keywords that a dialect has, with what they state: the star and its own ones. -/
def Opens (d : Dialect) (keyword : Text) (type : StepType) : Prop :=
  (keyword = ['*'] ∧ type = .unknown) ∨ (keyword, type) ∈ firstOfEach d.stepGroups

theorem firstOfEach_subset {entries : List (Text × StepType)} {entry : Text × StepType}
    (member : entry ∈ firstOfEach entries) : entry ∈ entries := by
  induction entries with
  | nil => exact member
  | cons first rest ih =>
    obtain rfl | later := List.mem_cons.mp member
    · exact List.mem_cons_self
    · exact List.mem_cons_of_mem _ (ih (List.mem_filter.mp later).1)

theorem firstOfEach_unique {entries : List (Text × StepType)} {keyword : Text} {type other : StepType}
    (first : (keyword, type) ∈ firstOfEach entries) (second : (keyword, other) ∈ firstOfEach entries) :
    type = other := by
  induction entries with
  | nil => cases first
  | cons entry rest ih =>
    have later {kind : StepType} (member : (keyword, kind) ∈ firstOfEach (entry :: rest))
        (differs : entry ≠ (keyword, kind)) : keyword ≠ entry.1 ∧ (keyword, kind) ∈ firstOfEach rest := by
      obtain same | among := List.mem_cons.mp member
      · exact absurd same.symm differs
      · obtain ⟨among, apart⟩ := List.mem_filter.mp among
        exact ⟨by simpa using apart, among⟩
    by_cases here : entry = (keyword, type)
    · by_cases there : entry = (keyword, other)
      · exact (Prod.mk.inj (here.symm.trans there)).2
      · exact absurd (congrArg Prod.fst here).symm (later second there).1
    · have apart := later first here
      by_cases there : entry = (keyword, other)
      · exact absurd (congrArg Prod.fst there).symm apart.1
      · exact ih apart.2 (later second there).2

theorem of_step?_eq_some {t keyword text : Text} {type : StepType}
    (found : d.step? t = some (keyword, type, text)) :
    d.Opens keyword type ∧ ∃ rest, t = keyword ++ ' ' :: rest ∧ text = Text.trim rest := by
  rw [step?] at found
  split at found
  · rename_i rest star
    have split : t = ['*', ' '] ++ rest := Text.afterPrefix?_eq_some.mp star
    cases found
    exact ⟨.inl ⟨rfl, rfl⟩, rest, split, rfl⟩
  · obtain ⟨entry, member, same⟩ := List.exists_of_findSome?_eq_some found
    obtain ⟨rest, after, triple⟩ := Option.map_eq_some_iff.mp same
    cases triple
    refine ⟨.inr (List.mem_mergeSort.mp member), rest, ?_, rfl⟩
    rw [Text.afterPrefix?_eq_some.mp after, List.append_assoc]
    rfl

/-- No two step keywords of a regular dialect fit the same line. -/
theorem Regular.step_unique (regular : d.Regular) {entry other : Text × StepType}
    (here : entry ∈ d.stepGroups) (there : other ∈ d.stepGroups) {rest others : Text}
    (same : entry.1 ++ ' ' :: rest = other.1 ++ ' ' :: others) : entry.1 = other.1 ∧ rest = others := by
  have longer {first second : Text × StepType} (one : first ∈ d.stepGroups) (two : second ∈ d.stepGroups)
      {more : Text} (split : second.1 = first.1 ++ more) {rest others : Text}
      (tails : ' ' :: rest = more ++ ' ' :: others) : more = [] := by
    cases more with
    | nil => rfl
    | cons c more =>
      obtain ⟨rfl, _⟩ := List.cons.inj tails
      have starts : (first.1 ++ [' ']).isPrefixOf second.1 = true := by
        rw [List.isPrefixOf_iff_prefix, split]
        exact ⟨more, by simp⟩
      rw [regular.apart first one second two] at starts
      cases starts
  obtain ⟨more, split, tails⟩ | ⟨more, split, tails⟩ := List.append_eq_append_iff.mp same
  · obtain rfl := longer here there split tails
    exact ⟨by simpa using split.symm, (List.cons.inj tails).2⟩
  · obtain rfl := longer there here split tails
    exact ⟨by simpa using split, (List.cons.inj tails).2.symm⟩

theorem Regular.star_ne (regular : d.Regular) {entry : Text × StepType} (member : entry ∈ d.stepGroups)
    (rest : Text) : Text.afterPrefix? ['*', ' '] (entry.1 ++ rest) = none := by
  obtain ⟨nonempty, start, _, _⟩ := regular.step entry member
  cases starts : entry.1 with
  | nil => exact absurd starts nonempty
  | cons c others =>
    obtain ⟨_, free⟩ := start c (by rw [starts]; rfl)
    rw [List.cons_append, Text.afterPrefix?, if_neg]
    rintro rfl
    exact free (by decide)

/-- A step keyword and a space are a step of this keyword. -/
theorem Regular.step?_eq (regular : d.Regular) {keyword : Text} {type : StepType}
    (opens : d.Opens keyword type) (rest : Text) :
    d.step? (keyword ++ ' ' :: rest) = some (keyword, type, Text.trim rest) := by
  obtain ⟨rfl, rfl⟩ | member := opens
  · rfl
  · have here := firstOfEach_subset member
    rw [step?, regular.star_ne here]
    apply findSome?_eq_of_unique (List.mem_mergeSort.mpr member)
    · have after := Text.afterPrefix?_eq_some.mpr
        (show keyword ++ ' ' :: rest = (keyword ++ [' ']) ++ rest by simp)
      simp only [after, Option.map_some]
    · rintro ⟨k, other⟩ among triple same
      obtain ⟨others, after, rfl⟩ := Option.map_eq_some_iff.mp same
      have split := Text.afterPrefix?_eq_some.mp after
      rw [List.append_assoc] at split
      have among := List.mem_mergeSort.mp among
      obtain ⟨rfl, rfl⟩ := regular.step_unique here (firstOfEach_subset among) split
      rw [firstOfEach_unique member among]

/-- A heading is no step. -/
theorem Regular.step?_heading (regular : d.Regular) {keyword : Text} (member : keyword ∈ d.headings)
    (rest : Text) : d.step? (keyword ++ ':' :: rest) = none := by
  obtain ⟨nonempty, start, bare, _⟩ := regular.heading keyword member
  cases found : d.step? (keyword ++ ':' :: rest) with
  | none => rfl
  | some step =>
    obtain ⟨opener, type, text⟩ := step
    obtain ⟨⟨rfl, _⟩ | among, others, same, _⟩ := of_step?_eq_some found
    · cases keyword with
      | nil => exact absurd rfl nonempty
      | cons c more =>
        obtain ⟨rfl, _⟩ := List.cons.inj same
        exact absurd (by decide) (start _ rfl).2
    · have opens := firstOfEach_subset among
      obtain ⟨more, split, tails⟩ | ⟨more, split, tails⟩ := List.append_eq_append_iff.mp same
      · cases more with
        | nil => cases tails
        | cons c more =>
          obtain ⟨rfl, _⟩ := List.cons.inj tails
          have colon := (regular.step _ opens).colon
          rw [split] at colon
          exact absurd (List.mem_append_right _ List.mem_cons_self) colon
      · cases more with
        | nil => cases tails
        | cons c more =>
          obtain ⟨rfl, _⟩ := List.cons.inj tails
          have starts : (opener ++ [' ']).isPrefixOf keyword = true := by
            rw [List.isPrefixOf_iff_prefix, split]
            exact ⟨more, by simp⟩
          rw [regular.below _ opens keyword member] at starts
          cases starts

end Dialect

end Gherkin
