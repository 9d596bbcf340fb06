import Gherkin.Proofs.Document.RoundTrip

/-! # Well-formed trees

However much of a text is wrong or missing, the tree that is read from it is well formed at each of its nodes
(`Gherkin.parse_well_formed`). The sections of a text have their shape already, so a node has its own as soon as it
is made of a section and of nodes that have theirs.
-/

namespace Gherkin

/-! ### Well-formed nodes -/

/-- A tag whose name is an at sign with word characters and hyphens behind it, at least one of them. -/
def Tag.Shaped (tag : Tag) : Prop :=
  ∃ word, tag.name = '@' :: word ∧ word ≠ [] ∧ ∀ c ∈ word, isWord c = true ∨ c = '-'

/-- A heading with its description as they can be read: empty lines stand only inside of the description, and none
of its lines would be read as anything else. -/
structure Titled (d : Dialect) (keywords : List Text) (keyword name description : Text) : Prop where
  keyword : keyword ∈ keywords
  name : Inline name
  ends : description = [] ∨ (Text.splitAtChar '\n' description).head? ≠ some [] ∧
    (Text.splitAtChar '\n' description).getLast? ≠ some []
  lines : ∀ line ∈ Text.splitAtChar '\n' description, Text.Trimmed isBlank line ∧ line.head? ≠ some '#' ∧
    d.startsElement line = false

/-- Examples whose rows have cells, and whose first row is their header. -/
structure Examples.Shaped (d : Dialect) (e : Examples) : Prop where
  titled : Titled d d.examples e.keyword e.name e.description
  tags : ∀ tag ∈ e.tags, tag.Shaped
  rows : ∀ row ∈ e.header.toList ++ e.body, PrintableCells row.cells
  headed : e.header = none → e.body = []

structure Background.Shaped (d : Dialect) (b : Background) : Prop where
  titled : Titled d d.background b.keyword b.name b.description
  steps : ∀ s ∈ b.steps, s.Shaped d

structure Scenario.Shaped (d : Dialect) (s : Scenario) : Prop where
  titled : Titled d (if s.isOutline then d.outline else d.scenario) s.keyword s.name s.description
  tags : ∀ tag ∈ s.tags, tag.Shaped
  steps : ∀ step ∈ s.steps, step.Shaped d
  examples : ∀ e ∈ s.examples, e.Shaped d

def Element.Shaped (d : Dialect) : Element → Prop
  | .background b => b.Shaped d
  | .scenario s => s.Shaped d

structure Rule.Shaped (d : Dialect) (r : Rule) : Prop where
  titled : Titled d d.rule r.keyword r.name r.description
  tags : ∀ tag ∈ r.tags, tag.Shaped
  children : ∀ e ∈ r.children, e.Shaped d

def Child.Shaped (d : Dialect) : Child → Prop
  | .rule r => r.Shaped d
  | .element e => e.Shaped d

/-- A feature that is well formed, with all that it holds. -/
structure Feature.Shaped (d : Dialect) (f : Feature) : Prop where
  titled : Titled d d.feature f.keyword f.name f.description
  tags : ∀ tag ∈ f.tags, tag.Shaped
  children : ∀ c ∈ f.children, c.Shaped d

variable {d : Dialect}

theorem Tag.shaped_of_isTagName {tag : Tag} (named : isTagName tag.name = true) : tag.Shaped := by
  unfold isTagName at named
  split at named
  · rename_i word same
    obtain ⟨nonempty, chars⟩ := Bool.and_eq_true_iff.mp named
    refine ⟨word, same, by simpa using nonempty, fun c member => ?_⟩
    have char := List.all_eq_true.mp chars c member
    simpa [isTagChar] using char
  · cases named

/-! ### Sections -/

/-- An empty line starts nothing, whatever the keywords are. -/
theorem Dialect.startsElement_nil (d : Dialect) : d.startsElement [] = false := by
  have heading : heading? d.headings [] = none := by
    cases found : heading? d.headings [] with
    | none => rfl
    | some entry =>
      obtain ⟨_, rest, split, _⟩ := of_heading?_eq_some found
      exact absurd split.symm (List.append_ne_nil_of_right_ne_nil _ (List.cons_ne_nil _ _))
  have step : d.step? [] = none := by
    cases found : d.step? [] with
    | none => rfl
    | some entry =>
      obtain ⟨_, rest, split, _⟩ := of_step?_eq_some found
      exact absurd split.symm (List.append_ne_nil_of_right_ne_nil _ (List.cons_ne_nil _ _))
  rw [startsElement, heading, step]
  rfl

theorem DescriptionLine.startsNothing {line : Text} (known : DescriptionLine d line) :
    d.startsElement line = false := by
  by_cases empty : line = []
  · rw [empty]
    exact d.startsElement_nil
  · exact known.plain empty

namespace Section.Shaped

variable {s : Section} (shaped : s.Shaped d)

include shaped

/-- The heading of a section, with the description below it. -/
theorem titled {kind : Heading} (same : s.heading.kind = kind) :
    Titled d (d.keywords kind) s.heading.keyword s.heading.name s.description where
  keyword := shaped.keyword same
  name := shaped.below.heading.2
  ends := by
    by_cases empty : s.description = []
    · exact .inl empty
    · refine .inr ⟨Text.head_splitAtChar empty fun first => ?_, Text.getLast_splitAtChar empty fun last => ?_⟩
      · cases s.trimmed.1 _ first
      · cases s.trimmed.2 _ last
  lines := by
    intro line member
    have known : DescriptionLine d line := by
      by_cases empty : s.description = []
      · rw [empty] at member
        obtain rfl := List.mem_singleton.mp member
        exact ⟨⟨.nil, List.not_mem_nil⟩, by rintro ⟨⟩, fun some => absurd rfl some⟩
      · refine shaped.description line ?_
        rwa [descriptionLines, if_neg (by simpa using empty)]
    exact ⟨known.inline.1, known.noComment, known.startsNothing⟩

theorem named : ∀ tag ∈ s.tags, tag.Shaped := fun tag member => Tag.shaped_of_isTagName (shaped.tags tag member)

theorem examples (kind : s.heading.kind = .examples) : s.toExamples.Shaped d where
  titled := shaped.titled kind
  tags := shaped.named
  rows := s.rows_toExamples ▸ shaped.rows
  headed := Section.body_toExamples

theorem background {inRule : Bool} (kind : s.heading.kind = .background inRule) : s.toBackground.Shaped d where
  titled := shaped.titled kind
  steps := shaped.below.steps

theorem scenario {inRule outline : Bool} (kind : s.heading.kind = .scenario inRule outline)
    {examples : List Examples} (all : ∀ e ∈ examples, e.Shaped d) : (s.toScenario outline examples).Shaped d where
  titled := by cases outline <;> exact shaped.titled kind
  tags := shaped.named
  steps := shaped.below.steps
  examples := all

theorem rule (kind : s.heading.kind = .rule) {children : List Element} (all : ∀ e ∈ children, e.Shaped d) :
    (s.toRule children).Shaped d where
  titled := shaped.titled kind
  tags := shaped.named
  children := all

end Section.Shaped

/-! ### Nodes -/

/-- Nodes that are well formed, at every level that is still open. -/
structure Nodes.Shaped (d : Dialect) (n : Nodes) : Prop where
  examples : ∀ e ∈ n.examples, e.Shaped d
  inner : ∀ e ∈ n.inner, e.Shaped d
  outer : ∀ c ∈ n.outer, c.Shaped d

namespace Nodes.Shaped

variable {n : Nodes} (shaped : n.Shaped d)

include shaped

theorem addElement {e : Element} (element : e.Shaped d) (inRule : Bool) : (n.addElement inRule e).Shaped d := by
  cases inRule with
  | true => exact ⟨List.forall_mem_nil _, List.forall_mem_cons.mpr ⟨element, shaped.inner⟩, shaped.outer⟩
  | false => exact ⟨List.forall_mem_nil _, shaped.inner, List.forall_mem_cons.mpr ⟨element, shaped.outer⟩⟩

/-- A section in front of well-formed nodes takes those that belong to it, and leaves well-formed ones. -/
theorem add {s : Section} (first : s.Shaped d) : (n.add s).Shaped d := by
  rw [Nodes.add]
  split
  · exact shaped
  · rename_i kind
    have rule : Child.Shaped d (.rule (s.toRule n.inner)) := first.rule kind shaped.inner
    exact ⟨List.forall_mem_nil _, List.forall_mem_nil _, List.forall_mem_cons.mpr ⟨rule, shaped.outer⟩⟩
  · rename_i inRule kind
    have element : Element.Shaped d (.background s.toBackground) := first.background kind
    exact shaped.addElement element inRule
  · rename_i inRule outline kind
    have element : Element.Shaped d (.scenario (s.toScenario outline n.examples)) :=
      first.scenario kind shaped.examples
    exact shaped.addElement element inRule
  · rename_i kind
    exact ⟨List.forall_mem_cons.mpr ⟨first.examples kind, shaped.examples⟩, shaped.inner, shaped.outer⟩

end Nodes.Shaped

theorem shaped_nodes {sections : List Section} (shaped : ∀ s ∈ sections, s.Shaped d) : (nodes sections).Shaped d := by
  induction sections with
  | nil => exact ⟨List.forall_mem_nil _, List.forall_mem_nil _, List.forall_mem_nil _⟩
  | cons s rest ih =>
    rw [List.forall_mem_cons] at shaped
    exact (ih shaped.2).add shaped.1

/-- A feature that was read is well formed, and knows its language. -/
theorem shaped_of_documentOf (regular : d.Regular) {lines : List Text} (plain : ∀ line ∈ lines, '\n' ∉ line)
    {language : Text} {uri : Option Text} {count : Nat} {early : List Diagnostic} {f : Feature}
    (read : (documentOf language uri count early (numberFrom 1 (marksFrom d .start lines))).feature = some f) :
    f.Shaped d ∧ f.language = language := by
  obtain ⟨tags, s, rest, named, sections, kind, collected⟩ := exists_sections_of_documentOf regular read
  have shaped := shaped_sectionsFrom regular plain .start 1 named
  rw [sections, List.forall_mem_cons] at shaped
  obtain ⟨first, others⟩ := shaped
  cases collected
  exact ⟨⟨first.titled kind, first.named, (shaped_nodes others).outer⟩, rfl⟩

/-! ### Texts -/

/-- Every text is read, and its tree is well formed in the dialect of its language: names and step texts are single
lines without white space at their ends, steps have a text and never both a table and a doc string, tables have
rows, rows have cells, tags have names, and descriptions hold nothing that would be read as something else. -/
theorem parse_well_formed (default text : Text) (uri : Option Text) :
    ∃ document, ({ language := default } : Parser).parse .builtIn text uri = .ok document ∧
      ∀ f ∈ document.feature, ∃ d, Languages.builtIn.find? f.language = some d ∧ f.Shaped d := by
  refine ⟨_, Parser.parse_lenient rfl .builtIn text uri, fun f found => ?_⟩
  obtain ⟨language, early, known, -, read⟩ := parseLenient_eq default (Text.lines text)
  obtain ⟨_, regular⟩ := regular_of_find? known
  rw [read text uri rfl] at found
  have plain : ∀ line ∈ Text.lines text, '\n' ∉ line := fun line => Text.lineFeed_notMem_of_mem_lines
  obtain ⟨shaped, rfl⟩ := shaped_of_documentOf regular plain found
  exact ⟨_, known, shaped⟩

/-- A text with a tag that is none, and with a doc string that is left open. -/
theorem parse_well_formed_truncated :
    ∃ document f d, ({} : Parser).parse .builtIn
        "# language: fr\n@a @\nFonctionnalité: f\n\n# note\n b \nScénario: s\nSoit c\n|\nEt d\n\"\"\"\ne" none =
          .ok document ∧
      document.feature = some f ∧
      document.diagnostics = [⟨2, .malformedTag "@"⟩, ⟨11, .unclosedDocString .quotes⟩] ∧
      Languages.builtIn.find? "fr" = some d ∧ f.Shaped d := by
  obtain ⟨document, read, shaped⟩ := parse_well_formed "en"
    "# language: fr\n@a @\nFonctionnalité: f\n\n# note\n b \nScénario: s\nSoit c\n|\nEt d\n\"\"\"\ne" none
  have evaluated : document.diagnostics = [⟨2, .malformedTag "@"⟩, ⟨11, .unclosedDocString .quotes⟩] ∧
      document.feature.map Feature.language = some "fr" := by
    have known : Languages.builtIn.find? "fr" = some .french := rfl
    obtain rfl := Except.ok.inj ((Parser.parse_known rfl (by cbv) known).symm.trans read)
    constructor <;> cbv
  obtain ⟨reported, language⟩ := evaluated
  obtain ⟨f, found, language⟩ := Option.map_eq_some_iff.mp language
  obtain ⟨d, known, wellFormed⟩ := shaped f found
  rw [language] at known
  exact ⟨document, f, d, read, found, reported, known, wellFormed⟩

end Gherkin
