import Gherkin.Proofs.Document.Contents
import Gherkin.Proofs.Document.DocString
import Gherkin.Proofs.Document.Shapes

/-! # What is read can be printed

The blocks of a feature that was read hold only what a line can be read as: names and texts without white
space at their ends, descriptions that start nothing else, steps with either a table or a doc string
(`Gherkin.Block.Printable`, `Gherkin.printable_of_featureOf`). Their shape is that of all that is read, and the lines
of a doc string are lines of the document.
-/

namespace Gherkin

variable (d : Dialect)

/-- A step that is read as it is printed. -/
structure Step.Printable (s : Step) : Prop extends s.Shaped d where
  doc : ∀ doc ∈ s.doc, doc.Printable

/-- A block that is read as it is printed. -/
structure Block.Printable (b : Block) : Prop where
  keyword : b.keyword ∈ d.keywords b.kind
  name : Inline b.name
  trimmed : Text.Trimmed (· == '\n') b.description
  description : ∀ line ∈ descriptionLines b.description, DescriptionLine d line
  tags : ∀ tag ∈ b.tags, isTagName tag = true
  untagged : ∀ nested, b.kind = .background nested → b.tags = []
  steps : ∀ s ∈ b.steps, s.Printable d
  unnumbered : ∀ s ∈ b.steps, s.forgetLines = s
  stepless : b.kind.hasSteps = false → b.steps = []
  rows : ∀ cells ∈ b.rows, PrintableCells cells
  headed : b.header = none → b.body = []
  rowless : b.kind ≠ .examples → b.rows = []

variable {d}

theorem Step.Printable.forgetLines {s : Step} (printable : s.Printable d) : s.forgetLines.Printable d where
  opens := printable.opens
  nonempty := printable.nonempty
  inline := printable.inline
  single := printable.single.imp (fun none => by rw [Step.forgetLines, none]; rfl)
    fun none => by rw [Step.forgetLines, none]; rfl
  table := by
    intro table same
    obtain ⟨table, found, rfl⟩ := Option.map_eq_some_iff.mp same
    obtain ⟨nonempty, cells⟩ := printable.table table found
    refine ⟨by simpa [DataTable.forgetLines] using nonempty, fun row member => ?_⟩
    obtain ⟨row, among, rfl⟩ := List.mem_map.mp member
    exact cells row among
  labelled := by
    intro doc same
    obtain ⟨doc, found, rfl⟩ := Option.map_eq_some_iff.mp same
    exact printable.labelled doc found
  doc := by
    intro doc same
    obtain ⟨doc, found, rfl⟩ := Option.map_eq_some_iff.mp same
    exact ⟨(printable.doc doc found).content, (printable.doc doc found).mediaType⟩

/-! ### Doc strings -/

theorem mem_dropBlankEnd {lines : List Text} {line : Text} (member : line ∈ DocString.dropBlankEnd lines) :
    line ∈ lines := by
  have member := List.dropWhile_subset _ (List.mem_reverse.mp member)
  exact List.mem_reverse.mp member

/-- A doc string that was read from lines without carriage returns is read as it is printed. -/
theorem DocString.printable_contentOf {fence : Fence} {indent line : Nat} {closed : Bool} {lines : List Text}
    {mediaType : Option Text} (plain : ∀ line ∈ lines, '\n' ∉ line ∧ '\r' ∉ line)
    (media : ∀ type ∈ mediaType, type ≠ [] ∧ Inline type) :
    DocString.Printable ⟨contentOf fence indent closed lines, mediaType, fence, line⟩ := by
  have kept : ∀ line ∈ lines.map (contentLine fence indent),
      '\n' ∉ line ∧ '\r' ∉ line ∧ fence.Kept line := by
    intro content member
    obtain ⟨line, among, rfl⟩ := List.mem_map.mp member
    have inside {c : Char} (inside : c ∈ contentLine fence indent line) : c ∈ line ∨ c ∈ fence.text :=
      (Text.mem_replace inside).imp mem_deindent id
    obtain ⟨feeds, returns⟩ := plain line among
    have clean : '\n' ∉ fence.text ∧ '\r' ∉ fence.text := by cases fence <;> decide
    exact ⟨fun feed => (inside feed).elim feeds clean.1, fun back => (inside back).elim returns clean.2,
      Fence.kept_unescape _⟩
  refine ⟨?_, media⟩
  cases closed with
  | true => exact ⟨_, rfl, kept⟩
  | false => exact ⟨_, rfl, fun line member => kept line (mem_dropBlankEnd member)⟩

/-- A doc string that stands in lines without carriage returns is read as it is printed. -/
theorem DocString.StandsIn.printable {doc : DocString} {n : Nat} {lines : List Text} (stands : doc.StandsIn n lines)
    (plain : ∀ line ∈ lines, '\n' ∉ line ∧ '\r' ∉ line) (labelled : doc.Labelled) : doc.Printable := by
  obtain ⟨content, mediaType, fence, line⟩ := doc
  obtain ⟨front, opening, inner, rest, rfl, -, -, -, -, same⟩ := stands
  dsimp only at same
  rw [same]
  exact printable_contentOf (fun line inside => plain line (by simp [inside])) labelled

/-! ### Sections -/

/-- A section that is read as it is printed. -/
structure Section.Printable (d : Dialect) (s : Section) : Prop extends s.Shaped d where
  docs : ∀ step ∈ s.steps, ∀ doc ∈ step.doc, doc.Printable

/-- The sections of a document without carriage returns. -/
theorem printable_sectionsFrom (regular : d.Regular) {lines : List Text}
    (plain : ∀ line ∈ lines, '\n' ∉ line ∧ '\r' ∉ line) (p : Position) (n : Nat) {tags : List Tag}
    (named : ∀ tag ∈ tags, isTagName tag.name = true) :
    ∀ s ∈ sectionsFrom tags (cutAtHeadings (numberFrom n (marksFrom d p lines))).2, s.Printable d := by
  intro s member
  have shaped := shaped_sectionsFrom regular (fun line among => (plain line among).1) p n named s member
  obtain ⟨_, stands⟩ := docStrings_cutAtHeadings regular lines p n
  refine ⟨shaped, fun step inside doc held => ?_⟩
  have stood := stands _ (mem_of_mem_sectionsFrom member) doc
    (List.mem_append_right _ (List.mem_filterMap.mpr ⟨step, inside, held⟩))
  exact stood.printable plain ((shaped.below.steps step inside).labelled doc held)

/-! ### Blocks -/

namespace Section.Printable

variable {s : Section}

theorem names (printable : s.Printable d) : ∀ tag ∈ s.tags.map Tag.name, isTagName tag = true := by
  simpa using printable.tags

theorem steps (printable : s.Printable d) :
    ∀ step ∈ s.steps.map Step.forgetLines, step.Printable d := by
  intro step member
  obtain ⟨step, among, rfl⟩ := List.mem_map.mp member
  have shaped := printable.below.steps step among
  exact Step.Printable.forgetLines ⟨shaped, printable.docs step among⟩

theorem unnumbered (s : Section) : ∀ step ∈ s.steps.map Step.forgetLines, step.forgetLines = step := by
  intro step member
  obtain ⟨step, _, rfl⟩ := List.mem_map.mp member
  exact step.forgetLines_forgetLines

theorem examples (printable : s.Printable d) (kind : s.heading.kind = .examples) :
    s.toExamples.block.Printable d where
  keyword := printable.keyword kind
  name := printable.below.heading.2
  trimmed := s.trimmed
  description := printable.description
  tags := printable.names
  untagged := by rintro _ ⟨⟩
  steps := List.forall_mem_nil _
  unnumbered := List.forall_mem_nil _
  stepless _ := rfl
  rows := by
    have shown : s.toExamples.block.rows = s.rows.map Row.cells := by
      rw [← s.rows_toExamples, List.map_append, ← Option.toList_map]
      rfl
    rw [shown, List.forall_mem_map]
    exact printable.rows
  headed := by
    intro headless
    have rowless := Section.body_toExamples (Option.map_eq_none_iff.mp headless)
    rw [Examples.block, rowless]
    rfl
  rowless different := absurd rfl different

theorem background (printable : s.Printable d) {inRule : Bool} (kind : s.heading.kind = .background inRule)
    (nested : Bool) : (s.toBackground.block nested).Printable d where
  keyword := (printable.keyword kind :)
  name := printable.below.heading.2
  trimmed := s.trimmed
  description := printable.description
  tags := List.forall_mem_nil _
  untagged _ _ := rfl
  steps := printable.steps
  unnumbered := unnumbered s
  stepless := by rintro ⟨⟩
  rows := List.forall_mem_nil _
  headed _ := rfl
  rowless _ := rfl

theorem scenario (printable : s.Printable d) {inRule outline : Bool}
    (kind : s.heading.kind = .scenario inRule outline) (nested : Bool) (examples : List Examples) :
    ((s.toScenario outline examples).block nested).Printable d where
  keyword := by cases outline <;> exact (printable.keyword kind :)
  name := printable.below.heading.2
  trimmed := s.trimmed
  description := printable.description
  tags := printable.names
  untagged := by rintro _ ⟨⟩
  steps := printable.steps
  unnumbered := unnumbered s
  stepless := by rintro ⟨⟩
  rows := List.forall_mem_nil _
  headed _ := rfl
  rowless _ := rfl

theorem rule (printable : s.Printable d) (kind : s.heading.kind = .rule) (children : List Element) :
    (s.toRule children).block.Printable d where
  keyword := printable.keyword kind
  name := printable.below.heading.2
  trimmed := s.trimmed
  description := printable.description
  tags := printable.names
  untagged := by rintro _ ⟨⟩
  steps := List.forall_mem_nil _
  unnumbered := List.forall_mem_nil _
  stepless _ := rfl
  rows := List.forall_mem_nil _
  headed _ := rfl
  rowless _ := rfl

end Section.Printable

/-! ### Features -/

/-- Whether all blocks of a layout are read as they are printed. -/
def Layout.Printable (d : Dialect) (layout : Layout) : Prop := ∀ entry ∈ layout, entry.2.Printable d

/-- Nodes whose blocks are read as they are printed, at every level. -/
structure Nodes.Printable (d : Dialect) (n : Nodes) : Prop where
  examples : ∀ e ∈ n.examples, e.block.Printable d
  inner : ∀ e ∈ n.inner, ∀ level nested, (e.layout level nested).Printable d
  outer : ∀ c ∈ n.outer, ∀ level, (c.layout level).Printable d

namespace Nodes.Printable

variable {n : Nodes}

theorem addElement (printable : n.Printable d) {e : Element}
    (element : ∀ level nested, (e.layout level nested).Printable d) (inRule : Bool) :
    (n.addElement inRule e).Printable d := by
  cases inRule with
  | true => exact ⟨List.forall_mem_nil _, List.forall_mem_cons.mpr ⟨element, printable.inner⟩, printable.outer⟩
  | false =>
    exact ⟨List.forall_mem_nil _, printable.inner,
      List.forall_mem_cons.mpr ⟨fun level => element level false, printable.outer⟩⟩

theorem add (printable : n.Printable d) {s : Section} (below : s.Printable d) : (n.add s).Printable d := by
  rw [Nodes.add]
  split
  · exact printable
  · rename_i kind
    refine ⟨List.forall_mem_nil _, List.forall_mem_nil _,
      List.forall_mem_cons.mpr ⟨fun level => ?_, printable.outer⟩⟩
    refine List.forall_mem_cons.mpr ⟨below.rule kind n.inner, fun entry member => ?_⟩
    obtain ⟨e, among, inside⟩ := List.mem_flatMap.mp member
    exact printable.inner e among _ _ entry inside
  · rename_i inRule kind
    refine printable.addElement (fun level nested => ?_) inRule
    exact List.forall_mem_singleton.mpr (below.background kind nested)
  · rename_i inRule outline kind
    refine printable.addElement (fun level nested => ?_) inRule
    refine List.forall_mem_cons.mpr ⟨below.scenario kind nested n.examples, fun entry member => ?_⟩
    obtain ⟨e, among, rfl⟩ := List.mem_map.mp member
    exact printable.examples e among
  · rename_i kind
    exact ⟨List.forall_mem_cons.mpr ⟨below.examples kind, printable.examples⟩, printable.inner,
      printable.outer⟩

end Nodes.Printable

theorem printable_nodes {sections : List Section} (printable : ∀ s ∈ sections, s.Printable d) :
    (nodes sections).Printable d := by
  induction sections with
  | nil => exact ⟨List.forall_mem_nil _, List.forall_mem_nil _, List.forall_mem_nil _⟩
  | cons s rest ih =>
    rw [List.forall_mem_cons] at printable
    exact (ih printable.2).add printable.1

/-- A feature that was read has blocks that are read as they are printed. -/
theorem printable_of_featureOf {language : Text} {s : Section} {rest : List Section} {f : Feature}
    (printable : ∀ section_ ∈ s :: rest, section_.Printable d) (kind : s.heading.kind = .feature)
    (read : featureOf language (s :: rest) = some f) :
    f.block.Printable d ∧ f.layout.Printable d ∧ f.language = language := by
  rw [List.forall_mem_cons] at printable
  obtain ⟨first, others⟩ := printable
  cases read
  refine ⟨⟨first.keyword kind, first.below.heading.2, s.trimmed, first.description, first.names,
    by rintro _ ⟨⟩, List.forall_mem_nil _, List.forall_mem_nil _, fun _ => rfl, List.forall_mem_nil _, fun _ => rfl,
    fun _ => rfl⟩, fun entry member => ?_, rfl⟩
  obtain ⟨c, among, inside⟩ := List.mem_flatMap.mp member
  exact (printable_nodes others).outer c among _ entry inside

end Gherkin
