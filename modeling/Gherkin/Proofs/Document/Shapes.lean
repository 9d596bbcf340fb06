import Gherkin.Proofs.Document.Blocks
import Gherkin.Proofs.Document.Nodes
import Gherkin.Proofs.Document.Table

/-! # The shape of what is read

What the sections of every text hold: names and step texts without white space at their ends, steps with either a
table or a doc string, rows with cells, tags with names, and descriptions that start nothing else
(`Gherkin.shaped_sectionsFrom`). The shape of a mark comes from the line that it marks, and that of a step from the
place where its table or its doc string stands.
-/

namespace Gherkin

/-- Whether a text can stand at the end of a line and be read there. -/
def Inline (t : Text) : Prop := Text.Trimmed isBlank t ∧ '\n' ∉ t

/-- Whether the media type of a doc string can stand behind a fence. -/
def DocString.Labelled (doc : DocString) : Prop := ∀ type ∈ doc.mediaType, type ≠ [] ∧ Inline type

variable (d : Dialect)

/-- A line of a description that is read as such: it starts no comment and nothing else. -/
structure DescriptionLine (line : Text) : Prop where
  inline : Inline line
  noComment : line.head? ≠ some '#'
  plain : line ≠ [] → d.startsElement line = false

/-- A step as it can be read: it has a text, and a table with rows or a doc string, but not both. -/
structure Step.Shaped (s : Step) : Prop where
  opens : d.Opens s.keyword s.type
  nonempty : s.text ≠ []
  inline : Inline s.text
  single : s.table = none ∨ s.doc = none
  table : ∀ table ∈ s.table, table.rows ≠ [] ∧ ∀ row ∈ table.rows, PrintableCells row.cells
  labelled : ∀ doc ∈ s.doc, doc.Labelled

variable {d}

theorem inline_trim {t : Text} (plain : '\n' ∉ t) : Inline (Text.trim t) :=
  ⟨Text.trimmed_trimBy t, fun member => plain (Text.mem_of_mem_trimBy member)⟩

/-- A text that ends as a trimmed one does is not blank. -/
theorem Text.Trimmed.trim_ne_nil {before : Text} {c : Char} {rest : Text}
    (trimmed : Trimmed isBlank (before ++ c :: rest)) (blank : isBlank c = true) : trim rest ≠ [] := by
  intro empty
  obtain ⟨left, right, split, front, back⟩ := trimBy_cover isBlank rest
  rw [← trim, empty, List.append_nil] at split
  have all : ∀ x ∈ c :: rest, isBlank x = true := by
    rw [List.forall_mem_cons, split]
    refine ⟨blank, fun x member => ?_⟩
    obtain inLeft | inRight := List.mem_append.mp member
    · exact front x inLeft
    · exact back x inRight
  have last := List.getLast?_eq_some_getLast (List.cons_ne_nil c rest)
  have ends := trimmed.2 ((c :: rest).getLast (List.cons_ne_nil c rest)) (by
    rw [List.getLast?_append, last]
    rfl)
  rw [all _ (List.getLast_mem _)] at ends
  cases ends

/-! ### Marks -/

/-- What is known of the mark of a line that holds no line feed. -/
def Mark.Shaped (d : Dialect) : Mark → Prop
  | .description line => DescriptionLine d line
  | .heading kind keyword name => keyword ∈ d.keywords kind ∧ Inline name
  | .step keyword type text => d.Opens keyword type ∧ text ≠ [] ∧ Inline text
  | .row cells => PrintableCells cells
  | .openDoc _ mediaType _ => ∀ type ∈ mediaType, type ≠ [] ∧ Inline type
  | _ => True

theorem Marking.shaped {p next : Position} {raw : Text} {mark : Mark} (marking : Marking d p raw mark next)
    (feeds : '\n' ∉ raw) : mark.Shaped d := by
  have line : '\n' ∉ Text.trim raw := (inline_trim feeds).2
  have trimmed : Text.Trimmed isBlank (Text.trim raw) := Text.trimmed_trimBy raw
  cases marking with
  | gap => exact ⟨⟨.nil, List.not_mem_nil⟩, by rintro ⟨⟩, fun some => absurd rfl some⟩
  | description nonempty noComment plain => exact ⟨inline_trim feeds, noComment, fun _ => plain⟩
  | heading member split _ _ =>
    rw [split] at line
    exact ⟨member, inline_trim fun inside => line (by simp [inside])⟩
  | step found _ =>
    obtain ⟨opens, rest, split, rfl⟩ := Dialect.of_step?_eq_some found
    rw [split] at line trimmed
    exact ⟨opens, trimmed.trim_ne_nil (by decide), inline_trim fun inside => line (by simp [inside])⟩
  | row _ => exact printable_splitRow _
  | @openDoc inScenario nested describing fence =>
    intro type same
    have inline : Inline (Text.trim ((Text.trim raw).drop 3)) :=
      inline_trim fun inside => line (List.mem_of_mem_drop inside)
    split at same
    · cases same
    · rename_i nonempty
      cases same
      exact ⟨by simpa using nonempty, inline⟩
  | _ => trivial

/-! ### Steps -/

/-- What the marks from a place on hold in front of their first step has the shape of a step's table or doc string,
and is never both. -/
structure StepsBelow.Shaped (d : Dialect) (place : Place) (s : StepsBelow) : Prop extends
    StepsBelow.Stands place s where
  steps : ∀ step ∈ s.steps, step.Shaped d
  rows : ∀ row ∈ s.rows, PrintableCells row.cells
  doc : ∀ doc ∈ s.doc, doc.Labelled
  single : s.rows = [] ∨ s.doc = none

namespace StepsBelow.Shaped

variable {s : StepsBelow} {place next : Place}

/-- Steps with nothing in front of them have their shape where they stand. -/
theorem of_bare (stands : s.Stands place) (steps : ∀ step ∈ s.steps, step.Shaped d) (rowless : s.rows = [])
    (docless : s.doc = none) : s.Shaped d place :=
  ⟨stands, steps, by simp [rowless], by simp [docless], .inl rowless⟩

theorem nil : (stepsBelow []).Shaped d place := of_bare .nil (List.forall_mem_nil _) rfl rfl

theorem bare (shaped : s.Shaped d next) (stands : s.Stands place) (rows : next.afterRow? = none)
    (argument : next.isArgument = false) : s.Shaped d place :=
  of_bare stands shaped.steps (shaped.rowless rows) (shaped.docless argument)

theorem afterBlank (shaped : s.Shaped d place.afterBlank) (stands : s.Stands place) : s.Shaped d place := by
  cases place with
  | rows inScenario nested => exact shaped.bare stands rfl rfl
  | exampleRows nested => exact shaped.bare stands rfl rfl
  | _ => exact shaped

/-- A step with what was read below it has its shape. -/
theorem step (shaped : s.Shaped d place) {keyword text : Text} {type : StepType} (opens : d.Opens keyword type)
    (nonempty : text ≠ []) (inline : Inline text) (line : Nat) :
    Step.Shaped d ⟨keyword, type, text, if s.rows.isEmpty then none else some ⟨s.rows⟩, s.doc, line⟩ where
  opens := opens
  nonempty := nonempty
  inline := inline
  single := shaped.single.imp (fun empty => if_pos (by simp [empty])) id
  table := by
    intro table same
    split at same
    · cases same
    · rename_i rows
      cases same
      exact ⟨by simpa using rows, shaped.rows⟩
  labelled := shaped.doc

end StepsBelow.Shaped

/-- A line in front of marks of some shape: what is read has its shape at the place in front of the line. -/
theorem Marking.shapes {p next : Position} {raw : Text} {mark : Mark} (marking : Marking d p raw mark next)
    (feeds : '\n' ∉ raw) {s : StepsBelow} (below : s.Shaped d next.place) (plain : mark.isHeading = false)
    (line : Nat) : (s.add (line, mark)).Shaped d p.place := by
  have shaped := marking.shaped feeds
  have stands := (marking.stands plain below.toStands line).1
  cases marking with
  | blank => exact below.afterBlank stands
  | gap | comment | description => exact below
  | docLine => exact ⟨stands, below.steps, below.rows, below.doc, below.single⟩
  | closeDoc => exact .of_bare stands below.steps (below.rowless rfl) (below.docless rfl)
  | @tags _ _ _ place bare _ _ =>
    cases place with
    | preamble | children | steps | blocks => exact below.bare stands rfl rfl
    | _ => cases bare
  | heading => cases plain
  | step =>
    obtain ⟨opens, nonempty, inline⟩ := shaped
    exact .of_bare stands (List.forall_mem_cons.mpr ⟨below.step opens nonempty inline line, below.steps⟩) rfl rfl
  | @row place _ _ _ after =>
    have docless : s.doc = none := by
      cases place with
      | argument | rows | examples | exampleRows =>
        cases after
        exact below.docless rfl
      | _ => cases after
    exact ⟨stands, below.steps, List.forall_mem_cons.mpr ⟨shaped, below.rows⟩, below.doc, .inr docless⟩
  | openDoc =>
    refine ⟨stands, below.steps, below.rows, ?_, .inl (below.rowless rfl)⟩
    intro doc same
    cases same
    exact shaped
  | unexpected | unrecognized => exact below.bare stands rfl rfl

/-! ### Sections -/

/-- What is known of a heading with the marks below it. -/
structure ShapedBelow (d : Dialect) (line : HeadingLine) (below : List NumberedMark) : Prop where
  heading : (Mark.heading line.kind line.keyword line.name).Shaped d
  marks : ∀ m ∈ below, m.2.Shaped d
  steps : ∀ step ∈ (stepsBelow below).steps, step.Shaped d

/-- The marks of lines, cut at the headings. -/
theorem shaped_cutAtHeadings (regular : d.Regular) {lines : List Text} (plain : ∀ line ∈ lines, '\n' ∉ line)
    (p : Position) (n : Nat) :
    (∀ m ∈ (cutAtHeadings (numberFrom n (marksFrom d p lines))).1, m.2.Shaped d) ∧
      (stepsBelow (cutAtHeadings (numberFrom n (marksFrom d p lines))).1).Shaped d p.place ∧
      ∀ entry ∈ (cutAtHeadings (numberFrom n (marksFrom d p lines))).2, ShapedBelow d entry.1 entry.2 := by
  induction lines generalizing p n with
  | nil => exact ⟨List.forall_mem_nil _, .nil, List.forall_mem_nil _⟩
  | cons raw rest ih =>
    rw [List.forall_mem_cons] at plain
    obtain ⟨feeds, plain⟩ := plain
    have marking := p.marking regular raw rest
    have shaped := marking.shaped feeds
    obtain ⟨front, steps, below⟩ := ih plain (p.mark d raw rest).2 (n + 1)
    rw [marksFrom, numberFrom]
    generalize (p.mark d raw rest).1 = mark at marking shaped ⊢
    cases heads : mark.isHeading with
    | true =>
      cases mark with
      | heading kind keyword name =>
        refine ⟨List.forall_mem_nil _, .nil, ?_⟩
        exact List.forall_mem_cons.mpr ⟨⟨shaped, front, steps.steps⟩, below⟩
      | _ => cases heads
    | false =>
      rw [cutAtHeadings_plain heads]
      exact ⟨List.forall_mem_cons.mpr ⟨shaped, front⟩, marking.shapes feeds steps heads n, below⟩

/-- A section as it can be read. -/
structure Section.Shaped (d : Dialect) (s : Section) : Prop where
  below : ShapedBelow d s.heading s.marks
  tags : ∀ tag ∈ s.tags, isTagName tag.name = true

/-- The sections of a document. -/
theorem shaped_sectionsFrom (regular : d.Regular) {lines : List Text} (plain : ∀ line ∈ lines, '\n' ∉ line)
    (p : Position) (n : Nat) {tags : List Tag} (named : ∀ tag ∈ tags, isTagName tag.name = true) :
    ∀ s ∈ sectionsFrom tags (cutAtHeadings (numberFrom n (marksFrom d p lines))).2, s.Shaped d := by
  intro s member
  obtain ⟨_, _, below⟩ := shaped_cutAtHeadings regular plain p n
  exact ⟨below _ (mem_of_mem_sectionsFrom member), isTagName_of_mem_sectionsFrom named member⟩

namespace Section

variable {s : Section}

theorem trimmed (s : Section) : Text.Trimmed (· == '\n') s.description := Text.trimmed_trimBy _

namespace Shaped

variable (shaped : s.Shaped d)

include shaped

/-- The lines of a description are some of those below the heading. -/
theorem description : ∀ line ∈ descriptionLines s.description, DescriptionLine d line := by
  intro line member
  rw [descriptionLines] at member
  split at member
  · cases member
  rename_i nonempty
  have described : ∃ texts, s.description = Text.trimBy (· == '\n') (Text.joinWith ['\n'] texts) ∧
      ∀ text ∈ texts, DescriptionLine d text := by
    refine ⟨_, rfl, fun text among => ?_⟩
    obtain ⟨⟨n, mark⟩, inside, same⟩ := List.mem_filterMap.mp among
    have known := shaped.below.marks _ inside
    cases mark with
    | description line =>
      cases same
      exact known
    | _ => cases same
  obtain ⟨texts, same, known⟩ := described
  obtain ⟨before, behind, cover, front, back⟩ := Text.trimBy_cover (· == '\n') (Text.joinWith ['\n'] texts)
  rw [← same] at cover
  have among : line ∈ Text.splitAtChar '\n' (Text.joinWith ['\n'] texts) := by
    rw [cover]
    exact Text.mem_splitAtChar_pad (fun c inside => by simpa using front c inside)
      (fun c inside => by simpa using back c inside) member
  rw [Text.splitAtChar_joinWith ?_ fun text inside => (known text inside).inline.2] at among
  · exact known line among
  · rintro rfl
    rw [same] at nonempty
    exact nonempty rfl

theorem rows : ∀ row ∈ s.rows, PrintableCells row.cells := by
  intro row member
  obtain ⟨⟨line, mark⟩, among, same⟩ := List.mem_filterMap.mp member
  have known := shaped.below.marks _ among
  cases mark with
  | row cells =>
    cases same
    exact known
  | _ => cases same

theorem keyword {kind : Heading} (same : s.heading.kind = kind) : s.heading.keyword ∈ d.keywords kind :=
  same ▸ shaped.below.heading.1

end Shaped

end Section

end Gherkin
