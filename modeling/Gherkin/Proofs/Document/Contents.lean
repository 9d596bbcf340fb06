import Mathlib.Tactic.Tauto
import Gherkin.Proofs.Document.Positions

/-! # The contents of doc strings

A doc string of a tree is opened by a line of the document, and its content is made of the indentation of this line
and of the lines up to the next that closes it, or of all lines if none does (`Gherkin.documentOf_docStrings`). No
other line has a part in it.
-/

namespace Gherkin

/-! ### The doc strings of a tree -/

def Element.docStrings : Element → List DocString
  | .background b => b.steps.filterMap Step.doc
  | .scenario s => s.steps.filterMap Step.doc

def Child.docStrings : Child → List DocString
  | .rule r => r.children.flatMap Element.docStrings
  | .element e => e.docStrings

/-- The doc strings of a document in the order of its tree. -/
def Document.docStrings (d : Document) : List DocString :=
  (d.feature.map fun f => f.children.flatMap Child.docStrings).getD []

/-- Whether a doc string stands in some lines, the first of which has a number: one of them opens it, and its content
is made of that line and of those behind it up to the first that closes it. -/
def DocString.StandsIn (doc : DocString) (n : Nat) (lines : List Text) : Prop :=
  ∃ front opening inner rest, lines = front ++ opening :: (inner ++ rest) ∧ doc.line = n + front.length ∧
    Fence.ofLine? (Text.trim opening) = some doc.fence ∧ (∀ line ∈ inner, Text.trim line ≠ doc.fence.text) ∧
      (∀ closing ∈ rest.head?, Text.trim closing = doc.fence.text) ∧
        doc.content = DocString.contentOf doc.fence (opening.takeWhile isBlank).length (!rest.isEmpty) inner

theorem DocString.StandsIn.cons {doc : DocString} {n : Nat} {lines : List Text} (stands : doc.StandsIn (n + 1) lines)
    (raw : Text) : doc.StandsIn n (raw :: lines) := by
  obtain ⟨front, opening, inner, rest, rfl, line, content⟩ := stands
  refine ⟨raw :: front, opening, inner, rest, rfl, ?_, content⟩
  rw [line, List.length_cons]
  omega

/-! ### Opening lines -/

variable {d : Dialect} {p : Position} {raw : Text}

theorem Marking.openDoc_eq {next : Position} {fence : Fence} {mediaType : Option Text} {indent : Nat}
    (marking : Marking d p raw (.openDoc fence mediaType indent) next) :
    (∃ inScenario nested, p.place = .argument inScenario nested) ∧
      Mark.openDoc fence mediaType indent = markOpenDoc fence raw := by
  generalize same : Mark.openDoc fence mediaType indent = mark at marking
  cases marking with
  | @openDoc inScenario nested =>
    cases same
    exact ⟨⟨inScenario, nested, rfl⟩, rfl⟩
  | _ => cases same

/-- A line where a step may stand opens no doc string. -/
theorem markStep_ne_openDoc (regular : d.Regular) {inScenario nested : Bool} {ahead : List Text} {fence : Fence}
    {mediaType : Option Text} {indent : Nat} :
    (markStep d inScenario nested (Text.trim raw) ahead).1 ≠ .openDoc fence mediaType indent := by
  intro opens
  -- Among steps the same line has the same mark, and there no doc string is opened.
  have marking : Marking d ⟨.steps inScenario nested, false⟩ raw
      (markStep d inScenario nested (Text.trim raw) ahead).1 _ := Place.marking regular rfl false raw ahead
  rw [opens] at marking
  obtain ⟨⟨_, _, place⟩, _⟩ := marking.openDoc_eq
  cases place

/-- A doc string is opened by a line that starts with its fence. -/
theorem Position.opens (regular : d.Regular) {ahead : List Text} {fence : Fence} {mediaType : Option Text}
    {indent : Nat} (marked : (p.mark d raw ahead).1 = .openDoc fence mediaType indent) :
    Fence.ofLine? (Text.trim raw) = some fence ∧ indent = (raw.takeWhile isBlank).length := by
  have marking := p.marking regular raw ahead
  rw [marked] at marking
  obtain ⟨⟨inScenario, nested, place⟩, same⟩ := marking.openDoc_eq
  refine ⟨?_, by cases same; rfl⟩
  obtain ⟨_, describing⟩ := p
  cases place
  cases line : Text.trim raw with
  | nil => cases describing <;> simp [mark, line] at marked
  | cons c t =>
    simp only [mark, line] at marked
    split at marked
    · cases marked
    · split at marked
      · cases marked
      · rw [Place.mark] at marked
        split at marked
        · cases marked
        · split at marked
          · rename_i found
            cases marked
            exact found
          · rw [← line] at marked
            exact absurd marked (markStep_ne_openDoc regular)

/-! ### The lines of a doc string -/

/-- In a doc string, the lines read are those up to the first that closes it. -/
theorem stepsBelow_inDoc {fence : Fence} (inside : p.place.fence? = some fence) (lines : List Text) (n : Nat) :
    ∃ inner rest, lines = inner ++ rest ∧ (∀ line ∈ inner, Text.trim line ≠ fence.text) ∧
      (∀ closing ∈ rest.head?, Text.trim closing = fence.text) ∧
        (stepsBelow (cutAtHeadings (numberFrom n (marksFrom d p lines))).1).lines = inner ∧
          (stepsBelow (cutAtHeadings (numberFrom n (marksFrom d p lines))).1).closed = !rest.isEmpty := by
  induction lines generalizing p n with
  | nil => exact ⟨[], [], rfl, List.forall_mem_nil _, by rintro _ ⟨⟩, rfl, rfl⟩
  | cons raw rest ih =>
    by_cases closes : Text.trim raw = fence.text
    · have marked : (p.mark d raw rest).1 = .closeDoc := by
        obtain ⟨place, describing⟩ := p
        cases place with
        | doc =>
          cases inside
          simp [Position.mark, closes]
        | _ => cases inside
      refine ⟨[], raw :: rest, rfl, List.forall_mem_nil _, by rintro _ ⟨⟩; exact closes, ?_⟩
      rw [marksFrom, numberFrom, marked, cutAtHeadings_plain rfl]
      exact ⟨rfl, rfl⟩
    · obtain ⟨inner, behind, rfl, within, closed, read, ended⟩ := @ih (.within p.place) inside (n + 1)
      refine ⟨raw :: inner, behind, rfl, List.forall_mem_cons.mpr ⟨closes, within⟩, closed, ?_⟩
      rw [marksFrom, numberFrom, p.mark_docLine inside closes, cutAtHeadings_plain rfl]
      exact ⟨congrArg (raw :: ·) read, ended⟩

/-- The doc strings of steps and of what comes before the first of them. -/
def StepsBelow.docStrings (s : StepsBelow) : List DocString := s.doc.toList ++ s.steps.filterMap Step.doc

/-- A mark adds the doc string that it opens. -/
theorem StepsBelow.mem_add {s : StepsBelow} {n : Nat} {mark : Mark} {doc : DocString}
    (member : doc ∈ (s.add (n, mark)).docStrings) :
    doc ∈ s.docStrings ∨ ∃ fence mediaType indent, mark = .openDoc fence mediaType indent ∧
      doc = ⟨DocString.contentOf fence indent s.closed s.lines, mediaType, fence, n⟩ := by
  cases mark with
  | openDoc fence mediaType indent =>
    rcases List.mem_append.mp member with opened | earlier
    · exact .inr ⟨fence, mediaType, indent, rfl, List.mem_singleton.mp opened⟩
    · exact .inl (List.mem_append_right _ earlier)
  | step keyword type text =>
    left
    cases held : s.doc <;> simpa [docStrings, add, held] using member
  | _ => exact .inl member

/-- The doc strings that marks are read as stand in the lines of the marks. -/
theorem docStrings_cutAtHeadings (regular : d.Regular) (lines : List Text) (p : Position) (n : Nat) :
    let cut := cutAtHeadings (numberFrom n (marksFrom d p lines))
    (∀ doc ∈ (stepsBelow cut.1).docStrings, doc.StandsIn n lines) ∧
      ∀ entry ∈ cut.2, ∀ doc ∈ (stepsBelow entry.2).docStrings, doc.StandsIn n lines := by
  induction lines generalizing p n with
  | nil => exact ⟨List.forall_mem_nil _, List.forall_mem_nil _⟩
  | cons raw rest ih =>
    obtain ⟨front, below⟩ := ih (p.mark d raw rest).2 (n + 1)
    have entries : ∀ entry ∈ (cutAtHeadings (numberFrom (n + 1) (marksFrom d (p.mark d raw rest).2 rest))).2,
        ∀ doc ∈ (stepsBelow entry.2).docStrings, doc.StandsIn n (raw :: rest) :=
      fun entry among doc member => (below entry among doc member).cons raw
    rw [marksFrom, numberFrom]
    cases marked : (p.mark d raw rest).1 with
    | heading kind keyword name =>
      rw [cutAtHeadings_heading]
      exact ⟨List.forall_mem_nil _,
        List.forall_mem_cons.mpr ⟨fun doc member => (front doc member).cons raw, entries⟩⟩
    | openDoc fence mediaType indent =>
      rw [cutAtHeadings_plain rfl]
      refine ⟨fun doc member => ?_, entries⟩
      rcases StepsBelow.mem_add member with earlier | ⟨_, _, _, same, rfl⟩
      · exact (front doc earlier).cons raw
      · cases same
        have marking := p.marking regular raw rest
        rw [marked] at marking
        obtain ⟨inner, behind, split, within, closed, read, ended⟩ :=
          stepsBelow_inDoc (d := d) marking.opensDoc rest (n + 1)
        obtain ⟨fenced, rfl⟩ := Position.opens regular marked
        refine ⟨[], raw, inner, behind, by rw [split]; rfl, rfl, fenced, within, closed, ?_⟩
        rw [read, ended]
    | _ =>
      rw [cutAtHeadings_plain rfl]
      refine ⟨fun doc member => ?_, entries⟩
      rcases StepsBelow.mem_add member with earlier | ⟨_, _, _, ⟨⟩, _⟩
      exact (front doc earlier).cons raw

/-! ### The doc strings of a document -/

/-- The doc strings of the children of a feature and of a rule. -/
def Nodes.docStrings (n : Nodes) : List DocString :=
  n.inner.flatMap Element.docStrings ++ n.outer.flatMap Child.docStrings

theorem Nodes.mem_addElement {n : Nodes} {nested : Bool} {e : Element} {doc : DocString}
    (member : doc ∈ (n.addElement nested e).docStrings) : doc ∈ n.docStrings ∨ doc ∈ e.docStrings := by
  cases nested with
  | true =>
    simp only [addElement, if_true, docStrings, List.flatMap_cons, List.mem_append] at member ⊢
    tauto
  | false =>
    simp only [addElement, Bool.false_eq_true, if_false, docStrings, List.flatMap_cons, Child.docStrings,
      List.mem_append] at member ⊢
    tauto

/-- A section adds the doc strings of its steps. -/
theorem Nodes.mem_add {n : Nodes} {s : Section} {doc : DocString} (member : doc ∈ (n.add s).docStrings) :
    doc ∈ n.docStrings ∨ doc ∈ s.steps.filterMap Step.doc := by
  unfold Nodes.add at member
  split at member
  · exact .inl member
  · exact .inl member
  · exact mem_addElement member
  · exact mem_addElement member
  · exact .inl member

theorem mem_docStrings_nodes {sections : List Section} {doc : DocString} (member : doc ∈ (nodes sections).docStrings) :
    ∃ s ∈ sections, doc ∈ s.steps.filterMap Step.doc := by
  induction sections with
  | nil => cases member
  | cons s rest ih =>
    rcases Nodes.mem_add member with later | here
    · obtain ⟨other, among, inside⟩ := ih later
      exact ⟨other, List.mem_cons_of_mem _ among, inside⟩
    · exact ⟨s, List.mem_cons_self, here⟩

/-- Every doc string of a document that was read stands in its lines. -/
theorem documentOf_docStrings (regular : d.Regular) (language : Text) (uri : Option Text) (count : Nat)
    (early : List Diagnostic) (lines : List Text) :
    ∀ doc ∈ (documentOf language uri count early (numberFrom 1 (marksFrom d .start lines))).docStrings,
      doc.StandsIn 1 lines := by
  intro doc member
  obtain ⟨-, below⟩ := docStrings_cutAtHeadings regular lines .start 1
  simp only [Document.docStrings, documentOf] at member
  generalize cutAtHeadings (numberFrom 1 (marksFrom d .start lines)) = cut at member below
  have headed := sectionsFrom_map (tagsOf cut.1) cut.2
  cases sections : sectionsFrom (tagsOf cut.1) cut.2 with
  | nil =>
    rw [sections] at member
    cases member
  | cons s rest =>
    rw [sections] at member headed
    obtain ⟨other, among, inside⟩ := mem_docStrings_nodes (List.mem_append_right _ member)
    have entry : (other.heading, other.marks) ∈ cut.2 := by
      rw [← headed]
      exact List.mem_map.mpr ⟨other, List.mem_cons_of_mem _ among, rfl⟩
    exact below _ entry doc (List.mem_append_right _ inside)

end Gherkin
