import Gherkin.Proofs.Document.Order

/-! # The nodes of a document

The nodes of a document that stand on lines of their own, in the order of the tree, are what its marks are
read as, in the order of the lines (`Gherkin.walk_documentOf`). So the tree holds each of these lines once,
and no other.
-/

namespace Gherkin

/-- What stands on a line of its own: a heading with its description, a step, a row of a table, or the
opening of a doc string. -/
inductive Node where
  | heading (kind : Heading) (keyword name description : Text)
  | step (keyword : Text) (type : StepType) (text : Text)
  | row (cells : List Text)
  | doc (fence : Fence) (mediaType : Option Text)
  deriving DecidableEq, Repr

/-- A node with the number of its line. -/
abbrev NumberedNode := Nat × Node

/-! ### Walking trees

Each node comes in front of what it holds; `nested` says whether it stands in a rule. -/

def Row.node (r : Row) : NumberedNode := (r.line, .row r.cells)

def DocString.node (d : DocString) : NumberedNode := (d.line, .doc d.fence d.mediaType)

def Step.walk (s : Step) : List NumberedNode :=
  (s.line, .step s.keyword s.type s.text) ::
    ((s.table.map DataTable.rows).getD []).map Row.node ++ s.doc.toList.map DocString.node

def Examples.walk (e : Examples) : List NumberedNode :=
  (e.line, .heading .examples e.keyword e.name e.description) ::
    (e.header.toList ++ e.body).map Row.node

def Background.walk (nested : Bool) (b : Background) : List NumberedNode :=
  (b.line, .heading (.background nested) b.keyword b.name b.description) :: b.steps.flatMap Step.walk

def Scenario.walk (nested : Bool) (s : Scenario) : List NumberedNode :=
  (s.line, .heading (.scenario nested s.isOutline) s.keyword s.name s.description) ::
    s.steps.flatMap Step.walk ++ s.examples.flatMap Examples.walk

def Element.walk (nested : Bool) : Element → List NumberedNode
  | .background b => b.walk nested
  | .scenario s => s.walk nested

def Rule.walk (r : Rule) : List NumberedNode :=
  (r.line, .heading .rule r.keyword r.name r.description) :: r.children.flatMap (Element.walk true)

def Child.walk : Child → List NumberedNode
  | .rule r => r.walk
  | .element e => e.walk false

def Feature.walk (f : Feature) : List NumberedNode :=
  (f.line, .heading .feature f.keyword f.name f.description) :: f.children.flatMap Child.walk

/-- The nodes of a document in the order of its tree. -/
def Document.walk (d : Document) : List NumberedNode := (d.feature.map Feature.walk).getD []

/-! ### What marks are read as -/

/-- A heading without its description; other nodes as they are. -/
def Node.bare : Node → Node
  | .heading kind keyword name _ => .heading kind keyword name []
  | node => node

/-- The node that a mark is read as, without a description. -/
def Mark.node? : Mark → Option Node
  | .heading kind keyword name => some (.heading kind keyword name [])
  | .step keyword type text => some (.step keyword type text)
  | .row cells => some (.row cells)
  | .openDoc fence mediaType _ => some (.doc fence mediaType)
  | _ => none

def node? (m : NumberedMark) : Option NumberedNode := m.2.node?.map (m.1, ·)

def HeadingLine.mark (h : HeadingLine) : NumberedMark := (h.line, .heading h.kind h.keyword h.name)

/-- Marks are what was in front of the first heading, and each heading with the marks below it. -/
theorem cutAtHeadings_join (marks : List NumberedMark) :
    (cutAtHeadings marks).1 ++ (cutAtHeadings marks).2.flatMap (fun entry => entry.1.mark :: entry.2) =
      marks := by
  induction marks with
  | nil => rfl
  | cons first rest ih =>
    obtain ⟨line, mark⟩ := first
    cases mark with
    | heading kind keyword name =>
      rw [cutAtHeadings_heading, List.flatMap_cons, List.nil_append, List.cons_append, ih]
      rfl
    | _ => rw [cutAtHeadings_plain rfl, List.cons_append, ih]

/-! ### Steps -/

/-- The nodes of some steps and of what comes before the first of them. -/
def StepsBelow.walk (s : StepsBelow) : List NumberedNode :=
  s.rows.map Row.node ++ s.doc.toList.map DocString.node ++ s.steps.flatMap Step.walk

/-- What the marks from a place on can hold: steps, a table or a doc string only where they can stand. -/
structure StepsBelow.Stands (place : Place) (s : StepsBelow) : Prop where
  rowless : place.afterRow? = none → s.rows = []
  docless : place.isArgument = false → s.doc = none
  stepless : place.takesSteps = false → s.steps = []

namespace StepsBelow.Stands

variable {s : StepsBelow} {place next : Place}

theorem nil : (stepsBelow []).Stands place := ⟨fun _ => rfl, fun _ => rfl, fun _ => rfl⟩

/-- Steps with nothing in front of them stand at every earlier place that takes steps. -/
theorem bare (stands : s.Stands next) (within : next.Within place) (rowless : s.rows = [])
    (docless : s.doc = none) : s.Stands place := by
  refine ⟨fun _ => rowless, fun _ => docless, fun stepless => stands.stepless ?_⟩
  exact Bool.eq_false_iff.mpr fun takes => Bool.eq_false_iff.mp stepless (within.steps takes)

end StepsBelow.Stands

theorem Place.within_afterBlank (place : Place) : place.afterBlank.Within place := by
  cases place <;> exact ⟨id, by simp [afterBlank, inScenario], by simp [afterBlank, takesSteps], by simp [afterBlank]⟩

theorem Place.within_afterRow? {place next : Place} (after : place.afterRow? = some next) :
    next.Within place := by
  cases place with
  | argument | rows | examples | exampleRows =>
    cases after
    exact ⟨id, id, id, by rintro _ ⟨⟩⟩
  | _ => cases after

section Marking

variable {d : Dialect} {p next : Position} {raw : Text} {mark : Mark}

/-- A line that is no heading leaves no more to come than what could come in front of it. -/
theorem Marking.within (marking : Marking d p raw mark next) (plain : mark.isHeading = false) :
    next.place.Within p.place := by
  cases marking with
  | blank => exact Place.within_afterBlank _
  | gap | comment | description => exact .refl _
  | docLine | closeDoc | openDoc => exact ⟨id, id, id, by rintro _ ⟨⟩⟩
  | tags _ _ _ _ within => exact within
  | heading => cases plain
  | step _ _ within => exact within
  | row after => exact Place.within_afterRow? after
  | unexpected => exact .refl _
  | unrecognized _ rule => exact Place.within_children rule

/-- A line that is no heading, in front of marks that stand at the place after it. -/
theorem Marking.stands (marking : Marking d p raw mark next) (plain : mark.isHeading = false)
    {s : StepsBelow} (stands : s.Stands next.place) (line : Nat) :
    (s.add (line, mark)).Stands p.place ∧
      (s.add (line, mark)).walk = (node? (line, mark)).toList ++ s.walk := by
  have within := marking.within plain
  cases marking with
  | @blank place _ =>
    refine ⟨?_, rfl⟩
    cases place with
    | rows => exact stands.bare within (stands.rowless rfl) (stands.docless rfl)
    | exampleRows => exact stands.bare within (stands.rowless rfl) (stands.docless rfl)
    | _ => exact stands
  | gap | comment | description => exact ⟨stands, rfl⟩
  | docLine => exact ⟨⟨stands.rowless, stands.docless, stands.stepless⟩, rfl⟩
  | closeDoc =>
    exact ⟨.bare ⟨stands.rowless, stands.docless, stands.stepless⟩ within (stands.rowless rfl)
      (stands.docless rfl), rfl⟩
  | @tags _ _ _ place bare =>
    cases place with
    | preamble | children | steps | blocks =>
      exact ⟨stands.bare within (stands.rowless rfl) (stands.docless rfl), rfl⟩
    | _ => cases bare
  | heading => cases plain
  | step =>
    have takes := within.steps rfl
    refine ⟨⟨fun _ => rfl, fun _ => rfl, fun stepless => ?_⟩, ?_⟩
    · rw [takes] at stepless
      cases stepless
    · cases rows : s.rows <;>
        simp [StepsBelow.add, StepsBelow.walk, Step.walk, node?, Mark.node?, rows]
  | @row place _ _ _ after =>
    refine ⟨⟨fun missing => ?_, fun _ => ?_, fun stepless => stands.stepless ?_⟩, rfl⟩
    · cases after.symm.trans missing
    · cases place with
      | argument | rows | examples | exampleRows =>
        cases after
        exact stands.docless rfl
      | _ => cases after
    · exact Bool.eq_false_iff.mpr fun takes => Bool.eq_false_iff.mp stepless (within.steps takes)
  | openDoc =>
    have rowless := stands.rowless rfl
    have docless := stands.docless rfl
    refine ⟨⟨fun _ => rowless, by rintro ⟨⟩, by rintro ⟨⟩⟩, ?_⟩
    simp [StepsBelow.add, StepsBelow.walk, node?, Mark.node?, markOpenDoc, rowless, docless, DocString.node]
  | unexpected | unrecognized =>
    exact ⟨stands.bare within (stands.rowless rfl) (stands.docless rfl), rfl⟩

theorem Marking.next_of_heading {kind : Heading} {keyword name : Text}
    (marking : Marking d p raw (.heading kind keyword name) next) :
    next = .after (kind.place p.place.inRule) := by
  cases marking
  rfl

theorem Marking.of_heading {kind : Heading} {keyword name : Text}
    (marking : Marking d p raw (.heading kind keyword name) next) :
    kind.Fits p.place.inRule ∧ (kind = .feature ↔ p.place = .preamble) ∧
      (kind = .examples → p.place.inScenario = true) := by
  cases marking with
  | heading _ _ fits early scene => exact ⟨fits, early, scene⟩

/-- What is known of the marks between two headings, and of the heading in front of them. -/
structure StandsBelow (h : HeadingLine) (below : List NumberedMark) : Prop where
  stands : ∃ nested, (stepsBelow below).Stands (h.kind.place nested)
  walk : (stepsBelow below).walk = below.filterMap node?

/-- The marks of some lines, cut at the headings, stand where they can. -/
theorem stands_cutAtHeadings (regular : d.Regular) (lines : List Text) (p : Position) (n : Nat) :
    let cut := cutAtHeadings (numberFrom n (marksFrom d p lines))
    (stepsBelow cut.1).Stands p.place ∧ (stepsBelow cut.1).walk = cut.1.filterMap node? ∧
      ∀ entry ∈ cut.2, StandsBelow entry.1 entry.2 := by
  induction lines generalizing p n with
  | nil => exact ⟨.nil, rfl, List.forall_mem_nil _⟩
  | cons raw rest ih =>
    have marking := p.marking regular raw rest
    obtain ⟨stands, walk, below⟩ := ih (p.mark d raw rest).2 (n + 1)
    rw [marksFrom, numberFrom]
    generalize (p.mark d raw rest).1 = mark at marking ⊢
    cases plain : mark.isHeading with
    | true =>
      cases mark with
      | heading kind keyword name =>
        refine ⟨.nil, rfl, List.forall_mem_cons.mpr ⟨⟨⟨p.place.inRule, ?_⟩, walk⟩, below⟩⟩
        have place := congrArg Position.place marking.next_of_heading
        rw [place] at stands
        exact stands
      | _ => cases plain
    | false =>
      rw [cutAtHeadings_plain plain]
      obtain ⟨here, walked⟩ := marking.stands plain stands n
      refine ⟨here, ?_, below⟩
      rw [stepsBelow, walked, walk, List.filterMap_cons]
      cases node? (n, mark) <;> rfl

end Marking

/-! ### Sections -/

def Section.node (s : Section) : NumberedNode :=
  (s.heading.line, .heading s.heading.kind s.heading.keyword s.heading.name s.description)

/-- The nodes of a section: its heading, and the steps or rows below it. -/
def Section.walk (s : Section) : List NumberedNode :=
  s.node :: match s.heading.kind with
    | .feature | .rule => []
    | .background _ | .scenario _ _ => s.steps.flatMap Step.walk
    | .examples => s.rows.map Row.node

theorem rows_of_stepless (heading : HeadingLine) (tags : List Tag) {marks : List NumberedMark}
    (stepless : (stepsBelow marks).steps = []) :
    (stepsBelow marks).rows = (Section.mk heading tags marks).rows := by
  induction marks with
  | nil => rfl
  | cons first rest ih =>
    obtain ⟨line, mark⟩ := first
    rw [stepsBelow] at stepless ⊢
    cases mark with
    | step => cases stepless
    | row cells => exact congrArg (List.cons _) (ih stepless)
    | _ => exact ih stepless

theorem Step.walk_bare (s : Step) : s.walk.map (fun node => (node.1, node.2.bare)) = s.walk := by
  simp only [Step.walk, List.map_cons, List.map_append, List.map_map]
  rfl

theorem walk_steps_bare (steps : List Step) :
    (steps.flatMap Step.walk).map (fun node => (node.1, node.2.bare)) = steps.flatMap Step.walk := by
  simp only [List.map_flatMap, Step.walk_bare]

/-- The nodes of a section are what its marks are read as. -/
theorem Section.walk_bare {s : Section} (below : StandsBelow s.heading s.marks) :
    s.walk.map (fun node => (node.1, node.2.bare)) = (s.heading.mark :: s.marks).filterMap node? := by
  obtain ⟨⟨nested, stands⟩, walk⟩ := below
  have heads : node? s.heading.mark = some (s.node.1, s.node.2.bare) := rfl
  rw [List.filterMap_cons_some heads, ← walk, Section.walk, List.map_cons, StepsBelow.walk]
  refine congrArg (List.cons _) ?_
  obtain ⟨heading, tags, marks⟩ := s
  cases kind : heading.kind with
  | feature | rule =>
    rw [kind] at stands
    simp [stands.rowless rfl, stands.docless rfl, stands.stepless rfl]
  | background | scenario =>
    rw [kind] at stands
    simp only [stands.rowless rfl, stands.docless rfl]
    exact walk_steps_bare _
  | examples =>
    rw [kind] at stands
    have stepless := stands.stepless rfl
    rw [rows_of_stepless heading tags stepless, stepless, stands.docless rfl]
    simp [Row.node, Node.bare, Function.comp_def]

/-- The nodes of sections are what their headings and the marks below them are read as. -/
theorem walk_sectionsFrom {entries : List (HeadingLine × List NumberedMark)}
    (below : ∀ entry ∈ entries, StandsBelow entry.1 entry.2) (tags : List Tag) :
    ((sectionsFrom tags entries).flatMap Section.walk).map (fun node => (node.1, node.2.bare)) =
      (entries.flatMap fun entry => entry.1.mark :: entry.2).filterMap node? := by
  induction entries generalizing tags with
  | nil => rfl
  | cons entry rest ih =>
    rw [List.forall_mem_cons] at below
    have first := Section.walk_bare (s := ⟨entry.1, tags, entry.2⟩) below.1
    rw [sectionsFrom, List.flatMap_cons, List.map_append, first, ih below.2, List.flatMap_cons,
      List.filterMap_append]

/-! ### Trees -/

/-- The nodes that were collected, in the order in which their headings stand. -/
def Nodes.walk (n : Nodes) : List NumberedNode :=
  n.examples.flatMap Examples.walk ++ n.inner.flatMap (Element.walk true) ++ n.outer.flatMap Child.walk

/-- What the sections from a place on can hold: examples and elements of a rule only where these can stand. -/
structure Nodes.Stands (place : Place) (n : Nodes) : Prop where
  examples : place.inScenario = false → n.examples = []
  inner : place.inRule = false → n.inner = []

theorem Nodes.Stands.within {n : Nodes} {place next : Place} (stands : n.Stands next)
    (within : next.Within place) : n.Stands place := by
  refine ⟨fun scene => stands.examples ?_, fun rule => stands.inner ?_⟩
  · exact Bool.eq_false_iff.mpr fun inside => Bool.eq_false_iff.mp scene (within.scene inside)
  · exact Bool.eq_false_iff.mpr fun inside => Bool.eq_false_iff.mp rule (within.rule inside)

theorem Section.walk_examples {s : Section} (kind : s.heading.kind = .examples) :
    s.toExamples.walk = s.walk := by
  rw [walk, kind, Examples.walk, s.rows_toExamples]
  simp only [toExamples, node, kind]

theorem Section.walk_background {s : Section} {nested : Bool} (kind : s.heading.kind = .background nested) :
    s.toBackground.walk nested = s.walk := by
  rw [walk, kind]
  simp only [toBackground, Background.walk, node, kind]

theorem Section.walk_scenario {s : Section} {nested outline : Bool}
    (kind : s.heading.kind = .scenario nested outline) (examples : List Examples) :
    (s.toScenario outline examples).walk nested = s.walk ++ examples.flatMap Examples.walk := by
  rw [walk, kind]
  simp only [toScenario, Scenario.walk, node, kind]

theorem Section.walk_rule {s : Section} (kind : s.heading.kind = .rule) (children : List Element) :
    (s.toRule children).walk = s.walk ++ children.flatMap (Element.walk true) := by
  rw [walk, kind]
  simp only [toRule, Rule.walk, node, kind]
  rfl

/-- An element in front of what was collected, in its rule or in the feature. -/
theorem Nodes.addElement_stands {n : Nodes} {place : Place} (inner : place.inRule = false → n.inner = [])
    (e : Element) :
    (n.addElement place.inRule e).Stands place ∧
      (n.addElement place.inRule e).walk =
        e.walk place.inRule ++ n.inner.flatMap (Element.walk true) ++ n.outer.flatMap Child.walk := by
  unfold addElement
  by_cases rule : place.inRule = true
  · rw [rule, if_pos rfl]
    refine ⟨⟨fun _ => rfl, fun outside => ?_⟩, by simp [walk]⟩
    rw [rule] at outside
    cases outside
  · have outside := inner (Bool.eq_false_iff.mpr rule)
    rw [Bool.eq_false_iff.mpr rule, if_neg Bool.false_ne_true, outside]
    exact ⟨⟨fun _ => rfl, fun _ => rfl⟩, by simp [walk, Child.walk]⟩

/-- A section in front of sections that stand at the place after its heading. -/
theorem Nodes.Stands.add {n : Nodes} {s : Section} {place : Place}
    (stands : n.Stands (s.heading.kind.place place.inRule)) (fits : s.heading.kind.Fits place.inRule)
    (other : s.heading.kind ≠ .feature) (scene : s.heading.kind = .examples → place.inScenario = true) :
    (n.add s).Stands place ∧ (n.add s).walk = s.walk ++ n.walk := by
  rw [Nodes.add]
  cases kind : s.heading.kind with
  | feature => exact absurd kind other
  | rule =>
    rw [kind] at stands
    refine ⟨⟨fun _ => rfl, fun _ => rfl⟩, ?_⟩
    simp [Nodes.walk, Child.walk, Section.walk_rule kind, stands.examples rfl]
  | background nested =>
    rw [kind] at stands fits
    obtain rfl : nested = place.inRule := fits
    have inner : place.inRule = false → n.inner = [] := stands.inner
    obtain ⟨added, walked⟩ := addElement_stands inner (.background s.toBackground)
    refine ⟨added, walked.trans ?_⟩
    simp [Nodes.walk, Element.walk, Section.walk_background kind, stands.examples rfl]
  | scenario nested outline =>
    rw [kind] at stands fits
    obtain rfl : nested = place.inRule := fits
    have inner : place.inRule = false → n.inner = [] := stands.inner
    obtain ⟨added, walked⟩ := addElement_stands inner (.scenario (s.toScenario outline n.examples))
    refine ⟨added, walked.trans ?_⟩
    simp [Nodes.walk, Element.walk, Section.walk_scenario kind]
  | examples =>
    rw [kind] at stands
    refine ⟨⟨fun outside => ?_, stands.inner⟩, ?_⟩
    · rw [scene kind] at outside
      cases outside
    · simp [Nodes.walk, Section.walk_examples kind]

theorem Heading.place_late (kind : Heading) (nested : Bool) : kind.place nested ≠ .preamble := by
  cases kind <;> rintro ⟨⟩

section Documents

variable (d : Dialect)

/-- The sections of the lines from a position on, which are numbered from `n` on. -/
def sectionsAt (p : Position) (n : Nat) (tags : List Tag) (lines : List Text) : List Section :=
  sectionsFrom tags (cutAtHeadings (numberFrom n (marksFrom d p lines))).2

/-- The marks of these lines in front of the first heading. -/
def frontAt (p : Position) (n : Nat) (lines : List Text) : List NumberedMark :=
  (cutAtHeadings (numberFrom n (marksFrom d p lines))).1

variable {d} {p next : Position} {raw : Text} {rest : List Text}

theorem sectionsAt_heading {kind : Heading} {keyword name : Text}
    (marked : p.mark d raw rest = (.heading kind keyword name, next)) (n : Nat) (tags : List Tag) :
    sectionsAt d p n tags (raw :: rest) =
      ⟨⟨kind, keyword, name, n⟩, tags, frontAt d next (n + 1) rest⟩ ::
        sectionsAt d next (n + 1) (tagsOf (frontAt d next (n + 1) rest)) rest := by
  rw [sectionsAt, marksFrom, marked, numberFrom, cutAtHeadings_heading, sectionsFrom]
  rfl

theorem sectionsAt_plain (plain : (p.mark d raw rest).1.isHeading = false) (n : Nat) (tags : List Tag) :
    sectionsAt d p n tags (raw :: rest) = sectionsAt d (p.mark d raw rest).2 (n + 1) tags rest := by
  rw [sectionsAt, marksFrom, numberFrom, cutAtHeadings_plain plain]
  rfl

theorem frontAt_plain (plain : (p.mark d raw rest).1.isHeading = false) (n : Nat) :
    frontAt d p n (raw :: rest) = (n, (p.mark d raw rest).1) :: frontAt d (p.mark d raw rest).2 (n + 1) rest := by
  rw [frontAt, marksFrom, numberFrom, cutAtHeadings_plain plain]
  rfl

theorem Position.heading_or_plain (regular : d.Regular) (p : Position) (raw : Text) (rest : List Text) :
    (∃ kind keyword name, p.mark d raw rest =
        (.heading kind keyword name, .after (kind.place p.place.inRule)) ∧
      kind.Fits p.place.inRule ∧ (kind = .feature ↔ p.place = .preamble) ∧
        (kind = .examples → p.place.inScenario = true)) ∨
      (p.mark d raw rest).1.isHeading = false := by
  have marking := p.marking regular raw rest
  generalize marked : p.mark d raw rest = outcome at marking ⊢
  obtain ⟨mark, next⟩ := outcome
  cases mark with
  | heading kind keyword name =>
    obtain rfl := marking.next_of_heading
    exact .inl ⟨kind, keyword, name, rfl, marking.of_heading⟩
  | _ => exact .inr rfl

/-- The sections of some lines after the heading of a feature are collected in their order. -/
theorem walk_nodes (regular : d.Regular) (lines : List Text) {p : Position} (late : p.place ≠ .preamble)
    (n : Nat) (tags : List Tag) :
    (nodes (sectionsAt d p n tags lines)).Stands p.place ∧
      (nodes (sectionsAt d p n tags lines)).walk = (sectionsAt d p n tags lines).flatMap Section.walk := by
  induction lines generalizing p n tags with
  | nil => exact ⟨⟨fun _ => rfl, fun _ => rfl⟩, rfl⟩
  | cons raw rest ih =>
    rcases p.heading_or_plain regular raw rest with ⟨kind, keyword, name, marked, fits, early, scene⟩ | plain
    · obtain ⟨stands, walked⟩ := ih (p := .after (kind.place p.place.inRule))
        (kind.place_late p.place.inRule) (n + 1) (tagsOf (frontAt d _ (n + 1) rest))
      have other : kind ≠ .feature := fun same => late (early.mp same)
      rw [sectionsAt_heading marked, nodes, List.flatMap_cons, ← walked]
      exact Nodes.Stands.add stands fits other scene
    · have within := (p.marking regular raw rest).within plain
      obtain ⟨stands, walked⟩ := ih (within.late late) (n + 1) tags
      rw [sectionsAt_plain plain]
      exact ⟨stands.within within, walked⟩

/-- The sections of a document form a feature that holds them in their order. -/
theorem walk_featureOf (regular : d.Regular) (language : Text) (lines : List Text) {p : Position}
    (start : p.place = .preamble) (n : Nat) (tags : List Tag) :
    ((featureOf language (sectionsAt d p n tags lines)).map Feature.walk).getD [] =
      (sectionsAt d p n tags lines).flatMap Section.walk := by
  induction lines generalizing p n with
  | nil => rfl
  | cons raw rest ih =>
    rcases p.heading_or_plain regular raw rest with ⟨kind, keyword, name, marked, _, early, _⟩ | plain
    · obtain rfl := early.mpr start
      obtain ⟨stands, walked⟩ := walk_nodes regular rest
        (p := .after (Heading.feature.place p.place.inRule)) (by rintro ⟨⟩) (n + 1)
        (tagsOf (frontAt d _ (n + 1) rest))
      rw [sectionsAt_heading marked, List.flatMap_cons, ← walked, Nodes.walk, stands.examples rfl, stands.inner rfl]
      rfl
    · have start : (p.mark d raw rest).2.place = .preamble := by
        rcases (p.marking regular raw rest).early start with feature | ⟨_, start⟩
        · cases mark : (p.mark d raw rest).1 <;> rw [mark] at plain feature
          all_goals cases feature
          cases plain
        · exact start
      rw [sectionsAt_plain plain]
      exact ih start (n + 1)

/-- The tree of a document that was read holds its sections in their order. -/
theorem walk_documentOf (regular : d.Regular) (language : Text) (uri : Option Text) (count : Nat)
    (early : List Diagnostic) (lines : List Text) :
    ∃ tags, (documentOf language uri count early (numberFrom 1 (marksFrom d .start lines))).walk =
      (sectionsAt d .start 1 tags lines).flatMap Section.walk :=
  ⟨_, walk_featureOf regular language lines rfl 1 _⟩

/-- The nodes of a document that was read are what its marks are read as, in the order of the lines. -/
theorem walk_bare (regular : d.Regular) (language : Text) (uri : Option Text) (count : Nat)
    (early : List Diagnostic) (lines : List Text) :
    (documentOf language uri count early (numberFrom 1 (marksFrom d .start lines))).walk.map
        (fun node => (node.1, node.2.bare)) =
      (numberFrom 1 (marksFrom d .start lines)).filterMap node? := by
  obtain ⟨tags, walked⟩ := walk_documentOf regular language uri count early lines
  obtain ⟨stands, front, below⟩ := stands_cutAtHeadings regular lines .start 1
  have empty : (stepsBelow (cutAtHeadings (numberFrom 1 (marksFrom d .start lines))).1).walk = [] := by
    simp [StepsBelow.walk, stands.rowless rfl, stands.docless rfl, stands.stepless rfl]
  rw [empty] at front
  have joined := congrArg (List.filterMap node?) (cutAtHeadings_join (numberFrom 1 (marksFrom d .start lines)))
  rw [List.filterMap_append, ← front, List.nil_append] at joined
  rw [walked, sectionsAt, walk_sectionsFrom below tags, joined]

end Documents

end Gherkin
