import Mathlib
import Gherkin.Proofs.Document.Accounting
import Gherkin.Proofs.Document.Contents

/-! # Doc strings are opaque

Two texts that differ only in their indentation and inside of doc strings are read as documents that differ only in
the contents of doc strings (`Gherkin.parse_hides_doc_strings`). Their lines have the same marks, but for what marks
say of the inside of a doc string, and nothing of a tree but the contents of doc strings is made of that.
-/

namespace Gherkin

/-! ### Documents without contents -/

/-- The doc string without its content. -/
def DocString.forgetContent (d : DocString) : DocString := { d with content := [] }

def Step.forgetContent (s : Step) : Step := { s with doc := s.doc.map DocString.forgetContent }

def Background.forgetContents (b : Background) : Background := { b with steps := b.steps.map Step.forgetContent }

def Scenario.forgetContents (s : Scenario) : Scenario := { s with steps := s.steps.map Step.forgetContent }

def Element.forgetContents : Element → Element
  | .background b => .background b.forgetContents
  | .scenario s => .scenario s.forgetContents

def Rule.forgetContents (r : Rule) : Rule := { r with children := r.children.map Element.forgetContents }

def Child.forgetContents : Child → Child
  | .rule r => .rule r.forgetContents
  | .element e => .element e.forgetContents

def Feature.forgetContents (f : Feature) : Feature := { f with children := f.children.map Child.forgetContents }

/-- The document without the contents of its doc strings; everything else is as it was. -/
def Document.forgetContents (d : Document) : Document := { d with feature := d.feature.map Feature.forgetContents }

/-! ### Marks without contents -/

/-- A mark without what it says of the inside of a doc string: the line, and the indentation taken from each. -/
def Mark.veil : Mark → Mark
  | .openDoc fence mediaType _ => .openDoc fence mediaType 0
  | .docLine _ => .docLine []
  | mark => mark

def NumberedMark.veil (m : NumberedMark) : NumberedMark := (m.1, m.2.veil)

theorem Mark.veil_veil (mark : Mark) : mark.veil.veil = mark.veil := by cases mark <;> rfl

theorem Mark.isHeading_veil (mark : Mark) : mark.veil.isHeading = mark.isHeading := by cases mark <;> rfl

/-- Marks may be numbered before or after they are veiled. -/
theorem numberFrom_veil (n : Nat) (marks : List Mark) :
    numberFrom n (marks.map Mark.veil) = (numberFrom n marks).map NumberedMark.veil := by
  induction marks generalizing n with
  | nil => rfl
  | cons mark rest ih =>
    rw [List.map_cons, numberFrom, ih]
    rfl

/-- Marks may be cut at headings before or after they are veiled, for no heading is. -/
theorem cutAtHeadings_veil (marks : List NumberedMark) :
    cutAtHeadings (marks.map NumberedMark.veil) =
      ((cutAtHeadings marks).1.map NumberedMark.veil,
        (cutAtHeadings marks).2.map fun entry => (entry.1, entry.2.map NumberedMark.veil)) := by
  induction marks with
  | nil => rfl
  | cons first rest ih =>
    obtain ⟨line, mark⟩ := first
    cases plain : mark.isHeading with
    | true =>
      cases mark with
      | heading kind keyword name =>
        change cutAtHeadings ((line, .heading kind keyword name) :: rest.map NumberedMark.veil) = _
        rw [cutAtHeadings_heading, cutAtHeadings_heading, ih]
        rfl
      | _ => cases plain
    | false =>
      change cutAtHeadings ((line, mark.veil) :: rest.map NumberedMark.veil) = _
      rw [cutAtHeadings_plain (mark.isHeading_veil.trans plain), cutAtHeadings_plain plain, ih]
      rfl

/-- What does not look at the content of doc strings finds the same in veiled marks. -/
theorem filterMap_veil {α : Type} {f : NumberedMark → Option α} (same : ∀ m : NumberedMark, f m.veil = f m)
    (marks : List NumberedMark) : (marks.map NumberedMark.veil).filterMap f = marks.filterMap f := by
  rw [List.filterMap_map]
  exact List.filterMap_congr fun m _ => same m

theorem flatMap_veil {α : Type} {f : NumberedMark → List α} (same : ∀ m : NumberedMark, f m.veil = f m)
    (marks : List NumberedMark) : (marks.map NumberedMark.veil).flatMap f = marks.flatMap f := by
  rw [List.flatMap_map]
  exact List.flatMap_congr fun m _ => same m

theorem comment?_veil (m : NumberedMark) : comment? m.veil = comment? m := by
  obtain ⟨line, mark⟩ := m
  cases mark <;> rfl

theorem lineTags_veil (m : NumberedMark) : lineTags m.veil = lineTags m := by
  obtain ⟨line, mark⟩ := m
  cases mark <;> rfl

theorem lineDiagnostics_veil (m : NumberedMark) : lineDiagnostics m.veil = lineDiagnostics m := by
  obtain ⟨line, mark⟩ := m
  cases mark <;> rfl

theorem tagsOf_veil (marks : List NumberedMark) : tagsOf (marks.map NumberedMark.veil) = tagsOf marks :=
  flatMap_veil lineTags_veil marks

theorem trailingTags_veil (front : List NumberedMark) (entries : List (HeadingLine × List NumberedMark)) :
    trailingTags (front.map NumberedMark.veil) (entries.map fun entry => (entry.1, entry.2.map NumberedMark.veil)) =
      trailingTags front entries := by
  induction entries generalizing front with
  | nil => exact tagsOf_veil front
  | cons entry rest ih => exact ih entry.2

/-- Whether a doc string is left open does not depend on its content. -/
theorem openDocAfter_veil (current : Option (Nat × Fence)) (marks : List NumberedMark) :
    openDocAfter current (marks.map NumberedMark.veil) = openDocAfter current marks := by
  induction marks generalizing current with
  | nil => rfl
  | cons first rest ih =>
    obtain ⟨line, mark⟩ := first
    cases mark <;> exact ih _

/-- The complaints about veiled marks are the same. -/
theorem marksDiagnostics_veil (marks : List NumberedMark) :
    marksDiagnostics (marks.map NumberedMark.veil) = marksDiagnostics marks := by
  rw [marksDiagnostics, marksDiagnostics, flatMap_veil lineDiagnostics_veil, openDocAfter_veil]

/-! ### Steps -/

namespace StepsBelow

/-- The steps below a heading without the contents of doc strings. -/
def forgetContents (s : StepsBelow) : StepsBelow :=
  ⟨s.rows, s.doc.map DocString.forgetContent, [], s.closed, s.steps.map Step.forgetContent⟩

/-- What a mark adds, but for contents, depends on the mark without its content and the steps without theirs. -/
theorem forgetContents_add (s : StepsBelow) (m : NumberedMark) :
    (s.add m).forgetContents = (s.forgetContents.add m.veil).forgetContents := by
  have docs : (s.doc.map DocString.forgetContent).map DocString.forgetContent = s.doc.map DocString.forgetContent := by
    rw [Option.map_map]
    rfl
  have steps : (s.steps.map Step.forgetContent).map Step.forgetContent = s.steps.map Step.forgetContent := by
    rw [List.map_map]
    congr 1
    funext step
    cases doc : step.doc <;> simp [Step.forgetContent, DocString.forgetContent, doc]
  obtain ⟨line, mark⟩ := m
  cases mark <;>
    simp only [add, forgetContents, NumberedMark.veil, Mark.veil, List.map_cons, Option.map_some, docs, steps,
      Step.forgetContent] <;> rfl

end StepsBelow

/-- Steps, tables and doc strings below a heading are the same but for the content of doc strings. -/
theorem stepsBelow_veil (marks : List NumberedMark) :
    (stepsBelow (marks.map NumberedMark.veil)).forgetContents = (stepsBelow marks).forgetContents := by
  induction marks with
  | nil => rfl
  | cons m rest ih =>
    have again : m.veil.veil = m.veil := congrArg (Prod.mk m.1) m.2.veil_veil
    rw [List.map_cons, stepsBelow, stepsBelow, StepsBelow.forgetContents_add, ih, again,
      ← StepsBelow.forgetContents_add]

/-! ### Sections and nodes -/

namespace Section

/-- The section without what its marks say of the inside of doc strings. -/
def veil (s : Section) : Section := { s with marks := s.marks.map NumberedMark.veil }

variable (s : Section)

/-- No description comes from the content of a doc string. -/
theorem veil_description : s.veil.description = s.description := by
  unfold description veil
  rw [filterMap_veil]
  rintro ⟨line, mark⟩
  cases mark <;> rfl

theorem veil_rows : s.veil.rows = s.rows := by
  unfold rows veil
  rw [filterMap_veil]
  rintro ⟨line, mark⟩
  cases mark <;> rfl

theorem veil_diagnostics : s.veil.diagnostics = s.diagnostics := by
  rw [diagnostics, diagnostics]
  exact congrArg (_ ++ ·) (marksDiagnostics_veil s.marks)

/-- The steps of a section are the same but for the content of doc strings. -/
theorem veil_steps : s.veil.steps.map Step.forgetContent = s.steps.map Step.forgetContent :=
  congrArg StepsBelow.steps (stepsBelow_veil s.marks)

theorem veil_toExamples : s.veil.toExamples = s.toExamples := by
  rw [toExamples, toExamples, veil_description, veil_rows]
  rfl

theorem veil_toBackground : s.veil.toBackground.forgetContents = s.toBackground.forgetContents := by
  simp only [Background.forgetContents, toBackground, veil_steps, veil_description]
  rfl

theorem veil_toScenario (isOutline : Bool) (examples : List Examples) :
    (s.veil.toScenario isOutline examples).forgetContents = (s.toScenario isOutline examples).forgetContents := by
  simp only [Scenario.forgetContents, toScenario, veil_steps, veil_description]
  rfl

end Section

theorem sectionsFrom_veil (tags : List Tag) (entries : List (HeadingLine × List NumberedMark)) :
    sectionsFrom tags (entries.map fun entry => (entry.1, entry.2.map NumberedMark.veil)) =
      (sectionsFrom tags entries).map Section.veil := by
  induction entries generalizing tags with
  | nil => rfl
  | cons entry rest ih =>
    rw [List.map_cons, sectionsFrom, tagsOf_veil, ih]
    rfl

namespace Nodes

/-- The nodes without the contents of doc strings. -/
def forgetContents (n : Nodes) : Nodes :=
  ⟨n.examples, n.inner.map Element.forgetContents, n.outer.map Child.forgetContents⟩

theorem forgetContents_addElement (n : Nodes) (nested : Bool) (e : Element) :
    (n.addElement nested e).forgetContents = n.forgetContents.addElement nested e.forgetContents := by
  cases nested <;> rfl

/-- A veiled section is added as the section is, but for the content of doc strings. -/
theorem forgetContents_add_veil {n other : Nodes} (same : n.forgetContents = other.forgetContents) (s : Section) :
    (n.add s.veil).forgetContents = (other.add s).forgetContents := by
  obtain ⟨examples, inner, outer⟩ := n
  obtain ⟨_, otherInner, otherOuter⟩ := other
  obtain ⟨rfl, sameInner, sameOuter⟩ := Nodes.mk.inj same
  have heading : s.veil.heading = s.heading := rfl
  unfold add
  rw [heading]
  cases s.heading.kind with
  | feature => exact same
  | rule =>
    simp only [forgetContents, List.map_nil, List.map_cons, sameOuter, Child.forgetContents, Rule.forgetContents,
      Section.toRule, sameInner, Section.veil_description]
    rfl
  | background nested =>
    rw [forgetContents_addElement, forgetContents_addElement, same, Element.forgetContents, Section.veil_toBackground]
    rfl
  | scenario nested outline =>
    rw [forgetContents_addElement, forgetContents_addElement, same, Element.forgetContents, Section.veil_toScenario]
    rfl
  | examples => simp only [forgetContents, sameInner, sameOuter, Section.veil_toExamples]

end Nodes

theorem nodes_veil (sections : List Section) :
    (nodes (sections.map Section.veil)).forgetContents = (nodes sections).forgetContents := by
  induction sections with
  | nil => rfl
  | cons s rest ih => exact Nodes.forgetContents_add_veil ih s

/-- The feature of veiled sections is the same but for the content of doc strings. -/
theorem featureOf_veil (language : Text) (sections : List Section) :
    (featureOf language (sections.map Section.veil)).map Feature.forgetContents =
      (featureOf language sections).map Feature.forgetContents := by
  cases sections with
  | nil => rfl
  | cons s rest =>
    have outer : (nodes (rest.map Section.veil)).outer.map Child.forgetContents =
        (nodes rest).outer.map Child.forgetContents := congrArg Nodes.outer (nodes_veil rest)
    simp only [List.map_cons, featureOf, Option.map_some, Feature.forgetContents, outer, Section.veil_description]
    rfl

/-- A document but for contents is made of the marks without theirs. -/
theorem documentOf_veil (language : Text) (uri : Option Text) (count : Nat) (early : List Diagnostic)
    (marks : List NumberedMark) :
    (documentOf language uri count early (marks.map NumberedMark.veil)).forgetContents =
      (documentOf language uri count early marks).forgetContents := by
  have diagnostics (sections : List Section) :
      (sections.map Section.veil).flatMap Section.diagnostics = sections.flatMap Section.diagnostics := by
    rw [List.flatMap_map]
    exact List.flatMap_congr fun s _ => s.veil_diagnostics
  simp only [documentOf, Document.forgetContents, cutAtHeadings_veil, tagsOf_veil, sectionsFrom_veil, featureOf_veil,
    filterMap_veil comment?_veil, marksDiagnostics_veil, diagnostics, trailingTags_veil, List.isEmpty_map]

/-! ### Lines that are alike -/

variable {d : Dialect}

/-- The lines behind a line only matter for it if it may hold tags, and then for whether examples come next. -/
theorem markBlock_congr {nested : Bool} {t : Text} {first second : List Text}
    (same : t.head? = some '@' → examplesAhead d first = examplesAhead d second) :
    markBlock d nested t first = markBlock d nested t second := by
  unfold markBlock
  by_cases sign : t.head? = some '@'
  · rw [same sign]
  · simp [sign]

theorem markStep_congr {inScenario nested : Bool} {t : Text} {first second : List Text}
    (same : t.head? = some '@' → examplesAhead d first = examplesAhead d second) :
    markStep d inScenario nested t first = markStep d inScenario nested t second := by
  unfold markStep
  rw [markBlock_congr same]

/-- A mark with the position after it, without what the mark says of the inside of a doc string. -/
def veilMarked (marked : Mark × Position) : Mark × Position := (marked.1.veil, marked.2)

/-- Lines that are the same when trimmed are read alike, but for the content of doc strings. -/
theorem Place.mark_veil {place : Place} {raw other : Text} {first second : List Text}
    (same : Text.trim other = Text.trim raw)
    (ahead : (Text.trim raw).head? = some '@' → examplesAhead d first = examplesAhead d second) :
    veilMarked (place.mark d (Text.trim raw) raw first) = veilMarked (place.mark d (Text.trim raw) other second) := by
  cases place with
  | argument inScenario nested =>
    rw [mark, mark, markStep_congr ahead]
    split
    · rfl
    · split
      · simp only [veilMarked, markOpenDoc, same, Mark.veil]
      · rfl
  | doc => rfl
  | _ => simp only [mark, markBlock_congr ahead, markStep_congr ahead]

/-- Apart from that, the mark of a line depends on the line without its indentation, and on the lines ahead only where
it holds tags. -/
theorem Position.mark_veil {p : Position} {raw other : Text} {first second : List Text}
    (same : Text.trim other = Text.trim raw)
    (ahead : p.place.fence? = none → (Text.trim raw).head? = some '@' →
      examplesAhead d first = examplesAhead d second) :
    veilMarked (p.mark d raw first) = veilMarked (p.mark d other second) := by
  obtain ⟨place, describing⟩ := p
  cases place with
  | doc inScenario nested fence =>
    simp only [mark, same]
    split <;> rfl
  | _ =>
    simp only [mark, same]
    split
    · rfl
    · rename_i c t line
      rw [← line]
      split
      · rfl
      · split
        · rfl
        · exact Place.mark_veil same (ahead rfl)

/-- Whether the lines from a position on are like others: those inside of a doc string as long as they do not close
it, and all others if they differ only in their indentation. -/
inductive Alike (d : Dialect) : Position → List Text → List Text → Prop
  | nil {p : Position} : Alike d p [] []
  | inside {p : Position} {fence : Fence} {raw other : Text} {rest others : List Text}
      (within : p.place.fence? = some fence) (goesOn : Text.trim raw ≠ fence.text)
      (alsoGoesOn : Text.trim other ≠ fence.text) (below : Alike d (.within p.place) rest others) :
      Alike d p (raw :: rest) (other :: others)
  | same {p : Position} {raw other : Text} {rest others : List Text} (trimmed : Text.trim other = Text.trim raw)
      (below : Alike d (p.mark d raw rest).2 rest others) : Alike d p (raw :: rest) (other :: others)

/-- Only a line that starts with a fence leads into a doc string. -/
theorem Position.mark_outside (regular : d.Regular) {p : Position} {raw : Text}
    (plain : ∀ c ∈ (Text.trim raw).head?, c ≠ '"' ∧ c ≠ '\x60') (outside : p.place.fence? = none) (ahead : List Text) :
    (p.mark d raw ahead).2.place.fence? = none := by
  by_contra inside
  obtain ⟨fence, inside⟩ := Option.ne_none_iff_exists'.mp inside
  rcases (p.marking regular raw ahead).entersDoc inside with ⟨within, -⟩ | ⟨mediaType, indent, marked⟩
  · cases outside.symm.trans within
  · obtain ⟨fenced, -⟩ := Position.opens regular marked
    rw [Fence.ofLine?_eq_none plain] at fenced
    cases fenced

/-- Outside doc strings, whether examples are ahead is the same: the first line that decides it is in no doc string. -/
theorem Alike.examplesAhead (regular : d.Regular) {p : Position} {lines others : List Text}
    (alike : Alike d p lines others) (outside : p.place.fence? = none) :
    Gherkin.examplesAhead d lines = Gherkin.examplesAhead d others := by
  induction alike with
  | nil => rfl
  | inside within => cases outside.symm.trans within
  | @same p raw other rest others trimmed _ ih =>
    have later (plain : ∀ c ∈ (Text.trim raw).head?, c ≠ '"' ∧ c ≠ '\x60') :=
      ih (Position.mark_outside regular plain outside rest)
    rw [Gherkin.examplesAhead, Gherkin.examplesAhead, trimmed]
    cases line : Text.trim raw with
    | nil =>
      rw [line] at later
      exact later (by rintro _ ⟨⟩)
    | cons c t =>
      rw [line] at later
      by_cases passed : c = '#' ∨ c = '@'
      · rcases passed with rfl | rfl
        · exact later (by rintro _ ⟨⟩; decide)
        · exact later (by rintro _ ⟨⟩; decide)
      · simp [passed]

/-- Texts that are alike line by line have the same veiled marks. -/
theorem Alike.marks (regular : d.Regular) {p : Position} {lines others : List Text} (alike : Alike d p lines others) :
    (marksFrom d p lines).map Mark.veil = (marksFrom d p others).map Mark.veil := by
  induction alike with
  | nil => rfl
  | @inside p fence raw other rest others within goesOn alsoGoesOn _ ih =>
    rw [marksFrom, marksFrom, p.mark_docLine within goesOn, p.mark_docLine within alsoGoesOn, List.map_cons,
      List.map_cons, ih]
    rfl
  | @same p raw other rest others trimmed below ih =>
    have marked : veilMarked (p.mark d raw rest) = veilMarked (p.mark d other others) := by
      refine Position.mark_veil trimmed fun outside sign => below.examplesAhead regular ?_
      refine Position.mark_outside regular ?_ outside rest
      rintro c start
      cases sign.symm.trans start
      decide
    obtain ⟨mark, next⟩ := Prod.mk.inj marked
    rw [marksFrom, marksFrom, List.map_cons, List.map_cons, ← next, mark, ih]

/-! ### Insides of doc strings -/

/-- Whether a line that stands behind some others is inside of a doc string of a document: a line before it opens the
doc string, and neither a line between the two nor the line itself closes it. -/
def Document.Inside (document : Document) (before : List Text) (raw : Text) (fence : Fence) : Prop :=
  (∃ front opening inner mediaType, before = front ++ opening :: inner ∧
    (front.length + 1, .doc fence mediaType) ∈ document.walk ∧ ∀ line ∈ inner, Text.trim line ≠ fence.text) ∧
    Text.trim raw ≠ fence.text

/-- Whether lines are as many as those of a document, differ from these outside of its doc strings at most in
indentation, and close none of its doc strings inside of it. -/
structure Document.SameOutside (document : Document) (lines others : List Text) : Prop where
  length : others.length = lines.length
  outside : ∀ before raw after other, lines = before ++ raw :: after → others[before.length]? = some other →
    (∀ fence, ¬ document.Inside before raw fence) → Text.trim other = Text.trim raw
  inside : ∀ before raw after other fence, lines = before ++ raw :: after → others[before.length]? = some other →
    document.Inside before raw fence → Text.trim other ≠ fence.text

/-- A line stands in a doc string of the tree exactly if it is read with the fence of one open and does not close it. -/
theorem Document.ReadFrom.inside_iff (regular : d.Regular) {document : Document} {before after : List Text}
    {raw : Text} (read : document.ReadFrom d (before ++ raw :: after)) (fence : Fence) :
    document.Inside before raw fence ↔
      (positionAfter d .start before (raw :: after)).place.fence? = some fence ∧ Text.trim raw ≠ fence.text :=
  and_congr (read.fence?_iff regular fence).symm Iff.rfl

section Aligned

variable {document : Document} {lines others : List Text}

/-- Behind as many lines of each, what follows is alike. -/
theorem Document.SameOutside.alike_behind (regular : d.Regular) (read : document.ReadFrom d lines)
    (same : document.SameOutside lines others) {before after front more : List Text}
    (split : lines = before ++ after) (alsoSplit : others = front ++ more) (aligned : front.length = before.length) :
    Alike d (positionAfter d .start before after) after more := by
  have length : more.length = after.length := by
    have length := same.length
    rw [split, alsoSplit, List.length_append, List.length_append, aligned] at length
    exact Nat.add_left_cancel length
  induction after generalizing before front more with
  | nil =>
    rw [List.length_eq_zero_iff.mp length]
    exact .nil
  | cons raw rest ih =>
    obtain ⟨other, moreRest, rfl⟩ := List.exists_cons_of_length_eq_add_one length
    have found : others[before.length]? = some other := by
      rw [alsoSplit, ← aligned]
      simp
    have below := @ih (before ++ [raw]) (front ++ [other]) moreRest (by simp [split]) (by simp [alsoSplit])
      (by simp [aligned]) (Nat.succ.inj length)
    rw [positionAfter_concat] at below
    have here : document.ReadFrom d (before ++ raw :: rest) := split ▸ read
    by_cases within : ∃ fence, document.Inside before raw fence
    · obtain ⟨fence, within⟩ := within
      obtain ⟨inDoc, goesOn⟩ := (here.inside_iff regular fence).mp within
      rw [Position.mark_docLine inDoc goesOn] at below
      exact .inside inDoc goesOn (same.inside before raw rest other fence split found within) below
    · exact .same (same.outside before raw rest other split found fun fence inside => within ⟨fence, inside⟩) below

/-- Texts that are the same outside doc strings are alike line by line. -/
theorem Document.SameOutside.alike (regular : d.Regular) (read : document.ReadFrom d lines)
    (same : document.SameOutside lines others) : Alike d .start lines others :=
  @Document.SameOutside.alike_behind _ _ _ _ regular read same [] lines [] others rfl rfl rfl

/-- The first line is inside of no doc string. -/
theorem Document.SameOutside.head? (same : document.SameOutside lines others) :
    others.head?.map Text.trim = lines.head?.map Text.trim := by
  have length := same.length
  cases lines with
  | nil => rw [List.length_eq_zero_iff.mp length]
  | cons raw rest =>
    obtain ⟨other, more, rfl⟩ := List.exists_cons_of_length_eq_add_one length
    refine congrArg some (same.outside [] raw rest other rfl rfl ?_)
    rintro fence ⟨⟨front, opening, inner, _, split, _⟩, _⟩
    simp at split

end Aligned

/-- The language of a text depends on its first line only. -/
theorem languageOf_congr {default : Text} {lines others : List Text}
    (same : others.head?.map Text.trim = lines.head?.map Text.trim) :
    languageOf default others = languageOf default lines := by
  have named (lines : List Text) : (lines.head?.bind fun line => languageDirective? (Text.trim line)) =
      (lines.head?.map Text.trim).bind languageDirective? := by
    cases lines <;> rfl
  rw [languageOf, languageOf, named, named, same]

/-- Texts that are alike have the same document but for the content of doc strings. -/
theorem documentOf_alike (regular : d.Regular) {lines others : List Text} (alike : Alike d .start lines others)
    (language : Text) (uri : Option Text) (count : Nat) (early : List Diagnostic) :
    (documentOf language uri count early (numberFrom 1 (marks d others))).forgetContents =
      (documentOf language uri count early (numberFrom 1 (marks d lines))).forgetContents := by
  rw [← documentOf_veil, ← documentOf_veil language uri count early (numberFrom 1 (marks d lines)),
    ← numberFrom_veil, ← numberFrom_veil, marks, marks, alike.marks regular]

/-- Texts that are the same outside doc strings are read alike but for the content of doc strings. -/
theorem parseLenient_sameOutside {default first second : Text} {uri : Option Text}
    (same : (parseLenient .builtIn default first uri).SameOutside (Text.lines first) (Text.lines second)) :
    (parseLenient .builtIn default second uri).forgetContents =
      (parseLenient .builtIn default first uri).forgetContents := by
  have regular := Languages.dialectOf_regular default (Text.lines first)
  have alike := same.alike regular (parseLenient_readFrom default first uri)
  obtain ⟨language, early, -, -, read⟩ := parseLenient_eq default (Text.lines first)
  rw [read first uri rfl, read second uri (languageOf_congr same.head?), same.length]
  exact documentOf_alike regular alike _ _ _ _

/-- Texts that differ only in indentation and inside of doc strings are read as documents that differ only in the
contents of doc strings; and the content of a doc string is made of the lines of its own block. -/
theorem parse_hides_doc_strings (default : Text) (uri : Option Text) :
    (∀ first second, ∃ document other,
      ({ language := default } : Parser).parse .builtIn first uri = .ok document ∧
      ({ language := default } : Parser).parse .builtIn second uri = .ok other ∧
      (document.SameOutside (Text.lines first) (Text.lines second) →
        other.forgetContents = document.forgetContents)) ∧
    ∀ text, ∃ document, ({ language := default } : Parser).parse .builtIn text uri = .ok document ∧
      ∀ doc ∈ document.docStrings, doc.StandsIn 1 (Text.lines text) := by
  refine ⟨fun first second => ?_, fun text => ?_⟩
  · exact ⟨_, _, Parser.parse_lenient rfl .builtIn first uri, Parser.parse_lenient rfl .builtIn second uri,
      parseLenient_sameOutside⟩
  · refine ⟨_, Parser.parse_lenient rfl .builtIn text uri, ?_⟩
    obtain ⟨language, uri, count, early, _, read⟩ := parseLenient_readFrom default text uri
    rw [read]
    exact documentOf_docStrings (Languages.dialectOf_regular default (Text.lines text)) language uri count early _

/-- A text with a doc string. -/
def quotingText : Text :=
  "Feature: f\n  Scenario: s\n    Given a\n      \"\"\"json\n      x\n      \"\"\"\n    Then b"

/-- The text with other indentation, and with what looks like a rule inside of the doc string. -/
def requotingText : Text := "Feature: f\nScenario: s\n  Given a\n\"\"\"json\n@t Rule: r\n  \"\"\"\nThen b"

/-- The document of both texts, but for the content of its doc string. -/
def quotingDocument (content : Text) : Document where
  feature := some {
    keyword := "Feature", name := "f", description := "", tags := [], line := 1, language := "en"
    children := [.element (.scenario {
      keyword := "Scenario", name := "s", description := "", tags := [], examples := [], line := 2
      isOutline := false
      steps := [⟨"Given", .context, "a", none, some ⟨content, some "json", .quotes, 4⟩, 3⟩,
        ⟨"Then", .outcome, "b", none, none, 7⟩] })] }
  comments := []
  uri := none
  diagnostics := []

theorem parse_quotingText : parseLenient .builtIn "en" quotingText none = quotingDocument "x" :=
  (parseLenient_english (by cbv)).trans (by cbv)

theorem parse_requotingText : parseLenient .builtIn "en" requotingText none = quotingDocument "@t Rule: r" :=
  (parseLenient_english (by cbv)).trans (by cbv)

/-- Only the line inside of the doc string differs in more than indentation. -/
theorem quotingText_sameOutside :
    (quotingDocument "x").SameOutside (Text.lines quotingText) (Text.lines requotingText) := by
  have lines : Text.lines quotingText = ["Feature: f", "  Scenario: s", "    Given a", "      \"\"\"json", "      x",
      "      \"\"\"", "    Then b"] := by
    cbv
  have others : Text.lines requotingText = ["Feature: f", "Scenario: s", "  Given a", "\"\"\"json", "@t Rule: r",
      "  \"\"\"", "Then b"] := by
    cbv
  have trimmed : ∀ i < 7, i ≠ 4 →
      (Text.lines requotingText)[i]?.map Text.trim = (Text.lines quotingText)[i]?.map Text.trim := by
    rw [lines, others]
    decide
  have unfenced : ∀ i < 7, 4 ≤ i → i ≠ 5 → (Text.lines requotingText)[i]?.map Text.trim ≠ some Fence.quotes.text := by
    rw [others]
    decide
  have position {before after : List Text} {raw : Text} (split : Text.lines quotingText = before ++ raw :: after) :
      before.length < 7 ∧ (Text.lines quotingText)[before.length]? = some raw := by
    refine ⟨?_, by rw [split]; simp⟩
    have count : (Text.lines quotingText).length = 7 := congrArg List.length lines
    rw [split, List.length_append, List.length_cons] at count
    omega
  refine ⟨by rw [lines, others]; rfl, ?_, ?_⟩
  · intro before raw after other split found unquoted
    obtain ⟨within, here⟩ := position split
    by_cases quoted : before.length = 4
    · have front : before = (Text.lines quotingText).take 4 := by rw [split, ← quoted, List.take_left]
      rw [quoted, lines] at here
      rw [lines] at front
      cases front
      cases here
      refine absurd ⟨⟨["Feature: f", "  Scenario: s", "    Given a"], "      \"\"\"json", [], some "json", rfl, ?_,
        List.forall_mem_nil _⟩, by decide⟩ (unquoted .quotes)
      decide
    · have same := trimmed before.length within quoted
      rw [found, here] at same
      exact Option.some.inj same
  · rintro before raw after other fence split found ⟨⟨front, opening, inner, mediaType, opened, member, -⟩, goesOn⟩
    obtain ⟨within, here⟩ := position split
    obtain ⟨line, rfl, -⟩ : front.length + 1 = 4 ∧ fence = .quotes ∧ mediaType = some "json" := by
      simpa [quotingDocument, Document.walk, Feature.walk, Child.walk, Element.walk, Scenario.walk, Step.walk,
        DocString.node] using member
    have late : 4 ≤ before.length := by
      rw [opened, List.length_append, List.length_cons]
      omega
    by_cases closes : before.length = 5
    · rw [closes, lines] at here
      cases here
      exact absurd rfl goesOn
    · intro same
      refine unfenced before.length within late closes ?_
      rw [found, Option.map_some, same]

/-- What looks like a rule inside of a doc string is content. -/
theorem parse_hides_quoted_rule :
    ({} : Parser).parse .builtIn quotingText none = .ok (quotingDocument "x") ∧
      (quotingDocument "x").SameOutside (Text.lines quotingText) (Text.lines requotingText) ∧
      ({} : Parser).parse .builtIn requotingText none = .ok (quotingDocument "@t Rule: r") ∧
      (quotingDocument "@t Rule: r").forgetContents = (quotingDocument "x").forgetContents := by
  obtain ⟨document, other, read, readOther, hides⟩ := (parse_hides_doc_strings "en" none).1 quotingText requotingText
  have first : ({} : Parser).parse .builtIn quotingText none = .ok (quotingDocument "x") :=
    (Parser.parse_lenient rfl .builtIn quotingText none).trans (congrArg Except.ok parse_quotingText)
  have second : ({} : Parser).parse .builtIn requotingText none = .ok (quotingDocument "@t Rule: r") :=
    (Parser.parse_lenient rfl .builtIn requotingText none).trans (congrArg Except.ok parse_requotingText)
  obtain rfl := Except.ok.inj (read.symm.trans first)
  obtain rfl := Except.ok.inj (readOther.symm.trans second)
  exact ⟨first, quotingText_sameOutside, second, hides quotingText_sameOutside⟩

end Gherkin
