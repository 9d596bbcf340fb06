import Mathlib
import Gherkin.Proofs.Document.Opacity

/-! # Comments are transparent

A comment that is put into a text outside of its doc strings is added to the comments and changes nothing else but line
numbers (`Gherkin.parse_ignores_comment`). The other lines keep their marks, and but for line numbers a tree and the
problems that are reported are made of the marks that are no comments.
-/

namespace Gherkin

/-! ### Marks without comments and lines -/

def Mark.isComment : Mark → Bool
  | .comment _ => true
  | _ => false

/-- The marks that are no comments, each on no line. -/
def bareMarks (marks : List NumberedMark) : List NumberedMark :=
  (marks.filter fun m => !m.2.isComment).map fun m => (0, m.2)

/-- A comment leaves no bare mark. -/
theorem bareMarks_comment (line : Nat) (t : Text) (rest : List NumberedMark) :
    bareMarks ((line, .comment t) :: rest) = bareMarks rest := rfl

/-- Every other mark is only taken off its line. -/
theorem bareMarks_cons {mark : Mark} (plain : mark.isComment = false) (line : Nat) (rest : List NumberedMark) :
    bareMarks ((line, mark) :: rest) = (0, mark) :: bareMarks rest := by
  simp [bareMarks, plain]

/-- Bare marks do not depend on where the numbers of lines start. -/
theorem bareMarks_numberFrom (n : Nat) (marks : List Mark) :
    bareMarks (numberFrom n marks) = (marks.filter fun mark => !mark.isComment).map fun mark => (0, mark) := by
  have marked : ((fun mark : Mark => !mark.isComment) ∘ Prod.snd : NumberedMark → Bool) = fun m => !m.2.isComment :=
    rfl
  have numbered := map_snd_numberFrom n marks
  rw [bareMarks, ← numbered, List.filter_map, List.map_map, marked, numbered]
  rfl

/-- A heading on no line, with the bare marks below it. -/
def bareEntry (entry : HeadingLine × List NumberedMark) : HeadingLine × List NumberedMark :=
  ({ entry.1 with line := 0 }, bareMarks entry.2)

/-- Cutting at headings and leaving out comments and lines can be done in either order. -/
theorem cutAtHeadings_bare (marks : List NumberedMark) :
    cutAtHeadings (bareMarks marks) =
      (bareMarks (cutAtHeadings marks).1, (cutAtHeadings marks).2.map bareEntry) := by
  induction marks with
  | nil => rfl
  | cons first rest ih =>
    obtain ⟨line, mark⟩ := first
    cases mark with
    | comment t => rw [bareMarks_comment, ih, cutAtHeadings_plain rfl, bareMarks_comment]
    | heading kind keyword name =>
      rw [bareMarks_cons rfl, cutAtHeadings_heading, cutAtHeadings_heading, ih]
      rfl
    | _ => rw [bareMarks_cons rfl, cutAtHeadings_plain rfl, cutAtHeadings_plain rfl, ih, bareMarks_cons rfl]

section Lists

variable {α : Type} {g : α → α}

/-- What is made mark by mark, and not of comments, is made of the bare marks but for its lines. -/
theorem flatMap_bare {f : NumberedMark → List α} (lineless : ∀ line mark, f (0, mark) = (f (line, mark)).map g)
    (silent : ∀ line t, f (line, .comment t) = []) (marks : List NumberedMark) :
    (bareMarks marks).flatMap f = (marks.flatMap f).map g := by
  induction marks with
  | nil => rfl
  | cons first rest ih =>
    obtain ⟨line, mark⟩ := first
    rw [List.flatMap_cons, List.map_append, ← ih]
    cases mark with
    | comment t => rw [bareMarks_comment, silent]; rfl
    | _ => rw [bareMarks_cons rfl, List.flatMap_cons, lineless line]

/-- What is found mark by mark is found in bare marks too, but for lines, if comments are not looked at. -/
theorem filterMap_bare {f : NumberedMark → Option α} (lineless : ∀ line mark, f (0, mark) = (f (line, mark)).map g)
    (silent : ∀ line t, f (line, .comment t) = none) (marks : List NumberedMark) :
    (bareMarks marks).filterMap f = (marks.filterMap f).map g := by
  rw [List.filterMap_eq_flatMap_toList, List.filterMap_eq_flatMap_toList]
  refine flatMap_bare (fun line mark => ?_) (fun line t => by rw [silent]; rfl) marks
  rw [lineless line]
  cases f (line, mark) <;> rfl

end Lists

/-- Bare marks have the same tags, on no line. -/
theorem tagsOf_bare (marks : List NumberedMark) : tagsOf (bareMarks marks) = (tagsOf marks).map Tag.forgetLines := by
  refine flatMap_bare (fun line mark => ?_) (fun _ _ => rfl) marks
  cases mark <;> simp [lineTags, Tag.forgetLines]

/-- The tags that belong to the next heading are the same, on no line. -/
theorem trailingTags_bare (front : List NumberedMark) (entries : List (HeadingLine × List NumberedMark)) :
    trailingTags (bareMarks front) (entries.map bareEntry) = (trailingTags front entries).map Tag.forgetLines := by
  induction entries generalizing front with
  | nil => exact tagsOf_bare front
  | cons entry rest ih => exact ih entry.2

/-! ### Steps -/

namespace StepsBelow

def forgetLines (s : StepsBelow) : StepsBelow :=
  ⟨s.rows.map Row.forgetLines, s.doc.map DocString.forgetLines, s.lines, s.closed, s.steps.map Step.forgetLines⟩

/-- One more mark changes what has been read below a heading in the same way whether or not lines count. -/
theorem forgetLines_add (s : StepsBelow) (line : Nat) (mark : Mark) :
    s.forgetLines.add (0, mark) = (s.add (line, mark)).forgetLines := by
  cases mark with
  | step keyword type text =>
    cases rows : s.rows <;> simp [add, forgetLines, rows, Step.forgetLines, DataTable.forgetLines]
  | _ => rfl

end StepsBelow

/-- Steps, tables and doc strings below a heading are the same, on no line. -/
theorem stepsBelow_bare (marks : List NumberedMark) :
    stepsBelow (bareMarks marks) = (stepsBelow marks).forgetLines := by
  induction marks with
  | nil => rfl
  | cons first rest ih =>
    obtain ⟨line, mark⟩ := first
    cases mark with
    | comment t => exact ih
    | _ => rw [bareMarks_cons rfl, stepsBelow, ih, StepsBelow.forgetLines_add]; rfl

/-! ### Sections and nodes -/

namespace Section

/-- The section without its comments and lines. -/
def bare (s : Section) : Section := ⟨{ s.heading with line := 0 }, s.tags.map Tag.forgetLines, bareMarks s.marks⟩

variable (s : Section)

/-- A comment is no part of a description. -/
theorem bare_description : s.bare.description = s.description := by
  unfold description bare
  rw [filterMap_bare (g := id) (fun line mark => ?_) fun _ _ => rfl, List.map_id]
  cases mark <;> rfl

/-- The rows of a table are the same, on no line. -/
theorem bare_rows : s.bare.rows = s.rows.map Row.forgetLines := by
  unfold rows bare
  refine filterMap_bare (fun line mark => ?_) (fun _ _ => rfl) s.marks
  cases mark <;> rfl

/-- The steps of a section are the same, on no line. -/
theorem bare_steps : s.bare.steps = s.steps.map Step.forgetLines := congrArg StepsBelow.steps (stepsBelow_bare s.marks)

/-- The examples of a section are the same, on no line. -/
theorem bare_toExamples : s.bare.toExamples = s.toExamples.forgetLines := by
  rw [toExamples, bare_description, bare_rows, List.head?_map, ← List.map_tail]
  rfl

/-- The background of a section is the same, on no line. -/
theorem bare_toBackground : s.bare.toBackground = s.toBackground.forgetLines := by
  rw [toBackground, bare_description, bare_steps]
  rfl

/-- The scenario of a section is the same, on no line. -/
theorem bare_toScenario (isOutline : Bool) (examples : List Examples) :
    s.bare.toScenario isOutline (examples.map Examples.forgetLines) =
      (s.toScenario isOutline examples).forgetLines := by
  rw [toScenario, bare_description, bare_steps]
  rfl

/-- The rule of a section is the same, on no line. -/
theorem bare_toRule (children : List Element) :
    s.bare.toRule (children.map Element.forgetLines) = (s.toRule children).forgetLines := by
  rw [toRule, bare_description]
  rfl

end Section

/-- The sections of bare marks are the bare sections. -/
theorem sectionsFrom_bare (tags : List Tag) (entries : List (HeadingLine × List NumberedMark)) :
    sectionsFrom (tags.map Tag.forgetLines) (entries.map bareEntry) =
      (sectionsFrom tags entries).map Section.bare := by
  induction entries generalizing tags with
  | nil => rfl
  | cons entry rest ih =>
    rw [List.map_cons, bareEntry, sectionsFrom, tagsOf_bare, ih]
    rfl

/-- A section without comments and lines is added as the section is, but for lines. -/
theorem Nodes.forgetLines_add_bare (n : Nodes) (s : Section) : n.forgetLines.add s.bare = (n.add s).forgetLines := by
  have kind : s.bare.heading.kind = s.heading.kind := rfl
  rw [add, add, kind]
  cases s.heading.kind with
  | feature => rfl
  | rule =>
    simp only [forgetLines, s.bare_toRule]
    rfl
  | background nested => rw [forgetLines_addElement, s.bare_toBackground]; rfl
  | scenario nested outline =>
    rw [forgetLines_addElement, Element.forgetLines, ← s.bare_toScenario]
    rfl
  | examples =>
    simp only [forgetLines, s.bare_toExamples]
    rfl

/-- The nodes of sections are the same, on no line. -/
theorem nodes_bare (sections : List Section) : nodes (sections.map Section.bare) = (nodes sections).forgetLines := by
  induction sections with
  | nil => rfl
  | cons s rest ih => rw [List.map_cons, nodes, ih, Nodes.forgetLines_add_bare]; rfl

/-- The feature of sections is the same, on no line. -/
theorem featureOf_bare (language : Text) (sections : List Section) :
    featureOf language (sections.map Section.bare) = (featureOf language sections).map Feature.forgetLines := by
  cases sections with
  | nil => rfl
  | cons s rest =>
    rw [List.map_cons, featureOf, s.bare_description, nodes_bare]
    rfl

/-! ### Problems -/

/-- Whether a doc string is left open, and with which fence, does not depend on comments outside it. -/
theorem openDocAfter_bare (current : Option (Nat × Fence)) (marks : List NumberedMark) :
    openDocAfter (current.map fun opened => (0, opened.2)) (bareMarks marks) =
      (openDocAfter current marks).map fun opened => (0, opened.2) := by
  induction marks generalizing current with
  | nil => rfl
  | cons first rest ih =>
    obtain ⟨line, mark⟩ := first
    cases mark with
    | comment t => exact ih current
    | openDoc fence mediaType indent => exact ih (some (line, fence))
    | closeDoc => exact ih none
    | _ => exact ih current

/-- The complaints about marks are the same but for their lines. -/
theorem marksDiagnostics_bare (marks : List NumberedMark) :
    (marksDiagnostics (bareMarks marks)).map Diagnostic.problem = (marksDiagnostics marks).map Diagnostic.problem := by
  have lines := flatMap_bare (f := fun m => (lineDiagnostics m).map Diagnostic.problem) (g := id)
    (fun line mark => by cases mark <;> simp [lineDiagnostics]) (fun _ _ => rfl) marks
  rw [List.map_id, ← List.map_flatMap, ← List.map_flatMap] at lines
  have opened : openDocAfter none (bareMarks marks) = _ := openDocAfter_bare none marks
  rw [marksDiagnostics, marksDiagnostics, List.map_append, List.map_append, lines, opened]
  cases openDocAfter none marks <;> rfl

/-- The complaint about tags that are passed over is the same but for its line. -/
theorem ignoredTagsDiagnostic_bare (problem : List Text → Problem) (tags : List Tag) :
    (ignoredTagsDiagnostic problem (tags.map Tag.forgetLines)).map Diagnostic.problem =
      (ignoredTagsDiagnostic problem tags).map Diagnostic.problem := by
  cases tags with
  | nil => rfl
  | cons tag rest => simp [ignoredTagsDiagnostic, Tag.forgetLines, Function.comp_def]

/-- The complaints about a section are the same but for their lines. -/
theorem Section.bare_diagnostics (s : Section) :
    s.bare.diagnostics.map Diagnostic.problem = s.diagnostics.map Diagnostic.problem := by
  have kind : s.bare.heading.kind = s.heading.kind := rfl
  have marks := marksDiagnostics_bare s.marks
  rw [diagnostics, diagnostics, kind, List.map_append, List.map_append]
  refine congrArg₂ _ ?_ marks
  cases s.heading.kind with
  | background => exact ignoredTagsDiagnostic_bare _ _
  | _ => rfl

/-! ### Documents -/

section Documents

variable (language : Text) (uri : Option Text) (early : List Diagnostic)

/-- But for lines, the tree and the problems of a document are made of the bare marks. -/
theorem documentOf_bare (count other : Nat) (marks : List NumberedMark) :
    (documentOf language uri other early (bareMarks marks)).feature =
        (documentOf language uri count early marks).feature.map Feature.forgetLines ∧
      (documentOf language uri other early (bareMarks marks)).diagnostics.map Diagnostic.problem =
        (documentOf language uri count early marks).diagnostics.map Diagnostic.problem := by
  have sections (sections : List Section) :
      ((sections.map Section.bare).flatMap Section.diagnostics).map Diagnostic.problem =
        (sections.flatMap Section.diagnostics).map Diagnostic.problem := by
    rw [List.flatMap_map, List.map_flatMap, List.map_flatMap]
    exact List.flatMap_congr fun s _ => s.bare_diagnostics
  simp only [documentOf, cutAtHeadings_bare, tagsOf_bare, sectionsFrom_bare, featureOf_bare, trailingTags_bare,
    List.isEmpty_map, List.map_append, marksDiagnostics_bare, sections, true_and]
  refine congrArg _ ?_
  split
  · rw [List.map_append, List.map_append, ignoredTagsDiagnostic_bare]
    rfl
  · exact ignoredTagsDiagnostic_bare _ _

/-- Documents with the same bare marks have the same feature and the same complaints, but for lines. -/
theorem documentOf_congr_bare {count other : Nat} {first second : List NumberedMark}
    (same : bareMarks second = bareMarks first) :
    (documentOf language uri other early second).feature.map Feature.forgetLines =
        (documentOf language uri count early first).feature.map Feature.forgetLines ∧
      (documentOf language uri other early second).diagnostics.map Diagnostic.problem =
        (documentOf language uri count early first).diagnostics.map Diagnostic.problem := by
  obtain ⟨feature, problems⟩ := documentOf_bare language uri early count count first
  obtain ⟨otherFeature, otherProblems⟩ := documentOf_bare language uri early other count second
  rw [same] at otherFeature otherProblems
  exact ⟨otherFeature.symm.trans feature, otherProblems.symm.trans problems⟩

end Documents

/-! ### Marks of lines with a comment put in -/

section Marking

variable {d : Dialect} {p : Position} {raw : Text} {first second : List Text}

/-- A comment does not matter for whether examples come next. -/
theorem examplesAhead_comment {line : Text} (hash : (Text.trim line).head? = some '#') (rest : List Text) :
    examplesAhead d (line :: rest) = examplesAhead d rest := by
  rw [examplesAhead]
  cases trimmed : Text.trim line with
  | nil => rfl
  | cons c t =>
    rw [trimmed] at hash
    cases hash
    rfl

/-- Whether examples come next depends on a trimmed line and on what comes behind it. -/
theorem examplesAhead_cons {other : Text} (trimmed : Text.trim other = Text.trim raw)
    (same : examplesAhead d first = examplesAhead d second) :
    examplesAhead d (raw :: first) = examplesAhead d (other :: second) := by
  rw [examplesAhead, examplesAhead, trimmed, same]

/-- Lines in front do not change that two texts agree on whether examples come next. -/
theorem examplesAhead_append (same : examplesAhead d first = examplesAhead d second) (lines : List Text) :
    examplesAhead d (lines ++ first) = examplesAhead d (lines ++ second) := by
  induction lines with
  | nil => exact same
  | cons raw rest ih => exact examplesAhead_cons rfl ih

/-- Of the lines ahead, a line is marked by whether they show examples. -/
theorem Position.mark_ahead (same : examplesAhead d first = examplesAhead d second) :
    p.mark d raw first = p.mark d raw second := by
  have here (place : Place) (t : Text) : place.mark d t raw first = place.mark d t raw second := by
    cases place <;> simp only [Place.mark, markBlock_congr fun _ => same, markStep_congr fun _ => same]
  obtain ⟨place, describing⟩ := p
  cases place <;> simp only [mark, here]

/-- The mark of a line behind which no doc string is open says nothing of the inside of one. -/
theorem Marking.veil_eq {mark : Mark} {next : Position} (marking : Marking d p raw mark next)
    (outside : next.place.isDoc = false) : mark.veil = mark := by
  cases marking with
  | docLine | openDoc => cases outside
  | _ => rfl

/-- Outside doc strings, only the trimmed line and whether examples come next decide how a line is read. -/
theorem Position.mark_trim (regular : d.Regular) {other : Text} (trimmed : Text.trim other = Text.trim raw)
    (same : examplesAhead d first = examplesAhead d second) (outside : (p.mark d raw first).2.place.isDoc = false) :
    p.mark d other second = p.mark d raw first := by
  obtain ⟨mark, next⟩ := Prod.mk.inj (p.mark_veil trimmed fun _ _ => same)
  have here := (p.marking regular raw first).veil_eq outside
  have there := (p.marking regular other second).veil_eq (next ▸ outside)
  exact Prod.ext (there.symm.trans (mark.symm.trans here)) next.symm

/-- A comment behind a line that leaves no doc string open is marked as one, and the marks of the other lines stay. The
line in front of it may end in another way. -/
theorem marksFrom_insert (regular : d.Regular) {last ended line : Text} (trimmed : Text.trim ended = Text.trim last)
    (hash : (Text.trim line).head? = some '#') (shared rest : List Text)
    (outside : (positionAfter d p (shared ++ [last]) rest).place.isDoc = false) :
    ∃ front behind, marksFrom d p (shared ++ last :: rest) = front ++ behind ∧
      marksFrom d p (shared ++ ended :: line :: rest) = front ++ .comment (Text.trim line) :: behind ∧
        front.length = shared.length + 1 := by
  have ahead : examplesAhead d rest = examplesAhead d (line :: rest) := (examplesAhead_comment hash rest).symm
  induction shared generalizing p with
  | nil =>
    change (p.mark d last rest).2.place.isDoc = false at outside
    have here : p.mark d ended (line :: rest) = p.mark d last rest := p.mark_trim regular trimmed ahead outside
    refine ⟨[(p.mark d last rest).1], marksFrom d (p.mark d last rest).2 rest, rfl, ?_, rfl⟩
    rw [List.nil_append, marksFrom, marksFrom, here, Position.mark_comment outside hash]
    rfl
  | cons raw others ih =>
    have same := examplesAhead_append (examplesAhead_cons trimmed ahead) others
    rw [List.cons_append, positionAfter, List.append_assoc, List.singleton_append] at outside
    obtain ⟨front, behind, marks, inserted, length⟩ := ih outside
    refine ⟨(p.mark d raw (others ++ last :: rest)).1 :: front, behind, ?_, ?_, congrArg Nat.succ length⟩
    · rw [List.cons_append, marksFrom, marks]
      rfl
    · rw [List.cons_append, marksFrom, ← p.mark_ahead same, inserted]
      rfl

end Marking

/-! ### Comments of documents -/

/-- The comment one line further down. -/
def Comment.moveDown (c : Comment) : Comment := { c with line := c.line + 1 }

/-- Comments are on lines of the marks that they come from. -/
theorem line_of_mem_comments {n : Nat} {marks : List Mark} {c : Comment}
    (member : c ∈ (numberFrom n marks).filterMap comment?) : n ≤ c.line ∧ c.line < n + marks.length := by
  obtain ⟨⟨line, mark⟩, among, found⟩ := List.mem_filterMap.mp member
  obtain ⟨i, rfl, marked⟩ := mem_numberFrom.mp among
  obtain ⟨within, -⟩ := List.getElem?_eq_some_iff.mp marked
  rw [line_of_comment? found]
  exact ⟨Nat.le_add_right n i, Nat.add_lt_add_left within n⟩

/-- Only on the first line a comment can name the language. -/
theorem comment?_late {line : Nat} (late : 1 < line) (t : Text) : comment? (line, .comment t) = some ⟨t, line⟩ := by
  have other : line ≠ 1 := late.ne'
  simp [comment?, other]

/-- Behind one more line, all comments are one line further down. -/
theorem comments_moveDown {n : Nat} (late : 1 < n) (marks : List Mark) :
    (numberFrom (n + 1) marks).filterMap comment? =
      ((numberFrom n marks).filterMap comment?).map Comment.moveDown := by
  induction marks generalizing n with
  | nil => rfl
  | cons mark rest ih =>
    rw [numberFrom, numberFrom]
    cases mark with
    | comment t =>
      rw [List.filterMap_cons_some (comment?_late (by omega) t), List.filterMap_cons_some (comment?_late late t),
        ih (by omega)]
      rfl
    | _ => rw [List.filterMap_cons_none rfl, List.filterMap_cons_none rfl, ih (by omega)]

/-- Whether a document is another one but for line numbers and one more comment, which stands behind a line. -/
structure Document.AddsComment (document other : Document) (line : Nat) (text : Text) : Prop where
  feature : other.feature.map Feature.forgetLines = document.feature.map Feature.forgetLines
  problems : other.diagnostics.map Diagnostic.problem = document.diagnostics.map Diagnostic.problem
  comments : ∃ earlier later, document.comments = earlier ++ later ∧ (∀ c ∈ earlier, c.line ≤ line) ∧
    (∀ c ∈ later, line < c.line) ∧ other.comments = earlier ++ ⟨text, line + 1⟩ :: later.map Comment.moveDown

/-- One more mark for a comment adds a comment to a document and moves those behind it. -/
theorem documentOf_addsComment (language : Text) (uri : Option Text) (count other : Nat) (early : List Diagnostic)
    (front behind : List Mark) (some : front ≠ []) (text : Text) :
    (documentOf language uri count early (numberFrom 1 (front ++ behind))).AddsComment
      (documentOf language uri other early (numberFrom 1 (front ++ .comment text :: behind))) front.length text := by
  have same : bareMarks (numberFrom 1 (front ++ .comment text :: behind)) =
      bareMarks (numberFrom 1 (front ++ behind)) := by
    simp [bareMarks_numberFrom, Mark.isComment]
  obtain ⟨feature, problems⟩ := documentOf_congr_bare language uri early same
  have late : 1 < 1 + front.length := Nat.lt_add_of_pos_right (List.length_pos_iff.mpr some)
  refine ⟨feature, problems, (numberFrom 1 front).filterMap comment?,
    (numberFrom (1 + front.length) behind).filterMap comment?, ?_, fun c member => ?_, fun c member => ?_, ?_⟩
  · rw [documentOf, numberFrom_append, List.filterMap_append]
  · have := (line_of_mem_comments member).2
    omega
  · have := (line_of_mem_comments member).1
    omega
  · rw [← comments_moveDown late, documentOf, numberFrom_append, List.filterMap_append, numberFrom,
      List.filterMap_cons_some (comment?_late late text), Nat.add_comm 1]

/-! ### Texts -/

/-- What is inside of a doc string depends on the lines before it but for blanks at their ends. -/
theorem Document.Inside.congr {document : Document} {before others : List Text} {raw other : Text} {fence : Fence}
    (inside : document.Inside before raw fence) (same : others.map Text.trim = before.map Text.trim)
    (trimmed : Text.trim other = Text.trim raw) : document.Inside others other fence := by
  obtain ⟨⟨front, opening, inner, mediaType, rfl, opened, goesOn⟩, unclosed⟩ := inside
  rw [List.map_append, List.map_cons] at same
  obtain ⟨otherFront, behind, rfl, sameFront, same⟩ := List.map_eq_append_iff.mp same
  obtain ⟨otherOpening, otherInner, rfl, -, sameInner⟩ := List.map_eq_cons_iff.mp same
  have length : otherFront.length = front.length := by
    simpa using congrArg List.length sameFront
  refine ⟨⟨otherFront, otherOpening, otherInner, mediaType, rfl, by rwa [length], ?_⟩, trimmed ▸ unclosed⟩
  intro line member closes
  have among : Text.trim line ∈ inner.map Text.trim := sameInner ▸ List.mem_map_of_mem member
  obtain ⟨kept, inside, same⟩ := List.mem_map.mp among
  exact goesOn kept inside (same.trans closes)

section Texts

variable {default : Text} {uri : Option Text} {first second : Text} {shared rest : List Text} {last ended line : Text}

/-- No fence starts like a comment. -/
theorem Fence.text_head (fence : Fence) : fence.text.head? ≠ some '#' := by cases fence <;> decide

/-- Reading lines with a comment put in behind one that leaves no doc string open. -/
theorem parseLenient_addsComment (trimmed : Text.trim ended = Text.trim last) (hash : (Text.trim line).head? = some '#')
    (lines : Text.lines first = shared ++ last :: rest) (others : Text.lines second = shared ++ ended :: line :: rest)
    (outside : ∀ fence, ¬ (parseLenient .builtIn default first uri).Inside (shared ++ [last]) line fence) :
    (parseLenient .builtIn default first uri).AddsComment (parseLenient .builtIn default second uri)
      (shared.length + 1) (Text.trim line) := by
  have read := parseLenient_readFrom default first uri
  have regular := Languages.dialectOf_regular default (Text.lines first)
  have heads : (Text.lines second).head?.map Text.trim = (Text.lines first).head?.map Text.trim := by
    rw [lines, others]
    cases shared with
    | nil => exact congrArg some trimmed
    | cons => rfl
  obtain ⟨language, early, -, -, reads⟩ := parseLenient_eq default (Text.lines first)
  have readFirst := reads first uri rfl
  have readSecond := reads second uri (languageOf_congr heads)
  generalize Languages.builtIn.dialectOf default (Text.lines first) = d at read regular readFirst readSecond
  rw [lines, List.append_cons] at read
  have left : (positionAfter d .start (shared ++ [last]) rest).place.isDoc = false := by
    rw [← Place.fence?_eq_none, Option.eq_none_iff_forall_not_mem]
    intro fence inside
    refine outside fence ⟨(read.fence?_iff regular fence).mp inside, fun same => fence.text_head ?_⟩
    rw [← same, hash]
  obtain ⟨front, behind, marks, inserted, length⟩ := marksFrom_insert regular trimmed hash shared rest left
  have some : front ≠ [] := by
    rintro rfl
    cases length
  rw [lines, marks] at readFirst
  rw [others, inserted] at readSecond
  rw [readFirst, readSecond, ← length]
  exact documentOf_addsComment language uri _ _ early front behind some (Text.trim line)

end Texts

/-- A line with a number sign that is put in between the lines of a text, or behind the last of them, but not inside of
a doc string, is added to the comments. The tree and what is reported stay as they are, but for line numbers. -/
theorem parse_ignores_comment (default : Text) (uri : Option Text) (front rest line : Text)
    (ends : rest = [] ∨ rest.head? = some '\n') (single : '\n' ∉ line) (hash : (Text.trim line).head? = some '#') :
    ∃ document other, ({ language := default } : Parser).parse .builtIn (front ++ rest) uri = .ok document ∧
      ({ language := default } : Parser).parse .builtIn (front ++ '\n' :: (line ++ rest)) uri = .ok other ∧
      ((∀ fence, ¬ document.Inside (Text.lines front) line fence) →
        document.AddsComment other (Text.lines front).length (Text.trim line)) := by
  refine ⟨_, _, Parser.parse_lenient rfl .builtIn _ uri, Parser.parse_lenient rfl .builtIn _ uri, fun outside => ?_⟩
  obtain ⟨shared, last, begun, ended, written, after, split, begins, closes, writes, lines, others⟩ :=
    Text.lines_insert front ends single
  rw [← writes] at hash ⊢
  rw [split, List.length_append, List.length_singleton]
  refine parseLenient_addsComment (closes.trans begins.symm) hash lines others fun fence inside => outside fence ?_
  rw [split]
  exact inside.congr (by simp [begins]) writes.symm

/-- A comment between the rows of a table does not end the table. -/
theorem parse_ignores_comment_between_rows :
    ∃ document other,
      ({} : Parser).parse .builtIn "Feature: f\n Scenario: s\n  Given a\n   | x |\n   | y |" none = .ok document ∧
      ({} : Parser).parse .builtIn "Feature: f\n Scenario: s\n  Given a\n   | x |\n # c\n   | y |" none = .ok other ∧
      document.AddsComment other 4 "# c" := by
  obtain ⟨document, other, read, commented, adds⟩ := parse_ignores_comment "en" none
    "Feature: f\n Scenario: s\n  Given a\n   | x |" "\n   | y |" " # c" (.inr rfl) (by decide) (by decide)
  refine ⟨document, other, read, commented, adds ?_⟩
  have unquoted : document.walk.all (fun | (_, .doc _ _) => false | _ => true) = true := by
    obtain rfl := Except.ok.inj ((Parser.parse_english (by cbv)).symm.trans read)
    cbv
  rintro fence ⟨⟨front, opening, inner, mediaType, -, opened, -⟩, -⟩
  have := List.all_eq_true.mp unquoted _ opened
  cases this

end Gherkin
