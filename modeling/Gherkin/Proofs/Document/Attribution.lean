import Mathlib
import Gherkin.Proofs.Document.Provenance

/-! # Which tags belong to what

Between two headings of a tree, the tags on the lines in between belong to the second heading. In front of a background
and behind the last heading they belong to nothing and are reported (`Gherkin.parse_attributes_tags`). The lines with
tags are found without the marks: they are those with an at sign outside the doc strings of the tree.
-/

namespace Gherkin

/-! ### Tokens of tag lines -/

/-- The fence of the doc string that a node opens. -/
def Node.fence? : Node → Option Fence
  | .doc fence _ => some fence
  | _ => none

/-- The fence of the doc string of a tree that a line opens. -/
def Document.fenceAt (document : Document) (line : Nat) : Option Fence :=
  document.walk.findSome? fun node => if node.1 = line then node.2.fence? else none

/-- The lines outside doc strings with their numbers from `n` on. `opens` gives the doc string that a line opens, and
`inside` the one that the first line is in. -/
def outsideDocs (opens : Nat → Option Fence) : Option Fence → Nat → List Text → List (Nat × Text)
  | _, _, [] => []
  | some fence, n, raw :: rest =>
      outsideDocs opens (if Text.trim raw = fence.text then none else some fence) (n + 1) rest
  | none, n, raw :: rest => (n, raw) :: outsideDocs opens (opens n) (n + 1) rest

/-- The tokens of a line with an at sign, up to the first with a number sign. -/
def tokensOn (raw : Text) : List Text :=
  if (Text.trim raw).head? = some '@' then tagTokens (Text.trim raw) else []

/-- The tokens of the tag lines of a document, with the numbers of their lines. -/
def Document.tokens (document : Document) (lines : List Text) : List (Nat × Text) :=
  (outsideDocs document.fenceAt none 1 lines).flatMap fun line => (tokensOn line.2).map (line.1, ·)

/-- The tokens that are tags. -/
def Document.tags (document : Document) (lines : List Text) : List Tag :=
  ((document.tokens lines).filter fun token => isTagName token.2).map fun token => ⟨token.2, token.1⟩

/-- Whether a tag stands between two lines. -/
def Tag.isBetween (low high : Nat) (tag : Tag) : Bool := low < tag.line && tag.line < high

/-! ### Headings in their order -/

/-- Stanzas with the line of the heading in front of each; in front of the first it is `line`. -/
def withPrevious (line : Nat) : List Stanza → List (Nat × Stanza)
  | [] => []
  | s :: rest => (line, s) :: withPrevious s.heading.line rest

/-- The line of the last heading, or `line` if there is none. -/
def lastHeading (line : Nat) : List Stanza → Nat
  | [] => line
  | s :: rest => lastHeading s.heading.line rest

def Heading.isBackground : Heading → Bool
  | .background _ => true
  | _ => false

/-- What is reported of the tags in front of a heading: those in front of a background are ignored. -/
def Heading.ignoredTags (tags : List Tag) (kind : Heading) : List Diagnostic :=
  if kind.isBackground then ignoredTagsDiagnostic .tagsBeforeBackground tags else []

def Diagnostic.isMalformedTag (x : Diagnostic) : Bool :=
  match x.problem with
  | .malformedTag _ => true
  | _ => false

def Diagnostic.isIgnoredTags (x : Diagnostic) : Bool :=
  match x.problem with
  | .tagsBeforeBackground _ | .tagsWithoutFeature _ | .tagsWithoutElement _ => true
  | _ => false

/-! ### Tokens of marks -/

def Mark.tokens : Mark → List Text
  | .tags tokens => tokens
  | _ => []

def Mark.fence? : Mark → Option Fence
  | .openDoc fence _ _ => some fence
  | _ => none

def lineTokens (m : NumberedMark) : List (Nat × Text) := m.2.tokens.map (m.1, ·)

theorem tagsOf_eq (marks : List NumberedMark) :
    tagsOf marks =
      ((marks.flatMap lineTokens).filter fun token => isTagName token.2).map fun token => ⟨token.2, token.1⟩ := by
  rw [List.filter_flatMap, List.map_flatMap, tagsOf]
  refine List.flatMap_congr fun m _ => ?_
  obtain ⟨line, mark⟩ := m
  cases mark <;> simp [lineTags, lineTokens, Mark.tokens, List.filter_map, Function.comp_def]

theorem malformedTags_eq (marks : List NumberedMark) :
    (marks.flatMap lineDiagnostics).filter Diagnostic.isMalformedTag =
      ((marks.flatMap lineTokens).filter fun token => !isTagName token.2).map fun token =>
        ⟨token.1, .malformedTag token.2⟩ := by
  rw [List.filter_flatMap, List.filter_flatMap, List.map_flatMap]
  refine List.flatMap_congr fun m _ => ?_
  obtain ⟨line, mark⟩ := m
  cases mark <;>
    simp [lineDiagnostics, lineTokens, Mark.tokens, List.filter_map, Function.comp_def, Diagnostic.isMalformedTag]

section Marking

variable {d : Dialect} {p : Position} {raw : Text}

/-- In a doc string no line holds tags, and one with its fence ends it. -/
theorem Position.tokens_inside {fence : Fence} (inside : p.place.fence? = some fence) (ahead : List Text) :
    (p.mark d raw ahead).1.tokens = [] ∧
      (p.mark d raw ahead).2.place.fence? = if Text.trim raw = fence.text then none else some fence := by
  obtain ⟨place, describing⟩ := p
  cases place with
  | doc =>
    cases inside
    by_cases closes : Text.trim raw = fence.text <;>
      simp [Position.mark, closes, Mark.tokens, Place.fence?, Position.within]
  | _ => cases inside

theorem Position.tokens_outside (regular : d.Regular) (outside : p.place.fence? = none) (ahead : List Text) :
    (p.mark d raw ahead).1.tokens = tokensOn raw ∧
      (p.mark d raw ahead).2.place.fence? = (p.mark d raw ahead).1.fence? := by
  have marking := p.marking regular raw ahead
  constructor
  · by_cases sign : (Text.trim raw).head? = some '@'
    · obtain ⟨place, same, -⟩ := p.mark_sign regular (Place.fence?_eq_none.mp outside) sign ahead
      rw [same, tokensOn, if_pos sign]
      rfl
    · rw [tokensOn, if_neg sign]
      generalize (p.mark d raw ahead).1 = mark at marking ⊢
      cases mark with
      | tags tokens => exact absurd marking.sign sign
      | _ => rfl
  · generalize (p.mark d raw ahead).1 = mark, (p.mark d raw ahead).2 = next at marking ⊢
    cases entered : next.place.fence? with
    | some fence =>
      rcases marking.entersDoc entered with ⟨inside, -⟩ | ⟨_, _, rfl⟩
      · cases outside.symm.trans inside
      · rfl
    | none =>
      cases mark with
      | openDoc fence mediaType indent => cases marking.opensDoc.symm.trans entered
      | _ => rfl

/-- The tokens of marks are those of the tag lines, found from the doc strings that the marks open. -/
theorem tokens_marksFrom (regular : d.Regular) {opens : Nat → Option Fence} (lines : List Text) (p : Position) (n : Nat)
    (agree : ∀ m ∈ numberFrom n (marksFrom d p lines), opens m.1 = m.2.fence?) :
    (outsideDocs opens p.place.fence? n lines).flatMap (fun line => (tokensOn line.2).map (line.1, ·)) =
      (numberFrom n (marksFrom d p lines)).flatMap lineTokens := by
  induction lines generalizing p n with
  | nil => rfl
  | cons raw rest ih =>
    rw [marksFrom, numberFrom, List.forall_mem_cons] at agree
    rw [marksFrom, numberFrom, List.flatMap_cons, ← ih _ _ agree.2, lineTokens]
    cases inside : p.place.fence? with
    | some fence =>
      obtain ⟨tokens, next⟩ := @Position.tokens_inside d p raw fence inside rest
      rw [tokens, next]
      rfl
    | none =>
      obtain ⟨tokens, next⟩ := @Position.tokens_outside d p raw regular inside rest
      rw [tokens, next, outsideDocs, List.flatMap_cons, ← agree.1]

variable {document : Document} {lines : List Text}

theorem Document.ReadFrom.fenceAt_eq (regular : d.Regular) (read : document.ReadFrom d lines) {m : NumberedMark}
    (member : m ∈ numberFrom 1 (marksFrom d .start lines)) : document.fenceAt m.1 = m.2.fence? := by
  obtain ⟨before, raw, after, rfl, line, marked⟩ := mem_marks_iff.mp member
  rw [Nat.add_comm] at line
  rw [line]
  cases opened : document.fenceAt (before.length + 1) with
  | some fence =>
    obtain ⟨⟨_, node⟩, among, found⟩ := List.exists_of_findSome?_eq_some opened
    split at found
    · rename_i here
      cases here
      cases node with
      | doc fence mediaType =>
        cases found
        obtain ⟨indent, same⟩ := Mark.node?_doc.mp ((read.mem_walk regular).mp ⟨_, among, rfl⟩)
        rw [← marked, same]
        rfl
      | _ => cases found
    · cases found
  | none =>
    cases mark : m.2 with
    | openDoc fence mediaType indent =>
      rw [← marked] at mark
      obtain ⟨node, among, bare⟩ := (read.mem_walk regular).mpr (Mark.node?_doc.mpr ⟨indent, mark⟩)
      have closed := List.findSome?_eq_none_iff.mp opened _ among
      rw [if_pos rfl] at closed
      cases node with
      | doc => cases closed
      | _ => cases bare
    | _ => rfl

theorem Document.ReadFrom.tokens_eq (regular : d.Regular) (read : document.ReadFrom d lines) :
    document.tokens lines = (numberFrom 1 (marksFrom d .start lines)).flatMap lineTokens :=
  tokens_marksFrom regular lines .start 1 fun _ member => read.fenceAt_eq regular member

theorem Document.ReadFrom.tags_eq (regular : d.Regular) (read : document.ReadFrom d lines) :
    document.tags lines = tagsOf (numberFrom 1 (marksFrom d .start lines)) := by
  rw [Document.tags, read.tokens_eq regular, tagsOf_eq]

end Marking

/-! ### Tags between headings -/

/-- Tags stand on the lines of their marks. -/
theorem forall_mem_tagsOf {marks : List NumberedMark} {holds : Tag → Prop}
    (all : ∀ m ∈ marks, ∀ tag : Tag, tag.line = m.1 → holds tag) : ∀ tag ∈ tagsOf marks, holds tag := by
  intro tag member
  obtain ⟨⟨line, mark⟩, among, inside⟩ := List.mem_flatMap.mp member
  cases mark with
  | tags tokens =>
    obtain ⟨_, -, rfl⟩ := List.mem_map.mp inside
    exact all _ among _ rfl
  | _ => cases inside

/-- The marks of some headings and of what stands below them. -/
def entryMarks (entries : List (HeadingLine × List NumberedMark)) : List NumberedMark :=
  entries.flatMap fun entry => entry.1.mark :: entry.2

theorem filter_isBetween_eq_nil {tags : List Tag} {low high : Nat}
    (outside : ∀ tag ∈ tags, tag.line ≤ low ∨ high ≤ tag.line) : tags.filter (Tag.isBetween low high) = [] := by
  refine List.filter_eq_nil_iff.mpr fun tag member => ?_
  have := outside tag member
  simp only [Tag.isBetween, Bool.and_eq_true, decide_eq_true_eq]
  omega

/-- Between two lines stand the tags of the marks in between. -/
theorem filter_isBetween {front others : List NumberedMark} {earlier : List Tag} {low high : Nat}
    (before : ∀ tag ∈ earlier, tag.line ≤ low) (inside : ∀ m ∈ front, low < m.1 ∧ m.1 < high)
    (behind : ∀ m ∈ others, high ≤ m.1) :
    (earlier ++ tagsOf front ++ tagsOf others).filter (Tag.isBetween low high) = tagsOf front := by
  have all : (tagsOf front).filter (Tag.isBetween low high) = tagsOf front :=
    List.filter_eq_self.mpr <| forall_mem_tagsOf fun m among tag line => by
      simpa [Tag.isBetween, line] using inside m among
  rw [List.filter_append, List.filter_append, all,
    filter_isBetween_eq_nil fun tag member => .inl (before tag member),
    filter_isBetween_eq_nil (forall_mem_tagsOf fun m among _ line => .inr (line ▸ behind m among)),
    List.nil_append, List.append_nil]

theorem tagsOf_entryMarks (front : List NumberedMark) (entry : HeadingLine × List NumberedMark)
    (rest : List (HeadingLine × List NumberedMark)) :
    tagsOf (front ++ entryMarks (entry :: rest)) = tagsOf front ++ tagsOf (entry.2 ++ entryMarks rest) := by
  rw [tagsOf, List.flatMap_append]
  rfl

/-- Where marks go on from a heading on line `previous`, each section has the tags since the heading in front of it,
and the others are behind the last heading. The tags `earlier` are in front of all these. -/
theorem tags_sectionsFrom {front : List NumberedMark} {entries : List (HeadingLine × List NumberedMark)}
    {earlier : List Tag} {previous : Nat}
    (sorted : (front ++ entryMarks entries).Pairwise fun first second => first.1 < second.1)
    (later : ∀ m ∈ front ++ entryMarks entries, previous < m.1) (before : ∀ tag ∈ earlier, tag.line ≤ previous) :
    let sections := sectionsFrom (tagsOf front) entries
    let all := earlier ++ tagsOf (front ++ entryMarks entries)
    sections.map (fun s => (s.stanza, s.tags)) =
        (withPrevious previous (sections.map Section.stanza)).map (fun entry =>
          (entry.2, all.filter (Tag.isBetween entry.1 entry.2.heading.line))) ∧
      trailingTags front entries =
        all.filter fun tag => lastHeading previous (sections.map Section.stanza) < tag.line := by
  induction entries generalizing front earlier previous with
  | nil =>
    refine ⟨rfl, ?_⟩
    have none : earlier.filter (fun tag => decide (previous < tag.line)) = [] := by
      simpa [List.filter_eq_nil_iff] using before
    have all : (tagsOf front).filter (fun tag => decide (previous < tag.line)) = tagsOf front :=
      List.filter_eq_self.mpr <| forall_mem_tagsOf fun m among tag line => by
        simpa [line] using later m (List.mem_append_left _ among)
    simp only [sectionsFrom, List.map_nil, lastHeading, entryMarks, List.flatMap_nil, List.append_nil,
      List.filter_append, none, all, List.nil_append, trailingTags]
  | cons entry rest ih =>
    obtain ⟨-, sortedBelow, frontFirst⟩ := List.pairwise_append.mp sorted
    obtain ⟨behind, sortedBelow⟩ := List.pairwise_cons.mp sortedBelow
    have here : entry.1.mark ∈ entryMarks (entry :: rest) := List.mem_cons_self
    have reached : previous < entry.1.line := later _ (List.mem_append_right _ here)
    have upTo : ∀ tag ∈ earlier ++ tagsOf front, tag.line ≤ entry.1.line :=
      List.forall_mem_append.mpr ⟨fun tag member => (before tag member).trans reached.le,
        forall_mem_tagsOf fun m among _ line => line.trans_le (frontFirst m among _ here).le⟩
    obtain ⟨sections, trailing⟩ := ih sortedBelow behind upTo
    have first : (earlier ++ tagsOf front ++ tagsOf (entry.2 ++ entryMarks rest)).filter
        (Tag.isBetween previous entry.1.line) = tagsOf front :=
      filter_isBetween before
        (fun m among => ⟨later m (List.mem_append_left _ among), frontFirst m among _ here⟩)
        fun m among => (behind m among).le
    rw [tagsOf_entryMarks, ← List.append_assoc]
    refine ⟨?_, trailing⟩
    rw [sectionsFrom, List.map_cons, List.map_cons, withPrevious, List.map_cons]
    exact congrArg₂ List.cons (congrArg (Prod.mk _) first.symm) sections

/-! ### What is reported of tags -/

theorem isOfLine_of_isMalformedTag (x : Diagnostic) (malformed : x.isMalformedTag = true) : x.isOfLine = true := by
  rw [Diagnostic.isMalformedTag] at malformed
  rw [Diagnostic.isOfLine]
  cases problem : x.problem <;> simp [problem] at malformed ⊢

theorem ignoredTagsDiagnostic_ignored {problem : List Text → Problem}
    (ignored : ∀ line names, Diagnostic.isIgnoredTags ⟨line, problem names⟩ = true) (tags : List Tag) :
    (ignoredTagsDiagnostic problem tags).filter Diagnostic.isIgnoredTags = ignoredTagsDiagnostic problem tags := by
  cases tags with
  | nil => rfl
  | cons tag rest =>
    unfold ignoredTagsDiagnostic
    simp [ignored]

theorem marksDiagnostics_ignored (marks : List NumberedMark) :
    (marksDiagnostics marks).filter Diagnostic.isIgnoredTags = [] := by
  have none : (marks.flatMap lineDiagnostics).filter Diagnostic.isIgnoredTags = [] := by
    refine List.filter_eq_nil_iff.mpr fun x member => ?_
    obtain ⟨m, -, reported⟩ := List.mem_flatMap.mp member
    have ofLine := isOfLine_of_mem_lineDiagnostics reported
    rw [Diagnostic.isOfLine] at ofLine
    rw [Diagnostic.isIgnoredTags]
    cases problem : x.problem <;> simp [problem] at ofLine ⊢
  rw [marksDiagnostics, List.filter_append, none]
  cases openDocAfter Option.none marks <;> rfl

theorem Section.diagnostics_ignored (s : Section) :
    s.diagnostics.filter Diagnostic.isIgnoredTags = s.stanza.heading.kind.ignoredTags s.tags := by
  rw [diagnostics, List.filter_append, marksDiagnostics_ignored, List.append_nil, stanza]
  cases s.heading.kind with
  | background => exact ignoredTagsDiagnostic_ignored (fun _ _ => rfl) _
  | _ => rfl

theorem featureOf_isSome (language : Text) (sections : List Section) :
    (featureOf language sections).isSome = !sections.isEmpty := by
  cases sections <;> rfl

theorem documentOf_ignored (language : Text) (uri : Option Text) (count : Nat) {early : List Diagnostic}
    (quiet : ∀ x ∈ early, x.isIgnoredTags = false) (marks : List NumberedMark) :
    let cut := cutAtHeadings marks
    let document := documentOf language uri count early marks
    document.diagnostics.filter Diagnostic.isIgnoredTags =
      (sectionsFrom (tagsOf cut.1) cut.2).flatMap (fun s => s.stanza.heading.kind.ignoredTags s.tags) ++
        ignoredTagsDiagnostic (if document.feature.isSome then .tagsWithoutElement else .tagsWithoutFeature)
          (trailingTags cut.1 cut.2) := by
  have none : early.filter Diagnostic.isIgnoredTags = [] := by simpa using quiet
  simp only [documentOf, List.filter_append, none, marksDiagnostics_ignored, List.nil_append, List.filter_flatMap,
    Section.diagnostics_ignored, featureOf_isSome]
  refine congrArg _ ?_
  cases (sectionsFrom (tagsOf (cutAtHeadings marks).1) (cutAtHeadings marks).2).isEmpty with
  | false => exact ignoredTagsDiagnostic_ignored (fun _ _ => rfl) _
  | true =>
    rw [if_pos rfl, List.filter_append, ignoredTagsDiagnostic_ignored fun _ _ => rfl]
    exact List.append_nil _

/-! ### Documents -/

theorem keptTags_of_not_background {kind : Heading} (other : kind.isBackground = false) (tags : List Tag) :
    kind.keptTags tags = tags := by
  cases kind with
  | background => cases other
  | _ => rfl

/-- The sections of a document that was read, each with its tags, are its stanzas with those since the previous. -/
theorem tags_documentOf {d : Dialect} (regular : d.Regular) (language : Text) (uri : Option Text) (count : Nat)
    (early : List Diagnostic) (lines : List Text) :
    let marks := numberFrom 1 (marksFrom d .start lines)
    let cut := cutAtHeadings marks
    let stanzas := (documentOf language uri count early marks).stanzas
    (sectionsFrom (tagsOf cut.1) cut.2).map (fun s => (s.stanza, s.tags)) =
        (withPrevious 0 stanzas).map (fun entry =>
          (entry.2, (tagsOf marks).filter (Tag.isBetween entry.1 entry.2.heading.line))) ∧
      trailingTags cut.1 cut.2 = (tagsOf marks).filter fun tag => lastHeading 0 stanzas < tag.line := by
  have joined : _ ++ entryMarks _ = _ := cutAtHeadings_join (numberFrom 1 (marksFrom d .start lines))
  have sorted := numberFrom_pairwise 1 (marksFrom d .start lines)
  have positive : ∀ m ∈ numberFrom 1 (marksFrom d .start lines), 0 < m.1 := by
    rintro ⟨line, mark⟩ member
    obtain ⟨i, rfl, -⟩ := mem_numberFrom.mp member
    exact Nat.lt_add_right i Nat.one_pos
  rw [← joined] at sorted positive
  have attributed := tags_sectionsFrom sorted positive (List.forall_mem_nil _)
  rw [joined, List.nil_append] at attributed
  simp only [stanzas_documentOf regular]
  exact attributed

/-- A heading has the tags that stand between the heading in front of it and itself. Those in front of a background,
and those behind the last heading, are reported together, and what is no tag is reported token by token. -/
theorem parse_attributes_tags (default text : Text) (uri : Option Text) :
    ∃ document, ({ language := default } : Parser).parse .builtIn text uri = .ok document ∧
      (document.stanzas.Pairwise fun first second => first.heading.line < second.heading.line) ∧
      (document.diagnostics.filter Diagnostic.isMalformedTag =
        ((document.tokens (Text.lines text)).filter fun token => !isTagName token.2).map fun token =>
          ⟨token.1, .malformedTag token.2⟩) ∧
      (∀ previous s, (previous, s) ∈ withPrevious 0 document.stanzas → s.heading.kind.isBackground = false →
        s.tags = (document.tags (Text.lines text)).filter (Tag.isBetween previous s.heading.line)) ∧
      document.diagnostics.filter Diagnostic.isIgnoredTags =
        (withPrevious 0 document.stanzas).flatMap (fun entry => entry.2.heading.kind.ignoredTags
          ((document.tags (Text.lines text)).filter (Tag.isBetween entry.1 entry.2.heading.line))) ++
        ignoredTagsDiagnostic (if document.feature.isSome then .tagsWithoutElement else .tagsWithoutFeature)
          ((document.tags (Text.lines text)).filter fun tag => lastHeading 0 document.stanzas < tag.line) := by
  have read := parseLenient_readFrom default text uri
  have regular := Languages.dialectOf_regular default (Text.lines text)
  refine ⟨_, Parser.parse_lenient rfl .builtIn text uri, read.stanzas_pairwise regular, ?_⟩
  rw [read.tags_eq regular, read.tokens_eq regular]
  obtain ⟨language, early, -, unknown, same⟩ := parseLenient_eq default (Text.lines text)
  rw [same text uri rfl]
  generalize Languages.builtIn.dialectOf default (Text.lines text) = d at regular ⊢
  obtain ⟨attributed, trailing⟩ :=
    tags_documentOf regular language uri (Text.lines text).length early (Text.lines text)
  refine ⟨?_, ?_, ?_⟩
  · rw [documentOf_filter _ _ _ isOfLine_of_isMalformedTag (fun x member => ?_), malformedTags_eq]
    obtain ⟨code, fallback, problem⟩ := unknown x member
    rw [Diagnostic.isMalformedTag, problem]
  · intro previous s member other
    have found := List.mem_map_of_mem (f := fun entry : Nat × Stanza =>
      (entry.2, (tagsOf (numberFrom 1 (marksFrom d .start (Text.lines text)))).filter
        (Tag.isBetween entry.1 entry.2.heading.line))) member
    rw [← attributed] at found
    obtain ⟨headed, -, same⟩ := List.mem_map.mp found
    obtain ⟨rfl, tags⟩ := Prod.mk.inj same
    exact (keptTags_of_not_background other _).trans tags
  · rw [documentOf_ignored _ _ _ (fun x member => ?_), trailing]
    · refine congrArg (· ++ _) ?_
      have := congrArg (List.flatMap fun pair : Stanza × List Tag => pair.1.heading.kind.ignoredTags pair.2) attributed
      rwa [List.flatMap_map, List.flatMap_map] at this
    · obtain ⟨code, fallback, problem⟩ := unknown x member
      rw [Diagnostic.isIgnoredTags, problem]

/-- A text with tags in front of a background, in front of a scenario, in a doc string and at its end. -/
def taggedText : Text := "Feature: f\n@a\nBackground:\n@b c @d #e\nScenario: s\nGiven x\n\"\"\"\n@f\n\"\"\"\n@g"

/-- The scenario has the tags between the background and itself, and those around them are reported. -/
theorem parse_attributes_tags_behind_background :
    ∃ document, ({} : Parser).parse .builtIn taggedText none = .ok document ∧
      (∃ s, (3, s) ∈ withPrevious 0 document.stanzas ∧ s.heading.line = 5 ∧ s.tags = [⟨"@b", 4⟩, ⟨"@d", 4⟩]) ∧
      document.diagnostics.filter Diagnostic.isMalformedTag = [⟨4, .malformedTag "c"⟩] ∧
      document.diagnostics.filter Diagnostic.isIgnoredTags =
        [⟨2, .tagsBeforeBackground ["@a"]⟩, ⟨10, .tagsWithoutElement ["@g"]⟩] := by
  obtain ⟨document, read, -, malformed, tagged, ignored⟩ := parse_attributes_tags "en" taggedText none
  have evaluated : document.tags (Text.lines taggedText) = [⟨"@a", 2⟩, ⟨"@b", 4⟩, ⟨"@d", 4⟩, ⟨"@g", 10⟩] ∧
      ((document.tokens (Text.lines taggedText)).filter fun token => !isTagName token.2).map (fun token =>
        (⟨token.1, .malformedTag token.2⟩ : Diagnostic)) = [⟨4, .malformedTag "c"⟩] ∧
      (withPrevious 0 document.stanzas).map (fun entry => (entry.1, entry.2.heading.kind, entry.2.heading.line)) =
        [(0, .feature, 1), (1, .background false, 3), (3, .scenario false false, 5)] ∧
      lastHeading 0 document.stanzas = 5 ∧ document.feature.isSome = true := by
    obtain rfl := Except.ok.inj ((Parser.parse_english (by cbv)).symm.trans read)
    refine ⟨?_, ?_, ?_, ?_, ?_⟩ <;> cbv
  obtain ⟨tags, tokens, headings, last, some⟩ := evaluated
  rw [tags] at tagged ignored
  have scenario : (3, Heading.scenario false false, 5) ∈ (withPrevious 0 document.stanzas).map
      (fun entry => (entry.1, entry.2.heading.kind, entry.2.heading.line)) := by
    simp [headings]
  obtain ⟨⟨_, s⟩, member, same⟩ := List.mem_map.mp scenario
  simp only [Prod.mk.injEq] at same
  obtain ⟨rfl, kind, line⟩ := same
  have own := tagged 3 s member (by rw [kind]; rfl)
  rw [line] at own
  have reported := congrArg (List.flatMap fun entry : Nat × Heading × Nat =>
    entry.2.1.ignoredTags (([⟨"@a", 2⟩, ⟨"@b", 4⟩, ⟨"@d", 4⟩, ⟨"@g", 10⟩] : List Tag).filter
      (Tag.isBetween entry.1 entry.2.2))) headings
  rw [List.flatMap_map] at reported
  rw [reported, last, some] at ignored
  exact ⟨document, read, ⟨s, member, line, own⟩, malformed.trans tokens, ignored⟩

end Gherkin
