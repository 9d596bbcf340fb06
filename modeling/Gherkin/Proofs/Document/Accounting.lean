import Mathlib
import Gherkin.Proofs.Document.Descriptions
import Gherkin.Proofs.Document.RoundTrip

/-! # Every line is accounted for

A line that is neither empty nor a comment nor tags is exactly one of these: a node of the tree, reported as
skipped, in a doc string, or in a description. A comment is each line with a number sign outside doc strings, but
for a first line that names the language (`Gherkin.parse_accounts_for_lines`). Each of these is read off the mark
of the line, and each line has one mark.
-/

namespace Gherkin

/-! ### What a line is -/

/-- What becomes of a line. -/
inductive LineKind where
  | node
  | skipped
  | inDoc
  | described
  deriving DecidableEq, Repr

/-- What a document says about the line that stands behind some others. -/
def Document.Accounts (document : Document) (d : Dialect) (before : List Text) (raw : Text) :
    LineKind → Prop
  -- The line has a node.
  | .node => ∃ node, (before.length + 1, node) ∈ document.walk
  -- The line is reported as skipped.
  | .skipped => ∃ text, ⟨before.length + 1, .unexpectedLine text⟩ ∈ document.diagnostics ∨
      ⟨before.length + 1, .unrecognizedLine text⟩ ∈ document.diagnostics
  -- A doc string was opened before the line, and no line between the two closes it.
  | .inDoc => ∃ front opening inner fence mediaType, before = front ++ opening :: inner ∧
      (front.length + 1, .doc fence mediaType) ∈ document.walk ∧
        ∀ line ∈ inner, Text.trim line ≠ fence.text
  -- The nearest heading before the line has it in its description, and all lines since then go on with it.
  | .described => ∃ front opening inner kind keyword name description, before = front ++ opening :: inner ∧
      (front.length + 1, .heading kind keyword name description) ∈ document.walk ∧
        (∀ line kind keyword name description,
          (line, .heading kind keyword name description) ∈ document.walk →
            line ≤ front.length + 1 ∨ before.length < line) ∧
          (∀ line ∈ inner ++ [raw], d.Continues line) ∧
            Text.trim raw ∈ Text.splitAtChar '\n' description

/-- What becomes of a line with a mark. -/
def Mark.lineKind? : Mark → Option LineKind
  | .heading _ _ _ | .step _ _ _ | .row _ | .openDoc _ _ _ => some .node
  | .unexpected _ | .unrecognized _ => some .skipped
  | .docLine _ | .closeDoc => some .inDoc
  | .description _ => some .described
  | .blank | .comment _ | .tags _ => none

/-- The lines of nodes are those whose marks have a node. -/
theorem Mark.lineKind?_node (mark : Mark) : mark.lineKind? = some .node ↔ mark.node?.isSome = true := by
  cases mark <;> simp [lineKind?, node?]

variable {d : Dialect} {p next : Position} {raw : Text} {mark : Mark}

/-- A line that is neither empty nor a comment nor tags becomes something. -/
theorem Marking.lineKind? (marking : Marking d p raw mark next) (nonempty : Text.trim raw ≠ [])
    (noComment : (Text.trim raw).head? ≠ some '#') (noTags : (Text.trim raw).head? ≠ some '@') :
    mark.lineKind?.isSome = true := by
  cases marking with
  | blank _ empty | gap _ empty => exact absurd empty nonempty
  | comment _ hash => exact absurd hash noComment
  | tags _ _ _ sign => exact absurd sign noTags
  | _ => rfl

theorem Mark.node?_doc {fence : Fence} {mediaType : Option Text} :
    mark.node? = some (.doc fence mediaType) ↔ ∃ indent, mark = .openDoc fence mediaType indent := by
  cases mark <;> simp [node?]

theorem Mark.isHeading_of_node? {kind : Heading} {keyword name description : Text}
    (read : mark.node? = some (.heading kind keyword name description)) :
    mark = .heading kind keyword name := by
  cases mark with
  | heading =>
    cases read
    rfl
  | _ => cases read

/-- In a doc string a line is one of its lines or closes it. -/
theorem Position.mark_inDoc (regular : d.Regular) (p : Position) (raw : Text) (ahead : List Text) :
    p.place.fence?.isSome = true ↔ (p.mark d raw ahead).1.lineKind? = some .inDoc := by
  constructor
  · intro inside
    obtain ⟨fence, inside⟩ := Option.isSome_iff_exists.mp inside
    obtain ⟨place, describing⟩ := p
    cases place with
    | doc =>
      cases inside
      by_cases closes : Text.trim raw = fence.text <;> simp [Position.mark, closes, Mark.lineKind?]
    | _ => cases inside
  · intro kind
    have marking := p.marking regular raw ahead
    generalize (p.mark d raw ahead).1 = mark, (p.mark d raw ahead).2 = next at marking kind
    cases marking with
    | docLine | closeDoc => rfl
    | _ => cases kind

/-! ### Documents that were read -/

/-- Whether a diagnostic reports that its line was skipped. -/
def Diagnostic.isSkip (x : Diagnostic) : Bool :=
  match x.problem with
  | .unexpectedLine _ | .unrecognizedLine _ => true
  | _ => false

/-- Whether a document was read from some lines in a dialect. -/
def Document.ReadFrom (d : Dialect) (lines : List Text) (document : Document) : Prop :=
  ∃ language uri count early, (∀ x ∈ early, x.isSkip = false) ∧
    document = documentOf language uri count early (numberFrom 1 (marksFrom d .start lines))

/-- Whether a diagnostic says something of a single line. -/
def Diagnostic.isOfLine (x : Diagnostic) : Bool :=
  match x.problem with
  | .unexpectedLine _ | .unrecognizedLine _ | .malformedTag _ => true
  | _ => false

theorem isOfLine_of_mem_lineDiagnostics {m : NumberedMark} {x : Diagnostic} (member : x ∈ lineDiagnostics m) :
    x.isOfLine = true := by
  obtain ⟨line, mark⟩ := m
  cases mark with
  | tags tokens =>
    obtain ⟨token, -, rfl⟩ := List.mem_map.mp member
    rfl
  | unexpected | unrecognized =>
    obtain rfl := List.mem_singleton.mp member
    rfl
  | _ => cases member

/-- The complaints about marks that are about single lines come from each mark alone. -/
theorem marksDiagnostics_ofLine (marks : List NumberedMark) :
    (marksDiagnostics marks).filter Diagnostic.isOfLine = marks.flatMap lineDiagnostics := by
  have all : (marks.flatMap lineDiagnostics).filter Diagnostic.isOfLine = marks.flatMap lineDiagnostics := by
    apply List.filter_eq_self.mpr
    intro x member
    obtain ⟨m, -, reported⟩ := List.mem_flatMap.mp member
    exact isOfLine_of_mem_lineDiagnostics reported
  rw [marksDiagnostics, List.filter_append, all]
  cases openDocAfter none marks with
  | none => exact List.append_nil _
  | some opened => exact List.append_nil _

/-- The complaint about tags that are passed over is about no single line. -/
theorem ignoredTagsDiagnostic_ofLine {problem : List Text → Problem}
    (other : ∀ line names, Diagnostic.isOfLine ⟨line, problem names⟩ = false) (tags : List Tag) :
    (ignoredTagsDiagnostic problem tags).filter Diagnostic.isOfLine = [] := by
  cases tags with
  | nil => rfl
  | cons tag rest =>
    unfold ignoredTagsDiagnostic
    simp [other]

/-- The complaints of a section that are about single lines come from each of its marks. -/
theorem Section.diagnostics_ofLine (s : Section) :
    s.diagnostics.filter Diagnostic.isOfLine = s.marks.flatMap lineDiagnostics := by
  rw [diagnostics, List.filter_append, marksDiagnostics_ofLine]
  cases s.heading.kind with
  | background => rw [ignoredTagsDiagnostic_ofLine fun _ _ => rfl, List.nil_append]
  | _ => rfl

/-- The complaints of sections that are about single lines come from each mark in turn. -/
theorem sections_ofLine (tags : List Tag) (entries : List (HeadingLine × List NumberedMark)) :
    ((sectionsFrom tags entries).flatMap Section.diagnostics).filter Diagnostic.isOfLine =
      (entries.flatMap fun entry => entry.1.mark :: entry.2).flatMap lineDiagnostics := by
  induction entries generalizing tags with
  | nil => rfl
  | cons entry rest ih =>
    rw [sectionsFrom, List.flatMap_cons, List.filter_append, ih, Section.diagnostics_ofLine, List.flatMap_cons,
      List.flatMap_append]
    rfl

/-- What a document reports of single lines is what its marks report. -/
theorem documentOf_ofLine (language : Text) (uri : Option Text) (count : Nat) (early : List Diagnostic)
    (marks : List NumberedMark) :
    (documentOf language uri count early marks).diagnostics.filter Diagnostic.isOfLine =
      early.filter Diagnostic.isOfLine ++ marks.flatMap lineDiagnostics := by
  have ended (sections : List Section) (tags : List Tag) :
      (if sections.isEmpty then ignoredTagsDiagnostic .tagsWithoutFeature tags ++ [⟨count, .noFeature⟩]
        else ignoredTagsDiagnostic .tagsWithoutElement tags).filter Diagnostic.isOfLine = [] := by
    split
    · rw [List.filter_append, ignoredTagsDiagnostic_ofLine fun _ _ => rfl]
      rfl
    · exact ignoredTagsDiagnostic_ofLine (fun _ _ => rfl) tags
  simp only [documentOf, List.filter_append, ended, marksDiagnostics_ofLine, sections_ofLine]
  rw [List.append_nil, List.append_assoc, ← List.flatMap_append, cutAtHeadings_join]

/-- Of a kind that single lines are reported for, a document reports what its marks report. -/
theorem documentOf_filter (language : Text) (uri : Option Text) (count : Nat) {kept : Diagnostic → Bool}
    (ofLine : ∀ x, kept x = true → x.isOfLine = true) {early : List Diagnostic} (quiet : ∀ x ∈ early, kept x = false)
    (marks : List NumberedMark) :
    (documentOf language uri count early marks).diagnostics.filter kept =
      (marks.flatMap lineDiagnostics).filter kept := by
  have within (reports : List Diagnostic) : reports.filter kept = (reports.filter Diagnostic.isOfLine).filter kept := by
    rw [List.filter_filter]
    exact List.filter_congr fun x _ => (Bool.and_eq_left_iff_imp.mpr (ofLine x)).symm
  have none : early.filter kept = [] := by simpa using quiet
  rw [within, documentOf_ofLine, List.filter_append, ← within, none, List.nil_append]

/-- The skipped lines that some marks report. -/
def skips (marks : List NumberedMark) : List Diagnostic :=
  (marks.flatMap lineDiagnostics).filter Diagnostic.isSkip

theorem isOfLine_of_isSkip (x : Diagnostic) (skip : x.isSkip = true) : x.isOfLine = true := by
  rw [Diagnostic.isSkip] at skip
  rw [Diagnostic.isOfLine]
  cases problem : x.problem <;> simp [problem] at skip ⊢

/-- The lines that a document reports as skipped are those that its marks report. -/
theorem documentOf_skips (language : Text) (uri : Option Text) (count : Nat) {early : List Diagnostic}
    (quiet : ∀ x ∈ early, x.isSkip = false) (marks : List NumberedMark) :
    (documentOf language uri count early marks).diagnostics.filter Diagnostic.isSkip = skips marks :=
  documentOf_filter language uri count isOfLine_of_isSkip quiet marks

section Lines

variable {document : Document} {before after : List Text}

/-- A line has a node if its mark is read as one, and this is the node. -/
theorem Document.ReadFrom.mem_walk (regular : d.Regular)
    (read : document.ReadFrom d (before ++ raw :: after)) {bare : Node} :
    (∃ node, (before.length + 1, node) ∈ document.walk ∧ node.bare = bare) ↔
      (markAt d .start before raw after).node? = some bare := by
  obtain ⟨language, uri, count, early, _, rfl⟩ := read
  have walked := walk_bare regular language uri count early (before ++ raw :: after)
  constructor
  · rintro ⟨node, member, rfl⟩
    have member := List.mem_map_of_mem (f := fun node : NumberedNode => (node.1, node.2.bare)) member
    rw [walked] at member
    obtain ⟨⟨line, mark⟩, among, same⟩ := List.mem_filterMap.mp member
    obtain ⟨bare, found, pair⟩ := Option.map_eq_some_iff.mp same
    obtain ⟨rfl, rfl⟩ := Prod.mk.inj pair
    rw [mem_marks_at.mp among, found]
  · intro found
    have among : (before.length + 1, markAt d .start before raw after) ∈
        numberFrom 1 (marksFrom d .start (before ++ raw :: after)) := mem_marks_at.mpr rfl
    have member : (before.length + 1, bare) ∈
        (numberFrom 1 (marksFrom d .start (before ++ raw :: after))).filterMap node? :=
      List.mem_filterMap.mpr ⟨_, among, by rw [node?, found]; rfl⟩
    rw [← walked] at member
    obtain ⟨⟨line, node⟩, inside, same⟩ := List.mem_map.mp member
    cases same
    exact ⟨node, inside, rfl⟩

/-- A line is accounted for by a node exactly if its mark has one. -/
theorem Document.ReadFrom.accounts_node (regular : d.Regular)
    (read : document.ReadFrom d (before ++ raw :: after)) :
    document.Accounts d before raw .node ↔
      (markAt d .start before raw after).lineKind? = some .node := by
  rw [Mark.lineKind?_node, Option.isSome_iff_exists]
  constructor
  · rintro ⟨node, member⟩
    exact ⟨node.bare, (read.mem_walk regular).mp ⟨node, member, rfl⟩⟩
  · rintro ⟨bare, found⟩
    obtain ⟨node, member, _⟩ := (read.mem_walk regular).mpr found
    exact ⟨node, member⟩

theorem mem_lineDiagnostics_unexpected {n : Nat} {text : Text} {m : NumberedMark} :
    ⟨n, .unexpectedLine text⟩ ∈ lineDiagnostics m ↔ m = (n, .unexpected text) := by
  obtain ⟨line, mark⟩ := m
  cases mark with
  | unexpected other =>
    simp only [lineDiagnostics, List.mem_singleton, Diagnostic.mk.injEq, Problem.unexpectedLine.injEq, Prod.mk.injEq,
      Mark.unexpected.injEq, eq_comm]
  | _ => simp [lineDiagnostics]

theorem mem_lineDiagnostics_unrecognized {n : Nat} {text : Text} {m : NumberedMark} :
    ⟨n, .unrecognizedLine text⟩ ∈ lineDiagnostics m ↔ m = (n, .unrecognized text) := by
  obtain ⟨line, mark⟩ := m
  cases mark with
  | unrecognized other =>
    simp only [lineDiagnostics, List.mem_singleton, Diagnostic.mk.injEq, Problem.unrecognizedLine.injEq, Prod.mk.injEq,
      Mark.unrecognized.injEq, eq_comm]
  | _ => simp [lineDiagnostics]

/-- The complaints about skipped lines are those of the marks. -/
theorem Document.ReadFrom.mem_diagnostics {lines : List Text} (read : document.ReadFrom d lines)
    {x : Diagnostic} (skip : x.isSkip = true) :
    x ∈ document.diagnostics ↔ ∃ m ∈ numberFrom 1 (marksFrom d .start lines), x ∈ lineDiagnostics m := by
  obtain ⟨language, uri, count, early, quiet, rfl⟩ := read
  have same := documentOf_skips language uri count quiet (numberFrom 1 (marksFrom d .start lines))
  have member := congrArg (x ∈ ·) same
  simpa [skips, skip, List.mem_filter] using member

/-- A line is accounted for by a complaint exactly if its mark says that it is skipped. -/
theorem Document.ReadFrom.accounts_skipped (read : document.ReadFrom d (before ++ raw :: after)) :
    document.Accounts d before raw .skipped ↔
      (markAt d .start before raw after).lineKind? = some .skipped := by
  have unexpected (text : Text) := read.mem_diagnostics (x := ⟨before.length + 1, .unexpectedLine text⟩) rfl
  have unrecognized (text : Text) := read.mem_diagnostics (x := ⟨before.length + 1, .unrecognizedLine text⟩) rfl
  simp only [Document.Accounts, unexpected, unrecognized, mem_lineDiagnostics_unexpected,
    mem_lineDiagnostics_unrecognized, exists_eq_right, mem_marks_at]
  cases markAt d .start before raw after <;> simp [Mark.lineKind?]

/-- A line stands in a doc string of the tree whose opening is before it and which no line since then closes. -/
theorem Document.ReadFrom.fence?_iff (regular : d.Regular) (read : document.ReadFrom d (before ++ after))
    (fence : Fence) :
    (positionAfter d .start before after).place.fence? = some fence ↔
      ∃ front opening inner mediaType, before = front ++ opening :: inner ∧
        (front.length + 1, .doc fence mediaType) ∈ document.walk ∧ ∀ line ∈ inner, Text.trim line ≠ fence.text := by
  have opened {front inner : List Text} {opening : Text} {mediaType : Option Text}
      (split : before = front ++ opening :: inner) :
      (front.length + 1, .doc fence mediaType) ∈ document.walk ↔
        ∃ indent, markAt d .start front opening (inner ++ after) = .openDoc fence mediaType indent := by
    rw [split, List.append_assoc, List.cons_append] at read
    rw [← Mark.node?_doc, ← read.mem_walk regular]
    constructor
    · exact fun member => ⟨_, member, rfl⟩
    · rintro ⟨node, member, bare⟩
      cases node with
      | doc =>
        cases bare
        exact member
      | _ => cases bare
  rw [inDoc_iff regular fence]
  constructor
  · rintro ⟨front, opening, inner, split, ⟨mediaType, indent, marked⟩, goesOn⟩
    exact ⟨front, opening, inner, mediaType, split, (opened split).mpr ⟨indent, marked⟩, goesOn⟩
  · rintro ⟨front, opening, inner, mediaType, split, member, goesOn⟩
    obtain ⟨indent, marked⟩ := (opened split).mp member
    exact ⟨front, opening, inner, split, ⟨_, _, marked⟩, goesOn⟩

/-- A line is accounted for by a doc string exactly if its mark says that it stands in one. -/
theorem Document.ReadFrom.accounts_inDoc (regular : d.Regular)
    (read : document.ReadFrom d (before ++ raw :: after)) :
    document.Accounts d before raw .inDoc ↔
      (markAt d .start before raw after).lineKind? = some .inDoc := by
  rw [markAt, ← Position.mark_inDoc regular, Option.isSome_iff_exists]
  constructor
  · rintro ⟨front, opening, inner, fence, mediaType, split, member, goesOn⟩
    exact ⟨fence, (read.fence?_iff regular fence).mpr ⟨front, opening, inner, mediaType, split, member, goesOn⟩⟩
  · rintro ⟨fence, inside⟩
    obtain ⟨front, opening, inner, mediaType, split, member, goesOn⟩ := (read.fence?_iff regular fence).mp inside
    exact ⟨front, opening, inner, fence, mediaType, split, member, goesOn⟩

/-- The heading behind which a description goes on has its lines in the tree. -/
theorem Document.ReadFrom.mem_walk_described (regular : d.Regular) {front inner : List Text} {opening : Text}
    {kind : Heading} {keyword name : Text}
    (read : document.ReadFrom d (front ++ opening :: (inner ++ raw :: after)))
    (plain : ∀ line ∈ inner ++ raw :: after, '\n' ∉ line)
    (marked : markAt d .start front opening (inner ++ raw :: after) = .heading kind keyword name)
    (all : ∀ line ∈ inner, d.Continues line) (goesOn : d.Continues raw) (nonempty : Text.trim raw ≠ [])
    (noComment : (Text.trim raw).head? ≠ some '#') :
    ∃ description, (front.length + 1, .heading kind keyword name description) ∈ document.walk ∧
      Text.trim raw ∈ Text.splitAtChar '\n' description := by
  obtain ⟨language, uri, count, early, _, rfl⟩ := read
  obtain ⟨tags, walked⟩ := walk_documentOf regular language uri count early
    (front ++ opening :: (inner ++ raw :: after))
  obtain ⟨s, among, heading, described⟩ :=
    exists_description regular plain marked all goesOn nonempty noComment 1 tags
  refine ⟨s.description, ?_, described⟩
  have first : s.node ∈ s.walk := List.mem_cons_self
  rw [walked, Nat.add_comm]
  rw [Section.node, heading] at first
  exact List.mem_flatMap.mpr ⟨s, among, first⟩

/-- No heading of the tree stands among lines that go on with the description of a heading. -/
theorem Document.ReadFrom.outside_since (regular : d.Regular) {front inner : List Text} {opening : Text}
    (read : document.ReadFrom d (front ++ opening :: inner ++ raw :: after))
    (heading : (markAt d .start front opening (inner ++ raw :: after)).isHeading = true)
    (all : ∀ line ∈ inner, d.Continues line) {line : Nat} {kind : Heading} {keyword name description : Text}
    (member : (line, .heading kind keyword name description) ∈ document.walk) :
    line ≤ front.length + 1 ∨ (front ++ opening :: inner).length < line := by
  by_contra inside
  -- A line in between goes on with the description, so its mark is none of a heading.
  rw [List.length_append, List.length_cons, not_or, Nat.not_le, Nat.not_lt] at inside
  obtain ⟨first, here, others, rfl, rfl⟩ : ∃ first here others, inner = first ++ here :: others ∧
      line = (front ++ opening :: first).length + 1 := by
    obtain ⟨k, rfl⟩ := Nat.exists_eq_add_of_le inside.1
    have within : k < inner.length := by omega
    refine ⟨inner.take k, inner[k], inner.drop (k + 1), by simp, ?_⟩
    rw [List.length_append, List.length_cons, List.length_take]
    omega
  have walked : document.ReadFrom d (front ++ opening :: first ++ here :: (others ++ raw :: after)) := by
    simpa using read
  have standing := plain_since regular heading all
  rw [Mark.isHeading_of_node? ((walked.mem_walk regular).mp ⟨_, member, rfl⟩)] at standing
  cases standing

/-- A line is accounted for by a description exactly if its mark says that it belongs to one. -/
theorem Document.ReadFrom.accounts_described (regular : d.Regular)
    (read : document.ReadFrom d (before ++ raw :: after)) (plain : ∀ line ∈ before ++ raw :: after, '\n' ∉ line)
    (nonempty : Text.trim raw ≠ []) (noComment : (Text.trim raw).head? ≠ some '#') :
    document.Accounts d before raw .described ↔
      (markAt d .start before raw after).lineKind? = some .described := by
  constructor
  · rintro ⟨front, opening, inner, kind, keyword, name, description, rfl, member, _, all, _⟩
    rw [List.forall_mem_append, List.forall_mem_singleton] at all
    have walked : document.ReadFrom d (front ++ opening :: (inner ++ raw :: after)) := by simpa using read
    have marked := Mark.isHeading_of_node? ((walked.mem_walk regular).mp ⟨_, member, rfl⟩)
    have describing := (describing_iff regular (front ++ opening :: inner) (raw :: after)).mpr
      ⟨front, opening, inner, rfl, by rw [marked]; rfl, all.1⟩
    rw [markAt, Position.mark_continues describing all.2, if_neg noComment]
    rfl
  · intro kind
    have marking := markAt_marking regular .start before raw after
    cases marked : markAt d .start before raw after with
    | description t =>
      rw [marked] at marking
      obtain ⟨describing, goesOn, _⟩ := marking.describing
      obtain ⟨front, opening, inner, rfl, heading, all⟩ := (describing_iff regular before _).mp describing
      have walked : document.ReadFrom d (front ++ opening :: (inner ++ raw :: after)) := by simpa using read
      cases headed : markAt d .start front opening (inner ++ raw :: after) with
      | heading kind keyword name =>
        have plain : ∀ line ∈ inner ++ raw :: after, '\n' ∉ line := fun line member => plain line (by simp_all)
        obtain ⟨description, member, described⟩ :=
          walked.mem_walk_described regular plain headed all goesOn nonempty noComment
        refine ⟨front, opening, inner, kind, keyword, name, description, rfl, member, ?_, ?_, described⟩
        · intro line _ _ _ _ other
          exact read.outside_since regular heading all other
        · exact List.forall_mem_append.mpr ⟨all, List.forall_mem_singleton.mpr goesOn⟩
      | _ =>
        rw [headed] at heading
        cases heading
    | _ =>
      rw [marked] at kind
      cases kind

/-- What becomes of a line that is neither empty nor a comment nor tags. -/
theorem Document.ReadFrom.accounts_iff (regular : d.Regular)
    (read : document.ReadFrom d (before ++ raw :: after)) (plain : ∀ line ∈ before ++ raw :: after, '\n' ∉ line)
    (nonempty : Text.trim raw ≠ []) (noComment : (Text.trim raw).head? ≠ some '#') (kind : LineKind) :
    document.Accounts d before raw kind ↔ (markAt d .start before raw after).lineKind? = some kind := by
  cases kind with
  | node => exact read.accounts_node regular
  | skipped => exact read.accounts_skipped
  | inDoc => exact read.accounts_inDoc regular
  | described => exact read.accounts_described regular plain nonempty noComment

/-- A line that is neither blank nor a comment nor tags is accounted for in one way only, as its mark says. -/
theorem Document.ReadFrom.existsUnique_kind (regular : d.Regular)
    (read : document.ReadFrom d (before ++ raw :: after)) (plain : ∀ line ∈ before ++ raw :: after, '\n' ∉ line)
    (nonempty : Text.trim raw ≠ []) (noComment : (Text.trim raw).head? ≠ some '#')
    (noTags : (Text.trim raw).head? ≠ some '@') : ∃! kind, document.Accounts d before raw kind := by
  have accounts := read.accounts_iff regular plain nonempty noComment
  have marking := markAt_marking regular .start before raw after
  obtain ⟨kind, becomes⟩ := Option.isSome_iff_exists.mp (marking.lineKind? nonempty noComment noTags)
  refine ⟨kind, (accounts kind).mpr becomes, fun other same => ?_⟩
  exact Option.some.inj (((accounts other).mp same).symm.trans becomes)

/-! ### Comments -/

theorem Marking.commented {t : Text} (marking : Marking d p raw (.comment t) next) :
    t = Text.trim raw ∧ (Text.trim raw).head? = some '#' := by
  cases marking with
  | comment _ hash => exact ⟨rfl, hash⟩

/-- Outside doc strings, the lines that start with a hash sign are the comments. -/
theorem markAt_eq_comment_iff (regular : d.Regular) {t : Text} :
    markAt d .start before raw after = .comment t ↔
      t = Text.trim raw ∧ (Text.trim raw).head? = some '#' ∧
        (markAt d .start before raw after).lineKind? ≠ some .inDoc := by
  constructor
  · intro marked
    have marking := markAt_marking regular .start before raw after
    rw [marked] at marking ⊢
    obtain ⟨rfl, hash⟩ := marking.commented
    exact ⟨rfl, hash, by rintro ⟨⟩⟩
  · rintro ⟨rfl, hash, outside⟩
    rw [ne_eq, markAt, ← Position.mark_inDoc regular, Option.isSome_iff_ne_none, not_not,
      Place.fence?_eq_none] at outside
    rw [markAt, Position.mark_comment outside hash]

/-- The comments are the lines with a number sign outside doc strings, but for a first line that names the
language. -/
theorem Document.ReadFrom.mem_comments (regular : d.Regular) {lines : List Text} (read : document.ReadFrom d lines)
    (comment : Comment) :
    comment ∈ document.comments ↔ ∃ before raw after, lines = before ++ raw :: after ∧
      comment = ⟨Text.trim raw, before.length + 1⟩ ∧ (Text.trim raw).head? = some '#' ∧
        ¬ document.Accounts d before raw .inDoc ∧
          ¬ (before = [] ∧ (languageDirective? (Text.trim raw)).isSome = true) := by
  have among : comment ∈ document.comments ↔
      ∃ m ∈ numberFrom 1 (marksFrom d .start lines), comment? m = some comment := by
    obtain ⟨language, uri, count, early, _, rfl⟩ := read
    exact List.mem_filterMap
  rw [among]
  constructor
  · rintro ⟨⟨line, mark⟩, member, found⟩
    obtain ⟨before, raw, after, rfl, rfl, marked⟩ := mem_marks_iff.mp member
    cases mark with
    | comment t =>
      obtain ⟨rfl, hash, outside⟩ := (markAt_eq_comment_iff regular).mp marked
      rw [comment?] at found
      split at found
      · cases found
      · rename_i recorded
        cases found
        refine ⟨before, raw, after, rfl, by rw [Nat.add_comm], hash, mt (read.accounts_inDoc regular).mp outside, ?_⟩
        rintro ⟨rfl, named⟩
        exact recorded (by simpa using named)
    | _ => cases found
  · rintro ⟨before, raw, after, rfl, rfl, hash, outside, unnamed⟩
    have marked := (markAt_eq_comment_iff regular).mpr
      ⟨rfl, hash, mt (read.accounts_inDoc regular).mpr outside⟩
    refine ⟨_, mem_marks_at.mpr marked, ?_⟩
    rw [comment?, if_neg]
    simpa using unnamed

theorem line_of_comment? {m : NumberedMark} {c : Comment} (found : comment? m = some c) : c.line = m.1 := by
  obtain ⟨line, mark⟩ := m
  cases mark with
  | comment t =>
    rw [comment?] at found
    split at found
    · cases found
    · cases found
      rfl
  | _ => cases found

/-- Comments come in the order of their lines. -/
theorem Document.ReadFrom.comments_sorted {lines : List Text} (read : document.ReadFrom d lines) :
    document.comments.Pairwise fun first second => first.line < second.line := by
  obtain ⟨language, uri, count, early, _, rfl⟩ := read
  refine List.Pairwise.filterMap _ ?_ (numberFrom_pairwise 1 _)
  intro m other earlier first found second later
  rwa [line_of_comment? found, line_of_comment? later]

end Lines

/-! ### Texts -/

/-- The document of a text is read from its lines. -/
theorem parseLenient_readFrom (default text : Text) (uri : Option Text) :
    (parseLenient .builtIn default text uri).ReadFrom (Languages.builtIn.dialectOf default (Text.lines text))
      (Text.lines text) := by
  obtain ⟨language, early, -, unknown, read⟩ := parseLenient_eq default (Text.lines text)
  refine ⟨language, uri, _, early, fun x member => ?_, read text uri rfl⟩
  obtain ⟨code, fallback, problem⟩ := unknown x member
  rw [Diagnostic.isSkip, problem]

/-- Whatever language a text is in, its dialect is regular. -/
theorem Languages.dialectOf_regular (default : Text) (lines : List Text) :
    (Languages.builtIn.dialectOf default lines).Regular := by
  obtain ⟨language, early, known, -, -⟩ := parseLenient_eq default lines
  exact (regular_of_find? known).2

/-- No line of a text is lost. Of what is neither empty nor a comment nor tags, each line is exactly one of
these: a node of the tree, reported as skipped, in a doc string, or in a description. The comments are the other
lines with a number sign, in their order. -/
theorem parse_accounts_for_lines (default text : Text) (uri : Option Text) :
    ∃ document, ({ language := default } : Parser).parse .builtIn text uri = .ok document ∧
      (∀ before raw after, Text.lines text = before ++ raw :: after → Text.trim raw ≠ [] →
        (Text.trim raw).head? ≠ some '#' → (Text.trim raw).head? ≠ some '@' →
          ∃! kind, document.Accounts (Languages.builtIn.dialectOf default (Text.lines text)) before raw kind) ∧
      (∀ comment, comment ∈ document.comments ↔ ∃ before raw after, Text.lines text = before ++ raw :: after ∧
        comment = ⟨Text.trim raw, before.length + 1⟩ ∧ (Text.trim raw).head? = some '#' ∧
          ¬ document.Accounts (Languages.builtIn.dialectOf default (Text.lines text)) before raw .inDoc ∧
            ¬ (before = [] ∧ (languageDirective? (Text.trim raw)).isSome = true)) ∧
      document.comments.Pairwise fun first second => first.line < second.line := by
  have read := parseLenient_readFrom default text uri
  have regular := Languages.dialectOf_regular default (Text.lines text)
  refine ⟨_, Parser.parse_lenient rfl .builtIn text uri, ?_, read.mem_comments regular, read.comments_sorted⟩
  intro before raw after split nonempty noComment noTags
  have plain : ∀ line ∈ Text.lines text, '\n' ∉ line := fun line => Text.lineFeed_notMem_of_mem_lines
  generalize Languages.builtIn.dialectOf default (Text.lines text) = d at read regular ⊢
  rw [split] at plain read
  exact read.existsUnique_kind regular plain nonempty noComment noTags

/-- A line behind a doc string is skipped and nothing else, and what looks like a comment in the doc string is
none. -/
theorem parse_accounts_for_skipped_line :
    ∃ document, ({} : Parser).parse .builtIn
        "# language: en\nFeature: f\nabout\n# note\nScenario: s\nGiven a\n\"\"\"\n# b\n\"\"\"\nrest" none =
          .ok document ∧
      (∀ kind, document.Accounts .english
        ["# language: en", "Feature: f", "about", "# note", "Scenario: s", "Given a", "\"\"\"", "# b", "\"\"\""]
          "rest" kind ↔ kind = .skipped) ∧
      document.comments = [⟨"# note", 4⟩] := by
  obtain ⟨document, read, accounts, _⟩ := parse_accounts_for_lines "en"
    "# language: en\nFeature: f\nabout\n# note\nScenario: s\nGiven a\n\"\"\"\n# b\n\"\"\"\nrest" none
  have evaluated : document.diagnostics = [⟨10, .unrecognizedLine "rest"⟩] ∧ document.comments = [⟨"# note", 4⟩] := by
    obtain rfl := Except.ok.inj ((Parser.parse_english (by cbv)).symm.trans read)
    constructor <;> cbv
  obtain ⟨reported, comments⟩ := evaluated
  have unique := accounts
    ["# language: en", "Feature: f", "about", "# note", "Scenario: s", "Given a", "\"\"\"", "# b", "\"\"\""] "rest" []
    (by cbv) (by decide) (by decide) (by decide)
  have skipped : document.Accounts .english
      ["# language: en", "Feature: f", "about", "# note", "Scenario: s", "Given a", "\"\"\"", "# b", "\"\"\""]
        "rest" .skipped := by
    refine ⟨"rest", .inr ?_⟩
    rw [reported]
    exact List.mem_singleton.mpr rfl
  exact ⟨document, read, fun kind => ⟨fun other => unique.unique other skipped, fun same => same ▸ skipped⟩, comments⟩

end Gherkin
