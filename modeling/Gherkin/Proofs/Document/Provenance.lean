import Mathlib
import Gherkin.Proofs.Document.Accounting
import Gherkin.Proofs.Document.Contents
import Gherkin.Proofs.Document.Stanzas

/-! # Where the parts of a tree come from

Each tag, heading, step, row and doc string of a tree is read from the line that it names, and along the tree these
lines go on, tags of one line apart (`Gherkin.parse_reads_lines_in_order`). The parts of a tree are those of its marks,
in the order of the marks, but for tags that belong to nothing.
-/

namespace Gherkin

/-! ### Parts -/

/-- What one line gives to a tree. Only of tags one line can give several. -/
inductive Part where
  | tag (name : Text)
  | heading (kind : Heading) (keyword name : Text)
  | step (keyword : Text) (type : StepType) (text : Text)
  | row (cells : List Text)
  | doc (fence : Fence) (mediaType : Option Text)
  deriving DecidableEq, Repr

/-- A part with the number of its line. -/
abbrev NumberedPart := Nat × Part

/-- The part that a node is; its description stands on other lines. -/
def Node.part : Node → Part
  | .heading kind keyword name _ => .heading kind keyword name
  | .step keyword type text => .step keyword type text
  | .row cells => .row cells
  | .doc fence mediaType => .doc fence mediaType

def partOfNode (node : NumberedNode) : NumberedPart := (node.1, node.2.part)

def Tag.part (t : Tag) : NumberedPart := (t.line, .tag t.name)

/-- The parts of a stanza: its tags, its heading, each step in front of its rows or doc string, and the rows of
examples. -/
def Stanza.parts (s : Stanza) : List NumberedPart :=
  s.tags.map Tag.part ++ (s.heading.line, .heading s.heading.kind s.heading.keyword s.heading.name) ::
    (s.steps.flatMap Step.walk ++ s.rows.map Row.node).map partOfNode

/-- The parts of a document in the order of its tree. -/
def Document.parts (d : Document) : List NumberedPart := d.stanzas.flatMap Stanza.parts

/-- Whether a part is what a line says. -/
def Part.ReadFrom (d : Dialect) (raw : Text) : Part → Prop
  | .tag name => (Text.trim raw).head? = some '@' ∧ name ∈ Text.words (Text.trim raw)
  | .heading kind keyword name => heading? (d.keywords kind) (Text.trim raw) = some (keyword, name)
  | .step keyword type text => d.step? (Text.trim raw) = some (keyword, type, text)
  | .row cells => cells = splitRow (Text.trim raw)
  | .doc fence mediaType => Fence.ofLine? (Text.trim raw) = some fence ∧
      mediaType = (some (Text.trim ((Text.trim raw).drop fence.text.length))).filter (· ≠ [])

def Part.isTag : Part → Bool
  | .tag _ => true
  | _ => false

/-- Whether a part can stand in front of another: on an earlier line, or on the same line if both are tags. -/
def NumberedPart.Before (first second : NumberedPart) : Prop :=
  first.1 < second.1 ∨ first.1 = second.1 ∧ first.2.isTag = true ∧ second.2.isTag = true

/-! ### The parts of marks -/

/-- The parts that a mark gives to a tree. -/
def Mark.parts : Mark → List Part
  | .tags tokens => (tokens.filter isTagName).map .tag
  | .heading kind keyword name => [.heading kind keyword name]
  | .step keyword type text => [.step keyword type text]
  | .row cells => [.row cells]
  | .openDoc fence mediaType _ => [.doc fence mediaType]
  | _ => []

def lineParts (m : NumberedMark) : List NumberedPart := m.2.parts.map (m.1, ·)

theorem lineParts_eq (m : NumberedMark) :
    lineParts m = ((node? m).map partOfNode).toList ++ (lineTags m).map Tag.part := by
  obtain ⟨line, mark⟩ := m
  cases mark <;> simp [lineParts, Mark.parts, lineTags, node?, Mark.node?, partOfNode, Node.part, Tag.part]

/-- Whether the tags among some marks stand behind everything else that these give to a tree. -/
def TagsLast (marks : List NumberedMark) : Prop :=
  marks.flatMap lineParts = (marks.filterMap node?).map partOfNode ++ (tagsOf marks).map Tag.part

section Marking

variable {d : Dialect} {p : Position} {raw : Text}

theorem Place.between_of_late {place : Place} (outside : place.isDoc = false) (late : place ≠ .preamble) :
    ∃ inScenario nested, place.Between inScenario nested := by
  cases place with
  | preamble => exact absurd rfl late
  | doc => cases outside
  | _ => exact ⟨_, _, by constructor⟩

/-- Outside doc strings a line with an at sign holds tags, and what can follow is no step nor argument. -/
theorem Position.mark_sign (regular : d.Regular) (outside : p.place.isDoc = false)
    (sign : (Text.trim raw).head? = some '@') (ahead : List Text) :
    ∃ place, p.mark d raw ahead = (.tags (tagTokens (Text.trim raw)), .within place) ∧ place.isBare = true ∧
      place.takesSteps = false := by
  have nonempty : Text.trim raw ≠ [] := by
    rintro empty
    rw [empty] at sign
    cases sign
  have starts : d.startsElement (Text.trim raw) = true := by simp [Dialect.startsElement, sign]
  rw [Position.mark_eq rfl ahead outside nonempty (by rw [sign]; decide) starts]
  by_cases start : p.place = .preamble
  · rw [start]
    exact ⟨.preamble, if_pos sign, rfl, rfl⟩
  · obtain ⟨inScenario, nested, between⟩ := Place.between_of_late outside start
    have fence : Fence.ofLine? (Text.trim raw) = none := by
      apply Fence.ofLine?_eq_none
      intro c head
      cases sign.symm.trans head
      decide
    have step : d.step? (Text.trim raw) = none := regular.step?_reserved sign (by decide)
    have examples : heading? d.examples (Text.trim raw) = none := regular.heading?_reserved sign (by decide) .examples
    rw [between.mark (by rw [sign]; decide) fence step]
    have child : markChild d nested (Text.trim raw) = (.tags (tagTokens (Text.trim raw)), .within (.children nested)) :=
      if_pos sign
    rw [markBlock, examples, child]
    cases inScenario with
    | false => exact ⟨.children nested, rfl, rfl, rfl⟩
    | true =>
      cases examplesAhead d ahead with
      | true => exact ⟨.blocks nested, by simp [sign], rfl, rfl⟩
      | false => exact ⟨.children nested, by simp, rfl, rfl⟩

theorem Marking.sign {tokens : List Text} {next : Position} (marking : Marking d p raw (.tags tokens) next) :
    (Text.trim raw).head? = some '@' := by
  cases marking
  assumption

theorem Position.of_mark_tags (regular : d.Regular) {ahead : List Text} {tokens : List Text}
    (marked : (p.mark d raw ahead).1 = .tags tokens) :
    (Text.trim raw).head? = some '@' ∧ tokens = tagTokens (Text.trim raw) ∧
      (p.mark d raw ahead).2.place.isBare = true ∧ (p.mark d raw ahead).2.place.takesSteps = false := by
  have outside : p.place.isDoc = false := by
    rw [← Place.fence?_eq_none, ← Option.not_isSome_iff_eq_none, p.mark_inDoc regular raw ahead, marked]
    rintro ⟨⟩
  have marking := p.marking regular raw ahead
  rw [marked] at marking
  have sign : (Text.trim raw).head? = some '@' := marking.sign
  obtain ⟨place, same, bare, stepless⟩ := p.mark_sign regular outside sign ahead
  rw [same] at marked ⊢
  cases marked
  exact ⟨sign, rfl, bare, stepless⟩

theorem Place.afterRow?_of_isBare {place : Place} (bare : place.isBare = true) :
    place.afterRow? = none ∧ place.isArgument = false := by
  cases place with
  | preamble | children | steps | blocks => exact ⟨rfl, rfl⟩
  | _ => cases bare

/-- Where nothing belongs to a step or to examples, and no step can stand, the marks up to the next heading give no
nodes. -/
theorem nodes_of_stepless (regular : d.Regular) (bare : p.place.isBare = true) (stepless : p.place.takesSteps = false)
    (lines : List Text) (n : Nat) : (frontAt d p n lines).filterMap node? = [] := by
  obtain ⟨stands, walk, -⟩ := stands_cutAtHeadings regular lines p n
  obtain ⟨rowless, noArgument⟩ := Place.afterRow?_of_isBare bare
  rw [frontAt, ← walk, StepsBelow.walk, stands.rowless rowless, stands.docless noArgument, stands.stepless stepless]
  rfl

theorem TagsLast.cons {m : NumberedMark} {marks : List NumberedMark} (last : TagsLast marks)
    (tagless : lineTags m = [] ∨ marks.filterMap node? = []) : TagsLast (m :: marks) := by
  rw [TagsLast] at last
  have all : tagsOf (m :: marks) = lineTags m ++ tagsOf marks := rfl
  rw [TagsLast, List.flatMap_cons, last, lineParts_eq, all, List.filterMap_cons]
  rcases tagless with tagless | nodeless
  · rw [tagless]
    cases node? m <;> simp
  · rw [nodeless]
    cases node? m <;> simp

theorem tagsLast_cutAtHeadings (regular : d.Regular) (lines : List Text) (p : Position) (n : Nat) :
    let cut := cutAtHeadings (numberFrom n (marksFrom d p lines))
    TagsLast cut.1 ∧ ∀ entry ∈ cut.2, TagsLast entry.2 := by
  induction lines generalizing p n with
  | nil => exact ⟨rfl, List.forall_mem_nil _⟩
  | cons raw rest ih =>
    obtain ⟨front, below⟩ := ih (p.mark d raw rest).2 (n + 1)
    rw [marksFrom, numberFrom]
    cases marked : (p.mark d raw rest).1 with
    | heading kind keyword name =>
      rw [cutAtHeadings_heading]
      exact ⟨rfl, List.forall_mem_cons.mpr ⟨front, below⟩⟩
    | tags tokens =>
      obtain ⟨-, -, bare, stepless⟩ := Position.of_mark_tags regular marked
      rw [cutAtHeadings_plain rfl]
      exact ⟨front.cons (.inr (nodes_of_stepless regular bare stepless rest (n + 1))), below⟩
    | _ =>
      rw [cutAtHeadings_plain rfl]
      exact ⟨front.cons (.inl rfl), below⟩

/-- The parts of the mark of a line are what the line says. -/
theorem Position.readFrom (regular : d.Regular) {ahead : List Text} {part : Part}
    (member : part ∈ (p.mark d raw ahead).1.parts) : part.ReadFrom d raw := by
  have marking := p.marking regular raw ahead
  generalize following : (p.mark d raw ahead).2 = next at marking
  cases marked : (p.mark d raw ahead).1 with
  | tags tokens =>
    obtain ⟨sign, rfl, -⟩ := Position.of_mark_tags regular marked
    rw [marked] at member
    obtain ⟨name, among, rfl⟩ := List.mem_map.mp member
    exact ⟨sign, (List.takeWhile_sublist _).subset (List.mem_filter.mp among).1⟩
  | heading kind keyword name =>
    rw [marked] at member marking
    obtain rfl := List.mem_singleton.mp member
    cases marking with
    | heading among split =>
      rw [Part.ReadFrom, split]
      exact regular.heading?_eq kind among _
  | step keyword type text =>
    rw [marked] at member marking
    obtain rfl := List.mem_singleton.mp member
    cases marking with
    | step found => exact found
  | row cells =>
    rw [marked] at member marking
    obtain rfl := List.mem_singleton.mp member
    cases marking with
    | row => rfl
  | openDoc fence mediaType indent =>
    obtain ⟨fenced, -⟩ := Position.opens regular marked
    rw [marked] at member marking
    obtain rfl := List.mem_singleton.mp member
    obtain ⟨-, same⟩ := marking.openDoc_eq
    cases same
    have drops : fence.text.length = 3 := by cases fence <;> rfl
    rw [Part.ReadFrom, drops]
    exact ⟨fenced, by cases Text.trim ((Text.trim raw).drop 3) <;> rfl⟩
  | _ =>
    rw [marked] at member
    cases member

end Marking

/-! ### The parts of sections -/

theorem partOfNode_bare (node : NumberedNode) : partOfNode (node.1, node.2.bare) = partOfNode node := by
  obtain ⟨line, node⟩ := node
  cases node <;> rfl

/-- Of its tags and marks, a section gives all to a tree but for the tags of a background. -/
theorem Section.parts_sublist {s : Section} (below : StandsBelow s.heading s.marks) :
    s.stanza.parts.Sublist
      (s.tags.map Tag.part ++ ((s.heading.mark :: s.marks).filterMap node?).map partOfNode) := by
  have kept : (s.heading.kind.keptTags s.tags).Sublist s.tags := by
    cases s.heading.kind with
    | background => exact List.nil_sublist _
    | _ => exact .refl _
  have walked : s.stanza.parts = (s.heading.kind.keptTags s.tags).map Tag.part ++ s.walk.map partOfNode := by
    obtain ⟨⟨kind, keyword, name, line⟩, tags, marks⟩ := s
    cases kind <;> simp [Stanza.parts, stanza, Section.walk, node, partOfNode, Node.part]
  have bare : s.walk.map partOfNode = (s.walk.map fun node => (node.1, node.2.bare)).map partOfNode := by
    rw [List.map_map]
    exact List.map_congr_left fun node _ => (partOfNode_bare node).symm
  rw [walked, bare, Section.walk_bare below]
  exact (kept.map _).append_right _

theorem parts_sectionsFrom {entries : List (HeadingLine × List NumberedMark)}
    (below : ∀ entry ∈ entries, StandsBelow entry.1 entry.2) (last : ∀ entry ∈ entries, TagsLast entry.2)
    (tags : List Tag) :
    (((sectionsFrom tags entries).map Section.stanza).flatMap Stanza.parts).Sublist
      (tags.map Tag.part ++ (entries.flatMap fun entry => entry.1.mark :: entry.2).flatMap lineParts) := by
  induction entries generalizing tags with
  | nil => exact List.nil_sublist _
  | cons entry rest ih =>
    rw [List.forall_mem_cons] at below last
    have here := Section.parts_sublist (s := ⟨entry.1, tags, entry.2⟩) below.1
    have heads : node? entry.1.mark = some (entry.1.line, .heading entry.1.kind entry.1.keyword entry.1.name []) := rfl
    have split : (entry.1.mark :: entry.2).flatMap lineParts =
        ((entry.1.mark :: entry.2).filterMap node?).map partOfNode ++ (tagsOf entry.2).map Tag.part := by
      rw [List.flatMap_cons, last.1, List.filterMap_cons_some heads]
      rfl
    rw [sectionsFrom, List.map_cons, List.flatMap_cons, List.flatMap_cons, List.flatMap_append, split]
    simpa only [List.append_assoc] using here.append (ih below.2 last.2 (tagsOf entry.2))

/-! ### The parts of documents -/

section Documents

variable {d : Dialect}

/-- The parts of a document that was read are among those of its marks, in the order of the lines. -/
theorem parts_documentOf (regular : d.Regular) (language : Text) (uri : Option Text) (count : Nat)
    (early : List Diagnostic) (lines : List Text) :
    (documentOf language uri count early (numberFrom 1 (marksFrom d .start lines))).parts.Sublist
      ((numberFrom 1 (marksFrom d .start lines)).flatMap lineParts) := by
  obtain ⟨-, -, below⟩ := stands_cutAtHeadings regular lines .start 1
  obtain ⟨front, last⟩ := tagsLast_cutAtHeadings regular lines .start 1
  have joined := congrArg (List.flatMap lineParts) (cutAtHeadings_join (numberFrom 1 (marksFrom d .start lines)))
  rw [List.flatMap_append, front, List.append_assoc] at joined
  rw [Document.parts, stanzas_documentOf regular, ← joined]
  exact (parts_sectionsFrom below last _).trans (List.sublist_append_right _ _)

/-- Of one mark only tags are several parts. -/
theorem lineParts_pairwise (m : NumberedMark) : (lineParts m).Pairwise NumberedPart.Before := by
  obtain ⟨line, mark⟩ := m
  cases mark with
  | tags tokens =>
    rw [lineParts, Mark.parts, List.map_map, List.pairwise_map]
    exact List.pairwise_of_forall fun _ _ => .inr ⟨rfl, rfl, rfl⟩
  | heading | step | row | openDoc => exact List.pairwise_singleton _ _
  | _ => exact .nil

theorem line_of_mem_lineParts {m : NumberedMark} {part : NumberedPart} (member : part ∈ lineParts m) :
    part.1 = m.1 := by
  obtain ⟨_, -, rfl⟩ := List.mem_map.mp member
  rfl

/-- Along marks the lines of their parts go on, tags of one line apart. -/
theorem parts_pairwise (n : Nat) (marks : List Mark) :
    ((numberFrom n marks).flatMap lineParts).Pairwise NumberedPart.Before := by
  rw [List.pairwise_flatMap]
  refine ⟨fun m _ => lineParts_pairwise m, (numberFrom_pairwise n marks).imp ?_⟩
  intro earlier later before first ofEarlier second ofLater
  rw [NumberedPart.Before, line_of_mem_lineParts ofEarlier, line_of_mem_lineParts ofLater]
  exact .inl before

section Read

variable {document : Document} {lines : List Text}

/-- Each part of a document that was read is one of the mark of its line. -/
theorem Document.ReadFrom.mark_of_mem_parts (regular : d.Regular) (read : document.ReadFrom d lines)
    {part : NumberedPart} (member : part ∈ document.parts) :
    ∃ before raw after, lines = before ++ raw :: after ∧ part.1 = before.length + 1 ∧
      part.2 ∈ (markAt d .start before raw after).parts := by
  obtain ⟨language, uri, count, early, -, rfl⟩ := read
  obtain ⟨⟨_, mark⟩, marked, inside⟩ :=
    List.mem_flatMap.mp ((parts_documentOf regular language uri count early lines).subset member)
  obtain ⟨_, given, rfl⟩ := List.mem_map.mp inside
  obtain ⟨before, raw, after, rfl, rfl, rfl⟩ := mem_marks_iff.mp marked
  exact ⟨before, raw, after, rfl, Nat.add_comm _ _, given⟩

theorem Document.ReadFrom.parts_pairwise (regular : d.Regular) (read : document.ReadFrom d lines) :
    document.parts.Pairwise NumberedPart.Before := by
  obtain ⟨language, uri, count, early, -, rfl⟩ := read
  exact (Gherkin.parts_pairwise 1 _).sublist (parts_documentOf regular language uri count early lines)

/-- The headings of a tree go on from line to line. -/
theorem Document.ReadFrom.stanzas_pairwise (regular : d.Regular) (read : document.ReadFrom d lines) :
    document.stanzas.Pairwise fun first second => first.heading.line < second.heading.line := by
  have ordered := read.parts_pairwise regular
  rw [Document.parts, List.pairwise_flatMap] at ordered
  have heads (s : Stanza) : (s.heading.line, .heading s.heading.kind s.heading.keyword s.heading.name) ∈ s.parts :=
    List.mem_append_right _ List.mem_cons_self
  refine ordered.2.imp fun {first second} before => ?_
  obtain earlier | ⟨-, tag, -⟩ := before _ (heads first) _ (heads second)
  · exact earlier
  · cases tag

/-- No line gives both a comment and something to the tree. -/
theorem Document.ReadFrom.comments_apart (regular : d.Regular) (read : document.ReadFrom d lines) {comment : Comment}
    (commented : comment ∈ document.comments) {part : NumberedPart} (member : part ∈ document.parts) :
    comment.line ≠ part.1 := by
  obtain ⟨before, raw, after, rfl, rfl, hash, outside, -⟩ := (read.mem_comments regular comment).mp commented
  obtain ⟨front, other, rest, split, line, given⟩ := read.mark_of_mem_parts regular member
  rintro same
  obtain ⟨rfl, same⟩ := List.append_inj split (Nat.succ.inj (same.trans line))
  cases same
  rw [(markAt_eq_comment_iff regular).mpr ⟨rfl, hash, mt (read.accounts_inDoc regular).mpr outside⟩] at given
  cases given

end Read

end Documents

/-- Each part of a tree is what the line that it names says, and each comment is its line. Along the tree the lines go
on, tags of one line apart, and they are none of the comments. -/
theorem parse_reads_lines_in_order (default text : Text) (uri : Option Text) :
    ∃ document, ({ language := default } : Parser).parse .builtIn text uri = .ok document ∧
      (∀ line part, (line, part) ∈ document.parts → ∃ before raw after, Text.lines text = before ++ raw :: after ∧
        line = before.length + 1 ∧ part.ReadFrom (Languages.builtIn.dialectOf default (Text.lines text)) raw) ∧
      (∀ comment ∈ document.comments, ∃ before raw after, Text.lines text = before ++ raw :: after ∧
        comment = ⟨Text.trim raw, before.length + 1⟩) ∧
      document.parts.Pairwise NumberedPart.Before ∧
      (document.comments.Pairwise fun first second => first.line < second.line) ∧
      ∀ comment ∈ document.comments, ∀ part ∈ document.parts, comment.line ≠ part.1 := by
  have read := parseLenient_readFrom default text uri
  have regular := Languages.dialectOf_regular default (Text.lines text)
  refine ⟨_, Parser.parse_lenient rfl .builtIn text uri, ?_, ?_, read.parts_pairwise regular, read.comments_sorted,
    fun comment commented part => read.comments_apart regular commented⟩
  · intro line part member
    obtain ⟨before, raw, after, split, line, given⟩ := read.mark_of_mem_parts regular member
    exact ⟨before, raw, after, split, line, Position.readFrom regular given⟩
  · intro comment commented
    obtain ⟨before, raw, after, split, same, -⟩ := (read.mem_comments regular comment).mp commented
    exact ⟨before, raw, after, split, same⟩

/-- Both tags stand on the first line, and the row of the table on the last. -/
theorem parse_reads_tagged_table_in_order :
    ∃ document, ({} : Parser).parse .builtIn "@a @b\nFeature: f\nScenario: s\n# c\nGiven a\n| x |" none = .ok document ∧
      document.parts = [(1, .tag "@a"), (1, .tag "@b"), (2, .heading .feature "Feature" "f"),
        (3, .heading (.scenario false false) "Scenario" "s"), (5, .step "Given" .context "a"), (6, .row ["x"])] ∧
      document.parts.Pairwise NumberedPart.Before ∧
      ∃ before raw after, Text.lines "@a @b\nFeature: f\nScenario: s\n# c\nGiven a\n| x |" = before ++ raw :: after ∧
        6 = before.length + 1 ∧ (Part.row ["x"]).ReadFrom .english raw := by
  obtain ⟨document, read, given, -, ordered, -⟩ :=
    parse_reads_lines_in_order "en" "@a @b\nFeature: f\nScenario: s\n# c\nGiven a\n| x |" none
  have parts : document.parts = [(1, .tag "@a"), (1, .tag "@b"), (2, .heading .feature "Feature" "f"),
      (3, .heading (.scenario false false) "Scenario" "s"), (5, .step "Given" .context "a"), (6, .row ["x"])] := by
    obtain rfl := Except.ok.inj ((Parser.parse_english (by cbv)).symm.trans read)
    cbv
  exact ⟨document, read, parts, ordered, given 6 (.row ["x"]) (by rw [parts]; simp)⟩

end Gherkin
