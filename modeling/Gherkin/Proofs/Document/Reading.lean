import Gherkin.Proofs.Document.Printable
import Gherkin.Proofs.Document.Tags

/-! # Printed lines are read

Every line of a printed block gets the mark that it was printed for, wherever the block may stand
(`Gherkin.Layout.reads`).
-/

namespace Gherkin

variable {d : Dialect}

/-! ### Lines as texts -/

/-- What stands behind the colon of a heading. -/
def headingRest (name : Text) : Text := if name.isEmpty then [] else ' ' :: name

/-- A heading without its indentation. -/
def headingText (keyword name : Text) : Text := keyword ++ ':' :: headingRest name

/-- A step without its indentation. -/
def stepText (keyword text : Text) : Text := keyword ++ ' ' :: text

/-- What stands behind the colon of a heading is trimmed to its name. -/
theorem trim_headingRest {name : Text} (inline : Inline name) : Text.trim (headingRest name) = name := by
  rw [headingRest]
  split
  · rename_i empty
    rw [List.isEmpty_iff.mp empty]
    rfl
  · exact Text.trim_spaces_append 1 inline.1

/-- A heading neither starts nor ends with white space. -/
theorem trimmed_headingText {keyword name : Text} (known : Keyword keyword) (inline : Inline name) :
    Text.Trimmed isBlank (headingText keyword name) := by
  apply Text.trimmed_append known.nonempty (List.cons_ne_nil _ _) fun c head => (known.start c head).1
  intro c last
  rw [headingRest] at last
  split at last
  · cases last
    decide
  · rename_i nonempty
    rw [List.isEmpty_iff] at nonempty
    rw [List.getLast?_cons_cons, ← List.singleton_append, List.getLast?_append,
      List.getLast?_eq_some_getLast nonempty] at last
    apply inline.1.2
    rwa [List.getLast?_eq_some_getLast nonempty]

/-- The line of a heading is its indentation and its text, for there is nothing to trim at its end. -/
theorem headingLine_eq (level : Int) {keyword name : Text} (known : Keyword keyword) (inline : Inline name) :
    headingLine level keyword name = indentation level ++ headingText keyword name := by
  have trimmed := trimmed_headingText known inline
  have ended := Text.trimRight_spaces_append (2 * level.toNat) trimmed
  have nonempty : (headingText keyword name).isEmpty = false := by
    simp [headingText]
  rw [nonempty, if_neg Bool.false_ne_true] at ended
  rw [headingLine, indentation]
  cases name with
  | nil =>
    have blank : ∀ c ∈ [' '], isBlank c = true := List.forall_mem_singleton.mpr (by decide)
    have cut : Text.trimRight (Text.spaces (2 * level.toNat) ++ headingText keyword [] ++ [' ']) = _ :=
      Text.trimRight_append blank
    rw [← ended, ← cut]
    simp [headingText, headingRest]
  | cons c rest =>
    rw [← ended]
    simp [headingText, headingRest]

theorem trimmed_stepText {keyword text : Text} (nonempty : keyword ≠ [])
    (start : ∀ c ∈ keyword.head?, isBlank c = false) (named : text ≠ []) (inline : Inline text) :
    Text.Trimmed isBlank (stepText keyword text) := by
  apply Text.trimmed_append nonempty (List.cons_ne_nil _ _) start
  intro c last
  rw [← List.singleton_append, List.getLast?_append, List.getLast?_eq_some_getLast named] at last
  apply inline.1.2
  rwa [List.getLast?_eq_some_getLast named]

theorem stepLine_eq (level : Int) {s : Step} (nonempty : s.keyword ≠ [])
    (start : ∀ c ∈ s.keyword.head?, isBlank c = false) (named : s.text ≠ []) (inline : Inline s.text) :
    stepLine level s = indentation level ++ stepText s.keyword s.text := by
  have ended := Text.trimRight_spaces_append (2 * level.toNat) (trimmed_stepText nonempty start named inline)
  have some : (stepText s.keyword s.text).isEmpty = false := by simp [stepText]
  rw [some, if_neg Bool.false_ne_true] at ended
  rw [stepLine, indentation, ← ended]
  simp [stepText]

/-! ### What a line starts -/

/-- The first character of a keyword of a step: that of a keyword, or the star. -/
theorem Dialect.Opens.start {keyword : Text} {type : StepType} (regular : d.Regular)
    (opens : d.Opens keyword type) :
    keyword ≠ [] ∧ '\n' ∉ keyword ∧
      ∀ c ∈ keyword.head?, isBlank c = false ∧ c ∉ ['@', '|', '#', '"', '\x60'] := by
  obtain ⟨rfl, _⟩ | member := opens
  · refine ⟨List.cons_ne_nil _ _, by decide, fun c head => ?_⟩
    cases head
    decide
  · obtain ⟨nonempty, start, _, feeds⟩ := regular.step _ (firstOfEach_subset member)
    refine ⟨nonempty, feeds, fun c head => ?_⟩
    obtain ⟨solid, free⟩ := start c head
    exact ⟨solid, fun inside => free (List.mem_cons_of_mem _ inside)⟩

/-- A line that starts with neither of two characters is no fence. -/
theorem Fence.ofLine?_eq_none {t : Text} (plain : ∀ c ∈ t.head?, c ≠ '"' ∧ c ≠ '\x60') :
    Fence.ofLine? t = none := by
  cases t with
  | nil => rfl
  | cons c rest =>
    obtain ⟨quotes, backticks⟩ := plain c rfl
    simp [Fence.ofLine?, Fence.text, List.isPrefixOf, Ne.symm quotes, Ne.symm backticks]

/-- A line that starts with a reserved character is no heading. -/
theorem Dialect.Regular.heading?_reserved (regular : d.Regular) {t : Text} {c : Char} (head : t.head? = some c)
    (reserved : c ∈ reservedStarts) (kind : Heading) : heading? (d.keywords kind) t = none := by
  cases found : heading? (d.keywords kind) t with
  | none => rfl
  | some pair =>
    obtain ⟨member, rest, rfl, _⟩ := of_heading?_eq_some found
    obtain ⟨nonempty, start, _⟩ := regular.heading _ (d.keywords_subset kind _ member)
    have first := start c (by
      cases keyword : pair.1 with
      | nil => exact absurd keyword nonempty
      | cons e others =>
        rw [keyword] at head
        exact head)
    exact absurd reserved first.2

/-- A line that starts with a reserved character other than the star is no step. -/
theorem Dialect.Regular.step?_reserved (regular : d.Regular) {t : Text} {c : Char} (head : t.head? = some c)
    (reserved : c ∈ ['@', '|', '#', '"', '\x60']) : d.step? t = none := by
  cases found : d.step? t with
  | none => rfl
  | some step =>
    obtain ⟨opens, rest, rfl, _⟩ := of_step?_eq_some found
    obtain ⟨nonempty, _, start⟩ := opens.start regular
    have first := start c (by
      cases keyword : step.1 with
      | nil => exact absurd keyword nonempty
      | cons e others =>
        rw [keyword] at head
        exact head)
    exact absurd reserved first.2

/-! ### Marks of lines -/

/-- A line that starts something, outside doc strings. -/
theorem Position.mark_eq {p : Position} {raw t : Text} (line : Text.trim raw = t) (ahead : List Text)
    (outside : p.place.isDoc = false) (nonempty : t ≠ []) (noComment : t.head? ≠ some '#')
    (starts : d.startsElement t = true) : p.mark d raw ahead = p.place.mark d t raw ahead := by
  obtain ⟨place, describing⟩ := p
  cases t with
  | nil => exact absurd rfl nonempty
  | cons c rest =>
    have plain : c ≠ '#' := fun same => noComment (congrArg some same)
    unfold Position.mark
    split
    · rename_i inside
      cases inside
      cases outside
    · rename_i inside
      cases inside
      simp only [line, if_neg plain, starts, Bool.not_true, Bool.and_false, Bool.false_eq_true, if_false]

/-- Below a heading, a line that starts nothing else is read as description. -/
theorem Position.mark_description {place : Place} (outside : place.isDoc = false) {raw line : Text}
    (same : Text.trim raw = line) (described : DescriptionLine d line) (ahead : List Text) :
    Position.mark d raw ahead (.after place) = (.description line, .after place) := by
  subst line
  have goesOn : d.Continues raw := by
    by_cases empty : Text.trim raw = []
    · exact .inl empty
    · exact .inr (.inr (described.plain empty))
  rw [mark_continues ⟨rfl, outside⟩ goesOn, if_neg described.noComment]

/-- Whether a mark is one of an empty line. -/
def Mark.IsGap (m : Mark) : Prop := m = .blank ∨ m = .description []

/-! ### Places -/

/-- The places between blocks, after a scenario or not, and in a rule or not. -/
inductive Place.Between : Bool → Bool → Place → Prop
  | children (nested : Bool) : Between false nested (.children nested)
  | steps (inScenario nested : Bool) : Between inScenario nested (.steps inScenario nested)
  | argument (inScenario nested : Bool) : Between inScenario nested (.argument inScenario nested)
  | rows (inScenario nested : Bool) : Between inScenario nested (.rows inScenario nested)
  | blocks (nested : Bool) : Between true nested (.blocks nested)
  | examples (nested : Bool) : Between true nested (.examples nested)
  | exampleRows (nested : Bool) : Between true nested (.exampleRows nested)

/-- The places where a step can stand. -/
inductive Place.Stepping (inScenario nested : Bool) : Place → Prop
  | steps : Stepping inScenario nested (.steps inScenario nested)
  | argument : Stepping inScenario nested (.argument inScenario nested)
  | rows : Stepping inScenario nested (.rows inScenario nested)

variable {inScenario nested : Bool} {place : Place}

/-- Where a step may stand, a heading or another step may follow. -/
theorem Place.Stepping.between (stepping : place.Stepping inScenario nested) :
    place.Between inScenario nested := by
  cases stepping with
  | steps => exact .steps inScenario nested
  | argument => exact .argument inScenario nested
  | rows => exact .rows inScenario nested

theorem Place.Between.isDoc (between : place.Between inScenario nested) : place.isDoc = false := by
  cases between <;> rfl

theorem Place.Between.afterBlank (between : place.Between inScenario nested) :
    place.afterBlank.Between inScenario nested := by
  cases between with
  | rows => exact .steps inScenario nested
  | exampleRows => exact .blocks nested
  | children | steps | argument | blocks | examples => constructor

/-- A line that is neither an argument nor a step, between blocks. -/
theorem Place.Between.mark (between : place.Between inScenario nested) {t : Text} (bar : t.head? ≠ some '|')
    (fence : Fence.ofLine? t = none) (step : d.step? t = none) (raw : Text) (ahead : List Text) :
    place.mark d t raw ahead =
      if inScenario then markBlock d nested t ahead else markChild d nested t := by
  cases between <;> simp [Place.mark, markStep, bar, fence, step]

/-! ### Headings -/

/-- No keyword starts with a character that is reserved. -/
theorem Keyword.head_ne {keyword : Text} (known : Keyword keyword) {c : Char} (reserved : c ∈ reservedStarts)
    (rest : Text) : (keyword ++ rest).head? ≠ some c := by
  cases keyword with
  | nil => exact absurd rfl known.nonempty
  | cons e others =>
    intro head
    obtain rfl : e = c := Option.some.inj head
    exact (known.start e rfl).2 reserved

/-- No line that starts with a keyword is a fence. -/
theorem Keyword.ofLine? {keyword : Text} (known : Keyword keyword) (rest : Text) :
    Fence.ofLine? (keyword ++ rest) = none := by
  apply Fence.ofLine?_eq_none
  intro c head
  constructor
  · rintro rfl
    exact known.head_ne (by decide) rest head
  · rintro rfl
    exact known.head_ne (by decide) rest head

section Headings

variable (regular : d.Regular) {keyword : Text} {kind : Heading} (member : keyword ∈ d.keywords kind)
  (rest : Text)

include regular member

/-- A heading ends the description in front of it. -/
theorem Dialect.Regular.startsElement_heading : d.startsElement (keyword ++ ':' :: rest) = true := by
  have found := heading?_of_mem (fun k among => (regular.heading k among).colon) (regular.colon member)
    (d.keywords_subset kind keyword member) rest
  simp [startsElement, found]

/-- Below a feature or in a rule, the heading of a background or scenario is read as what it is. -/
theorem childHeading?_heading (inner : kind = .background nested ∨ ∃ outline, kind = .scenario nested outline) :
    childHeading? d nested (keyword ++ ':' :: rest) =
      some (.heading kind keyword (Text.trim rest), .after (kind.place nested)) := by
  have found := regular.heading?_eq kind member rest
  have other := fun other apart => regular.heading?_other kind other apart member rest
  obtain rfl | ⟨outline, rfl⟩ := inner
  · have background : heading? d.background (keyword ++ ':' :: rest) = some (keyword, Text.trim rest) := found
    simp only [childHeading?, background]
    rfl
  · have background : heading? d.background (keyword ++ ':' :: rest) = none :=
      other (.background false) (by cases outline <;> rintro ⟨⟩)
    cases outline with
    | true =>
      have outline : heading? d.outline (keyword ++ ':' :: rest) = some (keyword, Text.trim rest) := found
      simp only [childHeading?, background, outline]
      rfl
    | false =>
      have outline : heading? d.outline (keyword ++ ':' :: rest) = none :=
        other (.scenario false true) (by rintro ⟨⟩)
      have scenario : heading? d.scenario (keyword ++ ':' :: rest) = some (keyword, Text.trim rest) := found
      simp only [childHeading?, background, outline, scenario, Option.map_some]
      rfl

/-- The heading of a rule, background or scenario in its place. -/
theorem markChild_heading (fits : kind.Fits nested) (child : kind ≠ .feature ∧ kind ≠ .examples) :
    markChild d nested (keyword ++ ':' :: rest) =
      (.heading kind keyword (Text.trim rest), .after (kind.place nested)) := by
  have known := regular.heading keyword (d.keywords_subset kind keyword member)
  have found := regular.heading?_eq kind member rest
  have other := fun other apart => regular.heading?_other kind other apart member rest
  rw [markChild, if_neg (known.head_ne (by decide) _)]
  have inner (inner : kind = .background nested ∨ ∃ outline, kind = .scenario nested outline) :
      (if (nested && !((heading? d.rule (keyword ++ ':' :: rest)).isSome ||
          (heading? d.feature (keyword ++ ':' :: rest)).isSome)) = true then
        (childHeading? d true (keyword ++ ':' :: rest)).getD
          (.unrecognized (keyword ++ ':' :: rest), .within (.children true))
      else markInFeature d (keyword ++ ':' :: rest)) =
        (.heading kind keyword (Text.trim rest), .after (kind.place nested)) := by
    have rule : heading? d.rule (keyword ++ ':' :: rest) = none := by
      apply other .rule
      obtain rfl | ⟨outline, rfl⟩ := inner
      · rintro ⟨⟩
      · cases outline <;> rintro ⟨⟩
    have feature : heading? d.feature (keyword ++ ':' :: rest) = none := by
      apply other .feature
      obtain rfl | ⟨outline, rfl⟩ := inner
      · rintro ⟨⟩
      · cases outline <;> rintro ⟨⟩
    have child := childHeading?_heading regular member rest inner
    cases nested with
    | true => simp only [rule, feature, child, Option.isSome_none, Bool.or_false, Bool.not_false, Bool.and_self,
        if_true, Option.getD_some]
    | false => simp only [rule, child, Bool.false_and, Bool.false_eq_true, if_false, markInFeature,
        Option.getD_some]
  cases kind with
  | feature => exact absurd rfl child.1
  | examples => exact absurd rfl child.2
  | rule =>
    have rule : heading? d.rule (keyword ++ ':' :: rest) = some (keyword, Text.trim rest) := found
    simp only [rule, Option.isSome_some, Bool.true_or, Bool.not_true, Bool.and_false, Bool.false_eq_true,
      if_false, markInFeature]
    rfl
  | background inRule =>
    obtain rfl : inRule = nested := fits
    exact inner (.inl rfl)
  | scenario inRule outline =>
    obtain rfl : inRule = nested := fits
    exact inner (.inr ⟨outline, rfl⟩)

/-- A heading between blocks. -/
theorem Place.Between.mark_heading (between : place.Between inScenario nested) (fits : kind.Fits nested)
    (below : kind ≠ .feature) (inside : kind = .examples → inScenario = true) (raw : Text) (ahead : List Text) :
    place.mark d (keyword ++ ':' :: rest) raw ahead =
      (.heading kind keyword (Text.trim rest), .after (kind.place nested)) := by
  have heads := d.keywords_subset kind keyword member
  have known := regular.heading keyword heads
  rw [between.mark (known.head_ne (by decide) _) (known.ofLine? _) (regular.step?_heading heads rest)]
  by_cases examples : kind = .examples
  · subst examples
    have found : heading? d.examples (keyword ++ ':' :: rest) = some (keyword, Text.trim rest) :=
      regular.heading?_eq .examples member rest
    simp only [inside rfl, if_true, markBlock, found]
    rfl
  · have apart : kind.bare ≠ Heading.examples.bare := by
      cases kind with
      | examples => exact absurd rfl examples
      | _ => rintro ⟨⟩
    have missing : heading? d.examples (keyword ++ ':' :: rest) = none :=
      regular.heading?_other kind .examples apart member rest
    have child := markChild_heading regular member rest fits ⟨below, examples⟩
    have noTag : (keyword ++ ':' :: rest).head? ≠ some '@' := known.head_ne (by decide) _
    cases inScenario with
    | true => simp only [if_true, markBlock, missing, noTag, decide_false, Bool.false_and, Bool.false_eq_true,
        if_false, child]
    | false => simp only [Bool.false_eq_true, if_false, child]

end Headings

/-! ### Runs of lines -/

/-- Whether some lines get some marks at a position and lead to another one, whatever comes after them. -/
def Reads (d : Dialect) (p : Position) (lines : List Text) (marks : List Mark) (next : Position) : Prop :=
  ∀ rest, marksFrom d p (lines ++ rest) = marks ++ marksFrom d next rest

namespace Reads

variable {p next last : Position} {lines more : List Text} {marks others : List Mark}

theorem nil (p : Position) : Reads d p [] [] p := fun _ => rfl

theorem cons {raw : Text} {mark : Mark} (here : ∀ ahead, p.mark d raw ahead = (mark, next))
    (later : Reads d next lines marks last) : Reads d p (raw :: lines) (mark :: marks) last := by
  intro rest
  rw [List.cons_append, marksFrom, here, later rest, List.cons_append]

theorem append (first : Reads d p lines marks next) (second : Reads d next more others last) :
    Reads d p (lines ++ more) (marks ++ others) last := by
  intro rest
  rw [List.append_assoc, first, second, List.append_assoc]

end Reads

/-! ### Tables -/

/-- Where a table may stand, a line with a bar in front is read as a row. -/
theorem Place.mark_row {next : Place} (after : place.afterRow? = some next) {t : Text}
    (bar : t.head? = some '|') (raw : Text) (ahead : List Text) :
    place.mark d t raw ahead = (.row (splitRow t), .within next) := by
  cases place with
  | argument | rows | examples | exampleRows =>
    cases after
    simp [Place.mark, bar]
  | _ => cases after

theorem Place.isDoc_of_afterRow? {next : Place} (after : place.afterRow? = some next) :
    place.isDoc = false := by
  cases place with
  | doc => cases after
  | _ => rfl

/-- Behind a row there may be another row. -/
theorem Place.afterRow?_next {next : Place} (after : place.afterRow? = some next) :
    next.afterRow? = some next := by
  cases place with
  | argument | rows | examples | exampleRows =>
    cases after
    rfl
  | _ => cases after

/-- The rows of a table are read one after another. -/
theorem reads_rows {p : Position} {next : Place} (after : p.place.afterRow? = some next)
    {rows : List (List Text)} (printable : ∀ cells ∈ rows, PrintableCells cells) (indent : Nat)
    (widths : List Nat) :
    ∃ last, Reads d p (rows.map fun cells => Text.spaces indent ++ rowText widths cells) (rows.map .row) last ∧
      (rows = [] ∧ last = p ∨ rows ≠ [] ∧ last = .within next) := by
  induction rows generalizing p with
  | nil => exact ⟨p, .nil p, .inl ⟨rfl, rfl⟩⟩
  | cons cells rest ih =>
    rw [List.forall_mem_cons] at printable
    obtain ⟨inner, shown⟩ := rowText_eq widths cells
    have here (ahead : List Text) :
        p.mark d (Text.spaces indent ++ rowText widths cells) ahead = (.row cells, .within next) := by
      have bar : (rowText widths cells).head? = some '|' := by rw [shown]; rfl
      rw [Position.mark_eq (Text.trim_spaces_append indent (trimmed_rowText widths cells)) ahead
        (Place.isDoc_of_afterRow? after), Place.mark_row after bar, splitRow_rowText printable.1]
      · rw [shown]; rintro ⟨⟩
      · rw [bar]; rintro ⟨⟩
      · simp [Dialect.startsElement, bar]
    obtain ⟨last, reads, ends⟩ := ih (p := .within next) (Place.afterRow?_next after) printable.2
    refine ⟨last, .cons here reads, .inr ⟨List.cons_ne_nil _ _, ?_⟩⟩
    obtain ⟨_, same⟩ | ⟨_, same⟩ := ends
    · exact same
    · exact same

/-- The lines of a table are read as its rows, by induction on the rows. -/
theorem reads_table {p : Position} {next : Place} (after : p.place.afterRow? = some next)
    {rows : List (List Text)} (printable : ∀ cells ∈ rows, PrintableCells cells) (level : Int) :
    ∃ last, Reads d p (tableLines (indentation level) rows) (rows.map .row) last ∧
      (rows = [] ∧ last = p ∨ rows ≠ [] ∧ last = .within next) := by
  rw [tableLines_eq]
  exact reads_rows after printable _ _

/-! ### Doc strings -/

namespace DocString

/-- The marks of a doc string that is written with an indentation. -/
def marks (indent : Nat) (doc : DocString) : List Mark :=
  .openDoc doc.fence doc.mediaType indent ::
    (doc.contentLines.map (fun line => .docLine (writtenLine indent doc.fence line)) ++ [.closeDoc])

/-- A doc string is written as an opening fence with the media type, its lines, and a closing fence. -/
theorem toLines_eq (indent : Nat) (doc : DocString) :
    doc.toLines (Text.spaces indent) =
      (Text.spaces indent ++ (doc.fence.text ++ doc.mediaType.getD [])) ::
        (doc.contentLines.map (writtenLine indent doc.fence) ++ [Text.spaces indent ++ doc.fence.text]) := by
  simp [toLines, contentLines, writtenLine, Fence.escape]

end DocString

/-- A line that starts with a fence is one, whatever comes behind. -/
theorem Fence.ofLine?_text (fence : Fence) (rest : Text) : Fence.ofLine? (fence.text ++ rest) = some fence := by
  cases fence <;> simp [ofLine?, text]

/-- A fence with what stands behind it. -/
theorem Fence.trimmed_append (fence : Fence) {behind : Text} (trimmed : Text.Trimmed isBlank behind) :
    Text.Trimmed isBlank (fence.text ++ behind) := by
  have start : ∀ c ∈ fence.text.head?, isBlank c = false := by
    intro c ends
    cases fence <;> cases ends <;> decide
  have last : ∀ c ∈ fence.text.getLast?, isBlank c = false := by
    intro c ends
    cases fence <;> cases ends <;> decide
  have nonempty : fence.text ≠ [] := by cases fence <;> decide
  cases behind with
  | nil =>
    rw [List.append_nil]
    exact ⟨start, last⟩
  | cons c rest => exact Text.trimmed_append nonempty (List.cons_ne_nil c rest) start trimmed.2

theorem length_takeWhile_spaces (indent : Nat) {t : Text} (start : ∀ c ∈ t.head?, isBlank c = false) :
    ((Text.spaces indent ++ t).takeWhile isBlank).length = indent := by
  rw [List.takeWhile_append_of_pos fun c member => Text.isBlank_of_mem_spaces member]
  have nothing : t.takeWhile isBlank = [] := by
    cases t with
    | nil => rfl
    | cons c rest => exact List.takeWhile_cons_of_neg (by simp [start c rfl])
  rw [nothing, List.append_nil, Text.spaces, List.length_replicate]

/-- An opening line is read with its media type and its indentation. -/
theorem markOpenDoc_eq (fence : Fence) {mediaType : Option Text}
    (known : ∀ type ∈ mediaType, type ≠ [] ∧ Text.Trimmed isBlank type ∧ '\n' ∉ type) (indent : Nat) :
    markOpenDoc fence (Text.spaces indent ++ (fence.text ++ mediaType.getD [])) =
      .openDoc fence mediaType indent := by
  have trimmed : Text.Trimmed isBlank (mediaType.getD []) := by
    cases mediaType with
    | none => exact .nil
    | some type => exact (known type rfl).2.1
  have opening := fence.trimmed_append trimmed
  have behind : (fence.text ++ mediaType.getD []).drop 3 = mediaType.getD [] := by cases fence <;> rfl
  rw [markOpenDoc, Text.trim_spaces_append indent opening, behind, Text.trim, Text.trimBy_of_trimmed trimmed,
    length_takeWhile_spaces indent opening.1]
  cases mediaType with
  | none => rfl
  | some type =>
    have nonempty : type.isEmpty = false := by simpa using (known type rfl).1
    simp [nonempty]

/-- The lines of a doc string are read as such. -/
theorem reads_docLines (inScenario nested : Bool) (fence : Fence) (indent : Nat) (lines : List Text) :
    Reads d (.within (.doc inScenario nested fence)) (lines.map (DocString.writtenLine indent fence))
      (lines.map fun line => .docLine (DocString.writtenLine indent fence line))
      (.within (.doc inScenario nested fence)) := by
  induction lines with
  | nil => exact .nil _
  | cons line rest ih => exact .cons (fun _ => if_neg (DocString.trim_writtenLine indent fence line)) ih

/-- A doc string is read behind its step. -/
theorem DocString.Writable.reads {doc : DocString} (writable : doc.Writable) (inScenario nested : Bool)
    (indent : Nat) :
    Reads d (.within (.argument inScenario nested)) (doc.toLines (Text.spaces indent)) (doc.marks indent)
      (.within (.steps inScenario nested)) := by
  have opening (ahead : List Text) :
      Position.mark d (Text.spaces indent ++ (doc.fence.text ++ doc.mediaType.getD [])) ahead
          (.within (.argument inScenario nested)) =
        (.openDoc doc.fence doc.mediaType indent, .within (.doc inScenario nested doc.fence)) := by
    have trimmed : Text.Trimmed isBlank (doc.fence.text ++ doc.mediaType.getD []) := by
      apply doc.fence.trimmed_append
      cases media : doc.mediaType with
      | none => exact .nil
      | some type => exact (writable.mediaType type media).2.1
    have fence := doc.fence.ofLine?_text (doc.mediaType.getD [])
    have head : ∃ c, (doc.fence.text ++ doc.mediaType.getD []).head? = some c ∧ c ≠ '#' ∧ c ≠ '|' := by
      cases doc.fence with
      | quotes => exact ⟨'"', rfl, by decide⟩
      | backticks => exact ⟨'\x60', rfl, by decide⟩
    obtain ⟨c, head, noComment, noBar⟩ := head
    have nonempty : doc.fence.text ++ doc.mediaType.getD [] ≠ [] := by
      intro empty
      rw [empty] at head
      cases head
    rw [Position.mark_eq (Text.trim_spaces_append indent trimmed) ahead rfl nonempty]
    · simp only [Position.within, Place.mark, head, fence, markOpenDoc_eq _ writable.mediaType]
      rw [if_neg fun same => noBar (Option.some.inj same)]
    · rw [head]
      exact fun same => noComment (Option.some.inj same)
    · simp [Dialect.startsElement, fence]
  have closing (ahead : List Text) :
      Position.mark d (Text.spaces indent ++ doc.fence.text) ahead
          (.within (.doc inScenario nested doc.fence)) =
        (.closeDoc, .within (.steps inScenario nested)) := by
    have trimmed := doc.fence.trimmed_append (.nil : Text.Trimmed isBlank [])
    rw [List.append_nil] at trimmed
    exact if_pos (Text.trim_spaces_append indent trimmed)
  rw [DocString.toLines_eq, DocString.marks]
  exact .cons opening ((reads_docLines inScenario nested doc.fence indent doc.contentLines).append
    (.cons closing (.nil _)))

/-! ### Steps -/

namespace Step

def tableMarks (s : Step) : List Mark :=
  match s.table with
  | some table => table.rows.map fun row => .row row.cells
  | none => []

def docMarks (indent : Nat) (s : Step) : List Mark :=
  match s.doc with
  | some doc => doc.marks indent
  | none => []

/-- The marks of a step whose argument is written with an indentation. -/
def marks (indent : Nat) (s : Step) : List Mark :=
  .step s.keyword s.type s.text :: (s.tableMarks ++ s.docMarks indent)

end Step

/-- A line of a step where one can stand. -/
theorem Step.Printable.mark {s : Step} (printable : s.Printable d) (regular : d.Regular) {p : Position}
    (stepping : p.place.Stepping inScenario nested) (level : Int) (ahead : List Text) :
    p.mark d (stepLine level s) ahead =
      (.step s.keyword s.type s.text, .within (.argument inScenario nested)) := by
  obtain ⟨nonempty, _, start⟩ := printable.opens.start regular
  have solid : ∀ c ∈ s.keyword.head?, isBlank c = false := fun c head => (start c head).1
  have trimmed := trimmed_stepText nonempty solid printable.nonempty printable.inline
  have found : d.step? (stepText s.keyword s.text) = some (s.keyword, s.type, s.text) := by
    rw [stepText, regular.step?_eq printable.opens, Text.trim, Text.trimBy_of_trimmed printable.inline.1]
  have head (c : Char) (reserved : c ∈ ['@', '|', '#', '"', '\x60']) :
      (stepText s.keyword s.text).head? ≠ some c := by
    intro same
    cases keyword : s.keyword with
    | nil => exact nonempty keyword
    | cons e rest =>
      rw [keyword] at same start
      exact (start e rfl).2 (Option.some.inj same ▸ reserved)
  have fence : Fence.ofLine? (stepText s.keyword s.text) = none := by
    apply Fence.ofLine?_eq_none
    intro c same
    exact ⟨fun quote => head c (by simp [quote]) same, fun tick => head c (by simp [tick]) same⟩
  rw [stepLine_eq level nonempty solid printable.nonempty printable.inline, indentation,
    Position.mark_eq (Text.trim_spaces_append _ trimmed) ahead stepping.between.isDoc]
  · obtain ⟨place, describing⟩ := p
    have bar := head '|' (by decide)
    cases stepping <;> simp [Place.mark, markStep, found, bar, fence]
  · simp [stepText]
  · exact head '#' (by decide)
  · simp [Dialect.startsElement, found]

/-- A step is read with its argument, and another one can follow. -/
theorem Step.Printable.reads {s : Step} (printable : s.Printable d) (regular : d.Regular) {p : Position}
    (stepping : p.place.Stepping inScenario nested) (level : Int) :
    ∃ next, next.place.Stepping inScenario nested ∧
      Reads d p (s.lines level) (s.marks (2 * (level + 1).toNat)) next := by
  have here := printable.mark regular stepping level
  rw [Step.lines, Step.marks, Step.tableLines, Step.docLines, Step.tableMarks, Step.docMarks]
  cases tabled : s.table with
  | none =>
    cases documented : s.doc with
    | none => exact ⟨_, .argument, .cons here (.nil _)⟩
    | some doc =>
      exact ⟨_, .steps, .cons here ((printable.doc doc documented).writable.reads inScenario nested _)⟩
  | some table =>
    have undocumented : s.doc = none := printable.single.resolve_left (by rw [tabled]; rintro ⟨⟩)
    obtain ⟨nonempty, cells⟩ := printable.table table tabled
    obtain ⟨last, reads, ends⟩ := reads_table (d := d) (p := .within (.argument inScenario nested)) rfl
      (List.forall_mem_map.mpr cells) (level + 1)
    rw [List.map_map] at reads
    obtain ⟨empty, _⟩ | ⟨_, rfl⟩ := ends
    · exact absurd (List.map_eq_nil_iff.mp empty) nonempty
    · refine ⟨.within (.rows inScenario nested), .rows, .cons here ?_⟩
      rw [undocumented, List.append_nil, List.append_nil]
      exact reads

/-- Steps are read one after another. -/
theorem reads_steps {steps : List Step} (printable : ∀ s ∈ steps, s.Printable d) (regular : d.Regular)
    {p : Position} (stepping : p.place.Stepping inScenario nested) (level : Int) :
    ∃ next, next.place.Stepping inScenario nested ∧
      Reads d p (steps.flatMap (Step.lines level)) (steps.flatMap (Step.marks (2 * (level + 1).toNat))) next := by
  induction steps generalizing p with
  | nil => exact ⟨p, stepping, .nil p⟩
  | cons s rest ih =>
    rw [List.forall_mem_cons] at printable
    obtain ⟨middle, going, first⟩ := printable.1.reads regular stepping level
    obtain ⟨next, ends, others⟩ := ih printable.2 going
    exact ⟨next, ends, first.append others⟩

/-! ### Blocks -/

namespace Block

def tagMarks (b : Block) : List Mark := if b.tags.isEmpty then [] else [.tags b.tags]

/-- The marks below a heading, with arguments of steps written with an indentation. -/
def bodyMarks (indent : Nat) (b : Block) : List Mark :=
  (descriptionLines b.description).map .description ++ b.steps.flatMap (Step.marks indent) ++ b.rows.map .row

/-- The marks of a block. -/
def marks (indent : Nat) (b : Block) : List Mark :=
  b.tagMarks ++ .heading b.kind b.keyword b.name :: b.bodyMarks indent

end Block

/-- A description is read below its heading. -/
theorem reads_description {lines : List Text} (described : ∀ line ∈ lines, DescriptionLine d line)
    (outside : place.isDoc = false) (level : Int) :
    Reads d (.after place) (lines.map fun line => Text.trimRight (indentation level ++ line))
      (lines.map .description) (.after place) := by
  induction lines with
  | nil => exact .nil _
  | cons line rest ih =>
    rw [List.forall_mem_cons] at described
    have same : Text.trim (Text.trimRight (indentation level ++ line)) = line := by
      rw [indentation, Text.trimRight_spaces_append _ described.1.inline.1]
      split
      · rename_i empty
        rw [List.isEmpty_iff.mp empty]
        rfl
      · exact Text.trim_spaces_append _ described.1.inline.1
    exact .cons (Position.mark_description outside same described.1) (ih described.2)

/-- What stands below a heading is read, up to a place that other blocks can follow. -/
theorem Block.Printable.reads_body {b : Block} (printable : b.Printable d) (regular : d.Regular) (nested : Bool)
    (level : Int) :
    ∃ next, (∀ {ends inRule}, (b.kind.place nested).Between ends inRule → next.place.Between ends inRule) ∧
      Reads d (.after (b.kind.place nested))
        ((descriptionLines b.description).map (fun line => Text.trimRight (indentation (level + 1) ++ line)) ++
          b.steps.flatMap (Step.lines (level + 1)) ++ tableLines (indentation (level + 1)) b.rows)
        (b.bodyMarks (2 * (level + 1 + 1).toNat)) next := by
  have outside : (b.kind.place nested).isDoc = false := by cases b.kind <;> rfl
  have described := reads_description printable.description outside (level + 1)
  rw [bodyMarks]
  by_cases examples : b.kind = .examples
  · have after : (Position.after (b.kind.place nested)).place.afterRow? = some (.exampleRows nested) := by
      rw [examples]
      rfl
    obtain ⟨last, reads, ends⟩ := reads_table after printable.rows (level + 1)
    have stepless : b.steps = [] := printable.stepless (by rw [examples]; rfl)
    rw [stepless, List.flatMap_nil, List.flatMap_nil, List.append_nil, List.append_nil]
    refine ⟨last, fun between => ?_, described.append reads⟩
    obtain ⟨_, rfl⟩ | ⟨_, rfl⟩ := ends
    · exact between
    · rw [examples] at between
      cases between
      exact .exampleRows nested
  · rw [printable.rowless examples, List.map_nil, tableLines_nil, List.append_nil, List.append_nil]
    cases has : b.kind.hasSteps with
    | false =>
      rw [printable.stepless has, List.flatMap_nil, List.flatMap_nil, List.append_nil, List.append_nil]
      exact ⟨_, id, described⟩
    | true =>
      have stands : ∃ inScenario, b.kind.place nested = .steps inScenario nested := by
        cases kind : b.kind with
        | background | scenario => exact ⟨_, rfl⟩
        | _ => rw [kind] at has; cases has
      obtain ⟨inScenario, stands⟩ := stands
      have stepping : (Position.after (b.kind.place nested)).place.Stepping inScenario nested := by
        rw [stands]
        exact .steps
      obtain ⟨next, going, reads⟩ := reads_steps printable.steps regular stepping (level + 1)
      refine ⟨next, fun between => ?_, described.append reads⟩
      rw [stands] at between
      cases between
      exact going.between

/-! ### Tags -/

/-- What a heading is read as. -/
theorem trim_headingLine (level : Int) {keyword name : Text} (known : Keyword keyword) (inline : Inline name) :
    Text.trim (headingLine level keyword name) = headingText keyword name := by
  rw [headingLine_eq level known inline]
  exact Text.trim_spaces_append _ (trimmed_headingText known inline)

/-- Looking ahead from tags finds the heading below them. -/
theorem examplesAhead_heading (level : Int) {keyword name : Text} (known : Keyword keyword)
    (inline : Inline name) (rest : List Text) :
    examplesAhead d (headingLine level keyword name :: rest) =
      (heading? d.examples (headingText keyword name)).isSome := by
  rw [examplesAhead, trim_headingLine level known inline]
  have noComment : (headingText keyword name).head? ≠ some '#' := known.head_ne (by decide) _
  have noTag : (headingText keyword name).head? ≠ some '@' := known.head_ne (by decide) _
  cases text : headingText keyword name with
  | nil => simp [headingText] at text
  | cons c others =>
    rw [text] at noComment noTag
    have plain : ¬ (decide (c = '#') || decide (c = '@')) = true := by
      simp only [Bool.or_eq_true, decide_eq_true_eq]
      rintro (rfl | rfl)
      · exact noComment rfl
      · exact noTag rfl
    simp only [if_neg plain]

/-- The place after tags: those of examples stay in their scenario. -/
def Heading.tagPlace (nested : Bool) (kind : Heading) : Place :=
  if kind = .examples then .blocks nested else .children nested

/-- Between blocks, a line of tags is read as tags of the heading that comes next. -/
theorem Place.Between.mark_tags (between : place.Between inScenario nested) (regular : d.Regular) {kind : Heading}
    {t : Text} (head : t.head? = some '@') (inside : kind = .examples → inScenario = true)
    {ahead : List Text} (looking : examplesAhead d ahead = decide (kind = .examples)) (raw : Text) :
    place.mark d t raw ahead = (.tags (tagTokens t), .within (kind.tagPlace nested)) := by
  have bar : t.head? ≠ some '|' := by rw [head]; rintro ⟨⟩
  have fence : Fence.ofLine? t = none := by
    apply Fence.ofLine?_eq_none
    rw [head]
    rintro c ⟨⟩
    decide
  rw [between.mark bar fence (regular.step?_reserved head (by decide))]
  have missing : heading? d.examples t = none := regular.heading?_reserved head (by decide) .examples
  have child : markChild d nested t = (.tags (tagTokens t), .within (.children nested)) := by
    rw [markChild, if_pos head]
  by_cases examples : kind = .examples
  · simp [inside examples, markBlock, missing, head, looking, Heading.tagPlace, examples]
  · cases inScenario with
    | true => simp [markBlock, missing, head, looking, Heading.tagPlace, examples, child]
    | false => simp [child, Heading.tagPlace, examples]

/-! ### Blocks at their places -/

section Placed

variable {b : Block} (printable : b.Printable d) (regular : d.Regular)

include printable regular

theorem Block.Printable.known : Keyword b.keyword :=
  regular.heading b.keyword (d.keywords_subset b.kind b.keyword printable.keyword)

/-- The first line of a block is read as its heading. -/
theorem Block.Printable.mark_heading {p : Position} (between : p.place.Between inScenario nested)
    (fits : b.kind.Fits nested) (below : b.kind ≠ .feature) (inside : b.kind = .examples → inScenario = true)
    (level : Int) (ahead : List Text) :
    p.mark d (headingLine level b.keyword b.name) ahead =
      (.heading b.kind b.keyword b.name, .after (b.kind.place nested)) := by
  have known := printable.known regular
  rw [Position.mark_eq (trim_headingLine level known printable.name) ahead between.isDoc
    (by simp [headingText]) (known.head_ne (by decide) _)
    (regular.startsElement_heading printable.keyword _), headingText,
    between.mark_heading regular printable.keyword _ fits below inside, trim_headingRest printable.name]

omit regular in
/-- A line of tags is read, whatever tags can stand above. -/
theorem Block.Printable.mark_tags (nonempty : b.tags ≠ []) {p : Position} {next : Place}
    (outside : p.place.isDoc = false) (ahead : List Text) (level : Int)
    (read : ∀ t raw, t.head? = some '@' →
      p.place.mark d t raw ahead = (.tags (tagTokens t), .within next)) :
    p.mark d (indentation level ++ Text.joinWith [' '] b.tags) ahead = (.tags b.tags, .within next) := by
  have head := head_joinWith_tags printable.tags nonempty
  rw [indentation, Position.mark_eq (Text.trim_spaces_append _ (trimmed_tags printable.tags)) ahead outside,
    read _ _ head, tagTokens_joinWith printable.tags]
  · intro empty
    rw [empty] at head
    cases head
  · rw [head]
    rintro ⟨⟩
  · simp [Dialect.startsElement, head]

/-- The heading of a block is read with the tags above it. -/
theorem Block.Printable.reads_head {p : Position} (between : p.place.Between inScenario nested)
    (fits : b.kind.Fits nested) (below : b.kind ≠ .feature) (inside : b.kind = .examples → inScenario = true)
    (level : Int) :
    Reads d p (tagLines level b.tags ++ [headingLine level b.keyword b.name])
      (b.tagMarks ++ [.heading b.kind b.keyword b.name]) (.after (b.kind.place nested)) := by
  rw [tagLines, tagMarks]
  by_cases tagless : b.tags = []
  · rw [tagless]
    exact .cons (printable.mark_heading regular between fits below inside level) (.nil _)
  · have shown : b.tags.isEmpty = false := by simpa using tagless
    rw [shown, if_neg Bool.false_ne_true, if_neg Bool.false_ne_true]
    intro rest
    have known := printable.known regular
    have looking : examplesAhead d (headingLine level b.keyword b.name :: rest) =
        decide (b.kind = .examples) := by
      rw [examplesAhead_heading level known printable.name, headingText]
      by_cases examples : b.kind = .examples
      · have member := printable.keyword
        rw [examples] at member
        have found : heading? d.examples (b.keyword ++ ':' :: headingRest b.name) = some _ :=
          regular.heading?_eq .examples member _
        simp [found, examples]
      · have apart : b.kind.bare ≠ Heading.examples.bare := by
          cases kind : b.kind with
          | examples => exact absurd kind examples
          | _ => rintro ⟨⟩
        have missing : heading? d.examples (b.keyword ++ ':' :: headingRest b.name) = none :=
          regular.heading?_other b.kind .examples apart printable.keyword _
        simp [missing, examples]
    have tagged := printable.mark_tags tagless between.isDoc _ level fun t raw head =>
      between.mark_tags regular head inside looking raw
    have next : ∃ still, (b.kind.tagPlace nested).Between still nested ∧ (b.kind = .examples → still = true) := by
      rw [Heading.tagPlace]
      split
      · exact ⟨true, .blocks nested, fun _ => rfl⟩
      · rename_i other
        exact ⟨false, .children nested, fun same => absurd same other⟩
    obtain ⟨still, stays, inside⟩ := next
    have heading := printable.mark_heading regular (p := .within (b.kind.tagPlace nested)) stays fits below
      inside level rest
    simp only [List.cons_append, List.nil_append, marksFrom, tagged, heading]

/-- A block is read, up to a place that other blocks can follow. -/
theorem Block.Printable.reads {p : Position} (between : p.place.Between inScenario nested)
    (fits : b.kind.Fits nested) (below : b.kind ≠ .feature) (inside : b.kind = .examples → inScenario = true)
    (level : Int) :
    ∃ next, (∀ {ends inRule}, (b.kind.place nested).Between ends inRule → next.place.Between ends inRule) ∧
      Reads d p (b.lines level) (b.marks (2 * (level + 1 + 1).toNat)) next := by
  obtain ⟨next, stays, reads⟩ := printable.reads_body regular nested level
  refine ⟨next, stays, ?_⟩
  have whole := (printable.reads_head regular between fits below inside level).append reads
  simpa only [Block.lines, marks, List.append_assoc, List.cons_append, List.nil_append] using whole

end Placed

/-! ### Layouts -/

/-- The marks of blocks one after another, each after an empty line, up to the empty line at the end. -/
inductive Laid : Layout → List Mark → Prop
  | nil {gap : Mark} (empty : gap.IsGap) : Laid [] [gap]
  | cons {gap : Mark} {level : Int} {b : Block} {rest : Layout} {marks : List Mark} (empty : gap.IsGap)
      (indent : Nat) (later : Laid rest marks) : Laid ((level, b) :: rest) (gap :: (b.marks indent ++ marks))

/-- An empty line between blocks. -/
theorem Place.Between.mark_empty {p : Position} (between : p.place.Between inScenario nested) :
    ∃ gap next, gap.IsGap ∧ next.place.Between inScenario nested ∧
      ∀ ahead, p.mark d [] ahead = (gap, next) := by
  obtain ⟨place, describing⟩ := p
  have outside (ahead : List Text) : Position.mark d [] ahead ⟨place, describing⟩ =
      if describing then (.description [], ⟨place, describing⟩) else (.blank, .within place.afterBlank) := by
    cases between <;> rfl
  cases describing with
  | true => exact ⟨_, _, .inr rfl, between, outside⟩
  | false => exact ⟨_, _, .inl rfl, between.afterBlank, outside⟩

/-- A block in front of others is read after an empty line, if the others are read where it ends. -/
theorem Block.Printable.laid {b : Block} (printable : b.Printable d) (regular : d.Regular) {p : Position}
    (between : p.place.Between inScenario nested) (fits : b.kind.Fits nested) (below : b.kind ≠ .feature)
    (inside : b.kind = .examples → inScenario = true) (level : Int) {ends inRule : Bool}
    (after : (b.kind.place nested).Between ends inRule) {rest : Layout}
    (later : ∀ next : Position, next.place.Between ends inRule → Laid rest (marksFrom d next (rest.lines ++ [[]]))) :
    Laid ((level, b) :: rest) (marksFrom d p (Layout.lines ((level, b) :: rest) ++ [[]])) := by
  obtain ⟨gap, middle, empty, stays, here⟩ := between.mark_empty (d := d)
  obtain ⟨next, goes, reads⟩ := printable.reads regular stays fits below inside level
  have lines : Layout.lines ((level, b) :: rest) ++ [[]] = [] :: (b.lines level ++ (rest.lines ++ [[]])) := by
    simp [Layout.lines]
  rw [lines, marksFrom, here, reads]
  exact .cons empty _ (later next (goes after))

/-- Blocks that can follow at a place are read there one after another. -/
theorem Layout.reads (regular : d.Regular) {layout : Layout} (printable : layout.Printable d)
    (follows : layout.Follows inScenario nested) {p : Position}
    (between : p.place.Between inScenario nested) : Laid layout (marksFrom d p (layout.lines ++ [[]])) := by
  induction follows generalizing p with
  | nil =>
    obtain ⟨gap, next, empty, _, here⟩ := between.mark_empty (d := d)
    rw [Layout.lines, List.flatMap_nil, List.nil_append, marksFrom, here]
    exact .nil empty
  | @rule _ _ level b rest kind _ ih =>
    obtain ⟨first, others⟩ := List.forall_mem_cons.mp printable
    apply first.laid regular between _ _ _ level _ fun next stays => ih others stays
    all_goals rw [kind]
    · trivial
    · rintro ⟨⟩
    · rintro ⟨⟩
    · exact .children true
  | @background _ nested level b rest kind _ ih =>
    obtain ⟨first, others⟩ := List.forall_mem_cons.mp printable
    apply first.laid regular between _ _ _ level _ fun next stays => ih others stays
    all_goals rw [kind]
    · rfl
    · rintro ⟨⟩
    · rintro ⟨⟩
    · exact .steps false nested
  | @scenario _ nested outline level b rest kind _ ih =>
    obtain ⟨first, others⟩ := List.forall_mem_cons.mp printable
    apply first.laid regular between _ _ _ level _ fun next stays => ih others stays
    all_goals rw [kind]
    · rfl
    · rintro ⟨⟩
    · rintro ⟨⟩
    · exact .steps true nested
  | @examples nested level b rest kind _ ih =>
    obtain ⟨first, others⟩ := List.forall_mem_cons.mp printable
    apply first.laid regular between _ _ _ level _ fun next stays => ih others stays
    all_goals rw [kind]
    · trivial
    · rintro ⟨⟩
    · exact fun _ => rfl
    · exact .examples nested

/-! ### Features -/

/-- The mark of the line that names a language. -/
def languageMarks (language : Text) : List Mark := (languageLines language).map .comment

/-- The line that names a language that is built in. -/
theorem languageLine_of_mem : ∀ entry ∈ Languages.builtIn,
    Text.trim (("# language: " : Text) ++ entry.1) = ("# language: " : Text) ++ entry.1 ∧
      languageDirective? (("# language: " : Text) ++ entry.1) = some entry.1 := by
  decide

/-- The line that names a language is read as a comment in front of the feature. -/
theorem reads_language {language : Text} {dialect : Dialect} (member : (language, dialect) ∈ Languages.builtIn) :
    Reads d .start (languageLines language) (languageMarks language) .start := by
  obtain ⟨trimmed, _⟩ := languageLine_of_mem _ member
  rw [languageMarks, languageLines]
  split
  · exact .nil _
  · refine .cons (fun ahead => ?_) (.nil _)
    have text : Text.trim (("# language: " : Text) ++ language) = '#' :: ((" language: " : Text) ++ language) :=
      trimmed
    unfold Position.mark Position.start
    simp only [text, if_true]
    rfl

/-- The heading of a feature is read with all that belongs to it. -/
theorem Feature.reads (regular : d.Regular) {f : Feature} (printable : f.block.Printable d)
    {dialect : Dialect} (member : (f.language, dialect) ∈ Languages.builtIn) :
    ∃ next, next.place.Between false false ∧
      Reads d .start (languageLines f.language ++ f.block.lines 0)
        (languageMarks f.language ++ f.block.marks 4) next := by
  have known := printable.known regular
  have heading (ahead : List Text) : Position.mark d (headingLine 0 f.block.keyword f.block.name) ahead .start =
      (.heading .feature f.block.keyword f.block.name, .after (.children false)) := by
    have noTag : (headingText f.block.keyword f.block.name).head? ≠ some '@' := known.head_ne (by decide) _
    have found : heading? d.feature (headingText f.block.keyword f.block.name) =
        some (f.block.keyword, Text.trim (headingRest f.block.name)) :=
      regular.heading?_eq .feature printable.keyword _
    rw [Position.mark_eq (trim_headingLine 0 known printable.name) ahead rfl (by simp [headingText])
      (known.head_ne (by decide) _) (regular.startsElement_heading printable.keyword _)]
    simp only [Position.start, Place.mark, if_neg noTag, found, trim_headingRest printable.name]
  have tags : Reads d .start (tagLines 0 f.block.tags) f.block.tagMarks .start := by
    rw [tagLines, Block.tagMarks]
    split
    · exact .nil _
    · rename_i tagged
      have nonempty : f.block.tags ≠ [] := by simpa using tagged
      exact .cons (fun ahead => printable.mark_tags nonempty rfl ahead 0 fun t raw head => if_pos head) (.nil _)
  obtain ⟨next, stays, body⟩ := printable.reads_body regular false 0
  refine ⟨next, stays (.children false), ?_⟩
  have whole := (reads_language member).append (tags.append (.cons heading body))
  simp only [Block.lines, Block.marks, List.append_assoc] at whole ⊢
  exact whole

end Gherkin
