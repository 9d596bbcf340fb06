import Gherkin.Document.Parser

/-! # Sections

How marks are cut into sections: every mark stands in front of the first heading, is a heading, or stands
below one (`Gherkin.mem_cutAtHeadings`), and each section has the tags that stand right above its heading.
-/

namespace Gherkin

/-- Whether a mark is a heading. -/
def Mark.isHeading : Mark → Bool
  | .heading _ _ _ => true
  | _ => false

/-- The kind of a heading. -/
def Mark.headingKind? : Mark → Option Heading
  | .heading kind _ _ => some kind
  | _ => none

/-! ### Numbers -/

theorem numberFrom_append (n : Nat) (first second : List Mark) :
    numberFrom n (first ++ second) = numberFrom n first ++ numberFrom (n + first.length) second := by
  induction first generalizing n with
  | nil => rfl
  | cons mark rest ih =>
    rw [List.cons_append, numberFrom, ih, numberFrom, List.cons_append, List.length_cons, Nat.add_assoc,
      Nat.add_comm 1]

theorem map_snd_numberFrom (n : Nat) (marks : List Mark) : (numberFrom n marks).map Prod.snd = marks := by
  induction marks generalizing n with
  | nil => rfl
  | cons mark rest ih => rw [numberFrom, List.map_cons, ih]

/-! ### Cutting -/

theorem cutAtHeadings_heading (line : Nat) (kind : Heading) (keyword name : Text) (rest : List NumberedMark) :
    cutAtHeadings ((line, .heading kind keyword name) :: rest) =
      ([], (⟨kind, keyword, name, line⟩, (cutAtHeadings rest).1) :: (cutAtHeadings rest).2) := rfl

theorem cutAtHeadings_plain {mark : Mark} (plain : mark.isHeading = false) (line : Nat)
    (rest : List NumberedMark) :
    cutAtHeadings ((line, mark) :: rest) =
      ((line, mark) :: (cutAtHeadings rest).1, (cutAtHeadings rest).2) := by
  cases mark with
  | heading kind keyword name => cases plain
  | _ => rfl

theorem cutAtHeadings_append {front : List NumberedMark} (plain : ∀ m ∈ front, m.2.isHeading = false)
    (rest : List NumberedMark) :
    cutAtHeadings (front ++ rest) = (front ++ (cutAtHeadings rest).1, (cutAtHeadings rest).2) := by
  induction front with
  | nil => rfl
  | cons m others ih =>
    rw [List.forall_mem_cons] at plain
    rw [List.cons_append, cutAtHeadings_plain plain.1, ih plain.2]
    rfl

/-- Every mark but a heading stands in front of the first heading or below one. -/
theorem mem_cutAtHeadings {marks : List NumberedMark} {m : NumberedMark} (member : m ∈ marks)
    (plain : m.2.isHeading = false) :
    m ∈ (cutAtHeadings marks).1 ∨ ∃ entry ∈ (cutAtHeadings marks).2, m ∈ entry.2 := by
  induction marks with
  | nil => cases member
  | cons first rest ih =>
    obtain ⟨line, mark⟩ := first
    cases heads : mark.isHeading with
    | true =>
      cases mark with
      | heading kind keyword name =>
        obtain rfl | later := List.mem_cons.mp member
        · cases plain
        · obtain inFront | ⟨entry, among, inside⟩ := ih later
          · exact .inr ⟨_, List.mem_cons_self, inFront⟩
          · exact .inr ⟨entry, List.mem_cons_of_mem _ among, inside⟩
      | _ => cases heads
    | false =>
      rw [cutAtHeadings_plain heads]
      obtain rfl | later := List.mem_cons.mp member
      · exact .inl List.mem_cons_self
      · exact (ih later).imp (List.mem_cons_of_mem _) id

/-- The headings are those among the marks, in their order. -/
theorem kinds_cutAtHeadings (marks : List NumberedMark) :
    (cutAtHeadings marks).2.map (fun entry => entry.1.kind) =
      (marks.map Prod.snd).filterMap Mark.headingKind? := by
  induction marks with
  | nil => rfl
  | cons first rest ih =>
    obtain ⟨line, mark⟩ := first
    cases mark with
    | heading kind keyword name => rw [cutAtHeadings_heading, List.map_cons, ih]; rfl
    | _ => rw [cutAtHeadings_plain rfl, ih]; rfl

/-! ### Sections -/

/-- The rows of examples are those of their section. -/
theorem Section.rows_toExamples (s : Section) : s.toExamples.header.toList ++ s.toExamples.body = s.rows := by
  rw [toExamples]
  cases s.rows <;> rfl

/-- Examples without a header have no rows at all. -/
theorem Section.body_toExamples {s : Section} (headless : s.toExamples.header = none) : s.toExamples.body = [] := by
  have rowless : s.rows = [] := List.head?_eq_none_iff.mp headless
  rw [toExamples, rowless]
  rfl

/-- Sections are the headings with what stands below them. -/
theorem sectionsFrom_map (tags : List Tag) (entries : List (HeadingLine × List NumberedMark)) :
    (sectionsFrom tags entries).map (fun s => (s.heading, s.marks)) = entries := by
  induction entries generalizing tags with
  | nil => rfl
  | cons entry rest ih => rw [sectionsFrom, List.map_cons, ih]

/-- A section is a heading with what stands below it. -/
theorem mem_of_mem_sectionsFrom {tags : List Tag} {entries : List (HeadingLine × List NumberedMark)} {s : Section}
    (member : s ∈ sectionsFrom tags entries) : (s.heading, s.marks) ∈ entries := by
  rw [← sectionsFrom_map tags entries]
  exact List.mem_map_of_mem member

theorem isTagName_of_mem_tagsOf {marks : List NumberedMark} {tag : Tag} (member : tag ∈ tagsOf marks) :
    isTagName tag.name = true := by
  obtain ⟨⟨line, mark⟩, _, inside⟩ := List.mem_flatMap.mp member
  cases mark with
  | tags tokens =>
    obtain ⟨token, among, rfl⟩ := List.mem_map.mp inside
    exact (List.mem_filter.mp among).2
  | _ => cases inside

theorem isTagName_of_mem_sectionsFrom {tags : List Tag} {entries : List (HeadingLine × List NumberedMark)}
    (named : ∀ tag ∈ tags, isTagName tag.name = true) {s : Section} (member : s ∈ sectionsFrom tags entries) :
    ∀ tag ∈ s.tags, isTagName tag.name = true := by
  induction entries generalizing tags with
  | nil => cases member
  | cons entry rest ih =>
    obtain rfl | later := List.mem_cons.mp member
    · exact named
    · exact ih (fun _ among => isTagName_of_mem_tagsOf among) later

end Gherkin
