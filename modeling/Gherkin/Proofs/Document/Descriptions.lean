import Gherkin.Proofs.Document.Collecting
import Gherkin.Proofs.Document.Positions

/-! # Lines of descriptions

A heading has in its description each line that goes on with it (`Gherkin.exists_description`).
-/

namespace Gherkin

variable {d : Dialect} {p : Position} {raw : Text}

/-- A heading line starts a section, which holds the marks up to the next heading. -/
theorem mem_sectionsAt (regular : d.Regular) {front rest : List Text} {opening : Text} {kind : Heading}
    {keyword name : Text} (marked : markAt d p front opening rest = .heading kind keyword name) (n : Nat)
    (tags : List Tag) :
    ∃ above, ⟨⟨kind, keyword, name, n + front.length⟩, above,
        frontAt d (positionAfter d p (front ++ [opening]) rest) (n + front.length + 1) rest⟩ ∈
      sectionsAt d p n tags (front ++ opening :: rest) := by
  induction front generalizing p n tags with
  | nil =>
    have marked : p.mark d opening rest = (.heading kind keyword name, (p.mark d opening rest).2) :=
      Prod.ext marked rfl
    rw [List.nil_append, sectionsAt_heading marked]
    exact ⟨tags, List.mem_cons_self⟩
  | cons first others ih =>
    -- The rest is read from the next position on, and its lines are numbered from the next number on.
    have line : n + (first :: others).length = n + 1 + others.length := by
      rw [List.length_cons]
      omega
    have later : positionAfter d p (first :: others ++ [opening]) rest =
        positionAfter d (p.mark d first (others ++ opening :: rest)).2 (others ++ [opening]) rest := by
      rw [List.cons_append, positionAfter, List.append_assoc, List.singleton_append]
    rw [line, later, List.cons_append]
    rcases p.heading_or_plain regular first (others ++ opening :: rest) with ⟨kind, _, _, headed, _⟩ | plain
    · rw [sectionsAt_heading headed]
      obtain ⟨above, member⟩ := ih marked (n + 1)
        (tagsOf (frontAt d (.after (kind.place p.place.inRule)) (n + 1) (others ++ opening :: rest)))
      rw [headed] at member ⊢
      exact ⟨above, List.mem_cons_of_mem _ member⟩
    · rw [sectionsAt_plain plain]
      exact ih marked (n + 1) tags

/-- While a description goes on, its lines are among the marks up to the next heading. -/
theorem mem_frontAt (describing : p.Describing) {inner : List Text} (all : ∀ line ∈ inner, d.Continues line)
    (goesOn : d.Continues raw) (noComment : (Text.trim raw).head? ≠ some '#') (n : Nat) (after : List Text) :
    .description (Text.trim raw) ∈ (frontAt d p n (inner ++ raw :: after)).map Prod.snd := by
  have plain {line : Text} (goesOn : d.Continues line) (ahead : List Text) :
      (p.mark d line ahead).1.isHeading = false := by
    rw [p.mark_continues describing goesOn]
    split <;> rfl
  induction inner generalizing n with
  | nil =>
    rw [List.nil_append, frontAt_plain (plain goesOn after), p.mark_continues describing goesOn, if_neg noComment]
    exact List.mem_cons_self
  | cons line rest ih =>
    rw [List.forall_mem_cons] at all
    have later := ih all.2 (n + 1)
    rw [List.cons_append, frontAt_plain (plain all.1 _), p.mark_continues describing all.1]
    exact List.mem_cons_of_mem _ later

theorem lineFeed_notMem_frontAt (regular : d.Regular) {lines : List Text} (plain : ∀ line ∈ lines, '\n' ∉ line)
    {n : Nat} {t : Text} (member : .description t ∈ (frontAt d p n lines).map Prod.snd) : '\n' ∉ t := by
  obtain ⟨⟨line, _⟩, among, rfl⟩ := List.mem_map.mp member
  have marked : (line, .description t) ∈ numberFrom n (marksFrom d p lines) := by
    rw [← cutAtHeadings_join (numberFrom n (marksFrom d p lines))]
    exact List.mem_append_left _ among
  obtain ⟨before, raw, after, rfl, _, marked⟩ := mem_marks_iff.mp marked
  have marking := markAt_marking regular p before raw after
  rw [marked] at marking
  obtain ⟨_, _, rfl⟩ := marking.describing
  exact fun inside => plain raw (by simp) (Text.mem_of_mem_trimBy inside)

/-- A description has the lines that it was joined from, but for empty ones. -/
theorem Section.mem_description {s : Section} {t : Text} (nonempty : t ≠ [])
    (member : .description t ∈ s.marks.map Prod.snd)
    (plain : ∀ t, .description t ∈ s.marks.map Prod.snd → '\n' ∉ t) :
    t ∈ Text.splitAtChar '\n' s.description := by
  have among : t ∈ (s.marks.map Prod.snd).filterMap Mark.text? := List.mem_filterMap.mpr ⟨_, member, rfl⟩
  have pieces : Text.splitAtChar '\n' (Text.joinWith ['\n'] ((s.marks.map Prod.snd).filterMap Mark.text?)) =
      (s.marks.map Prod.snd).filterMap Mark.text? := by
    apply Text.splitAtChar_joinWith (List.ne_nil_of_mem among)
    intro piece inside
    obtain ⟨mark, below, same⟩ := List.mem_filterMap.mp inside
    cases mark with
    | description =>
      cases same
      exact plain piece below
    | _ => cases same
  rw [← pieces] at among
  obtain ⟨before, behind, whole, front, back⟩ := Text.trimBy_cover (· == '\n')
    (Text.joinWith ['\n'] ((s.marks.map Prod.snd).filterMap Mark.text?))
  rw [whole] at among
  rw [s.description_eq]
  exact Text.mem_splitAtChar_of_pad (by simpa using front) (by simpa using back) nonempty among

/-- A line that goes on with the description of a heading is one of its lines. -/
theorem exists_description (regular : d.Regular) {front inner after : List Text} {opening : Text} {kind : Heading}
    {keyword name : Text}
    (plain : ∀ line ∈ inner ++ raw :: after, '\n' ∉ line)
    (marked : markAt d p front opening (inner ++ raw :: after) = .heading kind keyword name)
    (all : ∀ line ∈ inner, d.Continues line) (goesOn : d.Continues raw) (nonempty : Text.trim raw ≠ [])
    (noComment : (Text.trim raw).head? ≠ some '#') (n : Nat) (tags : List Tag) :
    ∃ s ∈ sectionsAt d p n tags (front ++ opening :: (inner ++ raw :: after)),
      s.heading = ⟨kind, keyword, name, n + front.length⟩ ∧ Text.trim raw ∈ Text.splitAtChar '\n' s.description := by
  obtain ⟨above, member⟩ := mem_sectionsAt regular marked n tags
  have marking := markAt_marking regular p front opening (inner ++ raw :: after)
  rw [marked] at marking
  have describing := marking.opensDescription rfl
  refine ⟨_, member, rfl, Section.mem_description nonempty ?_ fun t => lineFeed_notMem_frontAt regular plain⟩
  exact mem_frontAt describing all goesOn noComment _ after

end Gherkin
