import Mathlib.Data.List.TakeWhile
import Mathlib.Tactic.Push
import Gherkin.Step.Pattern

/-! # The segments of a pattern

A pattern is cut at its placeholders and nowhere else: its segments written one behind the other are the pattern, and
wherever a name stands in braces in it, the name is a placeholder (`Gherkin.Segment.split_cut`).
-/

namespace Gherkin

namespace Segment

/-- A segment as it stands in a pattern. -/
def written : Segment → Text
  | literal t => t
  | placeholder name => '\x7b' :: (name ++ ['\x7d'])

/-- Whether a text can name a placeholder: it has word characters only, and at least one. -/
def IsName (name : Text) : Prop := name ≠ [] ∧ ∀ c ∈ name, isWord c = true

/-- Whether a pattern is cut into segments at all names in braces and nowhere else. -/
structure Cuts (pattern : Text) (segments : List Segment) : Prop where
  whole : segments.flatMap written = pattern
  named : ∀ name, placeholder name ∈ segments → IsName name
  found : ∀ before name after, IsName name → pattern = before ++ written (placeholder name) ++ after →
    ∃ front back, segments = front ++ placeholder name :: back ∧ front.flatMap written = before ∧
      back.flatMap written = after

theorem flatMap_written_consLiteral (c : Char) (segments : List Segment) :
    (consLiteral c segments).flatMap written = c :: segments.flatMap written := by
  unfold consLiteral
  split <;> rfl

theorem consLiteral_append (c : Char) (front : List Segment) (name : Text) (back : List Segment) :
    consLiteral c (front ++ placeholder name :: back) = consLiteral c front ++ placeholder name :: back := by
  rcases front with - | ⟨t | other, rest⟩ <;> rfl

theorem mem_of_mem_consLiteral {c : Char} {segments : List Segment} {name : Text}
    (member : placeholder name ∈ consLiteral c segments) : placeholder name ∈ segments := by
  unfold consLiteral at member
  split at member
  · rcases List.mem_cons.mp member with ⟨⟨⟩⟩ | member
    exact List.mem_cons_of_mem _ member
  · rcases List.mem_cons.mp member with ⟨⟨⟩⟩ | member
    exact member

/-- A name in front of a closing brace is a placeholder's. -/
theorem placeholder?_eq_some {t name : Text} :
    placeholder? t = some name ↔ IsName name ∧ ∃ rest, t = name ++ '\x7d' :: rest := by
  have closing : isWord '\x7d' = false := by decide
  unfold placeholder?
  dsimp only
  constructor
  · intro found
    split at found
    case isTrue both =>
      cases found
      have cut : t.takeWhile isWord ++ t.dropWhile isWord = t := List.takeWhile_append_dropWhile
      have behind : t.drop (t.takeWhile isWord).length = t.dropWhile isWord := by
        have dropped := congrArg (List.drop (t.takeWhile isWord).length) cut
        rw [List.drop_left] at dropped
        exact dropped.symm
      simp only [behind, Bool.and_eq_true, Bool.not_eq_true', List.isEmpty_eq_false_iff, beq_iff_eq,
        List.head?_eq_some_iff] at both
      obtain ⟨nonempty, rest, closes⟩ := both
      refine ⟨⟨nonempty, fun c member => List.mem_takeWhile_imp member⟩, rest, ?_⟩
      rw [← closes, cut]
    case isFalse => cases found
  · rintro ⟨⟨nonempty, word⟩, rest, rfl⟩
    have taken : (name ++ '\x7d' :: rest).takeWhile isWord = name := by
      rw [List.takeWhile_append_of_pos word, List.takeWhile_cons, closing]
      simp
    rw [taken, List.drop_left]
    simp [nonempty]

theorem splitFrom_skip (front rest : Text) : splitFrom front.length (front ++ rest) = splitFrom 0 rest := by
  induction front with
  | nil => rfl
  | cons c front ih => exact ih

/-- At a name in braces the pattern is cut. -/
theorem split_placeholder {name : Text} (named : IsName name) (rest : Text) :
    split (written (placeholder name) ++ rest) = placeholder name :: split rest := by
  have found : placeholder? (name ++ ['\x7d'] ++ rest) = some name :=
    placeholder?_eq_some.mpr ⟨named, rest, by simp⟩
  have skips := splitFrom_skip (name ++ ['\x7d']) rest
  rw [List.length_append, List.length_singleton] at skips
  simp only [split, written, List.cons_append, splitFrom, if_true, found, skips]

/-- At any other place the pattern goes on. -/
theorem split_cons {c : Char} {rest : Text} (other : ∀ name after, IsName name →
    c :: rest ≠ written (placeholder name) ++ after) : split (c :: rest) = consLiteral c (split rest) := by
  have none_there : (if c = '\x7b' then placeholder? rest else none) = none := by
    split
    · next brace =>
      subst brace
      refine Option.eq_none_iff_forall_ne_some.mpr fun name found => ?_
      obtain ⟨named, after, rfl⟩ := placeholder?_eq_some.mp found
      exact other name after named (by simp [written])
    · rfl
  simp only [split, splitFrom, none_there]

/-- A pattern starts with a name in braces, or with a character that no such name starts at. -/
theorem split_cases (pattern : Text) : pattern = [] ∨
    (∃ name rest, IsName name ∧ pattern = written (placeholder name) ++ rest) ∨
    ∃ c rest, pattern = c :: rest ∧ ∀ name after, IsName name → c :: rest ≠ written (placeholder name) ++ after := by
  rcases pattern with - | ⟨c, rest⟩
  · exact .inl rfl
  · by_cases starts : ∃ name after, IsName name ∧ c :: rest = written (placeholder name) ++ after
    · exact .inr (.inl starts)
    · push Not at starts
      exact .inr (.inr ⟨c, rest, rfl, starts⟩)

/-- Two names in braces at one place are the same. -/
theorem written_inj {name other : Text} (named : IsName name) (otherNamed : IsName other) {rest after : Text}
    (same : written (placeholder name) ++ rest = written (placeholder other) ++ after) :
    name = other ∧ rest = after := by
  have here : placeholder? (name ++ ['\x7d'] ++ rest) = some name :=
    placeholder?_eq_some.mpr ⟨named, rest, by simp⟩
  have there : placeholder? (other ++ ['\x7d'] ++ after) = some other :=
    placeholder?_eq_some.mpr ⟨otherNamed, after, by simp⟩
  have inner : name ++ ['\x7d'] ++ rest = other ++ ['\x7d'] ++ after := (List.cons.inj same).2
  rw [inner, there] at here
  cases here
  exact ⟨rfl, List.append_cancel_left inner⟩

/-- A name in braces that does not start at a place where another one does starts behind it. -/
theorem split_before {name other : Text} (named : IsName name) {before rest after : Text} {c : Char}
    (same : written (placeholder name) ++ rest = c :: before ++ written (placeholder other) ++ after) :
    ∃ front, c :: before = written (placeholder name) ++ front ∧
      rest = front ++ written (placeholder other) ++ after := by
  rw [List.append_assoc] at same
  rcases List.append_eq_append_iff.mp same with ⟨front, at_, there⟩ | ⟨overlap, at_, there⟩
  · exact ⟨front, at_, by rw [there, List.append_assoc]⟩
  · rcases overlap with - | ⟨d, overlap⟩
    · exact ⟨[], by simpa using at_.symm, by simpa using there.symm⟩
    · obtain rfl : '\x7b' = d := (List.cons.inj there).1
      have inside : name ++ ['\x7d'] = before ++ '\x7b' :: overlap := (List.cons.inj at_).2
      have member : '\x7b' ∈ name ++ ['\x7d'] := by simp [inside]
      rcases List.mem_append.mp member with member | member
      · exact absurd (named.2 _ member) (by decide)
      · exact absurd member (by decide)

/-- A pattern is cut at all names in braces and nowhere else. -/
theorem split_cut (pattern : Text) : Cuts pattern (split pattern) := by
  induction h : pattern.length using Nat.strong_induction_on generalizing pattern with
  | _ n ih =>
    subst h
    rcases split_cases pattern with rfl | ⟨name, rest, named, rfl⟩ | ⟨c, rest, rfl, other⟩
    · refine ⟨rfl, by simp [split, splitFrom], fun before name after _ eq => ?_⟩
      simp [written] at eq
    · obtain ⟨whole, allNamed, found⟩ := ih rest.length (by simp [written]; omega) rest rfl
      rw [split_placeholder named]
      refine ⟨by rw [List.flatMap_cons, whole], ?_, ?_⟩
      · intro other member
        rcases List.mem_cons.mp member with ⟨⟨⟩⟩ | member
        · exact named
        · exact allNamed other member
      · intro before other after otherNamed eq
        rcases before with - | ⟨c, before⟩
        · obtain ⟨rfl, rfl⟩ := written_inj named otherNamed eq
          exact ⟨[], split rest, rfl, rfl, whole⟩
        · obtain ⟨front, at_, there⟩ := split_before named eq
          obtain ⟨ahead, behind, cut, ahead_eq, behind_eq⟩ := found front other after otherNamed there
          exact ⟨placeholder name :: ahead, behind, by rw [cut, List.cons_append],
            by rw [List.flatMap_cons, ahead_eq, at_], behind_eq⟩
    · obtain ⟨whole, allNamed, found⟩ := ih rest.length (by simp) rest rfl
      rw [split_cons other]
      refine ⟨by rw [flatMap_written_consLiteral, whole], ?_, ?_⟩
      · exact fun name member => allNamed name (mem_of_mem_consLiteral member)
      · intro before name after named eq
        rcases before with - | ⟨d, before⟩
        · exact absurd eq (other name after named)
        · obtain ⟨rfl, there⟩ := List.cons.inj eq
          obtain ⟨ahead, behind, cut, ahead_eq, behind_eq⟩ := found before name after named there
          exact ⟨consLiteral c ahead, behind, by rw [cut, consLiteral_append],
            by rw [flatMap_written_consLiteral, ahead_eq], behind_eq⟩

end Segment

end Gherkin
