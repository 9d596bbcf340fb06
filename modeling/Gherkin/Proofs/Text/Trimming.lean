import Gherkin.Text.Blank

/-! # Trimming

Trimming by a class of characters leaves a stretch of a text that neither starts nor ends with a character
of the class, and what is put around such a stretch is removed again.
-/

namespace Gherkin.Text

variable {p : Char → Bool}

/-- Whether a text neither starts nor ends with a character of a class. -/
def Trimmed (p : Char → Bool) (t : Text) : Prop :=
  (∀ c ∈ t.head?, p c = false) ∧ ∀ c ∈ t.getLast?, p c = false

theorem Trimmed.nil : Trimmed p [] := ⟨by rintro _ ⟨⟩, by rintro _ ⟨⟩⟩

theorem trimLeftBy_append {before t : Text} (padding : ∀ c ∈ before, p c = true) :
    trimLeftBy p (before ++ t) = trimLeftBy p t :=
  List.dropWhile_append_of_pos padding

theorem trimRightBy_append {t behind : Text} (padding : ∀ c ∈ behind, p c = true) :
    trimRightBy p (t ++ behind) = trimRightBy p t := by
  rw [trimRightBy, List.reverse_append, List.dropWhile_append_of_pos fun c member =>
    padding c (List.mem_reverse.mp member)]
  rfl

theorem trimLeftBy_of_head {t : Text} (plain : ∀ c ∈ t.head?, p c = false) : trimLeftBy p t = t := by
  cases t with
  | nil => rfl
  | cons c rest => exact List.dropWhile_cons_of_neg (by simp [plain c rfl])

theorem trimRightBy_of_last {t : Text} (plain : ∀ c ∈ t.getLast?, p c = false) : trimRightBy p t = t := by
  have left : trimLeftBy p t.reverse = t.reverse :=
    trimLeftBy_of_head (by rwa [List.head?_reverse])
  rw [trimRightBy, ← trimLeftBy, left, List.reverse_reverse]

theorem trimBy_of_trimmed {t : Text} (trimmed : Trimmed p t) : trimBy p t = t := by
  rw [trimBy, trimLeftBy_of_head trimmed.1, trimRightBy_of_last trimmed.2]

/-- What is put around a trimmed text is removed again. -/
theorem trimBy_pad {before t behind : Text} (front : ∀ c ∈ before, p c = true) (trimmed : Trimmed p t)
    (back : ∀ c ∈ behind, p c = true) : trimBy p (before ++ t ++ behind) = t := by
  rw [trimBy, List.append_assoc, trimLeftBy_append front]
  cases t with
  | nil =>
    have nothing : trimLeftBy p behind = [] := by
      have left := trimLeftBy_append (t := []) back
      rwa [List.append_nil] at left
    rw [List.nil_append, nothing]
    rfl
  | cons c rest =>
    have left : trimLeftBy p (c :: rest ++ behind) = c :: rest ++ behind :=
      trimLeftBy_of_head fun d member => trimmed.1 d member
    rw [left, trimRightBy_append back, trimRightBy_of_last trimmed.2]

/-- What is trimmed in front is padding. -/
theorem trimLeftBy_cover (p : Char → Bool) (t : Text) :
    ∃ before, t = before ++ trimLeftBy p t ∧ ∀ c ∈ before, p c = true :=
  ⟨t.takeWhile p, List.takeWhile_append_dropWhile.symm, List.all_eq_true.mp List.all_takeWhile⟩

theorem trimRightBy_cover (p : Char → Bool) (t : Text) :
    ∃ behind, t = trimRightBy p t ++ behind ∧ ∀ c ∈ behind, p c = true := by
  obtain ⟨before, split, padding⟩ := trimLeftBy_cover p t.reverse
  refine ⟨before.reverse, ?_, fun c member => padding c (List.mem_reverse.mp member)⟩
  rw [trimRightBy, ← trimLeftBy, ← List.reverse_append, ← split, List.reverse_reverse]

/-- A text is its trimmed stretch with characters of the class around it. -/
theorem trimBy_cover (p : Char → Bool) (t : Text) :
    ∃ before behind, t = before ++ trimBy p t ++ behind ∧ (∀ c ∈ before, p c = true) ∧
      ∀ c ∈ behind, p c = true := by
  obtain ⟨before, left, front⟩ := trimLeftBy_cover p t
  obtain ⟨behind, right, back⟩ := trimRightBy_cover p (trimLeftBy p t)
  refine ⟨before, behind, ?_, front, back⟩
  rw [trimBy, List.append_assoc, ← right, ← left]

/-- What is left does not start with padding. -/
theorem head_trimLeftBy {t : Text} : ∀ c ∈ (trimLeftBy p t).head?, p c = false := by
  intro c member
  have first := List.head?_dropWhile_not p t
  rw [show (t.dropWhile p).head? = some c from member] at first
  simpa using first

theorem getLast_trimRightBy {t : Text} : ∀ c ∈ (trimRightBy p t).getLast?, p c = false := by
  intro c member
  rw [trimRightBy, List.getLast?_reverse] at member
  exact head_trimLeftBy c member

/-- What is left after trimming is trimmed. -/
theorem trimmed_trimBy (t : Text) : Trimmed p (trimBy p t) := by
  refine ⟨?_, getLast_trimRightBy⟩
  intro c member
  obtain ⟨behind, split, _⟩ := trimRightBy_cover p (trimLeftBy p t)
  apply head_trimLeftBy (t := t)
  rw [split, List.head?_append, show (trimRightBy p (trimLeftBy p t)).head? = some c from member]
  rfl

/-- Padding at the end makes no difference to trimming. -/
theorem trimBy_append {t behind : Text} (padding : ∀ c ∈ behind, p c = true) :
    trimBy p (t ++ behind) = trimBy p t := by
  obtain ⟨before, after, split, front, back⟩ := trimBy_cover p t
  have padded := trimBy_pad front (trimmed_trimBy t) (List.forall_mem_append.mpr ⟨back, padding⟩)
  rwa [← List.append_assoc, ← split] at padded

/-- What of the class is put around any text is removed with the rest. -/
theorem trimBy_surround {before t behind : Text} (front : ∀ c ∈ before, p c = true)
    (back : ∀ c ∈ behind, p c = true) : trimBy p (before ++ t ++ behind) = trimBy p t := by
  rw [trimBy_append back, trimBy, trimLeftBy_append front, ← trimBy]

/-- Texts that start and end with other characters are trimmed together. -/
theorem trimmed_append {first second : Text} (front : first ≠ []) (back : second ≠ [])
    (start : ∀ c ∈ first.head?, p c = false) (last : ∀ c ∈ second.getLast?, p c = false) :
    Trimmed p (first ++ second) := by
  refine ⟨fun c head => ?_, fun c ends => ?_⟩
  · cases first with
    | nil => exact absurd rfl front
    | cons d rest => exact start c head
  · rw [List.getLast?_append, List.getLast?_eq_some_getLast back, Option.some_or,
      ← List.getLast?_eq_some_getLast] at ends
    exact last c ends

theorem mem_of_mem_trimBy {t : Text} {c : Char} (member : c ∈ trimBy p t) : c ∈ t := by
  obtain ⟨before, behind, split, _⟩ := trimBy_cover p t
  rw [split]
  simp [member]

/-! ### Indentation -/

theorem isBlank_of_mem_spaces {n : Nat} {c : Char} (member : c ∈ spaces n) : isBlank c = true := by
  rw [List.eq_of_mem_replicate member]
  decide

/-- Behind spaces a trimmed text can be found again. -/
theorem trim_spaces_append (n : Nat) {t : Text} (trimmed : Trimmed isBlank t) : trim (spaces n ++ t) = t := by
  have padded : trimBy isBlank (spaces n ++ t ++ []) = t :=
    trimBy_pad (fun _ => isBlank_of_mem_spaces) trimmed (List.forall_mem_nil _)
  rwa [List.append_nil] at padded

/-- An indented text keeps its end, and an indentation alone is nothing. -/
theorem trimRight_spaces_append (n : Nat) {t : Text} (trimmed : Trimmed isBlank t) :
    trimRight (spaces n ++ t) = if t.isEmpty then [] else spaces n ++ t := by
  cases t with
  | nil =>
    have nothing := trimRightBy_append (p := isBlank) (t := []) fun _ => isBlank_of_mem_spaces (n := n)
    rw [List.nil_append] at nothing
    rw [List.append_nil, trimRight, nothing]
    rfl
  | cons c rest =>
    apply trimRightBy_of_last
    intro last ends
    rw [List.getLast?_append, List.getLast?_eq_some_getLast (List.cons_ne_nil c rest), Option.some_or,
      ← List.getLast?_eq_some_getLast] at ends
    exact trimmed.2 last ends

/-- White space at the end makes no difference to trimming there. -/
theorem trimRight_append {t behind : Text} (blank : ∀ c ∈ behind, isBlank c = true) :
    trimRight (t ++ behind) = trimRight t := trimRightBy_append blank

end Gherkin.Text
