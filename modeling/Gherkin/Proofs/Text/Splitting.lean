import Gherkin.Document.Printer
import Gherkin.Proofs.Text.Trimming

/-! # Splitting

Pieces, lines and words are found again in a text that was put together from them.
-/

namespace Gherkin.Text

/-! ### Pieces -/

theorem splitAtChar_of_not_mem {sep : Char} {t : Text} (absent : sep ∉ t) : splitAtChar sep t = [t] := by
  induction t with
  | nil => rfl
  | cons c rest ih =>
    obtain ⟨differs, absent⟩ := List.ne_and_not_mem_of_not_mem_cons absent
    rw [splitAtChar, if_neg (Ne.symm differs), ih absent]
    rfl

/-- The first piece ends at the first separator. -/
theorem splitAtChar_append {sep : Char} {t : Text} (absent : sep ∉ t) (rest : Text) :
    splitAtChar sep (t ++ sep :: rest) = t :: splitAtChar sep rest := by
  induction t with
  | nil => simp [splitAtChar]
  | cons c others ih =>
    obtain ⟨differs, absent⟩ := List.ne_and_not_mem_of_not_mem_cons absent
    rw [List.cons_append, splitAtChar, if_neg (Ne.symm differs), ih absent]
    rfl

/-- The pieces of joined texts are the texts. -/
theorem splitAtChar_joinWith {sep : Char} {pieces : List Text} (some : pieces ≠ [])
    (absent : ∀ piece ∈ pieces, sep ∉ piece) : splitAtChar sep (joinWith [sep] pieces) = pieces := by
  induction pieces with
  | nil => exact absurd rfl some
  | cons first rest ih =>
    have here := absent first List.mem_cons_self
    cases rest with
    | nil => exact splitAtChar_of_not_mem here
    | cons second others =>
      rw [joinWith, List.append_assoc, List.singleton_append, splitAtChar_append here,
        ih (by simp) fun piece member => absent piece (List.mem_cons_of_mem _ member)]

theorem mem_joinWith {sep : Text} {pieces : List Text} {c : Char}
    (member : c ∈ joinWith sep pieces) : c ∈ sep ∨ ∃ piece ∈ pieces, c ∈ piece := by
  induction pieces with
  | nil => cases member
  | cons first rest ih =>
    cases rest with
    | nil => exact .inr ⟨first, List.mem_cons_self, member⟩
    | cons second others =>
      rw [joinWith] at member
      obtain (here | between) | later := by simpa only [List.mem_append] using member
      · exact .inr ⟨first, List.mem_cons_self, here⟩
      · exact .inl between
      · obtain inSep | ⟨piece, among, inside⟩ := ih later
        · exact .inl inSep
        · exact .inr ⟨piece, List.mem_cons_of_mem _ among, inside⟩

/-- An empty last piece leaves a separator at the end. -/
theorem joinWith_concat_nil (sep : Text) {pieces : List Text} (nonempty : pieces ≠ []) :
    joinWith sep (pieces ++ [[]]) = joinWith sep pieces ++ sep := by
  induction pieces with
  | nil => exact absurd rfl nonempty
  | cons first rest ih =>
    cases rest with
    | nil => simp [joinWith]
    | cons second others =>
      rw [List.cons_append, List.cons_append, joinWith, joinWith, ← List.cons_append, ih (List.cons_ne_nil _ _)]
      simp only [List.append_assoc]

/-- Joined pieces that are not empty end with a character of a piece. -/
theorem mem_of_getLast?_joinWith {sep : Text} {pieces : List Text} (nonempty : ∀ piece ∈ pieces, piece ≠ []) :
    ∀ c ∈ (joinWith sep pieces).getLast?, ∃ piece ∈ pieces, c ∈ piece := by
  induction pieces with
  | nil => rintro _ ⟨⟩
  | cons first rest ih =>
    intro c last
    cases rest with
    | nil => exact ⟨first, List.mem_cons_self, List.mem_of_getLast? last⟩
    | cons second others =>
      rw [List.forall_mem_cons] at nonempty
      have later : joinWith sep (second :: others) ≠ [] := by
        have here := nonempty.2 second List.mem_cons_self
        cases others with
        | nil => exact here
        | cons third more =>
          rw [joinWith, List.append_assoc]
          exact List.append_ne_nil_of_left_ne_nil here _
      rw [joinWith, List.getLast?_append, List.getLast?_eq_some_getLast later, Option.some_or,
        ← List.getLast?_eq_some_getLast later] at last
      obtain ⟨piece, among, inside⟩ := ih nonempty.2 c last
      exact ⟨piece, List.mem_cons_of_mem _ among, inside⟩

/-- Behind a separator at the end there is an empty piece. -/
theorem splitAtChar_concat (sep : Char) (t : Text) :
    splitAtChar sep (t ++ [sep]) = splitAtChar sep t ++ [[]] := by
  induction t with
  | nil => simp [splitAtChar]
  | cons c rest ih =>
    rw [List.cons_append, splitAtChar, splitAtChar]
    by_cases same : c = sep
    · rw [if_pos same, if_pos same, ih, List.cons_append]
    · rw [if_neg same, if_neg same, ih]
      cases pieces : splitAtChar sep rest with
      | nil => exact absurd pieces (splitAtChar_ne_nil sep rest)
      | cons first others => rfl

theorem head_splitAtChar {sep : Char} {t : Text} (nonempty : t ≠ []) (plain : t.head? ≠ some sep) :
    (splitAtChar sep t).head? ≠ some [] := by
  cases t with
  | nil => exact absurd rfl nonempty
  | cons c rest =>
    have differs : c ≠ sep := by rintro rfl; exact plain rfl
    rw [splitAtChar, if_neg differs]
    cases splitAtChar sep rest with
    | nil => rintro ⟨⟩
    | cons first others => rintro ⟨⟩

theorem getLast_splitAtChar {sep : Char} {t : Text} (nonempty : t ≠ []) (plain : t.getLast? ≠ some sep) :
    (splitAtChar sep t).getLast? ≠ some [] := by
  intro last
  obtain ⟨pieces, split⟩ := List.getLast?_eq_some_iff.mp last
  have joined := joinWith_splitAtChar sep t
  rw [split] at joined
  cases pieces with
  | nil => exact nonempty joined.symm
  | cons first rest =>
    rw [joinWith_concat_nil _ (List.cons_ne_nil _ _)] at joined
    rw [← joined, List.getLast?_concat] at plain
    exact plain rfl

/-- Pieces stay pieces when separators are put around the text. -/
theorem mem_splitAtChar_pad {sep : Char} {before t behind : Text} (front : ∀ c ∈ before, c = sep)
    (back : ∀ c ∈ behind, c = sep) {piece : Text} (member : piece ∈ splitAtChar sep t) :
    piece ∈ splitAtChar sep (before ++ t ++ behind) := by
  have behindOnly : piece ∈ splitAtChar sep (t ++ behind) := by
    induction behind generalizing t with
    | nil => rwa [List.append_nil]
    | cons c rest ih =>
      rw [List.forall_mem_cons] at back
      obtain ⟨rfl, back⟩ := back
      rw [← List.singleton_append, ← List.append_assoc]
      apply ih back
      rw [splitAtChar_concat]
      exact List.mem_append_left _ member
  induction before with
  | nil => exact behindOnly
  | cons c rest ih =>
    rw [List.forall_mem_cons] at front
    obtain ⟨rfl, front⟩ := front
    rw [List.cons_append, List.cons_append, splitAtChar, if_pos rfl]
    exact List.mem_cons_of_mem _ (ih front)

/-- Around a text the separator only adds empty pieces. -/
theorem mem_splitAtChar_of_pad {sep : Char} {before t behind : Text} (front : ∀ c ∈ before, c = sep)
    (back : ∀ c ∈ behind, c = sep) {piece : Text} (nonempty : piece ≠ [])
    (member : piece ∈ splitAtChar sep (before ++ t ++ behind)) : piece ∈ splitAtChar sep t := by
  induction before with
  | cons c rest ih =>
    rw [List.forall_mem_cons] at front
    obtain ⟨rfl, front⟩ := front
    rw [List.cons_append, List.cons_append, splitAtChar, if_pos rfl] at member
    exact ih front ((List.mem_cons.mp member).resolve_left nonempty)
  | nil =>
    rw [List.nil_append] at member
    induction behind generalizing t with
    | nil => rwa [List.append_nil] at member
    | cons c rest ih =>
      rw [List.forall_mem_cons] at back
      obtain ⟨rfl, back⟩ := back
      rw [← List.singleton_append, ← List.append_assoc] at member
      have within := ih back member
      rw [splitAtChar_concat] at within
      obtain inside | last := List.mem_append.mp within
      · exact inside
      · exact absurd (List.mem_singleton.mp last) nonempty

private theorem mem_consFirst {c : Char} {pieces : List Text} {piece : Text}
    (member : piece ∈ consFirst c pieces) :
    piece ∈ pieces ∨ piece = [c] ∨ ∃ first ∈ pieces, piece = c :: first := by
  cases pieces with
  | nil => exact .inr (.inl (List.mem_singleton.mp member))
  | cons first rest =>
    obtain rfl | later := List.mem_cons.mp member
    · exact .inr (.inr ⟨first, List.mem_cons_self, rfl⟩)
    · exact .inl (List.mem_cons_of_mem _ later)

/-- No piece holds the separator. -/
theorem not_mem_of_mem_splitAtChar {sep : Char} {t piece : Text} (member : piece ∈ splitAtChar sep t) :
    sep ∉ piece := by
  induction t generalizing piece with
  | nil =>
    rw [List.mem_singleton.mp member]
    exact List.not_mem_nil
  | cons c rest ih =>
    rw [splitAtChar] at member
    by_cases same : c = sep
    · rw [if_pos same] at member
      obtain rfl | later := List.mem_cons.mp member
      · exact List.not_mem_nil
      · exact ih later
    · rw [if_neg same] at member
      obtain later | rfl | ⟨first, later, rfl⟩ := mem_consFirst member
      · exact ih later
      · simpa using Ne.symm same
      · exact List.not_mem_cons_of_ne_of_not_mem (Ne.symm same) (ih later)

theorem subset_of_mem_splitAtChar {sep : Char} {t piece : Text} (member : piece ∈ splitAtChar sep t) :
    ∀ c ∈ piece, c ∈ t := by
  induction t generalizing piece with
  | nil =>
    rw [List.mem_singleton.mp member]
    exact List.forall_mem_nil _
  | cons c rest ih =>
    intro d inside
    rw [splitAtChar] at member
    split at member
    · obtain rfl | later := List.mem_cons.mp member
      · cases inside
      · exact List.mem_cons_of_mem _ (ih later d inside)
    · obtain later | rfl | ⟨first, later, rfl⟩ := mem_consFirst member
      · exact List.mem_cons_of_mem _ (ih later d inside)
      · exact List.mem_singleton.mp inside ▸ List.mem_cons_self
      · obtain rfl | inside := List.mem_cons.mp inside
        · exact List.mem_cons_self
        · exact List.mem_cons_of_mem _ (ih later d inside)

/-! ### Lines -/

/-- No line holds a line feed. -/
theorem lineFeed_notMem_of_mem_lines {t line : Text} (member : line ∈ lines t) : '\n' ∉ line := by
  fun_induction lines t generalizing line with
  | case1 =>
    rw [List.mem_singleton.mp member]
    exact List.not_mem_nil
  | case2 rest ih | case3 rest ih =>
    obtain rfl | later := List.mem_cons.mp member
    · exact List.not_mem_nil
    · exact ih later
  | case4 c rest _ differs ih =>
    have other : '\n' ≠ c := fun same => differs same.symm
    obtain later | rfl | ⟨first, later, rfl⟩ := mem_consFirst member
    · exact ih later
    · simpa using other
    · exact List.not_mem_cons_of_ne_of_not_mem other (ih later)

/-- Without carriage returns, lines are the pieces between line feeds. -/
theorem lines_eq_splitAtChar {t : Text} (plain : '\r' ∉ t) : lines t = splitAtChar '\n' t := by
  induction t with
  | nil => rfl
  | cons c rest ih =>
    obtain ⟨differs, plain⟩ := List.ne_and_not_mem_of_not_mem_cons plain
    by_cases feeds : c = '\n'
    · rw [feeds, lines, splitAtChar, if_pos rfl, ih plain]
    · rw [lines, splitAtChar, if_neg feeds, ih plain]
      · exact fun _ same => absurd same.symm differs
      · exact feeds

theorem lines_of_not_mem {t : Text} (plain : '\n' ∉ t) : lines t = [t] := by
  fun_induction lines t with
  | case1 => rfl
  | case2 rest => simp at plain
  | case3 rest => simp at plain
  | case4 c rest _ _ ih => rw [ih (List.not_mem_of_not_mem_cons plain)]; rfl

/-- The last line of a text ends at a line feed behind it, and loses a carriage return in front of that. -/
theorem lines_append_lineFeed (front : Text) :
    ∃ shared last ended, lines front = shared ++ [last] ∧ (last = ended ∨ last = ended ++ ['\r']) ∧
      ∀ tail, lines (front ++ '\n' :: tail) = shared ++ ended :: lines tail := by
  fun_induction lines front with
  | case1 => exact ⟨[], [], [], rfl, .inl rfl, fun tail => by rw [List.nil_append, lines]; rfl⟩
  | case2 rest ih =>
    obtain ⟨shared, last, ended, split, ends, behind⟩ := ih
    exact ⟨[] :: shared, last, ended, congrArg _ split, ends, fun tail => congrArg _ (behind tail)⟩
  | case3 rest ih =>
    obtain ⟨shared, last, ended, split, ends, behind⟩ := ih
    exact ⟨[] :: shared, last, ended, congrArg _ split, ends, fun tail => by
      rw [List.cons_append, lines, behind]; rfl⟩
  | case4 c rest unpaired differs ih =>
    by_cases alone : c = '\r' ∧ rest = []
    · obtain ⟨rfl, rfl⟩ := alone
      exact ⟨[], ['\r'], [], rfl, .inr rfl, fun tail => rfl⟩
    · have peeled (tail : Text) :
          lines (c :: rest ++ '\n' :: tail) = consFirst c (lines (rest ++ '\n' :: tail)) := by
        rw [List.cons_append, lines]
        · rintro others rfl same
          cases rest with
          | nil => exact alone ⟨rfl, rfl⟩
          | cons first others =>
            cases same
            exact unpaired _ rfl rfl
        · exact differs
      obtain ⟨shared, last, ended, split, ends, behind⟩ := ih
      cases shared with
      | nil =>
        refine ⟨[], c :: last, c :: ended, by rw [split]; rfl, ?_, fun tail => by rw [peeled, behind]; rfl⟩
        exact ends.imp (congrArg _) (congrArg _)
      | cons first others =>
        exact ⟨(c :: first) :: others, last, ended, by rw [split]; rfl, ends, fun tail => by
          rw [peeled, behind]; rfl⟩

/-- A single line loses no more than a carriage return to a line feed behind it. -/
theorem lines_append_of_not_mem {line : Text} (plain : '\n' ∉ line) :
    ∃ ended, (line = ended ∨ line = ended ++ ['\r']) ∧
      ∀ rest, lines (line ++ '\n' :: rest) = ended :: lines rest := by
  obtain ⟨shared, last, ended, alone, ends, behind⟩ := lines_append_lineFeed line
  rw [lines_of_not_mem plain] at alone
  obtain ⟨rfl, ⟨⟩⟩ := List.append_inj' (show [] ++ [line] = shared ++ [last] from alone) rfl
  exact ⟨ended, ends, behind⟩

/-- A line is read again if it does not end with a carriage return. -/
theorem lines_append {line : Text} (plain : '\n' ∉ line) (ending : line.getLast? ≠ some '\r') (rest : Text) :
    lines (line ++ '\n' :: rest) = line :: lines rest := by
  obtain ⟨ended, rfl | rfl, behind⟩ := lines_append_of_not_mem plain
  · exact behind rest
  · exact absurd List.getLast?_concat ending

theorem trim_ended {last ended : Text} (ends : last = ended ∨ last = ended ++ ['\r']) : trim ended = trim last := by
  obtain rfl | rfl := ends
  · rfl
  · have blank : isBlank '\r' = true := by decide
    exact (trimBy_append (List.forall_mem_singleton.mpr blank)).symm

/-- The lines of a text with one put in. The line in front of it and the line itself can end in another way. -/
theorem lines_insert (front : Text) {rest line : Text} (ends : rest = [] ∨ rest.head? = some '\n')
    (single : '\n' ∉ line) :
    ∃ shared last begun ended written after, lines front = shared ++ [last] ∧
      trim begun = trim last ∧ trim ended = trim last ∧ trim written = trim line ∧
        lines (front ++ rest) = shared ++ begun :: after ∧
          lines (front ++ '\n' :: (line ++ rest)) = shared ++ ended :: written :: after := by
  obtain ⟨shared, last, ended, split, ending, behind⟩ := lines_append_lineFeed front
  cases rest with
  | nil =>
    refine ⟨shared, last, last, ended, line, [], split, rfl, trim_ended ending, rfl, ?_, ?_⟩
    · rw [List.append_nil, split]
    · rw [List.append_nil, behind, lines_of_not_mem single]
  | cons c tail =>
    obtain rfl : c = '\n' := by simpa using ends
    obtain ⟨written, writing, follows⟩ := lines_append_of_not_mem single
    refine ⟨shared, last, ended, ended, written, lines tail, split, trim_ended ending, trim_ended ending,
      trim_ended writing, behind tail, ?_⟩
    rw [behind, follows]

/-- The lines that were written one after another, and the empty one behind the last line feed. -/
theorem lines_printLines {written : List Text}
    (plain : ∀ line ∈ written, '\n' ∉ line ∧ line.getLast? ≠ some '\r') :
    lines (printLines written) = written ++ [[]] := by
  induction written with
  | nil => rfl
  | cons line rest ih =>
    rw [List.forall_mem_cons] at plain
    obtain ⟨⟨feeds, ending⟩, plain⟩ := plain
    have next : printLines (line :: rest) = line ++ '\n' :: printLines rest := by
      simp [printLines]
    rw [next, lines_append feeds ending, ih plain]
    rfl

/-! ### Words -/

/-- Characters that are no white space belong to the word that has been started. -/
theorem wordsFrom_append {word : Text} (solid : ∀ c ∈ word, isBlank c = false) (t : Text) :
    wordsFrom (word ++ t) = (word ++ (wordsFrom t).1, (wordsFrom t).2) := by
  induction word with
  | nil => rfl
  | cons c rest ih =>
    rw [List.forall_mem_cons] at solid
    simp only [List.cons_append, wordsFrom, ih solid.2, solid.1, Bool.false_eq_true, if_false]

/-- The words of joined words are the words. -/
theorem words_joinWith {joined : List Text} (solid : ∀ word ∈ joined, word ≠ [] ∧ ∀ c ∈ word, isBlank c = false) :
    words (joinWith [' '] joined) = joined := by
  induction joined with
  | nil => rfl
  | cons first rest ih =>
    rw [List.forall_mem_cons] at solid
    obtain ⟨⟨some, plain⟩, solid⟩ := solid
    have shown : first.isEmpty = false := by simpa using some
    cases rest with
    | nil =>
      have alone := wordsFrom_append plain []
      rw [List.append_nil] at alone
      simp [joinWith, words, alone, wordsFrom, some]
    | cons second others =>
      have blank : isBlank ' ' = true := by decide
      have later : words (joinWith [' '] (second :: others)) = second :: others := ih solid
      rw [joinWith, List.append_assoc, List.singleton_append, words, wordsFrom_append plain]
      simp only [wordsFrom, blank, if_true, List.append_nil, shown, Bool.false_eq_true, if_false]
      exact congrArg (List.cons first) later

end Gherkin.Text
