import Mathlib.Tactic.SplitIfs
import Gherkin.Proofs.Text.Splitting
import Gherkin.Report.Markup

/-! # Reading markup

How markup is read without regard to what wrote it: how often it holds a mark, what stands in its elements, and which
attributes they have. An escaped text has none of the characters that open or close anything, so a mark is never found
in one (`Gherkin.Markup.avoids_of_notMem`), and reading its entities back gives the text
(`Gherkin.Markup.decode_escape`).
-/

namespace Gherkin.Markup

variable {α β : Type}

/-! ### Entities -/

/-- The text that stands in markup: its five entities are read back. -/
def decode : Text → Text
  | '&' :: 'a' :: 'm' :: 'p' :: ';' :: t => '&' :: decode t
  | '&' :: 'l' :: 't' :: ';' :: t => '<' :: decode t
  | '&' :: 'g' :: 't' :: ';' :: t => '>' :: decode t
  | '&' :: '#' :: '3' :: '4' :: ';' :: t => '"' :: decode t
  | '&' :: '#' :: '3' :: '9' :: ';' :: t => '\'' :: decode t
  | c :: t => c :: decode t
  | [] => []

theorem decode_cons {c : Char} (plain : c ≠ '&') (t : Text) : decode (c :: t) = c :: decode t := by
  rw [decode] <;> simp [plain]

theorem decode_entity (c : Char) (t : Text) : decode (entity c ++ t) = c :: decode t := by
  unfold entity
  by_cases isAnd : c = '&'
  · subst isAnd
    rfl
  by_cases isLess : c = '<'
  · subst isLess
    rfl
  by_cases isGreater : c = '>'
  · subst isGreater
    rfl
  by_cases isQuote : c = '"'
  · subst isQuote
    rfl
  by_cases isApostrophe : c = '\''
  · subst isApostrophe
    rfl
  · simp only [isAnd, isLess, isGreater, isQuote, isApostrophe, if_false, List.singleton_append]
    exact decode_cons isAnd t

/-- Reading back what was escaped gives it again. -/
theorem decode_escape (t : Text) : decode (escape t) = t := by
  induction t with
  | nil => rfl
  | cons c rest ih => rw [escape, List.flatMap_cons, decode_entity, ← escape, ih]

/-- The entities. -/
def entities : List Text := ["&amp;", "&lt;", "&gt;", "&#34;", "&#39;"]

/-- A character with a meaning stands as an entity, and any other as itself. -/
theorem entity_cases (d : Char) : entity d ∈ entities ∨ entity d = [d] ∧ d ≠ '<' ∧ d ≠ '>' ∧ d ≠ '"' ∧ d ≠ '&' := by
  unfold entity
  split_ifs <;> simp_all [entities]

theorem notMem_entity {c : Char} (special : c = '<' ∨ c = '>' ∨ c = '"') (d : Char) : c ∉ entity d := by
  have plain : ∀ written ∈ entities, '<' ∉ written ∧ '>' ∉ written ∧ '"' ∉ written := by decide
  rcases entity_cases d with listed | ⟨itself, notLess, notGreater, notQuote, -⟩
  · obtain ⟨noLess, noGreater, noQuote⟩ := plain _ listed
    rcases special with rfl | rfl | rfl
    · exact noLess
    · exact noGreater
    · exact noQuote
  · rw [itself, List.mem_singleton]
    rcases special with rfl | rfl | rfl
    · exact notLess.symm
    · exact notGreater.symm
    · exact notQuote.symm

theorem notMem_escape {c : Char} (special : c = '<' ∨ c = '>' ∨ c = '"') (t : Text) : c ∉ escape t := by
  intro member
  obtain ⟨d, -, inside⟩ := List.mem_flatMap.mp member
  exact notMem_entity special d inside

/-! ### Marks -/

/-- What stands behind each place at which a text holds a mark. -/
def behind (mark : Text) : Text → List Text
  | [] => []
  | c :: t => (Text.afterPrefix? mark (c :: t)).toList ++ behind mark t

/-- How often a text holds a mark. -/
def occurrences (mark t : Text) : Nat := (behind mark t).length

/-- A text up to the first place at which it holds a mark, or else all of it. -/
def upTo (mark : Text) : Text → Text
  | [] => []
  | c :: t => if (Text.afterPrefix? mark (c :: t)).isSome then [] else c :: upTo mark t

/-- Whether a mark and a text differ in a character that both have. -/
def clashes : Text → Text → Bool
  | c :: mark, d :: t => c != d || clashes mark t
  | _, _ => false

/-- Whether a mark cannot begin in a text, whatever stands behind the text. -/
def avoids (mark : Text) : Text → Bool
  | [] => true
  | c :: t => clashes mark (c :: t) && avoids mark t

theorem clashes_append {mark t : Text} (differs : clashes mark t = true) (rest : Text) :
    clashes mark (t ++ rest) = true := by
  fun_induction clashes mark t with
  | case1 c mark d t ih =>
    rw [Bool.or_eq_true] at differs
    rw [List.cons_append, clashes, Bool.or_eq_true]
    exact differs.imp id ih
  | case2 => cases differs

theorem afterPrefix?_of_clashes {mark t : Text} (differs : clashes mark t = true) :
    Text.afterPrefix? mark t = none := by
  fun_induction clashes mark t with
  | case1 c mark d t ih =>
    rw [Text.afterPrefix?]
    by_cases same : c = d
    · rw [if_pos same]
      apply ih
      simpa [same] using differs
    · rw [if_neg same]
  | case2 => cases differs

theorem afterPrefix?_append (mark rest : Text) : Text.afterPrefix? mark (mark ++ rest) = some rest := by
  induction mark with
  | nil => rfl
  | cons c mark ih => rw [List.cons_append, Text.afterPrefix?, if_pos rfl, ih]

theorem avoids_append {mark first second : Text} (front : avoids mark first = true)
    (back : avoids mark second = true) : avoids mark (first ++ second) = true := by
  induction first with
  | nil => exact back
  | cons c t ih =>
    rw [avoids, Bool.and_eq_true] at front
    rw [List.cons_append, avoids, ih front.2, ← List.cons_append, clashes_append front.1, Bool.and_self]

theorem avoids_flatMap {mark : Text} {f : α → Text} {items : List α}
    (each : ∀ item ∈ items, avoids mark (f item) = true) : avoids mark (items.flatMap f) = true := by
  induction items with
  | nil => rfl
  | cons item rest ih =>
    rw [List.forall_mem_cons] at each
    exact avoids_append each.1 (ih each.2)

/-- A mark cannot begin in a text without its first character. -/
theorem avoids_of_notMem {c : Char} {mark t : Text} (absent : c ∉ t) : avoids (c :: mark) t = true := by
  induction t with
  | nil => rfl
  | cons d t ih =>
    rw [List.mem_cons, not_or] at absent
    rw [avoids, ih absent.2, clashes, bne_iff_ne.mpr absent.1]
    rfl

theorem behind_append {mark t : Text} (avoided : avoids mark t = true) (rest : Text) :
    behind mark (t ++ rest) = behind mark rest := by
  induction t with
  | nil => rfl
  | cons c t ih =>
    rw [avoids, Bool.and_eq_true] at avoided
    have differs := afterPrefix?_of_clashes (clashes_append avoided.1 rest)
    rw [List.cons_append] at differs
    rw [List.cons_append, behind, differs, ih avoided.2]
    rfl

theorem upTo_append {mark t : Text} (avoided : avoids mark t = true) (rest : Text) :
    upTo mark (t ++ (mark ++ rest)) = t := by
  induction t with
  | nil =>
    cases whole : mark ++ rest with
    | nil => rfl
    | cons c others =>
      have found := afterPrefix?_append mark rest
      rw [whole] at found
      rw [List.nil_append, upTo, found]
      rfl
  | cons c t ih =>
    rw [avoids, Bool.and_eq_true] at avoided
    have differs := afterPrefix?_of_clashes (clashes_append avoided.1 (mark ++ rest))
    rw [List.cons_append] at differs
    rw [List.cons_append, upTo, differs, ih avoided.2]
    rfl

/-! ### What reading a text adds -/

/-- Whether a text adds some items to what is read behind the places of a mark. -/
def Yields (mark : Text) (read : Text → β) (t : Text) (items : List β) : Prop :=
  ∀ rest, (behind mark (t ++ rest)).map read = items ++ (behind mark rest).map read

section Yields

variable {mark : Text} {read : Text → β}

theorem Yields.of_avoids {t : Text} (avoided : avoids mark t = true) : Yields mark read t [] := by
  intro rest
  rw [behind_append avoided, List.nil_append]

theorem Yields.append {first second : Text} {items others : List β} (front : Yields mark read first items)
    (back : Yields mark read second others) : Yields mark read (first ++ second) (items ++ others) := by
  intro rest
  rw [List.append_assoc, front, back, List.append_assoc]

theorem Yields.flatMap {xs : List α} {f : α → Text} {g : α → List β}
    (each : ∀ x ∈ xs, Yields mark read (f x) (g x)) : Yields mark read (xs.flatMap f) (xs.flatMap g) := by
  induction xs with
  | nil => exact .of_avoids rfl
  | cons x rest ih =>
    rw [List.forall_mem_cons] at each
    exact each.1.append (ih each.2)

/-- What is read of a text alone is what it adds. -/
theorem Yields.alone {t : Text} {items : List β} (yields : Yields mark read t items) :
    (behind mark t).map read = items := by
  have read := yields []
  rwa [List.append_nil, behind, List.map_nil, List.append_nil] at read

theorem Yields.occurrences_eq {t : Text} {items : List β} (yields : Yields mark read t items) :
    occurrences mark t = items.length := by
  rw [occurrences, ← yields.alone, List.length_map]

/-- A mark adds what is read behind it. -/
theorem behind_mark {c : Char} {mark : Text} (single : c ∉ mark) (rest : Text) :
    behind (c :: mark) ((c :: mark) ++ rest) = rest :: behind (c :: mark) rest := by
  rw [List.cons_append, behind, ← List.cons_append, afterPrefix?_append, behind_append (avoids_of_notMem single)]
  rfl

end Yields

/-! ### Elements -/

/-- The mark that opens an element. -/
def opening (tag : String) : Text := '<' :: (tag.toList ++ [' '])

/-- The mark that closes an element. -/
def closing (tag : String) : Text := '<' :: '/' :: (tag.toList ++ ['>'])

/-- The elements with a name: what stands between the marks that open and close each of them. -/
def elements (tag : String) (t : Text) : List Text := (behind (opening tag) t).map (upTo (closing tag))

/-- The items of a list, two by two. -/
def pairs : List α → List (α × α)
  | first :: second :: rest => (first, second) :: pairs rest
  | _ => []

/-- The value of an attribute of an element, its entities read back. In the tag that opens the element values stand
in quotes, each behind its name. -/
def valueOf (name : String) (element : Text) : Option Text :=
  ((pairs (Text.splitAtChar '"' (upTo ['>'] (' ' :: element)))).lookup (' ' :: (name.toList ++ ['=']))).map decode

end Gherkin.Markup
