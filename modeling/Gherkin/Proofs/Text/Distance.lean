import Mathlib.Order.Bounds.Defs
import Mathlib.Order.MinMax
import Mathlib.Data.List.Infix
import Gherkin.Text.Distance

/-! # The edit distance is the least number of edits

An edit inserts, deletes or substitutes one character, and a text becomes another in a number of edits. This
module writes the least such number as a recursion on both texts, shows that it is one (no edit brings a text
nearer to another by more than one), and that every row of the computation holds these numbers for the
prefixes of the text along it. So the distance that is computed is the least number of edits
(`Gherkin.editDistance_isLeast`).
-/

namespace Gherkin

/-- One edit of one text into another. -/
inductive Edit : Text → Text → Prop where
  | insert (before : Text) (c : Char) (after : Text) : Edit (before ++ after) (before ++ c :: after)
  | delete (before : Text) (c : Char) (after : Text) : Edit (before ++ c :: after) (before ++ after)
  | substitute (before : Text) (c d : Char) (after : Text) : Edit (before ++ c :: after) (before ++ d :: after)

/-- Whether a text becomes another in a number of edits. -/
inductive Edits : Nat → Text → Text → Prop where
  | none (a : Text) : Edits 0 a a
  | cons {n : Nat} {a b c : Text} : Edit a b → Edits n b c → Edits (n + 1) a c

/-! ### Sequences of edits -/

/-- An edit can be taken back by one: what was put in is taken out, and a character is changed back. -/
theorem Edit.symm {a b : Text} (edit : Edit a b) : Edit b a := by
  cases edit with
  | insert before c after => exact .delete before c after
  | delete before c after => exact .insert before c after
  | substitute before c d after => exact .substitute before d c after

/-- Seen from the end, an edit is an edit. -/
theorem Edit.reverse {a b : Text} (edit : Edit a b) : Edit a.reverse b.reverse := by
  cases edit with
  | insert before c after => simpa using Edit.insert after.reverse c before.reverse
  | delete before c after => simpa using Edit.delete after.reverse c before.reverse
  | substitute before c d after => simpa using Edit.substitute after.reverse c d before.reverse

/-- An edit may be made behind one more character. -/
theorem Edit.behind {a b : Text} (front : Char) (edit : Edit a b) : Edit (front :: a) (front :: b) := by
  cases edit with
  | insert before c after => exact .insert (front :: before) c after
  | delete before c after => exact .delete (front :: before) c after
  | substitute before c d after => exact .substitute (front :: before) c d after

namespace Edits

variable {m n : Nat} {a b c : Text}

/-- Edits may be followed by others, and their numbers add up. -/
theorem trans (first : Edits m a b) (second : Edits n b c) : Edits (m + n) a c := by
  induction first with
  | none => rwa [Nat.zero_add]
  | cons edit _ ih =>
    rw [Nat.add_right_comm]
    exact .cons edit (ih second)

/-- As many edits lead back. -/
theorem symm (edits : Edits n a b) : Edits n b a := by
  induction edits with
  | none a => exact .none a
  | cons edit _ ih => exact ih.trans (.cons edit.symm (.none _))

/-- As many edits lead from one text to the other seen from their ends. -/
theorem reverse (edits : Edits n a b) : Edits n a.reverse b.reverse := by
  induction edits with
  | none a => exact .none _
  | cons edit _ ih => exact .cons edit.reverse ih

/-- As many edits do behind one more character. -/
theorem behind (front : Char) (edits : Edits n a b) : Edits n (front :: a) (front :: b) := by
  induction edits with
  | none a => exact .none _
  | cons edit _ ih => exact .cons (edit.behind front) ih

/-- Whether edits are enough does not depend on the end that the texts are read from. -/
theorem reverse_iff : Edits n a.reverse b.reverse ↔ Edits n a b := by
  constructor
  · intro edits
    simpa using edits.reverse
  · exact reverse

/-- Without edits a text only becomes itself. -/
theorem zero_iff : Edits 0 a b ↔ a = b := by
  constructor
  · intro edits
    cases edits
    rfl
  · intro same
    exact same ▸ .none a

/-- From nothing, each character is put in by an edit of its own. -/
theorem insertAll (a : Text) : Edits a.length [] a := by
  induction a with
  | nil => exact .none []
  | cons c rest ih => exact ih.trans (.cons (.insert [] c rest) (.none _))

end Edits

/-! ### The least number of edits, by recursion -/

/-- The least number of edits of one text into another, by what happens at their first characters. -/
def leastEdits : Text → Text → Nat
  | [], b => b.length
  | a, [] => a.length
  | c :: a, d :: b =>
      min (min (leastEdits a (d :: b) + 1) (leastEdits (c :: a) b + 1)) (leastEdits a b + if c = d then 0 else 1)

/-- From nothing to a text there are as many edits as it has characters. -/
theorem leastEdits_nil_left (b : Text) : leastEdits [] b = b.length := by rw [leastEdits]

/-- From a text to nothing there are as many edits as it has characters. -/
theorem leastEdits_nil_right (a : Text) : leastEdits a [] = a.length := by
  cases a <;> rw [leastEdits]
  exact List.cons_ne_nil _ _

/-- The least of three ways counts: the first character is taken out, put in, or kept or changed. -/
theorem leastEdits_cons_cons (c d : Char) (a b : Text) :
    leastEdits (c :: a) (d :: b) =
      min (min (leastEdits a (d :: b) + 1) (leastEdits (c :: a) b + 1)) (leastEdits a b + if c = d then 0 else 1) := by
  rw [leastEdits]

/-- A text is no edit away from itself. -/
theorem leastEdits_self (a : Text) : leastEdits a a = 0 := by
  induction a with
  | nil => exact leastEdits_nil_left []
  | cons c rest ih => simp [leastEdits_cons_cons, ih]

/-- As many edits as the recursion says are enough. -/
theorem edits_leastEdits (a b : Text) : Edits (leastEdits a b) a b := by
  match a, b with
  | [], b =>
    rw [leastEdits_nil_left]
    exact .insertAll b
  | c :: a, [] =>
    rw [leastEdits_nil_right]
    exact (Edits.insertAll (c :: a)).symm
  | c :: a, d :: b =>
    have deleting : Edits (leastEdits a (d :: b) + 1) (c :: a) (d :: b) :=
      .cons (.delete [] c a) (edits_leastEdits a (d :: b))
    have inserting : Edits (leastEdits (c :: a) b + 1) (c :: a) (d :: b) :=
      (edits_leastEdits (c :: a) b).trans (.cons (.insert [] d b) (.none _))
    have keeping : Edits (leastEdits a b + if c = d then 0 else 1) (c :: a) (d :: b) := by
      by_cases same : c = d
      · rw [if_pos same, same]
        exact (edits_leastEdits a b).behind d
      · rw [if_neg same]
        exact ((edits_leastEdits a b).behind c).trans (.cons (.substitute [] c d b) (.none _))
    rw [leastEdits_cons_cons]
    rcases min_choice (min (leastEdits a (d :: b) + 1) (leastEdits (c :: a) b + 1))
        (leastEdits a b + if c = d then 0 else 1) with chosen | chosen
    · rcases min_choice (leastEdits a (d :: b) + 1) (leastEdits (c :: a) b + 1) with first | second
      · rwa [chosen, first]
      · rwa [chosen, second]
    · rwa [chosen]

/-! ### One edit changes the recursion by at most one -/

/-- One more character in front costs one edit at most. -/
theorem leastEdits_delete_le (c : Char) (a t : Text) : leastEdits (c :: a) t ≤ leastEdits a t + 1 := by
  cases t with
  | nil => simp [leastEdits_nil_right]
  | cons d t =>
    rw [leastEdits_cons_cons]
    omega

/-- One more character in front of the other text costs one edit at most. -/
theorem leastEdits_insert_le (a t : Text) (d : Char) : leastEdits a (d :: t) ≤ leastEdits a t + 1 := by
  cases a with
  | nil => simp [leastEdits_nil_left]
  | cons c a =>
    rw [leastEdits_cons_cons]
    omega

/-- One character less in front costs one edit at most. -/
theorem leastEdits_le_insert (c : Char) (a t : Text) : leastEdits a t ≤ leastEdits (c :: a) t + 1 := by
  induction t with
  | nil =>
    rw [leastEdits_nil_right, leastEdits_nil_right, List.length_cons]
    omega
  | cons d t ih =>
    have inserted := leastEdits_insert_le a t d
    rw [leastEdits_cons_cons]
    omega

/-- Another first character costs one edit at most. -/
theorem leastEdits_substitute_le (c d : Char) (a t : Text) :
    leastEdits (c :: a) t ≤ leastEdits (d :: a) t + 1 := by
  induction t with
  | nil => simp [leastEdits_nil_right]
  | cons e t ih =>
    rw [leastEdits_cons_cons, leastEdits_cons_cons]
    split <;> split <;> omega

/-- If one text is at most one edit further from every text than another, it is so behind one more character. -/
theorem leastEdits_behind_le {a b : Text} (near : ∀ t, leastEdits a t ≤ leastEdits b t + 1) (c : Char) (t : Text) :
    leastEdits (c :: a) t ≤ leastEdits (c :: b) t + 1 := by
  induction t with
  | nil =>
    have shorter := near []
    rw [leastEdits_nil_right, leastEdits_nil_right] at shorter ⊢
    simpa using shorter
  | cons d t ih =>
    have above := near (d :: t)
    have diagonal := near t
    rw [leastEdits_cons_cons, leastEdits_cons_cons]
    omega

/-- If one text is at most one edit further from every text than another, it is so behind more text. -/
theorem leastEdits_append_le {a b : Text} (near : ∀ t, leastEdits a t ≤ leastEdits b t + 1) (before t : Text) :
    leastEdits (before ++ a) t ≤ leastEdits (before ++ b) t + 1 := by
  induction before generalizing t with
  | nil => exact near t
  | cons c before ih => exact leastEdits_behind_le ih c t

/-- An edit brings a text nearer to another by at most one. -/
theorem Edit.leastEdits_le {a b : Text} (edit : Edit a b) (t : Text) : leastEdits a t ≤ leastEdits b t + 1 := by
  cases edit with
  | insert before c after => exact leastEdits_append_le (leastEdits_le_insert c after) before t
  | delete before c after => exact leastEdits_append_le (leastEdits_delete_le c after) before t
  | substitute before c d after => exact leastEdits_append_le (leastEdits_substitute_le c d after) before t

/-- Fewer edits than the recursion says are not enough. -/
theorem Edits.leastEdits_le {n : Nat} {a b : Text} (edits : Edits n a b) : leastEdits a b ≤ n := by
  induction edits with
  | none a => exact (leastEdits_self a).le
  | @cons n a b c edit _ ih =>
    have nearer := edit.leastEdits_le c
    omega

/-! ### The rows of the computation -/

/-- The entries of a row for a text that was read up to `done`, both read backwards. -/
def entriesFrom (a done : Text) (rest : Text) : List Nat :=
  rest.inits.map fun more => leastEdits a (more.reverse ++ done)

theorem entriesFrom_nil (a done : Text) : entriesFrom a done [] = [leastEdits a done] := rfl

/-- The entries from a place on start with the distance to what has been read of the text. -/
theorem entriesFrom_cons (a done : Text) (d : Char) (rest : Text) :
    entriesFrom a done (d :: rest) = leastEdits a done :: entriesFrom a (d :: done) rest := by
  simp [entriesFrom, Function.comp_def]

/-- From the row of a text the next row is computed, which is that of the text with one more character: what stands left
of an entry, above it and above that is all that an entry needs. -/
theorem distanceRowFrom_entriesFrom (c d : Char) (a done rest : Text) :
    distanceRowFrom c (leastEdits a done) (leastEdits (c :: a) done) (entriesFrom a (d :: done) rest) (d :: rest) =
      entriesFrom (c :: a) (d :: done) rest := by
  induction rest generalizing d done with
  | nil => simp [entriesFrom_nil, distanceRowFrom, leastEdits_cons_cons]
  | cons e rest ih =>
    rw [entriesFrom_cons, entriesFrom_cons, distanceRowFrom, ← ih, leastEdits_cons_cons]

/-- The row for a text read backwards becomes the row for one character more. -/
theorem distanceRow_entriesFrom (c : Char) (a t : Text) :
    distanceRow c (entriesFrom a [] t) t = entriesFrom (c :: a) [] t := by
  have first : leastEdits (c :: a) [] = leastEdits a [] + 1 := by
    rw [leastEdits_nil_right, leastEdits_nil_right, List.length_cons]
  cases t with
  | nil => simp [entriesFrom_nil, distanceRow, distanceRowFrom, first]
  | cons d rest =>
    rw [entriesFrom_cons, entriesFrom_cons, distanceRow, ← first, distanceRowFrom_entriesFrom]

/-- The rows of a text end with the row of all its characters, by induction on those that are left. -/
theorem distanceRows_entriesFrom (t a read : Text) :
    distanceRows t a (entriesFrom read [] t) = entriesFrom (a.reverse ++ read) [] t := by
  induction a generalizing read with
  | nil => rfl
  | cons c rest ih =>
    rw [distanceRows, distanceRow_entriesFrom, ih, List.reverse_cons, List.append_assoc, List.singleton_append]

/-- Before anything is read, an entry is the length of its prefix. -/
theorem entriesFrom_empty (done rest : Text) :
    entriesFrom [] done rest = List.range' done.length (rest.length + 1) := by
  induction rest generalizing done with
  | nil => simp [entriesFrom_nil, leastEdits_nil_left]
  | cons d rest ih =>
    rw [entriesFrom_cons, ih, leastEdits_nil_left, List.length_cons, List.length_cons, ← List.range'_succ]

/-- The last entry of a row is the distance to the whole other text. -/
theorem getLast?_entriesFrom (a done rest : Text) :
    (entriesFrom a done rest).getLast? = some (leastEdits a (rest.reverse ++ done)) := by
  induction rest generalizing done with
  | nil => rfl
  | cons d rest ih =>
    rw [entriesFrom_cons, List.getLast?_cons, ih, Option.getD_some, List.reverse_cons, List.append_assoc,
      List.singleton_append]

/-- The last entry of the last row is the least number of edits. -/
theorem getLast?_distanceRows (a t : Text) :
    (distanceRows t a (List.range (t.length + 1))).getLast? = some (leastEdits a.reverse t.reverse) := by
  have start : List.range (t.length + 1) = entriesFrom [] [] t := by
    rw [entriesFrom_empty, List.length_nil, List.range_eq_range']
  rw [start, distanceRows_entriesFrom, getLast?_entriesFrom, List.append_nil, List.append_nil]

/-- The recursion gives the least number of edits also where it reads both texts from their ends. -/
theorem isLeast_leastEdits_reverse (a b : Text) :
    IsLeast {n | Edits n a b} (leastEdits a.reverse b.reverse) := by
  constructor
  · exact Edits.reverse_iff.mp (edits_leastEdits a.reverse b.reverse)
  · intro n edits
    exact (Edits.reverse edits).leastEdits_le

/-- The program gives the least number of edits, for its last row ends with what the recursion gives. -/
theorem isLeast_editDistance (a b : Text) : IsLeast {n | Edits n a b} (editDistance a b) := by
  unfold editDistance
  by_cases shorter : a.length < b.length
  · have reversed : {n | Edits n a b} = {n | Edits n b a} := by
      ext n
      exact ⟨Edits.symm, Edits.symm⟩
    simp only [shorter, if_true, getLast?_distanceRows, Option.getD_some, reversed]
    exact isLeast_leastEdits_reverse b a
  · simp only [shorter, if_false, getLast?_distanceRows, Option.getD_some]
    exact isLeast_leastEdits_reverse a b

/-- The edit distance is the least number of insertions, deletions and substitutions of single characters
that turn one text into the other. So it is the same in both directions, it is zero between equal texts only,
and no way round a third text is shorter. -/
theorem editDistance_isLeast (a b : Text) :
    IsLeast {n | Edits n a b} (editDistance a b) ∧
    editDistance a b = editDistance b a ∧
    (editDistance a b = 0 ↔ a = b) ∧
    ∀ c, editDistance a c ≤ editDistance a b + editDistance b c := by
  have least := isLeast_editDistance a b
  have backwards := isLeast_editDistance b a
  refine ⟨least, ?_, ?_, ?_⟩
  · apply Nat.le_antisymm
    · exact least.2 backwards.1.symm
    · exact backwards.2 least.1.symm
  · constructor
    · intro none
      rw [← Edits.zero_iff, ← none]
      exact least.1
    · intro same
      exact Nat.le_zero.mp (least.2 (Edits.zero_iff.mpr same))
  · intro c
    apply (isLeast_editDistance a c).2
    exact least.1.trans (isLeast_editDistance b c).1

example : editDistance "kitten" "sitting" = 3 := by decide +kernel

end Gherkin
