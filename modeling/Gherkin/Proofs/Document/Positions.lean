import Mathlib.Data.List.Induction
import Gherkin.Proofs.Document.Nodes

/-! # Positions among lines

The position in front of a line depends on the lines before it, and for tags also on those that follow. The
marks of a document are what each line is marked with at its position (`Gherkin.mem_marks_iff`). What begins with
one line and goes on over others is traced back to that line (`Gherkin.holds_iff_since`): doc strings to their
opening, descriptions to their heading.
-/

namespace Gherkin

variable (d : Dialect)

/-- The position after some lines and in front of others. -/
def positionAfter (p : Position) : List Text → List Text → Position
  | [], _ => p
  | raw :: rest, after => positionAfter (p.mark d raw (rest ++ after)).2 rest after

/-- The mark of a line between others. -/
def markAt (p : Position) (before : List Text) (raw : Text) (after : List Text) : Mark :=
  ((positionAfter d p before (raw :: after)).mark d raw after).1

variable {d}

theorem positionAfter_append (p : Position) (first second after : List Text) :
    positionAfter d p (first ++ second) after =
      positionAfter d (positionAfter d p first (second ++ after)) second after := by
  induction first generalizing p with
  | nil => rfl
  | cons raw rest ih =>
    rw [List.cons_append, positionAfter, ih, positionAfter, List.append_assoc]

theorem positionAfter_concat (p : Position) (before : List Text) (raw : Text) (after : List Text) :
    positionAfter d p (before ++ [raw]) after =
      ((positionAfter d p before (raw :: after)).mark d raw after).2 :=
  positionAfter_append p before [raw] after

theorem markAt_marking (regular : d.Regular) (p : Position) (before : List Text) (raw : Text) (after : List Text) :
    Marking d (positionAfter d p before (raw :: after)) raw (markAt d p before raw after)
      (positionAfter d p (before ++ [raw]) after) := by
  rw [positionAfter_concat]
  exact Position.marking regular _ raw after

theorem marksFrom_getElem? (p : Position) (before : List Text) (raw : Text) (after : List Text) :
    (marksFrom d p (before ++ raw :: after))[before.length]? = some (markAt d p before raw after) := by
  induction before generalizing p with
  | nil => rfl
  | cons first rest ih =>
    rw [List.cons_append, marksFrom, List.length_cons, List.getElem?_cons_succ, ih]
    rfl

theorem mem_numberFrom {n line : Nat} {marks : List Mark} {mark : Mark} :
    (line, mark) ∈ numberFrom n marks ↔ ∃ i, line = n + i ∧ marks[i]? = some mark := by
  induction marks generalizing n with
  | nil => simp [numberFrom]
  | cons first rest ih =>
    rw [numberFrom, List.mem_cons, ih]
    constructor
    · rintro (same | ⟨i, rfl, at_⟩)
      · cases same
        exact ⟨0, rfl, rfl⟩
      · exact ⟨i + 1, by omega, at_⟩
    · rintro ⟨i, rfl, at_⟩
      cases i with
      | zero =>
        cases at_
        exact .inl rfl
      | succ i => exact .inr ⟨i, by omega, at_⟩

/-- The marks are those of the lines at their positions. -/
theorem mem_marks_iff {p : Position} {n line : Nat} {lines : List Text} {mark : Mark} :
    (line, mark) ∈ numberFrom n (marksFrom d p lines) ↔
      ∃ before raw after, lines = before ++ raw :: after ∧ line = n + before.length ∧
        markAt d p before raw after = mark := by
  rw [mem_numberFrom]
  constructor
  · rintro ⟨i, rfl, at_⟩
    obtain ⟨within, _⟩ := List.getElem?_eq_some_iff.mp at_
    rw [length_marksFrom] at within
    have split : lines = lines.take i ++ lines[i] :: lines.drop (i + 1) := by simp
    have length : (lines.take i).length = i := by
      rw [List.length_take]
      omega
    have found := marksFrom_getElem? (d := d) p (lines.take i) lines[i] (lines.drop (i + 1))
    rw [← split, length, at_] at found
    exact ⟨_, _, _, split, by rw [length], (Option.some.inj found).symm⟩
  · rintro ⟨before, raw, after, rfl, rfl, rfl⟩
    exact ⟨before.length, rfl, marksFrom_getElem? p before raw after⟩

/-- A line has one mark. -/
theorem mem_marks_at {p : Position} {before : List Text} {raw : Text} {after : List Text} {mark : Mark} :
    (before.length + 1, mark) ∈ numberFrom 1 (marksFrom d p (before ++ raw :: after)) ↔
      markAt d p before raw after = mark := by
  rw [mem_numberFrom]
  constructor
  · rintro ⟨i, same, at_⟩
    obtain rfl : before.length = i := by omega
    exact Option.some.inj ((marksFrom_getElem? p before raw after).symm.trans at_)
  · rintro rfl
    exact ⟨before.length, Nat.add_comm _ _, marksFrom_getElem? p before raw after⟩

theorem numberFrom_pairwise (n : Nat) (marks : List Mark) :
    (numberFrom n marks).Pairwise fun first second => first.1 < second.1 := by
  induction marks generalizing n with
  | nil => exact .nil
  | cons mark rest ih =>
    refine List.pairwise_cons.mpr ⟨?_, ih (n + 1)⟩
    rintro ⟨line, other⟩ member
    obtain ⟨i, rfl, _⟩ := mem_numberFrom.mp member
    change n < n + 1 + i
    omega

/-! ### What holds since a line -/

theorem stays_through {holds : Position → Prop} {between : Text → Prop}
    (keeps : ∀ {p raw} ahead, holds p → between raw → holds (Position.mark d raw ahead p).2) {p : Position}
    (here : holds p) {lines : List Text} (all : ∀ line ∈ lines, between line) (after : List Text) :
    holds (positionAfter d p lines after) := by
  induction lines generalizing p with
  | nil => exact here
  | cons raw rest ih =>
    rw [List.forall_mem_cons] at all
    exact ih (keeps (rest ++ after) here all.1) all.2

/-- What begins with a line of some kind and goes on over others holds where there was such a line and it went
on over all lines since then. -/
theorem holds_iff_since (holds : Position → Prop) (between : Text → Prop) (begins : Mark → Prop)
    (regular : d.Regular)
    (enters : ∀ {p raw mark next}, Marking d p raw mark next → holds next → (holds p ∧ between raw) ∨ begins mark)
    (opens : ∀ {p raw mark next}, Marking d p raw mark next → begins mark → holds next)
    (keeps : ∀ {p raw} ahead, holds p → between raw → holds (Position.mark d raw ahead p).2)
    {p : Position} (start : ¬ holds p) (before after : List Text) :
    holds (positionAfter d p before after) ↔
      ∃ front opening inner, before = front ++ opening :: inner ∧
        begins (markAt d p front opening (inner ++ after)) ∧ ∀ line ∈ inner, between line := by
  constructor
  · intro now
    -- Back from the last line: either this line began it, or it held in front of the line as well.
    induction before using List.reverseRecOn generalizing after with
    | nil => exact absurd now start
    | append_singleton rest raw ih =>
      rcases enters (markAt_marking regular p rest raw after) now with ⟨earlier, goesOn⟩ | begins
      · obtain ⟨front, opening, inner, rfl, begins, all⟩ := ih (raw :: after) earlier
        refine ⟨front, opening, inner ++ [raw], by simp, by simpa using begins, ?_⟩
        exact List.forall_mem_append.mpr ⟨all, List.forall_mem_singleton.mpr goesOn⟩
      · exact ⟨rest, raw, [], rfl, begins, List.forall_mem_nil _⟩
  · rintro ⟨front, opening, inner, rfl, begins, all⟩
    rw [List.append_cons, positionAfter_append]
    exact stays_through keeps (opens (markAt_marking regular p front opening (inner ++ after)) begins) all after

variable {p next : Position} {raw : Text} {mark : Mark}

/-! ### Doc strings -/

def Place.fence? : Place → Option Fence
  | .doc _ _ fence => some fence
  | _ => none

theorem Place.fence?_eq_none {place : Place} : place.fence? = none ↔ place.isDoc = false := by
  cases place <;> simp [fence?, isDoc]

/-- A doc string is gone on with, or opened. -/
theorem Marking.entersDoc {fence : Fence} (marking : Marking d p raw mark next)
    (inside : next.place.fence? = some fence) :
    (p.place.fence? = some fence ∧ Text.trim raw ≠ fence.text) ∨
      ∃ mediaType indent, mark = .openDoc fence mediaType indent := by
  cases marking with
  | @blank place _ outside =>
    cases place with
    | doc => cases outside
    | _ => cases inside
  | gap outside | description _ _ _ outside | comment outside =>
    rw [Place.fence?_eq_none.mpr outside] at inside
    cases inside
  | docLine goesOn =>
    cases inside
    exact .inl ⟨rfl, goesOn⟩
  | closeDoc | step | unexpected | unrecognized => cases inside
  | @tags _ _ _ place bare =>
    cases place with
    | doc => cases bare
    | _ => cases inside
  | @heading _ _ _ _ kind =>
    cases kind <;> cases inside
  | @row place _ _ _ after =>
    cases place with
    | argument | rows | examples | exampleRows =>
      cases after
      cases inside
    | _ => cases after
  | openDoc =>
    cases inside
    exact .inr ⟨_, _, rfl⟩

theorem Position.mark_docLine {fence : Fence} (inside : p.place.fence? = some fence)
    (goesOn : Text.trim raw ≠ fence.text) (ahead : List Text) :
    p.mark d raw ahead = (.docLine raw, .within p.place) := by
  obtain ⟨place, describing⟩ := p
  cases place with
  | doc =>
    cases inside
    exact if_neg goesOn
  | _ => cases inside

theorem Marking.opensDoc {fence : Fence} {mediaType : Option Text} {indent : Nat}
    (marking : Marking d p raw (.openDoc fence mediaType indent) next) :
    next.place.fence? = some fence := by
  generalize same : Mark.openDoc fence mediaType indent = mark at marking
  cases marking with
  | openDoc =>
    cases same
    rfl
  | _ => cases same

/-- A place is in the doc string that was opened last, if no line since then closes it. -/
theorem inDoc_iff (regular : d.Regular) (fence : Fence) (before after : List Text) :
    (positionAfter d .start before after).place.fence? = some fence ↔
      ∃ front opening inner, before = front ++ opening :: inner ∧
        (∃ mediaType indent, markAt d .start front opening (inner ++ after) = .openDoc fence mediaType indent) ∧
          ∀ line ∈ inner, Text.trim line ≠ fence.text := by
  apply holds_iff_since (fun p => p.place.fence? = some fence) (fun line => Text.trim line ≠ fence.text)
    (fun mark => ∃ mediaType indent, mark = .openDoc fence mediaType indent) regular Marking.entersDoc
  · rintro _ _ _ _ marking ⟨_, _, rfl⟩
    exact marking.opensDoc
  · intro p raw ahead inside goesOn
    rw [p.mark_docLine inside goesOn]
    exact inside
  · rintro ⟨⟩

/-! ### Descriptions -/

/-- A description is gone on with, or there is a heading. -/
theorem Marking.entersDescription (marking : Marking d p raw mark next) (describing : next.Describing) :
    (p.Describing ∧ d.Continues raw) ∨ mark.isHeading = true := by
  cases marking with
  | gap _ empty => exact .inl ⟨describing, .inl empty⟩
  | comment _ hash => exact .inl ⟨describing, .inr (.inl hash)⟩
  | description _ _ plain => exact .inl ⟨describing, .inr (.inr plain)⟩
  | heading => exact .inr rfl
  | _ => cases describing.1

theorem Heading.isDoc_place (kind : Heading) (nested : Bool) : (kind.place nested).isDoc = false := by
  cases kind <;> rfl

theorem Marking.opensDescription (marking : Marking d p raw mark next) (heading : mark.isHeading = true) :
    next.Describing := by
  cases mark with
  | heading kind =>
    rw [marking.next_of_heading]
    exact ⟨rfl, kind.isDoc_place _⟩
  | _ => cases heading

/-- A description can go on where no line since the last heading did not go on with it. -/
theorem describing_iff (regular : d.Regular) (before after : List Text) :
    (positionAfter d .start before after).Describing ↔
      ∃ front opening inner, before = front ++ opening :: inner ∧
        (markAt d .start front opening (inner ++ after)).isHeading = true ∧ ∀ line ∈ inner, d.Continues line := by
  apply holds_iff_since Position.Describing d.Continues (·.isHeading = true) regular Marking.entersDescription
    Marking.opensDescription
  · intro p raw ahead describing goesOn
    rw [p.mark_continues describing goesOn]
    exact describing
  · rintro ⟨⟨⟩, _⟩

/-- No heading stands among lines that go on with the description of a heading. -/
theorem plain_since (regular : d.Regular) {front inner others after : List Text} {opening : Text}
    (heading : (markAt d .start front opening (inner ++ raw :: others ++ after)).isHeading = true)
    (all : ∀ line ∈ inner ++ raw :: others, d.Continues line) :
    (markAt d .start (front ++ opening :: inner) raw (others ++ after)).isHeading = false := by
  rw [List.forall_mem_append, List.forall_mem_cons] at all
  rw [List.append_assoc, List.cons_append] at heading
  have describing := (describing_iff regular (front ++ opening :: inner) (raw :: (others ++ after))).mpr
    ⟨front, opening, inner, rfl, heading, all.1⟩
  rw [markAt, Position.mark_continues describing all.2.1]
  split <;> rfl

theorem Marking.describing {t : Text} (marking : Marking d p raw (.description t) next) :
    p.Describing ∧ d.Continues raw ∧ t = Text.trim raw := by
  cases marking with
  | gap outside empty => exact ⟨⟨rfl, outside⟩, .inl empty, empty.symm⟩
  | description _ _ plain outside => exact ⟨⟨rfl, outside⟩, .inr (.inr plain), rfl⟩

end Gherkin
