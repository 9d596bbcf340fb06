import Gherkin.Proofs.Regex.Literal

/-! # What stays at the start of a pattern

A fragment that is read behind the first items of a pattern leaves them there. Three things could go wrong: a bar
outside all groups starts another alternative of the whole pattern, a quantifier at the start of the fragment repeats
the last of the items, and an escape at the end of the fragment takes digits from what follows. The first and the last
one show when the fragment is read alone (`Gherkin.Regex.Sealed`). Such a fragment that brings a group leaves the items
at the start as they are (`Gherkin.Regex.Reader.Begins.firm`), and so does every regular expression in parentheses
(`Gherkin.Regex.Firm.parenthesized`).
-/

namespace Gherkin.Regex

variable [CharacterNames] {t pattern : Text} {regex : Regex} {q q' r : Reader} {base : List Item}

/-- Whether a text leaves what stands around it as it is: read alone, it has no bar outside all groups, and it does not
end within an escape that more digits could belong to. -/
def Sealed (t : Text) : Prop :=
  ∀ r, (Reader.start []).steps (tokens t) = .ok r → r.build.frame.alternatives = [] ∧ r.construct.isEscape = false

/-- What a reader keeps of the items of the innermost group, all but perhaps the last one, and that no escape is left
open. -/
structure Reader.Keeps (q q' : Reader) : Prop where
  single : q.build.frame.alternatives = [] → q'.build.frame.alternatives = []
  floor : q.build.frame.alternatives = [] → q.build.frame.items ≠ [] →
    q.build.frame.items.tail <:+ q'.build.frame.items.tail
  escape : q.construct.isEscape = false → q'.construct.isEscape = false

/-- Whether a text keeps the items in front of it wherever it stands: all but perhaps the last one, and all of them
where an item may start. -/
structure Firm (t : Text) : Prop where
  alone : Sealed t
  keeps : ∀ q q' : Reader, q.Ready → q.steps (tokens t) = .ok q' → q.Keeps q'
  behind : ∀ q q' : Reader, q.Ready → q.steps (tokens t) = .ok q' → q.construct = .item →
    q.build.frame.alternatives = [] → q.build.frame.items <:+ q'.build.frame.items.tail

/-- What a pattern keeps that is sealed. -/
theorem Reader.keeps_of_sealed (compiled : compile t = .ok regex) (alone : Sealed t) (ready : q.Ready)
    (read : q.steps (tokens t) = .ok q') : q.Keeps q' := by
  obtain ⟨r, build, read_alone, ends, rfl, along⟩ := alongside_of_compile compiled ready read
  obtain ⟨-, -, grounded, -⟩ := along.ends read_alone ends
  obtain ⟨single, no_escape⟩ := alone r read_alone
  have stays (before : q.build.frame.alternatives = []) : q'.build.frame.alternatives = [] :=
    grounded.single.mpr ⟨single, before⟩
  refine ⟨stays, fun before some_there => (grounded.floor some_there (stays before)).1, fun before => ?_⟩
  rcases along.construct with same | ⟨-, -, lags⟩
  · rw [same]
    exact no_escape
  · cases lags with
    | waiting _ _ escape =>
      rw [Bool.eq_false_iff]
      intro shown
      rw [escape shown] at before
      cases before
    | behind _ item =>
      rw [item]
      rfl

/-- A pattern that is sealed and brings a group is firm. -/
theorem Firm.of_compile (compiled : compile t = .ok regex) (grouped : 0 < regex.groups) (alone : Sealed t) :
    Firm t where
  alone := alone
  keeps _ _ := Reader.keeps_of_sealed compiled alone
  behind q q' ready read item before := by
    obtain ⟨r, build, read_alone, ends, rfl, along⟩ := Reader.alongside_of_compile compiled ready read
    obtain ⟨-, extends_, grounded, -⟩ := along.ends read_alone ends
    obtain ⟨-, -, -, sound⟩ := Reader.finish_eq_ok ends
    have single := (alone r read_alone).1
    have numbered : r.build.Numbered :=
      Reader.steps_induction (fun _ _ _ _ did => did.numbered) read_alone (Build.numbered_start [])
    have some_read : r.build.frame.items ≠ [] := by
      have begun := numbered.begun (extends_.groups ▸ grouped)
      have whole : r.build.outer = [] := extends_.outer ▸ Build.outer_of_fault sound
      simpa [Build.Begun, whole, single] using begun
    obtain ⟨length, suffix⟩ := grounded.counted item (grounded.single.mpr ⟨single, before⟩)
    have more := List.length_pos_iff.mpr some_read
    cases items : q'.build.frame.items with
    | nil =>
      rw [items, List.length_nil] at length
      omega
    | cons last earlier =>
      rw [items] at length suffix
      rcases List.suffix_cons_iff.mp suffix with whole | rest
      · rw [whole, List.length_cons] at length
        omega
      · exact rest

/-- In parentheses, every regular expression is firm. -/
theorem Firm.parenthesized (compiled : compile pattern = .ok regex) : Firm ('(' :: pattern ++ [')']) where
  alone r read := by
    obtain ⟨b, inner, e, encloses⟩ := Reader.encloses_of_steps (q := .start []) compiled rfl rfl read
    obtain ⟨before, -, -, -, -, -, widths, rfl⟩ := encloses
    exact ⟨before.alternatives, rfl⟩
  keeps q q' ready read := by
    obtain ⟨b, inner, e, encloses⟩ := Reader.encloses_of_steps compiled ready.resting ready.noFlags read
    obtain ⟨before, -, -, -, -, -, widths, rfl⟩ := encloses
    refine ⟨fun single => before.alternatives.trans single, fun _ some_there => ?_, fun _ => rfl⟩
    exact (before.floor some_there).1.trans (List.tail_suffix _)
  behind q q' ready read item single := by
    obtain ⟨b, inner, e, encloses⟩ := Reader.encloses_of_steps compiled ready.resting ready.noFlags read
    obtain ⟨-, settled, -, -, -, -, widths, rfl⟩ := encloses
    rw [Reader.settle_item q item] at settled
    obtain rfl : q.build = b := congrArg Reader.build (Except.ok.inj settled)
    exact List.suffix_rfl

/-- A text that is meant literally is sealed. -/
theorem sealed_escapeLiteral (t : Text) : Sealed (escapeLiteral t) := by
  intro r read
  obtain ⟨position, literal⟩ := Reader.steps_literal (r := .start []) rfl rfl t
  rw [tokens_escaped, literal] at read
  cases read
  exact ⟨rfl, rfl⟩

/-! ### The items at the start -/

/-- Whether a pattern starts with given items that can no longer change: what follows them is not empty, or an item may
start there. -/
structure Reader.Begins (base : List Item) (q : Reader) : Prop where
  single : q.build.frame.alternatives = []
  items : q.construct = .item ∧ base <:+ q.build.frame.items ∨ base <:+ q.build.frame.items.tail

namespace Reader.Begins

/-- What is firm leaves the items at the start. -/
theorem firm (begins : q.Begins base) (some_there : base ≠ []) (firm : Firm t) (ready : q.Ready)
    (read : q.steps (tokens t) = .ok q') : q'.Begins base where
  single := (firm.keeps q q' ready read).single begins.single
  items := by
    right
    rcases begins.items with ⟨item, suffix⟩ | suffix
    · exact suffix.trans (firm.behind q q' ready read item begins.single)
    · apply suffix.trans
      apply (firm.keeps q q' ready read).floor begins.single
      intro no_items
      rw [no_items] at suffix
      exact some_there (List.suffix_nil.mp suffix)

/-- A text that is meant literally leaves the items at the start. -/
theorem literal (begins : q.Begins base) (some_there : base ≠ []) (ready : q.Ready)
    (read : q.steps (t.map literalToken) = .ok q') : q'.Begins base := by
  rcases begins.items with ⟨item, suffix⟩ | suffix
  · obtain ⟨position, literal⟩ := steps_literal item ready.noFlags t
    rw [literal] at read
    cases read
    exact ⟨begins.single, .inl ⟨rfl, suffix.trans (List.suffix_append _ _)⟩⟩
  · rw [← tokens_escaped] at read
    have keeps := keeps_of_sealed (compile_escapeLiteral t) (sealed_escapeLiteral t) ready read
    refine ⟨keeps.single begins.single, .inr (suffix.trans (keeps.floor begins.single ?_))⟩
    intro no_items
    rw [no_items] at suffix
    exact some_there (List.suffix_nil.mp suffix)

/-- When what rests is settled, the items are still at the start. -/
theorem settled {position : Nat} {build : Build} (begins : q.Begins base) (some_there : base ≠ [])
    (extends_ : q.build.Extends build) (settled : q.settle none = .ok ⟨position, .item, build⟩) :
    build.frame.alternatives = [] ∧ base <:+ build.frame.items := by
  refine ⟨extends_.alternatives.trans begins.single, ?_⟩
  rcases begins.items with ⟨item, suffix⟩ | suffix
  · rw [settle_item q item] at settled
    cases settled
    exact suffix
  · apply suffix.trans
    refine (extends_.floor fun no_items => ?_).1.trans (List.tail_suffix _)
    rw [no_items] at suffix
    exact some_there (List.suffix_nil.mp suffix)

end Reader.Begins

end Gherkin.Regex
