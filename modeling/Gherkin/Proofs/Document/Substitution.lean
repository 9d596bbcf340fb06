import Mathlib.Data.List.Forall2
import Gherkin.Document.Outline
import Gherkin.Proofs.Regex.Choice

/-! # Filling in placeholders

What a text says once values are filled in is found in one scan from left to right: at each place the longest name
that stands there in angle brackets is replaced by its value, and the scan goes on behind it (`Gherkin.Filled`). The
pattern of all names does this, whatever the names are, because they are escaped and longer ones are tried first; and
a scenario is filled in text by text for each row of its examples (`Gherkin.substitute_filled`).
-/

namespace Gherkin

/-- A name in angle brackets. -/
def placeholder (name : Text) : Text := '<' :: name ++ ['>']

/-- What a text says once values are filled in. -/
inductive Filled (values : Record) : Text → Text → Prop
  | done : Filled values [] []
  | placeholder {name value rest out : Text} (known : values.lookup name = some value)
      (longest : ∀ other, (values.lookup other).isSome → placeholder other <+: placeholder name ++ rest →
        other.length ≤ name.length)
      (further : Filled values rest out) : Filled values (placeholder name ++ rest) (value ++ out)
  | copied {c : Char} {rest out : Text}
      (none_fits : ∀ name, (values.lookup name).isSome → ¬placeholder name <+: c :: rest)
      (further : Filled values rest out) : Filled values (c :: rest) (c :: out)

/-! ### The pattern of the names -/

namespace Regex

/-- A text in angle brackets that is one of several, as a pattern. -/
def Node.bracketed (texts : List Text) : Node :=
  sequenceOf [(.atom, .char '>'), (.atom, .group 1 (.anyOf texts)), (.atom, .char '<')]

/-- Nothing is wrong with a text in angle brackets that is one of several. -/
theorem Node.fault?_bracketed (texts : List Text) : (bracketed texts).fault? false = none := by
  apply fault?_sequenceOf
  simp only [List.forall_mem_cons, List.not_mem_nil, false_imp_iff, implies_true, and_true]
  exact ⟨rfl, fault?_anyOf texts, rfl⟩

/-- The source of texts in angle brackets can always be read. -/
theorem compile_bracketed [CharacterNames] (texts : List Text) :
    compile ("<(" ++ alternativesSource texts ++ ")>") =
      .ok ⟨"<(" ++ alternativesSource texts ++ ")>", 1, .bracketed texts⟩ := by
  have cut : tokens ("<(" ++ alternativesSource texts ++ ")>") =
      .plain '<' :: .plain '(' :: (tokens (alternativesSource texts) ++ [.plain ')', .plain '>']) := by
    have closed : .dangling ∉ tokens (alternativesSource texts) := fun member => (plain_alternativesSource member).2 rfl
    exact congrArg (Token.plain '<' :: Token.plain '(' :: ·) (tokens_append closed [')', '>'])
  have plain : ∀ token ∈ tokens (alternativesSource texts) ++ [.plain ')', .plain '>'],
      token ≠ .plain '?' ∧ token ≠ .dangling := by
    rw [List.forall_mem_append]
    exact ⟨fun _ => plain_alternativesSource, by decide⟩
  let inside : Build := (Build.start []).push .atom (.char '<') |>.openCapture 1
  obtain ⟨position, alternatives, items, read, node⟩ :=
    Reader.steps_anyOf (r := ⟨2, .item, inside⟩) rfl rfl rfl rfl texts
  replace node : (inside.holding alternatives items).frame.node = .anyOf texts := node
  -- What stands behind the parenthesis is no extension, so it is read as inside the group.
  have opens : (Reader.start []).steps (tokens ("<(" ++ alternativesSource texts ++ ")>")) =
      (⟨2, .item, inside⟩ : Reader).steps (tokens (alternativesSource texts) ++ [.plain ')', .plain '>']) := by
    let behind : Reader := ⟨1, .item, (Build.start []).push .atom (.char '<')⟩
    have opening : behind.step (.plain '(') = .ok ⟨2, .groupStart, behind.build⟩ := rfl
    obtain ⟨_, _, settled, goes_on⟩ := Reader.step_open (q := behind) rfl opening
    cases settled
    have first : (Reader.start []).step (.plain '<') = .ok behind := rfl
    rw [cut, Reader.steps_cons, first, Except.bind, Reader.steps_cons, opening]
    cases rest : tokens (alternativesSource texts) ++ [.plain ')', .plain '>'] with
    | nil => simp at rest
    | cons token rest => exact goes_on token _ (plain token (by simp [rest])).1
  have steps : (Reader.start []).steps (tokens ("<(" ++ alternativesSource texts ++ ")>")) =
      .ok ⟨position + 2, .item, ⟨⟨.whole, 0, [], none, [], [(.atom, .char '>'), (.atom, .group 1 (.anyOf texts)),
        (.atom, .char '<')]⟩, [], 1, [(1, (Node.anyOf texts).width)], [], []⟩⟩ := by
    rw [opens, Reader.steps_append, read, ← node]
    rfl
  refine compileWith_of_steps ?_ steps (Reader.finish_item rfl ?_)
  · rw [cut]
    simp only [List.mem_cons, reduceCtorEq, false_or]
    exact fun member => (plain _ member).2 rfl
  · have sound : (Frame.mk .whole 0 [] none [] [(.atom, .char '>'), (.atom, .group 1 (.anyOf texts)),
        (.atom, .char '<')]).node.fault? false = none := Node.fault?_bracketed texts
    simp [Build.fault?, Build.hasTwoModes, sound]

/-- The place behind a name in angle brackets, if that stands there. -/
def behind? (s : Cursor) (name : Text) : Option Cursor :=
  if placeholder name <+: s.rest then
    some (s.past (placeholder name) [(1, name)] (s.rest.drop (placeholder name).length))
  else none

theorem behind?_of_starts {s : Cursor} {name rest : Text} (there : s.rest = placeholder name ++ rest) :
    behind? s name = some (s.past (placeholder name) [(1, name)] rest) := by
  rw [behind?, there, if_pos (List.prefix_append _ _), List.drop_left]

/-- The first of the texts that stands in angle brackets is what matches. -/
theorem run_bracketed {texts : List Text} (some_there : texts ≠ []) (s : Cursor) :
    (Node.bracketed texts).run s some = texts.findSome? (behind? s) := by
  have sequence : (Node.bracketed texts).run s some = (Node.literal ['<']).run s fun t =>
      (Node.anyOf texts).run t fun u => (Node.literal ['>']).run (u.capture 1 t) some := rfl
  rw [sequence]
  by_cases opens : ['<'] <+: s.rest
  · obtain ⟨inside, whole⟩ := opens
    let inner := s.past ['<'] [] inside
    rw [run_literal ['<'] inside _ _ whole.symm]
    change (Node.anyOf texts).run inner (fun u => (Node.literal ['>']).run (u.capture 1 inner) some) = _
    rw [run_anyOf texts some_there]
    congr 1
    funext name
    by_cases fits : placeholder name <+: s.rest
    · obtain ⟨rest, fits⟩ := fits
      have there : inside = name ++ (['>'] ++ rest) := by
        simpa [placeholder] using whole.trans fits.symm
      rw [behind?_of_starts fits.symm, run_literal name _ inner _ there, Cursor.capture_past there,
        run_literal ['>'] rest _ _ rfl, Cursor.past_past, Cursor.past_past]
      rfl
    · rw [behind?, if_neg fits]
      by_cases front : name <+: inside
      · obtain ⟨rest, there⟩ := front
        rw [run_literal name rest inner _ there.symm]
        apply run_literal_elsewhere
        rintro ⟨behind, closes⟩
        obtain rfl : ['>'] ++ behind = rest := closes
        apply fits
        refine ⟨behind, ?_⟩
        rw [← whole, ← there]
        simp [placeholder]
      · exact run_literal_elsewhere name inner _ front
  · have nowhere : ∀ name ∈ texts, behind? s name = none :=
      fun name _ => if_neg fun fits => opens ((List.prefix_append ['<'] (name ++ ['>'])).trans fits)
    rw [List.findSome?_eq_none_iff.mpr nowhere]
    exact run_literal_elsewhere ['<'] s _ opens

theorem findSome?_behind_eq_none {names : List Text} {s : Cursor} (missed : names.findSome? (behind? s) = none) :
    ∀ name ∈ names, ¬placeholder name <+: s.rest := by
  intro name member fits
  have none_there := List.findSome?_eq_none_iff.mp missed name member
  rw [behind?, if_pos fits] at none_there
  cases none_there

/-- Among names of which longer ones come first, the first that stands in angle brackets is a longest one. -/
theorem findSome?_behind_eq_some {names : List Text} {s t : Cursor}
    (sorted : names.Pairwise fun a b => b.length ≤ a.length) (found : names.findSome? (behind? s) = some t) :
    ∃ name ∈ names, ∃ rest, s.rest = placeholder name ++ rest ∧ t = s.past (placeholder name) [(1, name)] rest ∧
      ∀ other ∈ names, placeholder other <+: s.rest → other.length ≤ name.length := by
  obtain ⟨longer, name, shorter, rfl, matched, missed⟩ := List.findSome?_eq_some_iff.mp found
  have first := List.findSome?_eq_none_iff.mpr missed
  rw [List.pairwise_append, List.pairwise_cons] at sorted
  by_cases fits : placeholder name <+: s.rest
  · obtain ⟨rest, there⟩ := fits
    rw [behind?_of_starts there.symm] at matched
    refine ⟨name, by simp, rest, there.symm, (Option.some.inj matched).symm, fun other member fits => ?_⟩
    rcases List.mem_append.mp member with before | behind
    · exact absurd fits (findSome?_behind_eq_none first other before)
    · rcases List.mem_cons.mp behind with rfl | behind
      · exact Nat.le_refl _
      · exact sorted.2.1.1 other behind
  · rw [behind?, if_neg fits] at matched
    cases matched

/-- The characters of a match are passed over. -/
theorem replaceFrom_skip (r : Regex) (value : (Nat → Option Text) → Text) (before word rest : Text) :
    r.replaceFrom value before word.length (word ++ rest) = r.replaceFrom value (word.reverse ++ before) 0 rest := by
  induction word generalizing before with
  | nil => rfl
  | cons c word ih =>
    rw [List.reverse_cons, List.append_assoc, List.singleton_append]
    exact ih (c :: before)

end Regex

/-! ### Filling in a text -/

section Text

variable {values : Record}

/-- The pass over the pattern of all names, longer ones first, fills a text in. -/
theorem filled_replaceFrom {names : List Text} {source : Text} (some_there : names ≠ [])
    (sorted : names.Pairwise fun a b => b.length ≤ a.length)
    (all : ∀ name, name ∈ names ↔ (values.lookup name).isSome) (before t : Text) :
    Filled values t ((⟨source, 1, .bracketed names⟩ : Regex).replaceFrom
      (fun group => ((group 1).bind values.lookup).getD []) before 0 t) := by
  -- On the length of the text, because a match is passed over as a whole.
  induction size : t.length using Nat.strong_induction_on generalizing t before with
  | _ n ih =>
    cases t with
    | nil => exact .done
    | cons c rest =>
      rw [Regex.replaceFrom]
      dsimp only
      rw [Regex.run_bracketed some_there]
      cases found : names.findSome? (Regex.behind? ⟨before, c :: rest, []⟩) with
      | none =>
        exact .copied (fun name known => Regex.findSome?_behind_eq_none found name ((all name).mpr known))
          (ih _ (by simp [← size]) _ _ rfl)
      | some behind =>
        obtain ⟨name, member, tail, whole, rfl, longest⟩ := Regex.findSome?_behind_eq_some sorted found
        obtain ⟨value, known⟩ := Option.isSome_iff_exists.mp ((all name).mp member)
        dsimp only at whole longest
        obtain rfl : rest = name ++ ['>'] ++ tail := (List.cons.inj whole).2
        have passed : (name ++ ['>'] ++ tail).length - tail.length = (name ++ ['>']).length := by
          rw [List.length_append, Nat.add_sub_cancel]
        have given : ((List.lookup 1 [(1, name)]).bind values.lookup).getD [] = value := by simp [known]
        simp only [Regex.Cursor.past, List.append_nil]
        rw [whole, passed, Regex.replaceFrom_skip, given]
        rw [whole] at longest
        exact .placeholder known (fun other known fits => longest other ((all other).mpr known) fits)
          (ih _ (by simp [← size]; omega) _ _ rfl)

theorem isSome_lookup {name : Text} : (values.lookup name).isSome ↔ name ∈ values.map Prod.fst := by
  induction values with
  | nil => simp [Entries.lookup]
  | cons field rest ih =>
    by_cases same : field.1 = name
    · simp [Entries.lookup, same]
    · simp [Entries.lookup, same, ih, Ne.symm same]

theorem forall_known {holds : Text → Prop} (each : ∀ field ∈ values, holds field.1) :
    ∀ name, (values.lookup name).isSome → holds name := by
  intro name known
  obtain ⟨field, member, rfl⟩ := List.mem_map.mp (isSome_lookup.mp known)
  exact each field member

theorem filled_of_nil (t : Text) : Filled [] t t := by
  induction t with
  | nil => exact .done
  | cons c rest ih => exact .copied (fun _ known => nomatch known) ih

/-- Replacing the names in angle brackets fills a text in. -/
theorem filled_substitute (values : Record) (t : Text) : Filled values t (substitute values t) := by
  by_cases nothing : (values.isEmpty || t.isEmpty) = true
  · rw [substitute, if_pos nothing]
    rw [Bool.or_eq_true, List.isEmpty_iff, List.isEmpty_iff] at nothing
    rcases nothing with rfl | rfl
    · exact filled_of_nil t
    · exact .done
  · rw [substitute, if_neg nothing]
    let names := (values.map Prod.fst).mergeSort fun a b => b.length ≤ a.length
    have compiled : Regex.compile (placeholderPattern (values.map Prod.fst)) =
        .ok ⟨_, 1, .bracketed names⟩ := Regex.compile_bracketed names
    have some_there : names ≠ [] := by
      intro none_there
      have count : names.length = (values.map Prod.fst).length := List.length_mergeSort _
      rw [none_there, List.length_map, List.length_nil, eq_comm, List.length_eq_zero_iff] at count
      simp [count] at nothing
    have sorted : names.Pairwise fun a b => b.length ≤ a.length := by
      have order : names.Pairwise fun a b => decide (b.length ≤ a.length) = true := List.pairwise_mergeSort
        (fun a b c first second => by simp only [decide_eq_true_eq] at *; omega)
        (fun a b => by simp only [Bool.or_eq_true, decide_eq_true_eq]; omega) (values.map Prod.fst)
      simpa only [decide_eq_true_eq] using order
    rw [compiled]
    exact filled_replaceFrom some_there sorted (fun name => List.mem_mergeSort.trans isSome_lookup.symm) [] t

/-- A text is filled in in one way. -/
theorem Filled.unique {t out other : Text} (first : Filled values t out) (second : Filled values t other) :
    out = other := by
  induction first generalizing other with
  | done => cases second; rfl
  | @placeholder name value rest out known longest further ih =>
    generalize whole : Gherkin.placeholder name ++ rest = t at second
    cases second with
    | done => cases whole
    | @placeholder name' value' rest' out' known' longest' further' =>
      have front : Gherkin.placeholder name <+: Gherkin.placeholder name' ++ rest' := ⟨rest, whole⟩
      have front' : Gherkin.placeholder name' <+: Gherkin.placeholder name ++ rest := ⟨rest', whole.symm⟩
      have size : name.length = name'.length := Nat.le_antisymm
        (longest' name (by rw [known]; rfl) front) (longest name' (by rw [known']; rfl) front')
      obtain ⟨same, rfl⟩ := List.append_inj whole (by simp [Gherkin.placeholder, size])
      obtain rfl : name = name' := by simpa [Gherkin.placeholder] using same
      obtain rfl := Option.some.inj (known.symm.trans known')
      rw [ih further']
    | copied none_fits further' =>
      exact absurd ⟨rest, whole⟩ (none_fits name (by rw [known]; rfl))
  | @copied c rest out none_fits further ih =>
    generalize whole : c :: rest = t at second
    cases second with
    | done => cases whole
    | @placeholder name' value' rest' out' known' longest' further' =>
      exact absurd ⟨rest', whole.symm⟩ (none_fits name' (by rw [known']; rfl))
    | copied none_fits' further' =>
      cases whole
      rw [ih further']

theorem substitute_eq_iff {t out : Text} : substitute values t = out ↔ Filled values t out :=
  ⟨fun same => same ▸ filled_substitute values t, (filled_substitute values t).unique⟩

end Text

/-! ### Filling in a scenario -/

/-- Whether a row is another one with its cells filled in. -/
structure Row.FilledAs (values : Record) (row filled : Row) : Prop where
  cells : List.Forall₂ (Filled values) row.cells filled.cells
  others : filled = { row with cells := filled.cells }

/-- Whether a table is another one with its rows filled in. -/
def DataTable.FilledAs (values : Record) (table filled : DataTable) : Prop :=
  List.Forall₂ (Row.FilledAs values) table.rows filled.rows

/-- Whether a doc string is another one with its content filled in. -/
structure DocString.FilledAs (values : Record) (doc filled : DocString) : Prop where
  content : Filled values doc.content filled.content
  others : filled = { doc with content := filled.content }

/-- Whether a step is another one with its text, the cells of its table and its doc string filled in. -/
structure Step.FilledAs (values : Record) (step filled : Step) : Prop where
  text : Filled values step.text filled.text
  table : Option.Rel (DataTable.FilledAs values) step.table filled.table
  doc : Option.Rel (DocString.FilledAs values) step.doc filled.doc
  others : filled = { step with text := filled.text, table := filled.table, doc := filled.doc }

/-- Whether a scenario is another one with its name and its steps filled in and without examples. -/
structure Scenario.FilledAs (values : Record) (s filled : Scenario) : Prop where
  name : Filled values s.name filled.name
  steps : List.Forall₂ (Step.FilledAs values) s.steps filled.steps
  others : filled = { s with name := filled.name, steps := filled.steps, examples := [] }

theorem forall₂_map {α : Type} {related : α → α → Prop} {change : α → α} (changed : ∀ item, related item (change item))
    (items : List α) : List.Forall₂ related items (items.map change) :=
  List.forall₂_map_right_iff.mpr (List.forall₂_same.mpr fun item _ => changed item)

theorem optionRel_map {α : Type} {related : α → α → Prop} {change : α → α}
    (changed : ∀ item, related item (change item)) (item : Option α) : Option.Rel related item (item.map change) := by
  cases item with
  | none => exact .none
  | some item => exact .some (changed item)

variable (values : Record)

theorem filledAs_table (table : DataTable) : table.FilledAs values (table.substitute values) :=
  forall₂_map (fun row => ⟨forall₂_map (filled_substitute values) row.cells, rfl⟩) table.rows

theorem filledAs_step (step : Step) : step.FilledAs values (step.substitute values) where
  text := filled_substitute values step.text
  table := optionRel_map (filledAs_table values) step.table
  doc := optionRel_map (fun doc => ⟨filled_substitute values doc.content, rfl⟩) step.doc
  others := rfl

theorem filledAs_scenario (s : Scenario) : s.FilledAs values (s.substitute values) where
  name := filled_substitute values s.name
  steps := forall₂_map (filledAs_step values) s.steps
  others := rfl

/-! ### The values of a row -/

theorem lookup_recordOf_go {names cells : List Text} {record : Record} {name value : Text} :
    (recordOf.go names cells record).lookup name = some value ↔
      (∃ before behind, names = before ++ name :: behind ∧ name ∉ behind ∧ value = cells.getD before.length []) ∨
        name ∉ names ∧ record.lookup name = some value := by
  induction names generalizing cells record with
  | nil => simp [recordOf.go]
  | cons first names ih =>
    rw [recordOf.go, ih]
    have later (i : Nat) : cells.tail.getD i [] = cells.getD (i + 1) [] := by cases cells <;> rfl
    have here : cells.headD [] = cells.getD 0 [] := by cases cells <;> rfl
    constructor
    · rintro (⟨before, behind, rfl, last, rfl⟩ | ⟨absent, stored⟩)
      · exact .inl ⟨first :: before, behind, rfl, last, later before.length⟩
      · by_cases same : name = first
        · subst same
          rw [Entries.lookup_store] at stored
          exact .inl ⟨[], names, rfl, absent, (Option.some.inj stored).symm.trans here⟩
        · rw [Entries.lookup_store_of_ne _ same] at stored
          exact .inr ⟨List.not_mem_cons_of_ne_of_not_mem same absent, stored⟩
    · rintro (⟨before, behind, split, last, rfl⟩ | ⟨absent, stored⟩)
      · cases before with
        | nil =>
          cases split
          exact .inr ⟨last, (Entries.lookup_store _ _ _).trans (congrArg some here)⟩
        | cons _ before =>
          cases split
          exact .inl ⟨before, behind, rfl, last, (later before.length).symm⟩
      · have other : name ≠ first := List.ne_of_not_mem_cons absent
        exact .inr ⟨List.not_mem_of_not_mem_cons absent, (Entries.lookup_store_of_ne _ other _).trans stored⟩

/-- In a row, a column name stands for the cell of the last column of that name. -/
theorem Examples.lookup_rowValues (e : Examples) (row : Row) (name value : Text) :
    (e.rowValues row).lookup name = some value ↔ ∃ before behind,
      e.columnNames = before ++ name :: behind ∧ name ∉ behind ∧ value = row.cells.getD before.length [] := by
  rw [rowValues, recordOf, lookup_recordOf_go]
  simp [Entries.lookup]

/-- Filling in is what replacing does in every text. The scenarios of an examples block are those of the rows of its
body in turn, each filled in with the cells of its row, in which the last column of a name counts; without a header
there are none. -/
theorem substitute_filled :
    (∀ values t out, substitute values t = out ↔ Filled values t out) ∧
    (∀ (s : Scenario) (e : Examples), (e.header = none → s.expand e = []) ∧
      (e.header ≠ none → List.Forall₂ (fun (placed : Row × Nat) (row : ExampleRow × Scenario) =>
        row.1 = ⟨placed.2, e.rowValues placed.1⟩ ∧ s.FilledAs (e.rowValues placed.1) row.2)
        e.body.zipIdx (s.expand e))) ∧
    ∀ (e : Examples) (row : Row) (name value : Text),
      (e.rowValues row).lookup name = some value ↔ ∃ before behind,
        e.columnNames = before ++ name :: behind ∧ name ∉ behind ∧ value = row.cells.getD before.length [] := by
  refine ⟨fun values t out => substitute_eq_iff, fun s e => ⟨fun absent => ?_, fun given => ?_⟩,
    Examples.lookup_rowValues⟩
  · rw [Scenario.expand, Examples.rows, absent]
    rfl
  · obtain ⟨header, given⟩ := Option.ne_none_iff_exists'.mp given
    rw [Scenario.expand, Examples.rows, given, List.map_map, List.forall₂_map_right_iff, List.forall₂_same]
    exact fun placed _ => ⟨rfl, filledAs_scenario _ s⟩

/-- Names that overlap, an empty name and values that look like placeholders are filled in in one pass. -/
theorem substitute_filled_overlapping :
    let e : Examples := ⟨"Examples", [], [], [], some ⟨["a", "b", "a>", "", "b"], 3⟩, [⟨["<b>", "0", "2"], 4⟩], 2⟩
    let s : Scenario := ⟨"Outline", "<a>><<a><><c>", [], [], [], [e], 1, true⟩
    e.header ≠ none ∧
      s.expand e = [(⟨0, [("a", "<b>"), ("b", ""), ("a>", "2"), ("", "")]⟩,
        ⟨"Outline", "2<<b><c>", [], [], [], [], 1, true⟩)] := by
  intro e s
  refine ⟨by simp [e], ?_⟩
  have rows := (substitute_filled.2.1 s e).2 (by simp [e])
  let values : Record := [("a", "<b>"), ("b", ""), ("a>", "2"), ("", "")]
  have name : Filled values "<a>><<a><><c>" "2<<b><c>" :=
    @Filled.placeholder values "a>" "2" "<<a><><c>" _ rfl (forall_known (by decide))
      (.copied (forall_known (by decide))
        (@Filled.placeholder values "a" "<b>" "<><c>" _ rfl (forall_known (by decide))
          (@Filled.placeholder values [] [] "<c>" _ rfl (forall_known (by decide))
            (.copied (forall_known (by decide)) (.copied (forall_known (by decide))
              (.copied (forall_known (by decide)) .done))))))
  obtain ⟨⟨index, ⟨keyword, title, description, tags, steps, examples, line, outline⟩⟩, rest, ⟨at_, filled⟩, none_left,
    same⟩ := List.forall₂_cons_left_iff.mp rows
  obtain rfl := List.forall₂_nil_left_iff.mp none_left
  obtain rfl : steps = [] := List.forall₂_nil_left_iff.mp filled.steps
  obtain rfl : title = "2<<b><c>" :=
    ((substitute_filled.1 values _ _).mpr filled.name).symm.trans ((substitute_filled.1 values _ _).mpr name)
  obtain rfl : index = ⟨0, values⟩ := at_
  exact same.trans (congrArg (fun scenario => [(_, scenario)]) filled.others)

end Gherkin
