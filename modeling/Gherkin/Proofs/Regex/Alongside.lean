import Mathlib.Data.Char
import Gherkin.Proofs.Regex.Changes
import Gherkin.Proofs.Regex.Shape

/-! # Reading behind other things

Two readers read the same tokens, one from the start and the other one behind other things. Both build the same: the
groups that are open have the same shapes, counted from where the second reader began, and what this one held before
stays below (`Gherkin.Regex.Build.Beside`). Only at the beginning, the second reader can be behind the first one, where
the tokens still belong to a construct that it had begun before (`Gherkin.Regex.Reader.Lags`). Each step keeps this
(`Gherkin.Regex.Reader.Alongside.step`).
-/

namespace Gherkin.Regex

/-! ### What two readers have built -/

/-- What holds of the group in which a reader began, when it held `base` and `before` groups were counted, beside the
whole pattern of a reader that began with nothing. If both began `fresh`, they add the same items. -/
structure Frame.Grounded (before : Nat) (fresh : Prop) (base f f' : Frame) : Prop where
  noFlags : f.flags = []
  noFlags' : f'.flags = []
  scope : f'.scope = base.scope
  position : f'.position = base.position
  single : f'.alternatives = [] ↔ f.alternatives = [] ∧ base.alternatives = []
  groups : ∀ group ∈ f'.groupsIn, group ∈ base.groupsIn ∨
    ∃ own ∈ f.groupsIn, group.1 = own.1 + before ∧ group.2.shape 0 = own.2.shape before
  floor : base.items ≠ [] → f'.alternatives = [] → base.items.tail <:+ f'.items.tail ∧ f'.items ≠ []
  counted : fresh → f'.alternatives = [] →
    f'.items.length = f.items.length + base.items.length ∧ base.items <:+ f'.items
  alike : fresh → base.items = [] → base.alternatives = [] → f.AlikeInside before f'

/-- Open groups beside one another: those that were opened since are alike, and under them is the group in which the
second reader began, with those around it. -/
inductive Stacked (before : Nat) (fresh : Prop) (base : Frame) (under : List Frame) :
    List Frame → List Frame → Prop where
  | bottom {f f' : Frame} : Frame.Grounded before fresh base f f' → Stacked before fresh base under [f] (f' :: under)
  | inner {f f' : Frame} {rest rest' : List Frame} : f.Alike before f' →
      Stacked before fresh base under rest rest' → Stacked before fresh base under (f :: rest) (f' :: rest')

/-- What a reader has built beside another one that began where `base` was built. -/
structure Build.Beside (base : Build) (fresh : Prop) (b b' : Build) : Prop where
  groups : b'.groups = b.groups + base.groups
  frames : Stacked base.groups fresh base.frame base.outer (b.frame :: b.outer) (b'.frame :: b'.outer)

/-! ### Changes of open groups -/

/-- The shape of a leaf is the leaf. -/
theorem Leaf.shape_node (leaf : Leaf) (flags : List Flag) (before : Nat) :
    (leaf.node flags).shape before = leaf.node flags := by
  cases leaf <;> rfl

theorem Leaf.groupsIn_node (leaf : Leaf) (flags : List Flag) : (leaf.node flags).groupsIn = [] := by
  cases leaf <;> rfl

namespace Frame

variable {before : Nat} {fresh : Prop} {base f f' g g' : Frame} {kind : ItemKind} {node node' : Node}
  {earlier earlier' : List Item} {least : Nat} {most : Option Nat} {style : Style}

/-- The frame whose last item is repeated. -/
abbrev repeating (f : Frame) (least : Nat) (most : Option Nat) (style : Style) (node : Node) (earlier : List Item) :
    Frame :=
  { f with items := (.repeated, .loop least most style node) :: earlier }

/-- Repeating the last item leaves the groups of a frame as they are. -/
theorem groupsIn_repeating (items : f.items = (kind, node) :: earlier) :
    (f.repeating least most style node earlier).groupsIn = f.groupsIn := by
  simp [groupsIn, items, Node.groupsIn]

/-- Frames that are alike stay so with items of one shape. -/
theorem AlikeInside.push (alike : f.AlikeInside before f') (kind : ItemKind)
    (same : node'.shape 0 = node.shape before) : (f.push kind node).AlikeInside before (f'.push kind node') where
  alternatives := alike.alternatives
  items := by simp only [Frame.push, List.map_cons, itemShape, same, alike.items]

/-- Frames that are alike stay so where their last items are repeated in the same way. -/
theorem AlikeInside.repeating (alike : f.AlikeInside before f') (items : f.items = (kind, node) :: earlier)
    (items' : f'.items = (kind, node') :: earlier') :
    (f.repeating least most style node earlier).AlikeInside before (f'.repeating least most style node' earlier') where
  alternatives := alike.alternatives
  items := by
    have same := alike.items
    simp only [items, items', List.map_cons, itemShape, List.cons.injEq, Prod.mk.injEq] at same
    simp only [List.map_cons, itemShape, Node.shape, same.1.2, same.2]

/-- Frames that are alike stay so where an alternative ends. -/
theorem AlikeInside.nextAlternative (alike : f.AlikeInside before f') :
    f.nextAlternative.AlikeInside before f'.nextAlternative where
  alternatives := by
    simp only [Frame.nextAlternative, List.map_cons, alike.sequence, alike.alternatives]
  items := rfl

/-- Whatever changes inside groups that are alike, changes them alike. -/
theorem Alike.of_inside (alike : f.Alike before f') (inside : g.AlikeInside before g') (scope : g.scope = f.scope)
    (scope' : g'.scope = f'.scope) (flags : g.flags = f.flags) (flags' : g'.flags = f'.flags) : g.Alike before g' where
  toAlikeInside := inside
  scope := by rw [scope, scope', alike.scope]
  flags := by rw [flags, flags', alike.flags]

namespace Grounded

/-- Both readers add an item of one shape. -/
theorem push (grounded : Grounded before fresh base f f') (kind : ItemKind)
    (same : node'.shape 0 = node.shape before) :
    Grounded before fresh base (f.push kind node) (f'.push kind node') where
  noFlags := grounded.noFlags
  noFlags' := grounded.noFlags'
  scope := grounded.scope
  position := grounded.position
  single := grounded.single
  groups group member := by
    rcases mem_groupsIn_push.mp member with new | held
    · obtain ⟨own, there, alike⟩ := Node.exists_of_shape_eq same new
      exact .inr ⟨own, mem_groupsIn_push.mpr (.inl there), alike⟩
    · refine (grounded.groups group held).imp_right ?_
      rintro ⟨own, there, alike⟩
      exact ⟨own, mem_groupsIn_push.mpr (.inr there), alike⟩
  floor some_there single := by
    have floor := grounded.floor some_there single
    exact ⟨floor.1.trans (List.tail_suffix _), List.cons_ne_nil _ _⟩
  counted began single := by
    obtain ⟨length, suffix⟩ := grounded.counted began single
    refine ⟨?_, suffix.trans (List.suffix_cons _ _)⟩
    simp only [Frame.push, List.length_cons, length]
    omega
  alike began no_items no_alternatives := (grounded.alike began no_items no_alternatives).push kind same

/-- Both readers repeat their last item. -/
theorem repeating (grounded : Grounded before fresh base f f') (items : f.items = (kind, node) :: earlier)
    (items' : f'.items = (kind, node') :: earlier') : Grounded before fresh base
      (f.repeating least most style node earlier) (f'.repeating least most style node' earlier') where
  noFlags := grounded.noFlags
  noFlags' := grounded.noFlags'
  scope := grounded.scope
  position := grounded.position
  single := grounded.single
  groups group member := by
    rw [groupsIn_repeating items'] at member
    rw [groupsIn_repeating items]
    exact grounded.groups group member
  floor some_there single := by
    have floor := (grounded.floor some_there single).1
    rw [items'] at floor
    exact ⟨floor, List.cons_ne_nil _ _⟩
  counted began single := by
    obtain ⟨length, suffix⟩ := grounded.counted began single
    simp only [items, items', List.length_cons] at length suffix ⊢
    refine ⟨length, ?_⟩
    rcases List.suffix_cons_iff.mp suffix with whole | rest
    · rw [whole, List.length_cons] at length
      omega
    · exact rest.trans (List.suffix_cons _ _)
  alike began no_items no_alternatives := (grounded.alike began no_items no_alternatives).repeating items items'

/-- Both readers start another alternative. -/
theorem nextAlternative (grounded : Grounded before fresh base f f') :
    Grounded before fresh base f.nextAlternative f'.nextAlternative where
  noFlags := grounded.noFlags
  noFlags' := grounded.noFlags'
  scope := grounded.scope
  position := grounded.position
  single := by simp [Frame.nextAlternative]
  groups group member := by
    simp only [mem_groupsIn_nextAlternative] at member ⊢
    exact grounded.groups group member
  floor _ single := absurd single (List.cons_ne_nil _ _)
  counted _ single := absurd single (List.cons_ne_nil _ _)
  alike began no_items no_alternatives := (grounded.alike began no_items no_alternatives).nextAlternative

/-- The first reader alone changes what it holds, but not its groups. -/
theorem left (stale : ¬fresh) (grounded : Grounded before fresh base f f') (flags : g.flags = f.flags)
    (alternatives : g.alternatives = f.alternatives) (groups : f.groupsIn ⊆ g.groupsIn) :
    Grounded before fresh base g f' where
  noFlags := flags.trans grounded.noFlags
  noFlags' := grounded.noFlags'
  scope := grounded.scope
  position := grounded.position
  single := alternatives ▸ grounded.single
  groups group member := by
    refine (grounded.groups group member).imp_right ?_
    rintro ⟨own, there, alike⟩
    exact ⟨own, groups there, alike⟩
  floor := grounded.floor
  counted began := absurd began stale
  alike began := absurd began stale

theorem pushLeft (stale : ¬fresh) (grounded : Grounded before fresh base f f') (kind : ItemKind) (node : Node) :
    Grounded before fresh base (f.push kind node) f' :=
  grounded.left stale rfl rfl fun _ member => mem_groupsIn_push.mpr (.inr member)

theorem repeatLeft (stale : ¬fresh) (grounded : Grounded before fresh base f f')
    (items : f.items = (kind, node) :: earlier) :
    Grounded before fresh base (f.repeating least most style node earlier) f' :=
  grounded.left stale rfl rfl fun _ member => by rwa [groupsIn_repeating items]

/-- The second reader alone adds an item without groups. -/
theorem pushRight (stale : ¬fresh) (grounded : Grounded before fresh base f f') (kind : ItemKind)
    (leaf : node.groupsIn = []) : Grounded before fresh base f (f'.push kind node) where
  noFlags := grounded.noFlags
  noFlags' := grounded.noFlags'
  scope := grounded.scope
  position := grounded.position
  single := grounded.single
  groups group member := by
    rw [mem_groupsIn_push, leaf] at member
    exact grounded.groups group (member.resolve_left List.not_mem_nil)
  floor some_there single :=
    ⟨(grounded.floor some_there single).1.trans (List.tail_suffix _), List.cons_ne_nil _ _⟩
  counted began := absurd began stale
  alike began := absurd began stale

/-- The second reader alone repeats its last item. -/
theorem repeatRight (stale : ¬fresh) (grounded : Grounded before fresh base f f')
    (items : f'.items = (kind, node) :: earlier) :
    Grounded before fresh base f (f'.repeating least most style node earlier) where
  noFlags := grounded.noFlags
  noFlags' := grounded.noFlags'
  scope := grounded.scope
  position := grounded.position
  single := grounded.single
  groups group member := grounded.groups group (by rwa [groupsIn_repeating items] at member)
  floor some_there single := by
    have floor := (grounded.floor some_there single).1
    rw [items] at floor
    exact ⟨floor, List.cons_ne_nil _ _⟩
  counted began := absurd began stale
  alike began := absurd began stale

end Grounded

end Frame

/-! ### Actions -/

namespace Stacked

variable {before : Nat} {fresh : Prop} {base : Frame} {under rest rest' : List Frame} {f f' g g' : Frame}

theorem flags (stacked : Stacked before fresh base under (f :: rest) (f' :: rest')) : f'.flags = f.flags := by
  cases stacked with
  | bottom grounded => rw [grounded.noFlags, grounded.noFlags']
  | inner alike _ => exact alike.flags

/-- The innermost groups change. -/
theorem update (stacked : Stacked before fresh base under (f :: rest) (f' :: rest'))
    (grounded : Frame.Grounded before fresh base f f' → Frame.Grounded before fresh base g g')
    (alike : f.Alike before f' → g.Alike before g') : Stacked before fresh base under (g :: rest) (g' :: rest') := by
  cases stacked with
  | bottom is => exact .bottom (grounded is)
  | inner is rest => exact .inner (alike is) rest

theorem push (stacked : Stacked before fresh base under (f :: rest) (f' :: rest')) (kind : ItemKind)
    {node node' : Node} (same : node'.shape 0 = node.shape before) :
    Stacked before fresh base under (f.push kind node :: rest) (f'.push kind node' :: rest') :=
  stacked.update (fun grounded => grounded.push kind same)
    fun alike => alike.of_inside (alike.toAlikeInside.push kind same) rfl rfl rfl rfl

/-- Where the first reader is in the whole pattern, the second one is where it began. -/
theorem grounded (stacked : Stacked before fresh base under [f] (f' :: rest')) :
    Frame.Grounded before fresh base f f' ∧ rest' = under := by
  cases stacked with
  | bottom grounded => exact ⟨grounded, rfl⟩
  | inner _ rest => cases rest

end Stacked

/-- Whether something has been built already. -/
def Build.Begun (b : Build) : Prop := b.outer ≠ [] ∨ b.frame.items ≠ [] ∨ b.frame.alternatives ≠ []

namespace Build.Beside

variable {base b b' c c' : Build} {fresh : Prop} {place place' : Nat} {action : Action}

theorem verbose (beside : base.Beside fresh b b') : b'.verbose = b.verbose := by
  rw [Build.verbose, Build.verbose, beside.frames.flags]

/-- An action that both perform changes both alike. -/
theorem change (beside : base.Beside fresh b b') (begun : base.Begun) (did : b.Change place action c)
    (did' : b'.Change place' action c') : base.Beside fresh c c' := by
  have flags := beside.frames.flags
  cases did with
  | leaf leaf =>
    cases did'
    refine ⟨beside.groups, beside.frames.push _ ?_⟩
    rw [flags, leaf.shape_node, leaf.shape_node]
  | reference | named =>
    cases did'
    refine ⟨beside.groups, beside.frames.push _ ?_⟩
    rw [flags]
    rfl
  | check =>
    cases did'
    exact beside
  | repeated least most style items =>
    cases did' with
    | repeated _ _ _ items' =>
      refine ⟨beside.groups, beside.frames.update (fun grounded => grounded.repeating items items') fun alike => ?_⟩
      exact alike.of_inside (alike.toAlikeInside.repeating items items') rfl rfl rfl rfl
  | alternative =>
    cases did'
    refine ⟨beside.groups, beside.frames.update (fun grounded => grounded.nextAlternative) fun alike => ?_⟩
    exact alike.of_inside alike.toAlikeInside.nextAlternative rfl rfl rfl rfl
  | opened length lookBehind names asked opens =>
    cases did' with
    | opened _ _ _ _ opens' =>
      have groups := beside.groups
      cases opens <;> cases opens'
      case capture.capture =>
        refine ⟨by simp only [groups]; omega, .inner ⟨⟨rfl, rfl⟩, ?_, flags⟩ beside.frames⟩
        simp only [Scope.shape, groups]
        congr 1
        omega
      case plain.plain =>
        exact ⟨groups, .inner ⟨⟨rfl, rfl⟩, rfl, by simp only [flags]⟩ beside.frames⟩
      all_goals exact ⟨groups, .inner ⟨⟨rfl, rfl⟩, rfl, flags⟩ beside.frames⟩
  | closed widths outer =>
    cases did' with
    | closed widths' outer' =>
      have frames := beside.frames
      rw [outer, outer'] at frames
      cases frames with
      | inner alike rest => exact ⟨beside.groups, rest.push .atom alike.closed⟩
  | flagged length added whole no_items single =>
    cases did' with
    | flagged _ _ whole' no_items' single' =>
      -- The second reader has built something before, so it takes no flags.
      have frames := beside.frames
      rw [whole, whole'] at frames
      obtain ⟨grounded, under⟩ := frames.grounded
      rcases begun with outer | items | alternatives
      · exact absurd under.symm outer
      · exact absurd no_items' (grounded.floor items single').2
      · exact absurd (grounded.single.mp single').2 alternatives

/-- The same actions keep patterns beside each other. -/
theorem performAll (beside : base.Beside fresh b b') (begun : base.Begun) {actions : List Action}
    (did : b.performAll place actions = .ok c) (did' : b'.performAll place' actions = .ok c') :
    base.Beside fresh c c' := by
  induction actions generalizing b b' with
  | nil =>
    cases did
    cases did'
    exact beside
  | cons action rest ih =>
    obtain ⟨middle, first, did⟩ := performAll_cons_eq_ok did
    obtain ⟨middle', first', did'⟩ := performAll_cons_eq_ok did'
    exact ih (beside.change begun first first') did did'

end Build.Beside

/-! ### Constructs that rest -/

/-- Whether an escape is written with digits only. -/
def Escape.isNumeric : Escape → Bool
  | .octal _ | .numeral _ => true
  | _ => false

namespace Construct

/-- Whether an escape is being read. -/
def isEscape : Construct → Bool
  | .escape _ => true
  | _ => false

/-- Whether the pattern may end in a construct. -/
def isResting : Construct → Bool
  | .item | .quantified .. | .bounds .. => true
  | .escape e => e.isNumeric
  | _ => false

variable {c c' : Construct} {actions : List Action} {d : Char}

/-- No group opens from where the pattern may end. -/
theorem opening?_of_resting (rests : c.isResting = true) : c.opening? = none := by
  cases c with
  | item | quantified | bounds | escape => rfl
  | _ => cases rests

/-- A character that is no punctuation is one of the pattern. -/
theorem scanPlain_ordinary (ordinary : d ∉ "|)([\x7b*+?.^$".toList) : scanPlain false d = .leaf (.char d) := by
  have differs (e : Char) (member : e ∈ "|)([\x7b*+?.^$".toList) : d ≠ e := by
    rintro rfl
    exact ordinary member
  unfold scanPlain
  split
  case h_12 => rfl
  all_goals exact absurd rfl (differs _ (by decide))

theorem scanPlain_digit (digit : d.isDigit = true) : scanPlain false d = .leaf (.char d) := by
  refine scanPlain_ordinary fun member => ?_
  have none_digit : ∀ e ∈ "|)([\x7b*+?.^$".toList, e.isDigit = false := by simp
  rw [none_digit d member] at digit
  cases digit

theorem isDigit_of_isOctal (octal : Escape.isOctal d = true) : d.isDigit = true := by
  simp only [Escape.isOctal, Bool.and_eq_true, decide_eq_true_eq] at octal
  simp only [Char.isDigit, Bool.and_eq_true, decide_eq_true_eq]
  exact ⟨octal.1, le_trans octal.2 (by decide)⟩

/-- A complete escape is an item. -/
theorem escaped_scan {escaped : Escaped} (scanned : escaped.scan = .ok (c, actions)) :
    c = .item ∧ ∀ action ∈ actions, action.isPlain := by
  cases escaped <;> cases scanned <;> exact ⟨rfl, List.forall_mem_singleton.mpr rfl⟩

/-- What bounds become with a token that belongs to them. -/
theorem scanBounds_eq_ok {low : Text} {high : Option Text}
    (scanned : scanBounds low high (.plain d) = .ok (c, actions)) :
    c.isResting = true ∧ c.isEscape = false ∧ ∀ action ∈ actions, action.isPlain := by
  unfold scanBounds at scanned
  dsimp only at scanned
  split at scanned
  · cases high <;> cases scanned <;> exact ⟨rfl, rfl, by simp⟩
  · split at scanned
    · cases scanned
      exact ⟨rfl, rfl, by simp⟩
    · unfold closeBounds at scanned
      dsimp only at scanned
      split at scanned
      · cases scanned
      · split at scanned
        · cases scanned
        · cases scanned
          exact ⟨rfl, rfl, List.forall_mem_singleton.mpr rfl⟩

/-- A character that belongs to bounds would be one of the pattern without them. -/
theorem scanPlain_bounds {low : Text} {high : Option Text} (more : boundsGoOn low high (.plain d) = true) :
    scanPlain false d = .leaf (.char d) := by
  simp only [boundsGoOn, Bool.or_eq_true, Bool.and_eq_true, beq_iff_eq] at more
  obtain (digit | ⟨rfl, _⟩) | ⟨rfl, _⟩ := more
  · exact scanPlain_digit digit
  · rfl
  · rfl

variable [CharacterNames] {token : Token}

/-- An escape that is written with digits goes on with a digit, and it stays such an escape until it is complete. -/
theorem read?_numeric {e : Escape} {result : Except Fault (Escape ⊕ Escaped)} (numeric : e.isNumeric = true)
    (read : e.read? token = some result) :
    (∃ d, token = .plain d ∧ d.isDigit = true) ∧ ∀ e', result = .ok (.inl e') → e'.isNumeric = true := by
  have complete {digits : Text} {e' : Escape} : (Escape.octalCode digits).map Sum.inr ≠ .ok (Sum.inl e') := by
    cases Escape.octalCode digits <;> simp [Except.map]
  cases e with
  | hex | nameStart | name => cases numeric
  | octal digits =>
    cases token with
    | escaped | dangling => cases read
    | plain d =>
      simp only [Escape.read?] at read
      split at read
      · cases read
      · next octal =>
        refine ⟨⟨d, rfl, isDigit_of_isOctal (by simpa using octal)⟩, ?_⟩
        rintro e' rfl
        split at read
        · cases read
          rfl
        · exact absurd (Option.some.inj read) complete
  | numeral digits =>
    cases token with
    | escaped | dangling => cases read
    | plain d =>
      simp only [Escape.read?] at read
      split at read
      · split at read
        · cases read
        · next digit =>
          refine ⟨⟨d, rfl, by simpa using digit⟩, ?_⟩
          rintro e' rfl
          split at read <;> cases read
          rfl
      · split at read
        · next octal =>
          refine ⟨⟨d, rfl, isDigit_of_isOctal octal⟩, ?_⟩
          rintro e' rfl
          exact absurd (Option.some.inj read) complete
        · cases read

/-- A construct that rests stays as it is, if a token belongs to it, or what has been read of it becomes items. -/
theorem settle_resting {token : Option Token} (rests : c.isResting = true)
    (settled : c.settle token = .ok (c', actions)) :
    c' = c ∧ actions = [] ∨ c' = .item ∧ ∀ action ∈ actions, action.isPlain := by
  cases settles_of_settle settled with
  | kept => exact .inl ⟨rfl, rfl⟩
  | items plain => exact .inr ⟨rfl, plain⟩
  | opened start | member start =>
    subst start
    cases rests

/-- A token that belongs to a repetition makes it lazy or possessive. -/
theorem quantified_kept {least : Nat} {most : Option Nat}
    (kept : (quantified least most).settle (some token) = .ok (quantified least most, [])) :
    ∃ d, token = .plain d ∧ (d = '?' ∨ d = '+') := by
  unfold settle at kept
  dsimp only at kept
  split at kept
  · next goes_on =>
    simp only [Bool.or_eq_true, decide_eq_true_eq, Option.some.injEq] at goes_on
    obtain rfl | rfl := goes_on
    · exact ⟨_, rfl, .inl rfl⟩
    · exact ⟨_, rfl, .inr rfl⟩
  · cases kept

/-- What a token that belongs to a construct at rest is: it says how a repetition goes on, or it would be a character of
the pattern if the construct had not been begun. -/
theorem scan_kept {verbose : Bool} {next : Construct} (rests : c.isResting = true) (begun : c ≠ .item)
    (kept : c.settle (some token) = .ok (c, [])) (scanned : c.scan verbose token = .ok (next, actions)) :
    (∃ least most style d, c = .quantified least most ∧ token = .plain d ∧ (d = '?' ∨ d = '+') ∧ next = .item ∧
      actions = [.repeated least most style]) ∨
    ∃ d, token = .plain d ∧ scanPlain false d = .leaf (.char d) ∧ next.isResting = true ∧
      (next.isEscape = true → c.isEscape = true) ∧ ∀ action ∈ actions, action.isPlain := by
  cases c with
  | item => exact absurd rfl begun
  | quantified least most =>
    obtain ⟨d, rfl, lazy⟩ := quantified_kept kept
    cases scanned
    exact .inl ⟨least, most, _, d, rfl, rfl, lazy, rfl, rfl⟩
  | bounds low high =>
    right
    unfold settle at kept
    dsimp only at kept
    split at kept
    · next more =>
      cases token with
      | escaped | dangling => cases more
      | plain d =>
        obtain ⟨resting, none_read, plain⟩ := scanBounds_eq_ok scanned
        exact ⟨d, rfl, scanPlain_bounds more, resting, by simp [none_read], plain⟩
    · cases kept
  | escape e =>
    right
    have read : ∃ result, e.read? token = some result := by
      unfold settle at kept
      dsimp only at kept
      split at kept
      · next result read => exact ⟨result, read⟩
      · split at kept
        · cases (escaped_scan kept).1
        · cases kept
    obtain ⟨result, read⟩ := read
    obtain ⟨⟨d, rfl, digit⟩, numeric⟩ := read?_numeric rests read
    refine ⟨d, rfl, scanPlain_digit digit, ?_⟩
    unfold scan at scanned
    simp only [read] at scanned
    split at scanned
    · next e' more =>
      cases scanned
      cases more
      exact ⟨numeric e' rfl, fun _ => rfl, by simp⟩
    · obtain ⟨rfl, plain⟩ := escaped_scan scanned
      exact ⟨rfl, fun _ => rfl, plain⟩
    · cases scanned
    · next none_there => cases none_there
  | _ => cases rests

end Construct

/-! ### One reader alone -/

namespace Build

variable {base b b' c c' : Build} {fresh : Prop} {place : Nat} {action : Action} {actions : List Action}

/-- Where no group is open, plain actions of the first reader leave it beside the second one. -/
theorem Change.left (stale : ¬fresh) (beside : base.Beside fresh b b') (whole : b.outer = [])
    (plain : action.isPlain = true) (did : b.Change place action c) : base.Beside fresh c b' ∧ c.outer = [] := by
  have frames := beside.frames
  rw [whole] at frames
  obtain ⟨grounded, under⟩ := frames.grounded
  have done {f : Frame} {groups : Nat} (same : groups = b.groups) (widths : List (Nat × Width)) (names asked)
      (grounded : Frame.Grounded base.groups fresh base.frame f b'.frame) :
      base.Beside fresh ⟨f, [], groups, widths, names, asked⟩ b' := by
    refine ⟨by rw [beside.groups, same], ?_⟩
    rw [under]
    exact .bottom grounded
  cases did with
  | leaf | reference | named =>
    simp only [Build.push, whole]
    exact ⟨done rfl _ _ _ (grounded.pushLeft stale _ _), trivial⟩
  | check => exact ⟨beside, whole⟩
  | repeated _ _ _ items =>
    simp only [whole]
    exact ⟨done rfl _ _ _ (grounded.repeatLeft stale items), trivial⟩
  | alternative | opened | closed | flagged => cases plain

/-- Where the first reader has no group open, plain actions of the second one leave it beside the first one. -/
theorem Change.right (stale : ¬fresh) (beside : base.Beside fresh b b') (whole : b.outer = [])
    (plain : action.isPlain = true) (did : b'.Change place action c') : base.Beside fresh b c' := by
  have frames := beside.frames
  rw [whole] at frames
  obtain ⟨grounded, under⟩ := frames.grounded
  have done {f : Frame} (widths : List (Nat × Width)) (names asked)
      (grounded : Frame.Grounded base.groups fresh base.frame b.frame f) :
      base.Beside fresh b ⟨f, b'.outer, b'.groups, widths, names, asked⟩ := by
    refine ⟨beside.groups, ?_⟩
    rw [whole, under]
    exact .bottom grounded
  cases did with
  | leaf leaf => exact done _ _ _ (grounded.pushRight stale _ (leaf.groupsIn_node _))
  | reference | named => exact done _ _ _ (grounded.pushRight stale _ rfl)
  | check => exact beside
  | repeated _ _ _ items => exact done _ _ _ (grounded.repeatRight stale items)
  | alternative | opened | closed | flagged => cases plain

/-- Actions without groups that only the first reader performs keep patterns beside each other. -/
theorem Beside.performLeft (stale : ¬fresh) (beside : base.Beside fresh b b') (whole : b.outer = [])
    (plain : ∀ action ∈ actions, action.isPlain) (did : b.performAll place actions = .ok c) :
    base.Beside fresh c b' ∧ c.outer = [] := by
  induction actions generalizing b with
  | nil =>
    cases did
    exact ⟨beside, whole⟩
  | cons action rest ih =>
    rw [List.forall_mem_cons] at plain
    obtain ⟨middle, first, did⟩ := performAll_cons_eq_ok did
    obtain ⟨beside, whole⟩ := first.left stale beside whole plain.1
    exact ih beside whole plain.2 did

/-- Actions without groups that only the second reader performs keep patterns beside each other. -/
theorem Beside.performRight (stale : ¬fresh) (beside : base.Beside fresh b b') (whole : b.outer = [])
    (plain : ∀ action ∈ actions, action.isPlain) (did : b'.performAll place actions = .ok c') :
    base.Beside fresh b c' := by
  induction actions generalizing b' with
  | nil =>
    cases did
    exact beside
  | cons action rest ih =>
    rw [List.forall_mem_cons] at plain
    obtain ⟨middle, first, did⟩ := performAll_cons_eq_ok did
    exact ih (first.right stale beside whole plain.1) plain.2 did

end Build

/-! ### Readers -/

namespace Reader

/-- Whether a reader is ready for a fragment of a pattern: it rests in a group without flags, and something has been
built. -/
structure Ready (q : Reader) : Prop where
  resting : q.construct.isResting = true
  noFlags : q.build.frame.flags = []
  begun : q.build.Begun

/-- How the second reader can be behind the first one: it still reads a construct that was begun before it began, or it
has just made a repetition of that one lazy or possessive, which the first reader takes for a repetition. -/
inductive Lags (base r q : Reader) : Prop where
  | waiting (item : r.construct = .item) (rests : q.construct.isResting = true)
      (escape : q.construct.isEscape = true → base.construct.isEscape = true) : Lags base r q
  | behind {least : Nat} {most : Option Nat} {node : Node} {earlier : List Item}
      (quantified : r.construct = .quantified least most) (item : q.construct = .item)
      (items : q.build.frame.items = (.repeated, node) :: earlier) : Lags base r q

/-- How a reader that began at `base` stands beside one that began with nothing and has read the same tokens. -/
structure Alongside (base r q : Reader) : Prop where
  builds : base.build.Beside (base.construct = .item) r.build q.build
  construct : q.construct = r.construct ∨ base.construct ≠ .item ∧ r.build.outer = [] ∧ Lags base r q

/-- A reader that is ready starts alongside one at the start of a pattern. -/
theorem Alongside.start {q : Reader} (ready : q.Ready) : Alongside q (start []) q where
  builds := {
    groups := (Nat.zero_add _).symm
    frames := .bottom {
      noFlags := rfl
      noFlags' := ready.noFlags
      scope := rfl
      position := rfl
      single := by simp [Reader.start, Build.start]
      groups := fun _ => .inl
      floor := fun some_there _ => ⟨List.suffix_rfl, some_there⟩
      counted := fun _ _ => ⟨(Nat.zero_add _).symm, List.suffix_rfl⟩
      alike := fun _ no_items no_alternatives => ⟨by rw [no_alternatives]; rfl, by rw [no_items]; rfl⟩ } }
  construct := by
    by_cases item : q.construct = .item
    · exact .inl item
    · exact .inr ⟨item, rfl, .waiting rfl ready.resting id⟩

/-- Readers that began afresh are always in the same construct. -/
theorem Alongside.same {base r q : Reader} (along : Alongside base r q) (fresh : base.construct = .item) :
    q.construct = r.construct :=
  along.construct.resolve_right fun lags => lags.1 fresh

variable [CharacterNames] {base r r' q q' s : Reader} {token : Token}

/-- Where an item may start, there is nothing to settle. -/
theorem settle_item (r : Reader) (item : r.construct = .item) (token : Option Token) : r.settle token = .ok r := by
  obtain ⟨position, construct, build⟩ := r
  cases item
  rfl

/-- In the same construct, both readers do the same. -/
theorem Alongside.take (begun : base.build.Begun)
    (builds : base.build.Beside (base.construct = .item) r.build q.build) (same : q.construct = r.construct)
    (read : r.take token = .ok r') (read' : q.take token = .ok q') : Alongside base r' q' := by
  obtain ⟨construct, actions, build, scanned, performed, rfl⟩ := take_eq_ok read
  obtain ⟨construct', actions', build', scanned', performed', rfl⟩ := take_eq_ok read'
  rw [same, builds.verbose, scanned] at scanned'
  cases scanned'
  exact ⟨builds.performAll begun performed performed', .inl rfl⟩

/-- Constructs that are the same settle alike. -/
theorem Alongside.settle {token : Option Token} (begun : base.build.Begun)
    (builds : base.build.Beside (base.construct = .item) r.build q.build) (same : q.construct = r.construct)
    (read : r.settle token = .ok r') (read' : q.settle token = .ok q') :
    base.build.Beside (base.construct = .item) r'.build q'.build ∧ q'.construct = r'.construct := by
  obtain ⟨construct, actions, build, settled, performed, rfl⟩ := settle_eq_ok read
  obtain ⟨construct', actions', build', settled', performed', rfl⟩ := settle_eq_ok read'
  rw [same, settled] at settled'
  cases settled'
  exact ⟨builds.performAll begun performed performed', rfl⟩

/-- A token that the second reader still takes for what was begun before. -/
theorem Alongside.step_waiting (begun : base.build.Begun) (stale : base.construct ≠ .item) (whole : r.build.outer = [])
    (builds : base.build.Beside (base.construct = .item) r.build q.build) (item : r.construct = .item)
    (rests : q.construct.isResting = true) (escape : q.construct.isEscape = true → base.construct.isEscape = true)
    (read : r.step token = .ok r') (read' : q.step token = .ok q') : Alongside base r' q' := by
  rw [step_of_settle (r.settle_item item _)] at read
  obtain ⟨p, settled, taken⟩ := step_eq_ok read'
  obtain ⟨construct, actions, build, settles, performed, rfl⟩ := settle_eq_ok settled
  obtain ⟨rfl, rfl⟩ | ⟨rfl, plain⟩ := Construct.settle_resting rests settles
  · cases performed
    by_cases also_item : q.construct = .item
    · exact .take begun builds (also_item.trans item.symm) read taken
    · obtain ⟨next, actions, built, scanned, performed, rfl⟩ := take_eq_ok taken
      obtain ⟨next', actions', built', scanned', performed', rfl⟩ := take_eq_ok read
      have verbose : r.build.verbose = false := by
        have frames := builds.frames
        rw [whole] at frames
        simp [Build.verbose, frames.grounded.1.noFlags]
      rw [item, verbose] at scanned'
      obtain ⟨least, most, style, d, -, rfl, lazy, rfl, rfl⟩ | ⟨d, rfl, ordinary, resting, escapes, plain⟩ :=
        Construct.scan_kept rests also_item settles scanned
      · -- The first reader takes the mark for a repetition, which it only checks.
        have marks : ∃ least most, next' = .quantified least most ∧ actions' = [.check 1] := by
          rcases lazy with rfl | rfl
          · cases scanned'
            exact ⟨_, _, rfl, rfl⟩
          · cases scanned'
            exact ⟨_, _, rfl, rfl⟩
        obtain ⟨_, _, rfl, rfl⟩ := marks
        have checked : built' = r.build := by
          cases Build.performAll_singleton performed'
          rfl
        subst checked
        have repeated := Build.performAll_singleton performed
        refine ⟨repeated.right stale builds whole rfl, .inr ⟨stale, whole, ?_⟩⟩
        cases repeated
        exact .behind rfl rfl rfl
      · have leaf : next' = .item ∧ actions' = [.leaf (.char d)] := by
          have same := ordinary.symm.trans scanned'
          cases same
          exact ⟨rfl, rfl⟩
        obtain ⟨rfl, rfl⟩ := leaf
        obtain ⟨builds, whole⟩ := builds.performLeft stale whole (List.forall_mem_singleton.mpr rfl) performed'
        exact ⟨builds.performRight stale whole plain performed,
          .inr ⟨stale, whole, .waiting rfl resting fun read => escape (escapes read)⟩⟩
  · exact .take begun (builds.performRight stale whole plain performed) item.symm read taken

/-- A token that both readers read leaves them beside one another. -/
theorem Alongside.step (begun : base.build.Begun) (along : Alongside base r q) (read : r.step token = .ok r')
    (read' : q.step token = .ok q') : Alongside base r' q' := by
  rcases along.construct with same | ⟨stale, whole, lags⟩
  · obtain ⟨s, settled, taken⟩ := step_eq_ok read
    obtain ⟨s', settled', taken'⟩ := step_eq_ok read'
    obtain ⟨builds, same⟩ := Alongside.settle begun along.builds same settled settled'
    exact .take begun builds same taken taken'
  · cases lags with
    | waiting item rests escape => exact .step_waiting begun stale whole along.builds item rests escape read read'
    | @behind least most node earlier quantified item items =>
      rw [step_of_settle (q.settle_item item _)] at read'
      obtain ⟨s, settled, taken⟩ := step_eq_ok read
      obtain ⟨construct, actions, build, settles, performed, rfl⟩ := settle_eq_ok settled
      rw [quantified] at settles
      obtain ⟨rfl, rfl⟩ | ⟨rfl, plain⟩ := Construct.settle_resting rfl settles
      · -- The second reader would repeat again what it has repeated.
        obtain ⟨_, _, _, scanned, performed, rfl⟩ := take_eq_ok read'
        obtain ⟨d, rfl, lazy⟩ := Construct.quantified_kept settles
        rw [item] at scanned
        have checks {actions : List Action} {place : Nat} {build : Build} (only : actions = [.check 1])
            (performed : q.build.performAll place actions = .ok build) : False := by
          subst only
          cases Build.performAll_singleton performed with
          | check _ atom => simp [items] at atom
        rcases lazy with rfl | rfl
        · cases scanned
          exact (checks rfl performed).elim
        · cases scanned
          exact (checks rfl performed).elim
      · obtain ⟨builds, -⟩ := along.builds.performLeft stale whole plain performed
        exact .take begun builds item taken read'

/-- Readers stay alongside each other through any tokens, by induction on these. -/
theorem Alongside.steps {ts : List Token} (begun : base.build.Begun) (along : Alongside base r q)
    (read : r.steps ts = .ok r') (read' : q.steps ts = .ok q') : Alongside base r' q' := by
  induction ts generalizing r q with
  | nil =>
    cases read
    cases read'
    exact along
  | cons token rest ih =>
    obtain ⟨middle, first, read⟩ := steps_cons_eq_ok read
    obtain ⟨middle', first', read'⟩ := steps_cons_eq_ok read'
    exact ih (along.step begun first first') read read'

end Reader

end Gherkin.Regex
