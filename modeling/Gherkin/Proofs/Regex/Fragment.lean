import Gherkin.Proofs.Regex.Alongside

/-! # Pieces of patterns

A piece is a text that brings a number of groups wherever it stands in a pattern (`Gherkin.Regex.Piece`). Every regular
expression is a piece, alone (`Gherkin.Regex.Piece.of_compile`) and in parentheses
(`Gherkin.Regex.Piece.parenthesized`), and pieces in a row are one (`Gherkin.Regex.Piece.append`). The groups that a
regular expression brings have the shapes that they have alone.
-/

namespace Gherkin.Regex

/-! ### How groups are numbered -/

/-- Whether the groups have numbers from one on, up to the number of groups, and there is something if there is a
group. -/
structure Build.Numbered (b : Build) : Prop where
  opened : ∀ f ∈ b.frame :: b.outer, ∀ number, f.scope = .capture number → 0 < number ∧ number ≤ b.groups
  closed : ∀ f ∈ b.frame :: b.outer, ∀ group ∈ f.groupsIn, 0 < group.1 ∧ group.1 ≤ b.groups
  begun : 0 < b.groups → b.Begun

namespace Build

variable {b c : Build} {place : Nat} {action : Action}

theorem numbered_start (flags : List Flag) : (start flags).Numbered where
  opened f member number scope := by
    cases List.mem_singleton.mp member
    cases scope
  closed f member group inside := by
    cases List.mem_singleton.mp member
    cases inside
  begun some_there := absurd some_there (Nat.lt_irrefl 0)

/-- The innermost open group changes, without groups of other numbers. -/
theorem Numbered.update (numbered : b.Numbered) (f : Frame) (widths : List (Nat × Width))
    (scope : f.scope = b.frame.scope) (groups : f.groupsIn ⊆ b.frame.groupsIn)
    (begun : 0 < b.groups → b.outer ≠ [] ∨ f.items ≠ [] ∨ f.alternatives ≠ [])
    (names asked) :
    Build.Numbered ⟨f, b.outer, b.groups, widths, names, asked⟩ where
  opened := List.forall_mem_cons.mpr ⟨fun number shown => numbered.opened _ List.mem_cons_self number (scope ▸ shown),
    (List.forall_mem_cons.mp numbered.opened).2⟩
  closed := List.forall_mem_cons.mpr ⟨fun group member => numbered.closed _ List.mem_cons_self group (groups member),
    (List.forall_mem_cons.mp numbered.closed).2⟩
  begun := begun

theorem Change.numbered (did : b.Change place action c) (numbered : b.Numbered) : c.Numbered := by
  have pushed (kind : ItemKind) {node : Node} (leaf : node.groupsIn = []) : (b.push kind node).Numbered := by
    refine numbered.update (b.frame.push kind node) _ rfl (fun group member => ?_)
      (fun _ => .inr (.inl (List.cons_ne_nil _ _))) _ _
    rw [Frame.mem_groupsIn_push, leaf] at member
    exact member.resolve_left List.not_mem_nil
  cases did with
  | leaf leaf => exact pushed _ (leaf.groupsIn_node _)
  | reference | named => exact pushed _ rfl
  | check => exact numbered
  | repeated least most style items =>
    refine numbered.update (b.frame.repeating least most style _ _) _ rfl ?_
      (fun _ => .inr (.inl (List.cons_ne_nil _ _))) _ _
    rw [Frame.groupsIn_repeating items]
    exact List.Subset.refl _
  | alternative =>
    refine numbered.update b.frame.nextAlternative _ rfl ?_ (fun _ => .inr (.inr (List.cons_ne_nil _ _))) _ _
    exact fun _ => Frame.mem_groupsIn_nextAlternative.mp
  | opened _ _ _ _ opens =>
    have grown {groups : Nat} (more : b.groups ≤ groups) : ∀ f ∈ b.frame :: b.outer,
        (∀ number, f.scope = .capture number → 0 < number ∧ number ≤ groups) ∧
        ∀ group ∈ f.groupsIn, 0 < group.1 ∧ group.1 ≤ groups := by
      refine fun f member => ⟨fun number scope => ?_, fun group inside => ?_⟩
      · exact (numbered.opened f member number scope).imp_right fun within => Nat.le_trans within more
      · exact (numbered.closed f member group inside).imp_right fun within => Nat.le_trans within more
    have done {f : Frame} {groups : Nat} (more : b.groups ≤ groups)
        (scope : ∀ number, f.scope = .capture number → 0 < number ∧ number ≤ groups) (fresh : f.groupsIn = [])
        (widths names asked) : Build.Numbered ⟨f, b.frame :: b.outer, groups, widths, names, asked⟩ :=
      ⟨List.forall_mem_cons.mpr ⟨scope, fun f member => (grown more f member).1⟩,
        List.forall_mem_cons.mpr ⟨by simp [fresh], fun f member => (grown more f member).2⟩,
        fun _ => .inl (List.cons_ne_nil _ _)⟩
    cases opens with
    | capture =>
      refine done (Nat.le_succ _) ?_ rfl _ _ _
      rintro number ⟨⟩
      exact ⟨Nat.succ_pos _, Nat.le_refl _⟩
    | plain | atomic | look | conditional =>
      refine done (Nat.le_refl _) ?_ rfl _ _ _
      rintro number ⟨⟩
  | @closed outer rest widths shown =>
    have opened := numbered.opened
    have closed := numbered.closed
    rw [shown, List.forall_mem_cons, List.forall_mem_cons] at opened closed
    refine ⟨List.forall_mem_cons.mpr ⟨opened.2.1, opened.2.2⟩, List.forall_mem_cons.mpr ⟨fun group member => ?_,
      closed.2.2⟩, fun _ => .inr (.inl (List.cons_ne_nil _ _))⟩
    rcases Frame.mem_groupsIn_push.mp member with new | held
    · rcases Frame.groupsIn_closed new with inside | scope
      · exact closed.1 group inside
      · exact opened.1 _ scope
    · exact closed.2.1 group held
  | flagged length added whole no_items single =>
    refine numbered.update { b.frame with flags := added ++ b.frame.flags } _ rfl (List.Subset.refl _)
      (fun some_there => ?_) _ _
    exact absurd (numbered.begun some_there) (by simp [Begun, whole, no_items, single])

end Build

/-! ### How a pattern ends -/

namespace Build

variable {b c : Build} {place : Nat} {action : Action} {actions : List Action}

/-- Whether only items were added or repeated that bring no group. -/
structure Extends (b c : Build) : Prop where
  outer : c.outer = b.outer
  groups : c.groups = b.groups
  scope : c.frame.scope = b.frame.scope
  position : c.frame.position = b.frame.position
  flags : c.frame.flags = b.frame.flags
  alternatives : c.frame.alternatives = b.frame.alternatives
  inside : ∀ group, group ∈ c.frame.groupsIn ↔ group ∈ b.frame.groupsIn
  floor : b.frame.items ≠ [] → b.frame.items.tail <:+ c.frame.items.tail ∧ c.frame.items ≠ []

theorem Extends.refl (b : Build) : b.Extends b where
  outer := rfl
  groups := rfl
  scope := rfl
  position := rfl
  flags := rfl
  alternatives := rfl
  inside _ := Iff.rfl
  floor some_there := ⟨List.suffix_rfl, some_there⟩

theorem Extends.trans {d : Build} (one : b.Extends c) (more : c.Extends d) : b.Extends d where
  outer := more.outer.trans one.outer
  groups := more.groups.trans one.groups
  scope := more.scope.trans one.scope
  position := more.position.trans one.position
  flags := more.flags.trans one.flags
  alternatives := more.alternatives.trans one.alternatives
  inside group := (more.inside group).trans (one.inside group)
  floor some_there := by
    obtain ⟨suffix, still⟩ := one.floor some_there
    exact ⟨suffix.trans (more.floor still).1, (more.floor still).2⟩

theorem Change.extends (plain : action.isPlain = true) (did : b.Change place action c) : b.Extends c := by
  have pushed (kind : ItemKind) {node : Node} (leaf : node.groupsIn = []) : b.Extends (b.push kind node) := by
    refine ⟨rfl, rfl, rfl, rfl, rfl, rfl, fun group => ?_, fun _ => ⟨List.tail_suffix _, List.cons_ne_nil _ _⟩⟩
    rw [Build.push, Frame.mem_groupsIn_push, leaf]
    simp
  cases did with
  | leaf leaf => exact pushed _ (leaf.groupsIn_node _)
  | reference | named => exact pushed _ rfl
  | check => exact .refl b
  | repeated _ _ _ items =>
    refine ⟨rfl, rfl, rfl, rfl, rfl, rfl, fun group => by rw [Frame.groupsIn_repeating items], fun _ => ?_⟩
    rw [items]
    exact ⟨List.suffix_rfl, List.cons_ne_nil _ _⟩
  | alternative | opened | closed | flagged => cases plain

theorem extends_of_performAll (plain : ∀ action ∈ actions, action.isPlain)
    (did : b.performAll place actions = .ok c) : b.Extends c := by
  induction actions generalizing b with
  | nil =>
    cases did
    exact .refl c
  | cons action rest ih =>
    rw [List.forall_mem_cons] at plain
    obtain ⟨middle, first, did⟩ := performAll_cons_eq_ok did
    exact (first.extends plain.1).trans (ih plain.2 did)

end Build

/-- Only escapes that are written with digits are complete at any length. -/
theorem Escape.isNumeric_of_finish {e : Escape} {escaped : Escaped} (complete : e.finish = .ok escaped) :
    e.isNumeric = true := by
  cases e with
  | octal | numeral => rfl
  | hex | nameStart => cases complete
  | name read =>
    unfold finish at complete
    dsimp only at complete
    split at complete <;> cases complete

section Ends

variable [CharacterNames] {r s : Reader} {ts : List Token} {flags : List Flag} {build : Build}

/-- What has been read of a construct at rest becomes items at the end of the pattern. -/
theorem Construct.settle_end {c c' : Construct} {actions : List Action} (rests : c.isResting = true)
    (settled : c.settle none = .ok (c', actions)) : c' = .item ∧ ∀ action ∈ actions, action.isPlain := by
  cases settles_of_settle settled with
  | items plain => exact ⟨rfl, plain⟩
  | opened start | member start =>
    subst start
    cases rests
  | kept =>
    cases c with
    | item => exact ⟨rfl, nofun⟩
    | quantified | bounds => cases settled
    | escape e =>
      cases e with
      | octal | numeral =>
        unfold settle at settled
        dsimp only [Option.bind_none] at settled
        split at settled
        · cases (escaped_scan settled).1
        · cases settled
      | hex | nameStart | name => cases rests
    | _ => cases rests

/-- A comment to the end of the line is only read where comments are left out. -/
theorem Reader.verbose_of_step {token : Token} (read : r.step token = .ok s)
    (before : r.construct = .lineComment → r.build.verbose = true) (comment : s.construct = .lineComment) :
    s.build.verbose = true := by
  obtain ⟨middle, construct, actions, build, settled, leads, performed, rfl⟩ := step_leads read
  obtain ⟨rfl, which⟩ := leads.comment comment
  cases performed
  rcases which with verbose | also
  · exact verbose
  · obtain ⟨ended, _, _, settles, performed, rfl⟩ := settle_eq_ok settled
    obtain rfl : ended = .lineComment := also
    generalize shown : r.construct = started at settles
    cases Construct.settles_of_settle settles with
    | kept =>
      cases performed
      exact before shown

theorem Reader.verbose_of_steps (read : r.steps ts = .ok s)
    (before : r.construct = .lineComment → r.build.verbose = true) (comment : s.construct = .lineComment) :
    s.build.verbose = true := by
  induction ts generalizing r with
  | nil =>
    cases read
    exact before comment
  | cons token rest ih =>
    obtain ⟨next, first, read⟩ := steps_cons_eq_ok read
    exact ih read (verbose_of_step first before)

/-- A pattern without flags that has been read ends at rest, outside all groups. -/
theorem Reader.resting_of_finish (read : (start []).steps ts = .ok r)
    (noFlags : r.build.outer = [] → r.build.frame.flags = []) (ends : r.finish = .ok build) :
    r.construct.isResting = true ∧ r.build.outer = [] ∧ r.build.Extends build := by
  obtain ⟨construct, settled, finished, sound⟩ := finish_eq_ok ends
  have outer := Build.outer_of_fault sound
  have rests : r.construct.isResting = true := by
    obtain ⟨_, actions, _, settles, performed, eq⟩ := settle_eq_ok settled
    cases eq
    generalize shown : r.construct = c at settles
    cases c with
    | item | quantified | bounds => rfl
    | escape e =>
      unfold Construct.settle at settles
      dsimp only [Option.bind_none] at settles
      split at settles
      · next complete => exact Escape.isNumeric_of_finish complete
      · cases settles
    | groupStart =>
      cases settles
      cases Build.performAll_singleton performed with
      | opened => cases outer
    | inClass members =>
      unfold Construct.settle at settles
      dsimp only at settles
      split at settles
      · cases settles
        cases finished
      · cases settles
    | lineComment =>
      cases settles
      cases performed
      have begins : (start []).construct = .lineComment → (start []).build.verbose = true := by
        intro comment
        cases comment
      simpa [Build.verbose, noFlags outer] using verbose_of_steps read begins shown
    | classStart | extension | lookBehind | extensionP | naming | comment => cases settles; cases finished
    | flags _ _ removed => cases removed <;> cases settles <;> cases finished
  obtain ⟨_, actions, _, settles, performed, eq⟩ := settle_eq_ok settled
  cases eq
  have extends_ := Build.extends_of_performAll (Construct.settle_end rests settles).2 performed
  exact ⟨rests, extends_.outer ▸ outer, extends_⟩

/-- A token that belongs to no repetition and to no escape with digits ends what rests. -/
theorem Construct.settle_other {c : Construct} (rests : c.isResting = true) {d : Char}
    (other : d.isDigit = false ∧ d ∉ "?+,\x7d".toList) : c.settle (some (.plain d)) = c.settle none := by
  obtain ⟨noDigit, others⟩ := other
  have differs (e : Char) (member : e ∈ "?+,\x7d".toList) : d ≠ e := by
    rintro rfl
    exact others member
  cases c with
  | item => rfl
  | quantified least most => simp [settle, differs '?' (by decide), differs '+' (by decide)]
  | bounds low high => simp [settle, boundsGoOn, noDigit, differs ',' (by decide), differs '\x7d' (by decide)]
  | escape e =>
    have unread : e.read? (.plain d) = none := by
      cases read : e.read? (.plain d) with
      | none => rfl
      | some result =>
        obtain ⟨⟨_, eq, digit⟩, _⟩ := read?_numeric rests read
        cases eq
        rw [noDigit] at digit
        cases digit
    simp [settle, unread]
  | _ => cases rests

/-- Where a reader rests, a plain character that belongs to nothing is read as an item. -/
theorem Reader.step_other {next : Reader} {d : Char} (rests : r.construct.isResting = true)
    (other : d.isDigit = false ∧ d ∉ "?+,\x7d".toList) (read : r.step (.plain d) = .ok next) :
    ∃ build, r.build.Extends build ∧ r.settle none = .ok ⟨r.position, .item, build⟩ ∧
      (⟨r.position, .item, build⟩ : Reader).take (.plain d) = .ok next := by
  obtain ⟨s, settled, taken⟩ := step_eq_ok read
  have ends : r.settle none = .ok s := by
    rw [← settled, settle, settle, Construct.settle_other rests other]
  obtain ⟨construct, actions, build, settles, performed, rfl⟩ := settle_eq_ok ends
  obtain ⟨rfl, plain⟩ := Construct.settle_end rests settles
  exact ⟨build, Build.extends_of_performAll plain performed, ends, taken⟩

end Ends

/-! ### Pieces -/

section Pieces

/-- The reader behind the anchor at the start of a pattern. -/
def Reader.anchored : Reader :=
  ⟨1, .item, ⟨⟨.whole, 0, [], none, [], [(.anchor, .anchor .start)]⟩, [], 0, [], [], []⟩⟩

theorem Reader.ready_anchored : Reader.anchored.Ready := ⟨rfl, rfl, .inr (.inl (List.cons_ne_nil _ _))⟩

/-- A reader is ready in a group that was opened without flags. -/
theorem Reader.ready_openCapture {b : Build} (noFlags : b.frame.flags = []) (place : Nat) :
    (⟨place + 1, .item, b.openCapture place⟩ : Reader).Ready := ⟨rfl, noFlags, .inl (List.cons_ne_nil _ _)⟩

variable [CharacterNames]

/-- How a reader goes on behind a text that brings a number of groups: it is ready again where it was ready before, and
the groups have the next numbers. -/
structure Reader.Passes (q : Reader) (groups : Nat) (q' : Reader) : Prop where
  ready : q'.Ready
  outer : q'.build.outer = q.build.outer
  groups : q'.build.groups = q.build.groups + groups
  scope : q'.build.frame.scope = q.build.frame.scope
  position : q'.build.frame.position = q.build.frame.position
  inside : ∀ group ∈ q'.build.frame.groupsIn, group ∈ q.build.frame.groupsIn ∨
    q.build.groups < group.1 ∧ group.1 ≤ q'.build.groups

/-- Whether a text brings a number of groups wherever it can stand in a pattern. -/
structure Piece (t : Text) (groups : Nat) : Prop where
  closed : .dangling ∉ tokens t
  passes : ∀ q q' : Reader, q.Ready → q.steps (tokens t) = .ok q' → q.Passes groups q'

variable {t u pattern : Text} {groups more : Nat} {regex : Regex} {q q' r : Reader} {ts : List Token} {build : Build}

theorem Piece.nil : Piece [] 0 where
  closed := List.not_mem_nil
  passes q q' ready read := by
    cases read
    exact ⟨ready, rfl, rfl, rfl, rfl, fun _ => .inl⟩

theorem Piece.append (first : Piece t groups) (second : Piece u more) : Piece (t ++ u) (groups + more) where
  closed member := by
    rw [tokens_append first.closed] at member
    exact (List.mem_append.mp member).elim first.closed second.closed
  passes q q' ready read := by
    rw [tokens_append first.closed] at read
    obtain ⟨middle, read, read'⟩ := Reader.steps_append_eq_ok read
    have one := first.passes q middle ready read
    have two := second.passes middle q' one.ready read'
    refine ⟨two.ready, two.outer.trans one.outer, ?_, two.scope.trans one.scope, two.position.trans one.position, ?_⟩
    · rw [two.groups, one.groups, Nat.add_assoc]
    · intro group member
      have grown := two.groups
      have grown' := one.groups
      rcases two.inside group member with before | ⟨greater, within⟩
      · exact (one.inside group before).imp_right fun ⟨greater, within⟩ => ⟨greater, by omega⟩
      · exact .inr ⟨by omega, within⟩

/-- A pattern that compiles is read behind other things beside being read alone. -/
theorem Reader.alongside_of_compile (compiled : compile t = .ok regex) (ready : q.Ready)
    (read : q.steps (tokens t) = .ok q') : ∃ r build, (start []).steps (tokens t) = .ok r ∧ r.finish = .ok build ∧
      regex = ⟨t, build.groups, build.frame.node⟩ ∧ Alongside q r q' := by
  obtain ⟨-, r, build, alone, ends, rfl⟩ := compileWith_eq_ok compiled
  exact ⟨r, build, alone, ends, rfl, (Alongside.start ready).steps ready.begun alone read⟩

/-- When a pattern has been read alone, it ends at rest outside all groups, and what is read of it behind other things
stands where that began. -/
theorem Reader.Alongside.ends (along : Alongside q r q') (alone : (Reader.start []).steps ts = .ok r)
    (ends : r.finish = .ok build) : r.construct.isResting = true ∧ r.build.Extends build ∧
      Frame.Grounded q.build.groups (q.construct = .item) q.build.frame r.build.frame q'.build.frame ∧
      q'.build.outer = q.build.outer := by
  have grounded (whole : r.build.outer = []) := by
    have frames := along.builds.frames
    rw [whole] at frames
    exact frames.grounded
  obtain ⟨rests, whole, extends_⟩ := resting_of_finish alone (fun whole => (grounded whole).1.noFlags) ends
  exact ⟨rests, extends_, grounded whole⟩

theorem Reader.Alongside.passes (along : Alongside q r q') (ready : q.Ready)
    (alone : (Reader.start []).steps ts = .ok r)
    (ends : r.finish = .ok build) : q.Passes build.groups q' := by
  obtain ⟨rests, extends_, grounded, outer⟩ := along.ends alone ends
  have numbered : r.build.Numbered :=
    steps_induction (fun _ _ _ _ did => did.numbered) alone (Build.numbered_start [])
  refine ⟨⟨?_, grounded.noFlags', ?_⟩, outer, ?_, grounded.scope, grounded.position, ?_⟩
  · rcases along.construct with same | ⟨-, -, lags⟩
    · rwa [same]
    · cases lags with
      | waiting _ rests => exact rests
      | behind _ item => rw [item]; rfl
  · rcases ready.begun with around | items | alternatives
    · exact .inl (outer ▸ around)
    · by_cases single : q'.build.frame.alternatives = []
      · exact .inr (.inl (grounded.floor items single).2)
      · exact .inr (.inr single)
    · exact .inr (.inr fun single => alternatives (grounded.single.mp single).2)
  · rw [along.builds.groups, extends_.groups, Nat.add_comm]
  · intro group member
    refine (grounded.groups group member).imp_right ?_
    rintro ⟨own, there, number, -⟩
    have within := numbered.closed _ List.mem_cons_self own there
    have grown := along.builds.groups
    exact ⟨by omega, by omega⟩

/-- A regular expression is a piece of every pattern that it can stand in. -/
theorem Piece.of_compile (compiled : compile t = .ok regex) : Piece t regex.groups where
  closed := (compileWith_eq_ok compiled).1
  passes q q' ready read := by
    obtain ⟨r, build, alone, ends, rfl, along⟩ := Reader.alongside_of_compile compiled ready read
    exact along.passes ready alone ends

/-- A regular expression without groups has none inside. -/
theorem groupsIn_of_compile (compiled : compile t = .ok regex) (no_groups : regex.groups = 0) :
    regex.root.groupsIn = [] := by
  obtain ⟨-, r, build, read, ends, rfl⟩ := compileWith_eq_ok compiled
  have numbered : build.Numbered := by
    have before : r.build.Numbered :=
      Reader.steps_induction (fun _ _ _ _ did => did.numbered) read (Build.numbered_start [])
    obtain ⟨_, settled, -, -⟩ := Reader.finish_eq_ok ends
    obtain ⟨_, _, _, _, performed, eq⟩ := Reader.settle_eq_ok settled
    cases eq
    exact Build.performAll_induction (fun _ _ _ did => did.numbered) performed before
  rw [List.eq_nil_iff_forall_not_mem]
  intro group member
  have within := numbered.closed _ List.mem_cons_self group ((Frame.groupsIn_node _).mem_iff.mp member)
  have none_there : build.groups = 0 := no_groups
  omega

/-! ### Parentheses -/

/-- Behind a parenthesis, a group opens with the next token, unless that is a question mark. -/
theorem Reader.step_open (rests : q.construct.isResting = true) (read : q.step (.plain '(') = .ok q') :
    ∃ build, q.build.Extends build ∧ q.settle none = .ok ⟨q.position, .item, build⟩ ∧ ∀ token rest, token ≠ .plain '?' →
      q'.steps (token :: rest) =
        (⟨q.position + 1, .item, build.openCapture q.position⟩ : Reader).steps (token :: rest) := by
  obtain ⟨build, extends_, settled, taken⟩ := step_other rests (by decide) read
  cases taken
  refine ⟨build, extends_, settled, fun token rest other => ?_⟩
  have opens : (⟨q.position + 1, .groupStart, build⟩ : Reader).settle (some token) =
      .ok ⟨q.position + 1, .item, build.openCapture q.position⟩ := by
    simp only [settle, Construct.settle, Option.some.injEq, other, if_false]
    rfl
  have same := (step_of_settle opens).trans (step_of_settle (settle_item _ rfl (some token))).symm
  exact congrArg (fun step => step.bind fun next => next.steps rest) same

/-- A closing parenthesis adds the innermost group to the one around it. -/
theorem Reader.step_close (rests : q.construct.isResting = true) (read : q.step (.plain ')') = .ok q') :
    ∃ build outer rest widths, q.build.Extends build ∧ q.settle none = .ok ⟨q.position, .item, build⟩ ∧
      build.outer = outer :: rest ∧ q' = ⟨q.position + 1, .item,
        { build with frame := outer.push .atom build.frame.closed, outer := rest, widths := widths }⟩ := by
  obtain ⟨build, extends_, settled, taken⟩ := step_other rests (by decide) read
  obtain ⟨construct, actions, built, scanned, performed, rfl⟩ := take_eq_ok taken
  cases scanned
  cases Build.performAll_singleton performed with
  | closed widths shown => exact ⟨build, _, _, widths, extends_, settled, shown, rfl⟩

/-- No regular expression starts with a question mark. -/
theorem ne_mark_of_compile (compiled : compile pattern = .ok regex) {token : Token} {rest : List Token}
    (shown : tokens pattern ++ [.plain ')'] = token :: rest) : token ≠ .plain '?' := by
  rintro rfl
  obtain ⟨-, r, build, read, -⟩ := compileWith_eq_ok compiled
  cases cut : tokens pattern with
  | nil =>
    rw [cut] at shown
    cases shown
  | cons first others =>
    rw [cut] at shown read
    cases shown
    obtain ⟨next, first, -⟩ := Reader.steps_cons_eq_ok read
    cases first

/-- How a reader goes on behind a regular expression in parentheses: what rests in front is settled, the expression is
read in a group of its own, what rests in that is settled, and the group is closed. -/
structure Reader.Encloses (q : Reader) (pattern : Text) (groups : Nat) (b : Build) (inner : Reader) (e : Build)
    (q' : Reader) : Prop where
  before : q.build.Extends b
  settled : q.settle none = .ok ⟨q.position, .item, b⟩
  inside : (⟨q.position + 1, .item, b.openCapture q.position⟩ : Reader).steps (tokens pattern) = .ok inner
  passes : (⟨q.position + 1, .item, b.openCapture q.position⟩ : Reader).Passes groups inner
  ended : inner.build.Extends e
  ends : inner.settle none = .ok ⟨inner.position, .item, e⟩
  after : ∃ widths, q' = ⟨inner.position + 1, .item,
    { e with frame := b.frame.push .atom e.frame.closed, outer := b.outer, widths := widths }⟩

/-- In parentheses, a pattern is read as inside a group of its own. -/
theorem Reader.encloses_of_steps (compiled : compile pattern = .ok regex) (rests : q.construct.isResting = true)
    (noFlags : q.build.frame.flags = []) (read : q.steps (tokens ('(' :: pattern ++ [')'])) = .ok q') :
    ∃ b inner e, q.Encloses pattern regex.groups b inner e q' := by
  have cut : tokens ('(' :: pattern ++ [')']) = .plain '(' :: (tokens pattern ++ [.plain ')']) := by
    rw [List.cons_append, tokens_cons (by decide), tokens_append (compileWith_eq_ok compiled).1]
    rfl
  rw [cut] at read
  obtain ⟨middle, first, read⟩ := steps_cons_eq_ok read
  obtain ⟨b, before, settled, opens⟩ := step_open rests first
  cases shown : tokens pattern ++ [.plain ')'] with
  | nil => simp at shown
  | cons token rest =>
    rw [shown, opens token rest (ne_mark_of_compile compiled shown), ← shown] at read
    obtain ⟨inner, inside, closing⟩ := steps_append_eq_ok read
    rw [steps_singleton] at closing
    have opened := ready_openCapture (before.flags.trans noFlags) q.position
    have passes := (Piece.of_compile compiled).passes _ _ opened inside
    obtain ⟨e, outer, rest, widths, ended, ends, shown, rfl⟩ := step_close passes.ready.resting closing
    obtain ⟨rfl, rfl⟩ := List.cons.inj (shown.symm.trans (ended.outer.trans passes.outer))
    exact ⟨b, inner, e, before, settled, inside, passes, ended, ends, widths, rfl⟩

/-- In parentheses, a regular expression brings another group. -/
theorem Piece.parenthesized (compiled : compile pattern = .ok regex) :
    Piece ('(' :: pattern ++ [')']) (regex.groups + 1) where
  closed := by
    rw [List.cons_append, tokens_cons (by decide), tokens_append (compileWith_eq_ok compiled).1]
    simpa [tokens] using (compileWith_eq_ok compiled).1
  passes q q' ready read := by
    obtain ⟨b, inner, e, encloses⟩ := Reader.encloses_of_steps compiled ready.resting ready.noFlags read
    obtain ⟨before, -, -, passes, ended, -, widths, rfl⟩ := encloses
    have counted : b.groups = q.build.groups := before.groups
    have first : (b.openCapture q.position).groups = b.groups + 1 := rfl
    have groups : e.groups = q.build.groups + 1 + regex.groups := by
      rw [ended.groups, passes.groups, ← counted]
      rfl
    refine ⟨⟨rfl, before.flags.trans ready.noFlags, .inr (.inl (List.cons_ne_nil _ _))⟩, before.outer, ?_,
      before.scope, before.position, ?_⟩
    · change e.groups = _
      omega
    · intro group member
      rcases Frame.mem_groupsIn_push.mp member with new | held
      · right
        change q.build.groups < group.1 ∧ group.1 ≤ e.groups
        rcases Frame.groupsIn_closed new with inside | scope
        · have grown := passes.groups
          rcases passes.inside group ((ended.inside group).mp inside) with nothing | ⟨greater, within⟩
          · cases nothing
          · dsimp only at greater within grown
            omega
        · have number : b.groups + 1 = group.1 :=
            Scope.capture.inj ((ended.scope.trans passes.scope).symm.trans scope)
          omega
      · exact .inl ((before.inside group).mp held)

/-- Alone in parentheses, a regular expression is the body of the only group around its own ones. -/
theorem root_of_parenthesized {whole : Regex} (compiled : compile pattern = .ok regex)
    (compiled_whole : compile ('(' :: pattern ++ [')']) = .ok whole) :
    whole.groups = regex.groups + 1 ∧ ∃ body, whole.root = .group 1 body ∧ body.shape 0 = regex.root.shape 1 := by
  obtain ⟨-, last, built, read, ends, rfl⟩ := compileWith_eq_ok compiled_whole
  obtain ⟨b, inner, e, -, start, inside, passes, ended, settled, widths, rfl⟩ :=
    Reader.encloses_of_steps compiled rfl rfl read
  cases start
  have ready := Reader.ready_openCapture (b := .start []) rfl 0
  obtain ⟨r, build, alone, ends', rfl, along⟩ := Reader.alongside_of_compile compiled ready inside
  have same := along.same rfl
  obtain ⟨construct, settled', -, sound⟩ := Reader.finish_eq_ok ends'
  have frames := (Reader.Alongside.settle ready.begun along.builds same settled' settled).1.frames
  dsimp only at frames
  rw [Build.outer_of_fault sound] at frames
  have alike := frames.grounded.1.alike rfl rfl rfl
  have scope : e.frame.scope = .capture 1 := ended.scope.trans passes.scope
  obtain ⟨construct, settled, -, -⟩ := Reader.finish_eq_ok ends
  rw [Reader.settle_item _ rfl] at settled
  cases settled
  refine ⟨?_, e.frame.node, ?_, alike.node⟩
  · exact (ended.groups.trans passes.groups).trans (Nat.add_comm 1 _)
  · simp only [Frame.node, Frame.push, Frame.closed, scope]
    rfl

/-- Alone in parentheses, a plain regular expression without groups is the body of the only group. -/
theorem root_of_plain {whole : Regex} (compiled : compile pattern = .ok regex) (no_groups : regex.groups = 0)
    (unanchored : regex.root.unanchored = true) (compiled_whole : compile ('(' :: pattern ++ [')']) = .ok whole) :
    whole.groups = 1 ∧ whole.root = .group 1 regex.root := by
  obtain ⟨groups, body, root, same⟩ := root_of_parenthesized compiled compiled_whole
  obtain rfl := Node.eq_of_shape unanchored (groupsIn_of_compile compiled no_groups) same
  rw [no_groups] at groups
  exact ⟨groups, root⟩

/-! ### Anchored patterns -/

/-- The anchor at the end of a pattern brings no group. -/
theorem Piece.lastLine : Piece ['$'] 0 := by
  have compiled : compile ['$'] = .ok ⟨['$'], 0, .anchor .lastLine⟩ := rfl
  exact .of_compile compiled

theorem Reader.steps_start_anchor (ts : List Token) : (start []).steps (.plain '^' :: ts) = anchored.steps ts := by
  rw [steps_cons]
  rfl

/-- Behind the anchor at its start, a pattern of pieces has the groups of the pieces. -/
theorem exists_of_anchored (piece : Piece t groups) (compiled : compile ('^' :: t) = .ok regex) :
    ∃ q build, Reader.anchored.steps (tokens t) = .ok q ∧ Reader.anchored.Passes groups q ∧
      q.settle none = .ok ⟨q.position, .item, build⟩ ∧ q.build.Extends build ∧
      regex = ⟨'^' :: t, build.groups, build.frame.node⟩ := by
  obtain ⟨-, q, build, read, ends, rfl⟩ := compileWith_eq_ok compiled
  rw [tokens_cons (by decide), Reader.steps_start_anchor] at read
  have passes := piece.passes _ q Reader.ready_anchored read
  obtain ⟨construct, settled, -, -⟩ := Reader.finish_eq_ok ends
  obtain ⟨_, actions, _, settles, performed, eq⟩ := Reader.settle_eq_ok settled
  cases eq
  obtain ⟨rfl, plain⟩ := Construct.settle_end passes.ready.resting settles
  exact ⟨q, build, read, passes, settled, Build.extends_of_performAll plain performed, rfl⟩

theorem groups_of_anchored (piece : Piece t groups) (compiled : compile ('^' :: t) = .ok regex) :
    regex.groups = groups := by
  obtain ⟨q, build, -, passes, -, ended, rfl⟩ := exists_of_anchored piece compiled
  rw [ended.groups, passes.groups]
  exact Nat.zero_add _

/-- The groups of a regular expression among pieces have the shapes that they have alone. -/
theorem exists_own_of_anchored {front back : Text} {before after number : Nat} {whole : Regex} {body : Node}
    (first : Piece front before) (compiled : compile t = .ok regex) (middle : Piece t groups) (last : Piece back after)
    (compiled_whole : compile ('^' :: (front ++ t ++ back)) = .ok whole)
    (member : (before + number, body) ∈ whole.root.groupsIn) (positive : 0 < number) (within : number ≤ groups) :
    ∃ own, (number, own) ∈ regex.root.groupsIn ∧ body.shape 0 = own.shape before := by
  obtain ⟨q, build, read, -, -, ended, rfl⟩ := exists_of_anchored ((first.append middle).append last) compiled_whole
  rw [tokens_append (first.append middle).closed, tokens_append first.closed] at read
  obtain ⟨q₂, read, read₃⟩ := Reader.steps_append_eq_ok read
  obtain ⟨q₁, read₁, read₂⟩ := Reader.steps_append_eq_ok read
  have passes₁ := first.passes _ q₁ Reader.ready_anchored read₁
  have passes₂ := middle.passes _ q₂ passes₁.ready read₂
  have passes₃ := last.passes _ q passes₂.ready read₃
  have none_before : Reader.anchored.build.groups = 0 := rfl
  have groups₁ := passes₁.groups
  have groups₂ := passes₂.groups
  rw [Frame.groupsIn_node _ |>.mem_iff, ended.inside] at member
  rcases passes₃.inside _ member with member | ⟨greater, -⟩
  · obtain ⟨r, build, alone, ends, rfl, along⟩ := Reader.alongside_of_compile compiled passes₁.ready read₂
    obtain ⟨-, extends_, grounded, -⟩ := along.ends alone ends
    rcases grounded.groups _ member with member | ⟨own, there, same, shape⟩
    · rcases passes₁.inside _ member with nothing | ⟨-, fewer⟩
      · cases nothing
      · dsimp only at fewer
        omega
    · obtain rfl : own.1 = number := by
        dsimp only at same
        omega
      refine ⟨own.2, (Frame.groupsIn_node _).mem_iff.mpr ((extends_.inside own).mpr there), ?_⟩
      rw [show before = q₁.build.groups by omega]
      exact shape
  · dsimp only at greater
    omega

end Pieces

end Gherkin.Regex
