import Gherkin.Proofs.Regex.Tokens

/-! # What an action changes

The functions that perform an action are taken apart here once, for the case that they succeed: what has been built
changes in few ways, one for each kind of action (`Gherkin.Regex.Build.change_of_perform`). What these changes keep,
reading keeps (`Gherkin.Regex.Reader.steps_induction`).
-/

namespace Gherkin.Regex

/-- What is open in a group that an opening opens, with its flags and how many groups there are then. -/
inductive Build.Opens (b : Build) : Opening → Scope → List Flag → Nat → Prop where
  | capture (name : Option Text) : Opens b (.capture name) (.capture (b.groups + 1)) b.frame.flags (b.groups + 1)
  | plain (added removed : List Flag) :
      Opens b (.plain added removed) .plain (Flag.combine b.frame.flags added removed) b.groups
  | atomic : Opens b .atomic .atomic b.frame.flags b.groups
  | look (behind negated : Bool) : Opens b (.look behind negated) (.look behind negated) b.frame.flags b.groups
  | conditional (name : Text) (number : Nat) :
      Opens b (.conditional name) (.conditional number) b.frame.flags b.groups

/-- What an action at a place changes. -/
inductive Build.Change (b : Build) (place : Nat) : Action → Build → Prop where
  | leaf (leaf : Leaf) :
      Change b place (.leaf leaf) (b.push (if leaf.isAnchor then .anchor else .atom) (leaf.node b.frame.flags))
  | reference (digits : Text) (number : Nat) (width : Width) :
      Change b place (.reference digits) (b.push .atom (.reference (Flag.rule b.frame.flags) number width))
  | named (name : Text) (number : Nat) (width : Width) :
      Change b place (.named name) (b.push .atom (.reference (Flag.rule b.frame.flags) number width))
  | check {node : Node} {before : List Item} (length : Nat) (items : b.frame.items = (.atom, node) :: before) :
      Change b place (.check length) b
  | repeated {node : Node} {before : List Item} (least : Nat) (most : Option Nat) (style : Style)
      (items : b.frame.items = (.atom, node) :: before) : Change b place (.repeated least most style)
        { b with frame := { b.frame with items := (.repeated, .loop least most style node) :: before } }
  | alternative : Change b place .alternative { b with frame := b.frame.nextAlternative }
  | opened {opening : Opening} {scope : Scope} {flags : List Flag} {groups : Nat} (length : Nat)
      (lookBehind : Option Nat) (names : List (Text × Nat)) (asked : List (Nat × Nat))
      (opens : b.Opens opening scope flags groups) : Change b place (.opened length opening)
        ⟨⟨scope, place - length, flags, lookBehind, [], []⟩, b.frame :: b.outer, groups, b.widths, names, asked⟩
  | closed {outer : Frame} {rest : List Frame} (widths : List (Nat × Width)) (outer_eq : b.outer = outer :: rest) :
      Change b place .closed
        { b with frame := outer.push .atom b.frame.closed, outer := rest, widths := widths }
  | flagged (length : Nat) (added : List Flag) (whole : b.outer = []) (no_items : b.frame.items = [])
      (single : b.frame.alternatives = []) : Change b place (.flagged length added)
        { b with frame := { b.frame with flags := added ++ b.frame.flags } }

namespace Build

variable {b c : Build} {place : Nat}

/-- Only a single character, class or group at the end of a frame can be repeated. -/
theorem repeatable_eq_ok {f : Frame} {length : Nat} {item : Node × List Item}
    (found : f.repeatable length = .ok item) : f.items = (.atom, item.1) :: item.2 := by
  unfold Frame.repeatable at found
  split at found
  · cases found
  · cases found
  · cases found
  · next items =>
    cases found
    exact items

theorem refer_eq_ok {number length : Nat} (did : b.refer number length = .ok c) :
    ∃ width, c = b.push .atom (.reference (Flag.rule b.frame.flags) number width) := by
  unfold refer at did
  split at did
  · cases did
  · next width _ =>
    split at did
    · cases did
      exact ⟨width, rfl⟩
    · cases did

/-- A group that is opened changes the pattern as its opening says. -/
theorem change_of_opened {length : Nat} {opening : Opening} (did : b.opened place length opening = .ok c) :
    b.Change place (.opened length opening) c := by
  cases opening with
  | capture name =>
    cases name with
    | none =>
      cases did
      exact .opened length _ _ _ (.capture none)
    | some name =>
      unfold opened openNamed at did
      dsimp only at did
      split at did
      · cases did
      · cases did
        exact .opened length _ _ _ (.capture (some name))
  | plain added removed =>
    cases did
    exact .opened length _ _ _ (.plain added removed)
  | atomic =>
    cases did
    exact .opened length _ _ _ .atomic
  | look behind negated =>
    cases did
    exact .opened length _ _ _ (.look behind negated)
  | conditional name =>
    unfold opened openConditional at did
    dsimp only at did
    split at did
    · cases did
    · next number _ =>
      split at did
      · cases did
        exact .opened length _ _ _ (.conditional name number)
      · cases did

/-- An action that succeeds changes what has been built in the way of its kind. -/
theorem change_of_perform {action : Action} (did : b.perform place action = .ok c) : b.Change place action c := by
  cases action with
  | leaf leaf =>
    cases did
    exact .leaf leaf
  | reference digits =>
    obtain ⟨width, rfl⟩ := refer_eq_ok did
    exact .reference digits _ width
  | named name =>
    unfold perform referByName at did
    dsimp only at did
    split at did
    · cases did
    · obtain ⟨width, rfl⟩ := refer_eq_ok did
      exact .named name _ width
  | check length =>
    unfold perform at did
    dsimp only at did
    cases found : b.frame.repeatable length with
    | error fault => rw [found] at did; cases did
    | ok item =>
      rw [found] at did
      cases did
      exact .check length (repeatable_eq_ok found)
  | repeated least most style =>
    unfold perform repeated at did
    dsimp only at did
    split at did
    · next node before found =>
      cases did
      exact .repeated least most style (repeatable_eq_ok found)
    · cases did
  | alternative =>
    unfold perform alternative at did
    dsimp only at did
    split at did
    · cases did
    · cases did
      exact .alternative
  | opened length opening => exact change_of_opened did
  | closed =>
    unfold perform close at did
    dsimp only at did
    split at did
    · cases did
    · next outer rest outer_eq =>
      cases did
      exact .closed _ outer_eq
  | flagged length added =>
    unfold perform flagged at did
    dsimp only at did
    split at did
    · next nothing =>
      cases did
      simp only [Bool.and_eq_true, List.isEmpty_iff] at nothing
      exact .flagged length added nothing.1.1 nothing.1.2 nothing.2
    · cases did

/-- Several actions are performed one after another. -/
theorem performAll_cons_eq_ok {action : Action} {actions : List Action}
    (did : b.performAll place (action :: actions) = .ok c) :
    ∃ middle, b.Change place action middle ∧ middle.performAll place actions = .ok c := by
  unfold performAll at did
  split at did
  · next middle first => exact ⟨middle, change_of_perform first, did⟩
  · cases did

/-- What every change keeps, performing actions keeps. -/
theorem performAll_induction {motive : Build → Prop} {actions : List Action}
    (change : ∀ b c action, b.Change place action c → motive b → motive c) (did : b.performAll place actions = .ok c)
    (holds : motive b) : motive c := by
  induction actions generalizing b with
  | nil =>
    cases did
    exact holds
  | cons action rest ih =>
    obtain ⟨middle, first, did⟩ := performAll_cons_eq_ok did
    exact ih did (change b middle action first holds)

theorem performAll_singleton {action : Action} (did : b.performAll place [action] = .ok c) :
    b.Change place action c := by
  obtain ⟨middle, change, rest⟩ := performAll_cons_eq_ok did
  cases rest
  exact change

end Build

/-- What every change keeps, reading keeps. -/
theorem Reader.steps_induction [CharacterNames] {motive : Build → Prop} {r next : Reader} {ts : List Token}
    (change : ∀ b c place action, b.Change place action c → motive b → motive c) (read : r.steps ts = .ok next)
    (holds : motive r.build) : motive next.build := by
  induction ts generalizing r with
  | nil =>
    cases read
    exact holds
  | cons token rest ih =>
    obtain ⟨middle, first, read⟩ := steps_cons_eq_ok read
    obtain ⟨s, settled, taken⟩ := step_eq_ok first
    obtain ⟨_, _, _, _, performed, rfl⟩ := settle_eq_ok settled
    obtain ⟨_, _, _, _, performed', rfl⟩ := take_eq_ok taken
    exact ih read (Build.performAll_induction (change · · _ ·) performed'
      (Build.performAll_induction (change · · _ ·) performed holds))

/-! ### What a token leads to -/

/-- Whether an action only adds or repeats an item. -/
def Action.isPlain : Action → Bool
  | .leaf _ | .reference _ | .named _ | .check _ | .repeated .. => true
  | _ => false

namespace Construct

/-- How far behind its parenthesis a construct is from which a group may open. -/
def opening? : Construct → Option Nat
  | .groupStart => some 1
  | .extension => some 2
  | .lookBehind | .extensionP => some 3
  | .naming .condition read => some (read.length + 3)
  | .naming _ read => some (read.length + 4)
  | .flags length _ _ => some length
  | _ => none

/-- What a token leads to in a construct: a parenthesis is left behind by what is read, a group opens where its
parenthesis stands, a comment up to the end of the line is only read where comments are left out, and there is one
action at most. -/
structure Leads (c : Construct) (verbose : Bool) (length : Nat) (next : Construct) (actions : List Action) : Prop where
  opening : ∀ behind, next.opening? = some behind →
    behind = length ∨ ∃ before, c.opening? = some before ∧ behind = before + length
  opened : ∀ behind opening, .opened behind opening ∈ actions →
    ∃ before, c.opening? = some before ∧ behind = before + length
  comment : next = .lineComment → actions = [] ∧ (verbose = true ∨ c = .lineComment)
  single : actions.length ≤ 1

variable {c next : Construct} {verbose : Bool} {length : Nat} {actions : List Action}

/-- Nothing opens where actions only add or repeat items and lead to a construct in which no group opens. -/
theorem Leads.plainly (closed : next.opening? = none) (other : next ≠ .lineComment)
    (plain : ∀ action ∈ actions, action.isPlain) (single : actions.length ≤ 1) :
    c.Leads verbose length next actions where
  opening behind shown := by rw [closed] at shown; cases shown
  opened _ _ member := nomatch plain _ member
  comment shown := absurd shown other
  single := single

theorem Leads.more (closed : next.opening? = none) (other : next ≠ .lineComment) :
    c.Leads verbose length next [] := .plainly closed other nofun (Nat.zero_le _)

/-- Whether a scan leads to what it may lead to. -/
def LeadsTo (c : Construct) (verbose : Bool) (length : Nat) : Scan → Prop
  | .ok (next, actions) => c.Leads verbose length next actions
  | .error _ => True

theorem leadsTo_leaf (leaf : Leaf) : c.LeadsTo verbose length (.leaf leaf) :=
  .plainly rfl nofun (List.forall_mem_singleton.mpr rfl) (Nat.le_refl _)

/-- A complete escape ends its construct with one action. -/
theorem leadsTo_escaped (escaped : Escaped) : c.LeadsTo verbose length escaped.scan := by
  cases escaped <;> exact .plainly rfl nofun (List.forall_mem_singleton.mpr rfl) (Nat.le_refl _)

/-- A plain character where an item may start ends the construct, opens a group or is acted on. -/
theorem leadsTo_scanPlain (d : Char) : c.LeadsTo verbose 1 (scanPlain verbose d) := by
  have one {action : Action} (plain : action.isPlain = true) : ∀ other ∈ [action], other.isPlain :=
    List.forall_mem_singleton.mpr plain
  have unopened {action : Action} (other : ∀ length opening, action ≠ .opened length opening) :
      c.Leads verbose 1 .item [action] := by
    refine ⟨nofun, fun behind opening member => ?_, nofun, Nat.le_refl _⟩
    exact absurd (List.mem_singleton.mp member).symm (other _ _)
  unfold scanPlain
  split
  case h_1 | h_2 => exact unopened nofun
  case h_3 => exact ⟨fun _ shown => .inl (Option.some.inj shown).symm, nofun, nofun, Nat.zero_le _⟩
  case h_4 | h_5 => exact .more rfl nofun
  case h_6 | h_7 | h_8 => exact .plainly rfl nofun (one rfl) (Nat.le_refl _)
  case h_9 | h_10 | h_11 => exact leadsTo_leaf _
  case h_12 =>
    split
    · exact .more rfl nofun
    · split
      · next hash => exact ⟨nofun, nofun, fun _ => ⟨rfl, .inl (Bool.and_eq_true_iff.mp hash).1⟩, Nat.zero_le _⟩
      · exact leadsTo_leaf _

theorem leadsTo_scanEscape (d : Char) : c.LeadsTo verbose length (scanEscape d) := by
  unfold scanEscape
  split
  · exact leadsTo_leaf _
  · exact leadsTo_leaf _
  · exact .more rfl nofun
  · exact leadsTo_leaf _
  · split
    · exact .more rfl nofun
    · split
      · exact .more rfl nofun
      · split
        · trivial
        · exact leadsTo_leaf _

/-- Where an item may start, a token opens a group only if it is a parenthesis. -/
theorem leadsTo_scanItem (token : Token) : c.LeadsTo verbose token.source.length (scanItem verbose token) := by
  cases token with
  | plain d => exact leadsTo_scanPlain d
  | escaped d => exact leadsTo_scanEscape d
  | dangling => trivial

theorem leadsTo_scanBounds (low : Text) (high : Option Text) (token : Token) :
    c.LeadsTo verbose length (scanBounds low high token) := by
  unfold scanBounds
  split
  · split
    · cases high <;> exact .more rfl nofun
    · split
      · exact .more rfl nofun
      · unfold closeBounds
        dsimp only
        split
        · trivial
        · split
          · trivial
          · exact .plainly rfl nofun (List.forall_mem_singleton.mpr rfl) (Nat.le_refl _)
  · exact .more rfl nofun

/-- A letter behind a parenthesis and a question mark adds a flag, or is something else. -/
theorem leadsTo_addFlag {before : Nat} (added : List Flag) (d : Char) {otherwise : Scan}
    (shown : c.opening? = some before) (others : c.LeadsTo verbose 1 otherwise) :
    c.LeadsTo verbose 1 (addFlag before added d otherwise) := by
  unfold addFlag
  split
  · trivial
  · split
    · split
      · trivial
      · exact ⟨fun _ eq => .inr ⟨before, shown, (Option.some.inj eq).symm⟩, nofun, nofun, Nat.zero_le _⟩
    · exact others

/-- A group opens where its parenthesis stands. -/
theorem Leads.opens {before : Nat} (shown : c.opening? = some before) (opening : Opening) :
    c.Leads verbose length .item [.opened (before + length) opening] where
  opening _ shown := nomatch shown
  opened behind other member := by
    cases List.mem_singleton.mp member
    exact ⟨before, shown, rfl⟩
  comment shown := nomatch shown
  single := Nat.le_refl _

/-- A construct goes on in which a group may open. -/
theorem Leads.nears {before : Nat} (shown : c.opening? = some before)
    (next_shown : next.opening? = some (before + length)) (other : next ≠ .lineComment) : c.Leads verbose length next [] where
  opening _ eq := .inr ⟨before, shown, (Option.some.inj (next_shown.symm.trans eq)).symm⟩
  opened _ _ member := nomatch member
  comment shown := absurd shown other
  single := Nat.zero_le _

theorem leadsTo_scanAdded {before : Nat} (added : List Flag) (token : Token) (shown : c.opening? = some before) :
    c.LeadsTo verbose token.source.length (scanAdded before added token) := by
  unfold scanAdded
  split
  · exact ⟨nofun, by simp, nofun, Nat.le_refl _⟩
  · split
    · trivial
    · exact .nears shown rfl nofun
  · split
    · trivial
    · exact .opens shown _
  · exact leadsTo_addFlag added _ shown trivial
  · trivial

theorem leadsTo_scanRemoved {before : Nat} (added removed : List Flag) (token : Token)
    (shown : c.opening? = some before) :
    c.LeadsTo verbose token.source.length (scanRemoved before added removed token) := by
  unfold scanRemoved
  dsimp only
  split
  · split
    · split
      · trivial
      · split
        · trivial
        · exact .opens shown _
    · split
      · trivial
      · split
        · split
          · trivial
          · exact .nears shown rfl nofun
        · trivial
  · trivial

/-- Behind a parenthesis and a question mark, a group opens or the construct goes on. -/
theorem leadsTo_scanExtension (token : Token) (shown : c.opening? = some 2) :
    c.LeadsTo verbose token.source.length (scanExtension token) := by
  unfold scanExtension
  dsimp only
  split
  case h_1 | h_2 | h_3 | h_4 => exact .opens shown _
  case h_5 | h_6 | h_7 | h_9 => exact .nears shown rfl nofun
  case h_8 => exact .more rfl nofun
  case h_10 => exact leadsTo_addFlag [] _ shown trivial
  case h_11 => trivial

/-- A name goes on, or ends with one action. -/
theorem leadsTo_scanName (purpose : Naming) (read : Text) (token : Token) :
    (naming purpose read).LeadsTo verbose token.source.length (scanName purpose read token) := by
  have terminator (shown : token = .plain purpose.terminator) : token.source.length = 1 := by
    rw [shown]
    rfl
  unfold scanName
  split
  · next closes =>
    split
    · trivial
    · rw [terminator closes]
      unfold closeName
      split
      · exact .opens rfl _
      · next other =>
        split
        · trivial
        · split
          · next same =>
            subst same
            exact .opens rfl _
          · exact .plainly rfl nofun (List.forall_mem_singleton.mpr rfl) (Nat.le_refl _)
  · cases purpose <;> refine .nears rfl ?_ nofun <;> simp only [opening?, List.length_append] <;> congr 1 <;> omega

/-- A construct that is settled stays as it is, or what has been read of it becomes items, or a group opens behind a
parenthesis, or an escape in a class becomes a member. -/
inductive Settles (c : Construct) (token : Option Token) : Construct → List Action → Prop where
  | kept (mark : c = .groupStart → token = some (.plain '?')) : Settles c token c []
  | items {actions : List Action} (plain : ∀ action ∈ actions, action.isPlain) : Settles c token .item actions
  | opened (start : c = .groupStart) : Settles c token .item [.opened 1 (.capture none)]
  | member {members members' : OpenClass} (start : c = .inClass members) : Settles c token (.inClass members') []

/-- An escape that is complete where a token does not belong to it settles with one action. -/
theorem settles_escaped {c next : Construct} {token : Option Token} {escaped : Escaped}
    (scanned : escaped.scan = .ok (next, actions)) : c.Settles token next actions := by
  cases escaped <;> cases scanned <;> exact .items (List.forall_mem_singleton.mpr rfl)

variable [CharacterNames]

/-- A bracketed class goes on, or ends with one action. -/
theorem leadsTo_class (members : OpenClass) (token : Token) : c.LeadsTo verbose length (members.scan token) := by
  unfold OpenClass.scan
  split
  · exact leadsTo_leaf _
  · split
    · exact .more rfl nofun
    · trivial

/-- What a token leads to in any construct. Behind a parenthesis it is a question mark. -/
theorem leads_of_scan {token : Token} (mark : c = .groupStart → token = .plain '?')
    (scanned : c.scan verbose token = .ok (next, actions)) :
    c.Leads verbose token.source.length next actions := by
  have leads : c.LeadsTo verbose token.source.length (c.scan verbose token) := by
    cases c with
    | item => exact leadsTo_scanItem token
    | quantified least most => exact .plainly rfl nofun (List.forall_mem_singleton.mpr rfl) (Nat.le_refl _)
    | bounds low high => exact leadsTo_scanBounds low high token
    | escape e =>
      unfold scan
      dsimp only
      split
      · exact .more rfl nofun
      · exact leadsTo_escaped _
      · trivial
      · exact .more rfl nofun
    | classStart =>
      unfold scan
      dsimp only
      split
      · exact .more rfl nofun
      · exact leadsTo_class _ token
    | inClass members => exact leadsTo_class members token
    | groupStart =>
      rw [mark rfl]
      exact .nears rfl rfl nofun
    | extension => exact leadsTo_scanExtension token rfl
    | lookBehind =>
      unfold scan scanLookBehind
      dsimp only
      split
      · exact .opens rfl _
      · exact .opens rfl _
      · trivial
    | extensionP =>
      unfold scan scanExtensionP
      dsimp only
      split
      · exact .nears rfl rfl nofun
      · exact .nears rfl rfl nofun
      · trivial
    | naming purpose read => exact leadsTo_scanName purpose read token
    | flags before added removed =>
      cases removed with
      | none => exact leadsTo_scanAdded added token rfl
      | some removed => exact leadsTo_scanRemoved added removed token rfl
    | comment =>
      unfold scan
      dsimp only
      split <;> exact .more rfl nofun
    | lineComment =>
      unfold scan
      dsimp only
      split
      · exact .more rfl nofun
      · exact ⟨nofun, nofun, fun _ => ⟨rfl, .inr rfl⟩, Nat.zero_le _⟩
  rw [scanned] at leads
  exact leads

/-- A construct that is settled gives way to items, with one action at most. -/
theorem settles_of_settle {token : Option Token} (settled : c.settle token = .ok (next, actions)) :
    c.Settles token next actions := by
  unfold settle at settled
  split at settled
  · split at settled
    · cases settled
      exact .kept nofun
    · cases settled
      exact .items (List.forall_mem_singleton.mpr rfl)
  · next low high =>
    split at settled
    · cases settled
      exact .kept nofun
    · cases settled
      refine .items fun action member => ?_
      obtain ⟨_, _, rfl⟩ := List.mem_map.mp member
      rfl
  · split at settled
    · cases settled
      exact .kept nofun
    · split at settled
      · exact settles_escaped settled
      · cases settled
  · split at settled
    · cases settled
      exact .member rfl
    · cases settled
  · split at settled
    · next mark =>
      cases settled
      exact .kept fun _ => mark
    · cases settled
      exact .opened rfl
  · next other =>
    cases settled
    exact .kept fun start => absurd start other

end Construct

/-- A step ends what its token does not belong to, and then leads to what the token leads to. -/
theorem Reader.step_leads [CharacterNames] {r next : Reader} {token : Token} (read : r.step token = .ok next) :
    ∃ s construct actions build, r.settle (some token) = .ok s ∧
      s.construct.Leads s.build.verbose token.source.length construct actions ∧
      s.build.performAll (s.position + token.source.length) actions = .ok build ∧
      next = ⟨s.position + token.source.length, construct, build⟩ := by
  obtain ⟨s, settled, taken⟩ := step_eq_ok read
  obtain ⟨construct, actions, build, scanned, performed, eq⟩ := take_eq_ok taken
  refine ⟨s, construct, actions, build, settled, Construct.leads_of_scan (fun start => ?_) scanned, performed, eq⟩
  obtain ⟨_, _, _, settles, -, rfl⟩ := settle_eq_ok settled
  cases Construct.settles_of_settle settles with
  | kept mark => exact Option.some.inj (mark start)
  | items | opened | member => cases start

end Gherkin.Regex
