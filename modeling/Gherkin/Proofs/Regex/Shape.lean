import Mathlib.Data.List.Basic
import Gherkin.Regex.Parser

/-! # Groups and shapes

The groups of a pattern with their bodies, and the shape of a pattern: the pattern with its groups counted from
somewhere else, and without the numbers that it refers to. A pattern that is read behind other things has the shape that
it has alone (`Gherkin.Regex.Frame.Alike`).
-/

namespace Gherkin.Regex

/-- The groups of a pattern with their numbers and bodies. -/
def Node.groupsIn : Node → List (Nat × Node)
  | .empty | .any _ | .oneOf .. | .anchor _ | .reference .. => []
  | .seq first second | .alt first second => first.groupsIn ++ second.groupsIn
  | .group number body => (number, body) :: body.groupsIn
  | .atomic body | .look _ _ body | .loop _ _ _ body => body.groupsIn
  | .conditional _ yes no => yes.groupsIn ++ no.groupsIn

/-- The shape of a pattern behind a number of groups: its own groups are counted from there on, and it is left open
which groups it refers to and how wide these are. -/
def Node.shape (before : Nat) : Node → Node
  | .empty => .empty
  | .any lines => .any lines
  | .oneOf rule negated items => .oneOf rule negated items
  | .anchor place => .anchor place
  | .reference rule _ _ => .reference rule 0 (0, none)
  | .seq first second => .seq (first.shape before) (second.shape before)
  | .alt first second => .alt (first.shape before) (second.shape before)
  | .group number body => .group (number + before) (body.shape before)
  | .atomic body => .atomic (body.shape before)
  | .look behind negated body => .look (behind.map fun _ => (0, none)) negated (body.shape before)
  | .conditional _ yes no => .conditional 0 (yes.shape before) (no.shape before)
  | .loop least most style body => .loop least most style (body.shape before)

theorem Node.groupsIn_shape (before : Nat) (node : Node) :
    (node.shape before).groupsIn = node.groupsIn.map fun group => (group.1 + before, group.2.shape before) := by
  induction node with
  | empty | any | oneOf | anchor | reference => rfl
  | seq _ _ first second | alt _ _ first second | conditional _ _ _ first second =>
    rw [shape, groupsIn, groupsIn, first, second, List.map_append]
  | group number body ih => rw [shape, groupsIn, groupsIn, ih, List.map_cons]
  | atomic body ih | look _ _ body ih | loop _ _ _ body ih => rw [shape, groupsIn, groupsIn, ih]

/-- Patterns of one shape have groups of one shape. -/
theorem Node.exists_of_shape_eq {before : Nat} {node other : Node} (same : other.shape 0 = node.shape before)
    {group : Nat × Node} (member : group ∈ other.groupsIn) :
    ∃ own ∈ node.groupsIn, group.1 = own.1 + before ∧ group.2.shape 0 = own.2.shape before := by
  have shaped : (group.1 + 0, group.2.shape 0) ∈ (other.shape 0).groupsIn := by
    rw [groupsIn_shape]
    exact List.mem_map_of_mem member
  rw [same, groupsIn_shape] at shaped
  obtain ⟨own, there, eq⟩ := List.mem_map.mp shaped
  rw [Nat.add_zero, Prod.mk.injEq] at eq
  exact ⟨own, there, eq.1.symm, eq.2.symm⟩

/-! ### Plain patterns -/

/-- Whether a pattern takes single characters only, which it combines without regard to what stands around them and to
what groups hold, and may be matched in every way in which it can. -/
def Node.unanchored : Node → Bool
  | .empty | .any _ | .oneOf .. => true
  | .anchor _ | .reference .. | .atomic _ | .look .. | .conditional .. | .loop _ _ .possessive _ => false
  | .seq first second | .alt first second => first.unanchored && second.unanchored
  | .group _ body | .loop _ _ _ body => body.unanchored

theorem Node.unanchored_shape (before : Nat) (node : Node) : (node.shape before).unanchored = node.unanchored := by
  induction node with
  | empty | any | oneOf | anchor | reference | atomic | look | conditional => rfl
  | seq _ _ first second | alt _ _ first second => rw [shape, unanchored, unanchored, first, second]
  | group number body ih => rw [shape, unanchored, unanchored, ih]
  | loop _ _ style body ih => cases style <;> simp only [shape, unanchored, ih]

/-- A pattern without groups that refers to none is its own shape. -/
theorem Node.shape_of_unanchored {node : Node} (unanchored : node.unanchored = true) (no_groups : node.groupsIn = [])
    (before : Nat) : node.shape before = node := by
  induction node with
  | empty | any | oneOf => rfl
  | anchor | reference | atomic | look | conditional => cases unanchored
  | seq _ _ first second | alt _ _ first second =>
    have both := Bool.and_eq_true_iff.mp unanchored
    have none_there := List.append_eq_nil_iff.mp no_groups
    rw [shape, first both.1 none_there.1, second both.2 none_there.2]
  | group => cases no_groups
  | loop _ _ style body ih =>
    have inside : body.unanchored = true := by cases style <;> first | exact unanchored | cases unanchored
    rw [shape, ih inside no_groups]

/-- A pattern that has the shape of a plain pattern without groups is that one. -/
theorem Node.eq_of_shape {node other : Node} {before : Nat} (unanchored : node.unanchored = true)
    (no_groups : node.groupsIn = []) (same : other.shape 0 = node.shape before) : other = node := by
  rw [shape_of_unanchored unanchored no_groups] at same
  have other_unanchored : other.unanchored = true := by rw [← unanchored_shape 0, same, unanchored]
  have other_groups : other.groupsIn = [] := by
    have shaped := groupsIn_shape 0 other
    rw [same, no_groups] at shaped
    exact List.map_eq_nil_iff.mp shaped.symm
  rw [← same, shape_of_unanchored other_unanchored other_groups]

/-- Nothing is wrong with a sequence if nothing is with its items. -/
theorem fault?_sequenceOf {template : Bool} {items : List Item}
    (sound : ∀ item ∈ items, item.2.fault? template = none) : (sequenceOf items).fault? template = none := by
  fun_induction sequenceOf items with
  | case1 => rfl
  | case2 kind node => exact sound _ List.mem_cons_self
  | case3 kind node before _ ih =>
    rw [List.forall_mem_cons] at sound
    rw [Node.fault?, ih sound.2, sound.1]
    rfl

/-! ### Open groups -/

/-- The shape of an item. -/
def itemShape (before : Nat) (item : Item) : Item := (item.1, item.2.shape before)

/-- The shape of what a parenthesis is for. -/
def Scope.shape (before : Nat) : Scope → Scope
  | .capture number => .capture (number + before)
  | .conditional _ => .conditional 0
  | scope => scope

theorem shape_sequenceOf (before : Nat) (items : List Item) :
    (sequenceOf items).shape before = sequenceOf (items.map (itemShape before)) := by
  fun_induction sequenceOf items with
  | case1 => rfl
  | case2 kind node => rfl
  | case3 kind node earlier some_there ih =>
    cases earlier with
    | nil => exact absurd rfl some_there
    | cons item rest =>
      rw [Node.shape, ih]
      rfl

theorem groupsIn_sequenceOf (items : List Item) :
    (sequenceOf items).groupsIn.Perm (items.flatMap fun item => item.2.groupsIn) := by
  fun_induction sequenceOf items with
  | case1 => exact .refl _
  | case2 kind node => simp
  | case3 kind node before _ ih =>
    rw [List.flatMap_cons]
    exact (ih.append_right _).trans List.perm_append_comm

namespace Frame

variable {before : Nat} {f f' : Frame}

/-- The groups inside an open group. -/
def groupsIn (f : Frame) : List (Nat × Node) :=
  f.alternatives.flatMap Node.groupsIn ++ f.items.flatMap fun item => item.2.groupsIn

/-- Whether an open group holds what another one holds, behind a number of groups. -/
structure AlikeInside (before : Nat) (f f' : Frame) : Prop where
  alternatives : f'.alternatives.map (Node.shape 0) = f.alternatives.map (Node.shape before)
  items : f'.items.map (itemShape 0) = f.items.map (itemShape before)

/-- Whether an open group is another one, behind a number of groups. -/
structure Alike (before : Nat) (f f' : Frame) : Prop extends AlikeInside before f f' where
  scope : f'.scope.shape 0 = f.scope.shape before
  flags : f'.flags = f.flags

theorem shape_node (before : Nat) (f : Frame) : f.node.shape before =
    (f.alternatives.map (Node.shape before)).foldl (fun later earlier => .alt earlier later)
      (sequenceOf (f.items.map (itemShape before))) := by
  have folds (alternatives : List Node) (later : Node) :
      (alternatives.foldl (fun later earlier => Node.alt earlier later) later).shape before =
        (alternatives.map (Node.shape before)).foldl (fun later earlier => .alt earlier later)
          (later.shape before) := by
    induction alternatives generalizing later with
    | nil => rfl
    | cons node alternatives ih => exact ih _
  rw [node, folds, shape_sequenceOf]

theorem AlikeInside.node (alike : AlikeInside before f f') : f'.node.shape 0 = f.node.shape before := by
  rw [shape_node, shape_node, alike.alternatives, alike.items]

theorem AlikeInside.sequence (alike : AlikeInside before f f') :
    (sequenceOf f'.items).shape 0 = (sequenceOf f.items).shape before := by
  rw [shape_sequenceOf, shape_sequenceOf, alike.items]

/-- Groups that are alike are alike when they are closed. -/
theorem Alike.closed (alike : Alike before f f') : f'.closed.shape 0 = f.closed.shape before := by
  have node := alike.node
  have scope := alike.scope
  unfold Frame.closed
  cases own : f.scope <;> cases other : f'.scope <;> rw [own, other] at scope <;>
    simp only [Scope.shape, Scope.capture.injEq, Scope.look.injEq, reduceCtorEq] at scope
  case whole.whole | plain.plain => exact node
  case capture.capture => simp only [Node.shape, scope, node]
  case atomic.atomic => simp only [Node.shape, node]
  case look.look behind negated behind' negated' =>
    obtain ⟨rfl, rfl⟩ := scope
    cases behind' <;> simp [Node.shape, node]
  case conditional.conditional =>
    have alternatives := alike.alternatives
    cases own : f.alternatives with
    | nil =>
      rw [own, List.map_nil, List.map_eq_nil_iff] at alternatives
      simp only [alternatives, Node.shape, node]
    | cons yes rest =>
      cases other : f'.alternatives with
      | nil => simp [own, other] at alternatives
      | cons yes' rest' =>
        rw [own, other, List.map_cons, List.map_cons, List.cons.injEq] at alternatives
        simp only [Node.shape, alternatives.1, alike.sequence]

/-- The pattern of an open group has the groups that are inside. -/
theorem groupsIn_node (f : Frame) : f.node.groupsIn.Perm f.groupsIn := by
  have folds (alternatives : List Node) (later : Node) :
      (alternatives.foldl (fun later earlier => .alt earlier later) later).groupsIn.Perm
        (alternatives.flatMap Node.groupsIn ++ later.groupsIn) := by
    induction alternatives generalizing later with
    | nil => exact .refl _
    | cons node alternatives ih =>
      refine (ih _).trans ?_
      rw [Node.groupsIn, List.flatMap_cons, ← List.append_assoc]
      exact List.perm_append_comm.append_right _
  exact (folds _ _).trans ((groupsIn_sequenceOf _).append_left _)

theorem mem_groupsIn_push {kind : ItemKind} {node : Node} {group : Nat × Node} :
    group ∈ (f.push kind node).groupsIn ↔ group ∈ node.groupsIn ∨ group ∈ f.groupsIn := by
  simp [groupsIn, push, or_left_comm]

theorem mem_groupsIn_nextAlternative {group : Nat × Node} :
    group ∈ f.nextAlternative.groupsIn ↔ group ∈ f.groupsIn := by
  simp [groupsIn, nextAlternative, (groupsIn_sequenceOf _).mem_iff, or_comm]

/-- A group that is closed brings what is inside, and itself if it keeps its text. -/
theorem groupsIn_closed {group : Nat × Node} (member : group ∈ f.closed.groupsIn) :
    group ∈ f.groupsIn ∨ f.scope = .capture group.1 := by
  have inside (member : group ∈ f.node.groupsIn) : group ∈ f.groupsIn := f.groupsIn_node.mem_iff.mp member
  have last (member : group ∈ (sequenceOf f.items).groupsIn) : group ∈ f.groupsIn :=
    List.mem_append_right _ ((groupsIn_sequenceOf _).mem_iff.mp member)
  unfold closed at member
  split at member
  · exact .inl (inside member)
  · exact .inl (inside member)
  · next scope =>
    rcases List.mem_cons.mp member with rfl | member
    · exact .inr scope
    · exact .inl (inside member)
  · exact .inl (inside member)
  · exact .inl (inside member)
  · split at member
    · exact .inl (inside (by simpa [Node.groupsIn] using member))
    · next yes rest alternatives =>
      rcases List.mem_append.mp member with first | second
      · exact .inl (List.mem_append_left _ (List.mem_flatMap.mpr ⟨yes, by simp [alternatives], first⟩))
      · exact .inl (last second)

end Frame

end Gherkin.Regex
