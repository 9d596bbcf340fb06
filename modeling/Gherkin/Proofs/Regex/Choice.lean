import Mathlib.Data.List.Induction
import Gherkin.Proofs.Regex.Literal
import Gherkin.Proofs.Regex.Sequence

/-! # Texts to choose from

Escaped texts with bars between them are read as alternatives in their order
(`Gherkin.Regex.Reader.steps_anyOf`). A text that is meant literally matches where it stands and nowhere else, and of
several alternatives the first counts that lets the rest match (`Gherkin.Regex.run_anyOf`).
-/

namespace Gherkin.Regex

/-- Texts as alternatives, in their order. -/
def Node.anyOf : List Text → Node
  | [] => .empty
  | [t] => literal t
  | t :: u :: rest => .alt (literal t) (anyOf (u :: rest))

/-- The source of alternatives. -/
def alternativesSource (texts : List Text) : Text := Text.joinWith ['|'] (texts.map escapeLiteral)

/-- Nothing is wrong with texts to choose from. -/
theorem Node.fault?_anyOf (texts : List Text) : (anyOf texts).fault? false = none := by
  fun_induction anyOf texts with
  | case1 => rfl
  | case2 t => exact fault?_literal t
  | case3 t u rest ih =>
    rw [fault?, fault?_literal, ih]
    rfl

/-! ### Reading alternatives -/

theorem alternativesSource_cons (t u : Text) (rest : List Text) :
    alternativesSource (t :: u :: rest) = escapeLiteral t ++ '|' :: alternativesSource (u :: rest) := by
  simp [alternativesSource, Text.joinWith]

theorem tokens_alternativesSource_cons (t u : Text) (rest : List Text) : tokens (alternativesSource (t :: u :: rest)) =
    t.map literalToken ++ .plain '|' :: tokens (alternativesSource (u :: rest)) := by
  rw [alternativesSource_cons, tokens_escapeLiteral, tokens_cons (by decide)]

/-- The tokens of the source of alternatives are characters and bars. -/
theorem mem_tokens_alternativesSource {texts : List Text} {token : Token}
    (member : token ∈ tokens (alternativesSource texts)) : (∃ c, token = literalToken c) ∨ token = .plain '|' := by
  have literal {t : Text} (member : token ∈ t.map literalToken) : ∃ c, token = literalToken c := by
    obtain ⟨c, -, rfl⟩ := List.mem_map.mp member
    exact ⟨c, rfl⟩
  induction texts with
  | nil => cases member
  | cons t rest ih =>
    cases rest with
    | nil =>
      rw [alternativesSource, List.map_singleton, Text.joinWith, tokens_escaped] at member
      exact .inl (literal member)
    | cons u rest =>
      rw [tokens_alternativesSource_cons] at member
      rcases List.mem_append.mp member with first | others
      · exact .inl (literal first)
      · rcases List.mem_cons.mp others with rfl | others
        · exact .inr rfl
        · exact ih others

/-- No token of the source of alternatives is a question mark, nor a backslash at the end. -/
theorem plain_alternativesSource {texts : List Text} {token : Token}
    (member : token ∈ tokens (alternativesSource texts)) : token ≠ .plain '?' ∧ token ≠ .dangling := by
  rcases mem_tokens_alternativesSource member with ⟨c, rfl⟩ | rfl
  · refine ⟨literalToken_ne (by decide), ?_⟩
    unfold literalToken
    split <;> nofun
  · exact ⟨by decide, nofun⟩

/-- The pattern that is built, with other alternatives and items in the innermost group. -/
def Build.holding (b : Build) (alternatives : List Node) (items : List Item) : Build :=
  { b with frame := { b.frame with alternatives := alternatives, items := items } }

/-- Where an alternative of a group starts, the source of alternatives is read as these behind the ones that are
there. -/
theorem Reader.steps_anyOf [CharacterNames] {r : Reader} {number : Nat} (item : r.construct = .item)
    (noFlags : r.build.frame.flags = []) (scope : r.build.frame.scope = .capture number)
    (fresh : r.build.frame.items = []) (texts : List Text) : ∃ position alternatives items,
      r.steps (tokens (alternativesSource texts)) = .ok ⟨position, .item, r.build.holding alternatives items⟩ ∧
      (r.build.holding alternatives items).frame.node =
        r.build.frame.alternatives.foldl (fun later earlier => .alt earlier later) (Node.anyOf texts) := by
  induction texts generalizing r with
  | nil =>
    refine ⟨r.position, r.build.frame.alternatives, r.build.frame.items, ?_, ?_⟩
    · obtain ⟨position, construct, build⟩ := r
      cases item
      rfl
    · rw [Build.holding, Frame.node, fresh]
      rfl
  | cons t rest ih =>
    obtain ⟨position, literal⟩ := steps_literal item noFlags t
    have items : r.build.literally t = r.build.holding r.build.frame.alternatives (literalItems t) := by
      rw [Build.literally, fresh, List.append_nil]
      rfl
    cases rest with
    | nil =>
      refine ⟨position, r.build.frame.alternatives, literalItems t, ?_, rfl⟩
      rw [alternativesSource, List.map_singleton, Text.joinWith, tokens_escaped, literal, items]
    | cons u rest =>
      let next : Reader := ⟨position + 1, .item, r.build.holding (.literal t :: r.build.frame.alternatives) []⟩
      have bar : (⟨position, .item, r.build.literally t⟩ : Reader).step (.plain '|') = .ok next := by
        have adds : (r.build.literally t).alternative =
            .ok (r.build.holding (.literal t :: r.build.frame.alternatives) []) := by
          rw [items]
          simp only [Build.alternative, Build.holding, scope]
          rfl
        rw [step_of_settle (settle_item _ rfl _), take]
        simp only [Construct.scan, scanItem, scanPlain, follow, Build.performAll, Build.perform, adds]
        rfl
      obtain ⟨last, alternatives, later, read, node⟩ := ih (r := next) rfl noFlags scope rfl
      refine ⟨last, alternatives, later, ?_, node⟩
      rw [tokens_alternativesSource_cons, steps_append, literal, Except.bind, steps_cons, bar]
      exact read

/-! ### Running through alternatives -/

theorem run_sequenceOf_cons (kind : ItemKind) (node : Node) (before : List Item)
    (s : Cursor) (k : Continuation) : (sequenceOf ((kind, node) :: before)).run s k =
      (sequenceOf before).run s fun t => node.run t k := by
  cases before <;> rfl

/-- Where a text stands, what is meant literally passes over it. -/
theorem run_literal (t rest : Text) (s : Cursor) (k : Continuation) (there : s.rest = t ++ rest) :
    (Node.literal t).run s k = k (s.past t [] rest) := by
  induction t using List.reverseRecOn generalizing rest k with
  | nil =>
    obtain rfl : s.rest = rest := there
    rfl
  | append_singleton t c ih =>
    rw [List.append_assoc] at there
    have first := ih _ (fun u => (Node.char c).run u k) there
    rw [Node.literal, literalItems_concat, run_sequenceOf_cons, ← Node.literal, first]
    simp [Node.char, Node.code, Node.run, classHolds_self, Cursor.past, Cursor.advance]

/-- Where a text does not stand, what is meant literally does not match. -/
theorem run_literal_elsewhere (t : Text) (s : Cursor) (k : Continuation) (elsewhere : ¬t <+: s.rest) :
    (Node.literal t).run s k = none := by
  induction t using List.reverseRecOn generalizing k with
  | nil => exact absurd List.nil_prefix elsewhere
  | append_singleton t c ih =>
    rw [Node.literal, literalItems_concat, run_sequenceOf_cons, ← Node.literal]
    by_cases front : t <+: s.rest
    · obtain ⟨rest, there⟩ := front
      rw [run_literal t rest s _ there.symm]
      cases rest with
      | nil => rfl
      | cons d rest =>
        have other : d ≠ c := by
          rintro rfl
          apply elsewhere
          refine ⟨rest, ?_⟩
          rw [← there, List.append_assoc, List.singleton_append]
        simp [Node.char, Node.code, Node.run, classHolds_self, Cursor.past, other]
    · exact ih _ front

/-- Of several alternatives the first counts that lets the rest match. -/
theorem run_anyOf (texts : List Text) (some_there : texts ≠ []) (s : Cursor) (k : Continuation) :
    (Node.anyOf texts).run s k = texts.findSome? fun t => (Node.literal t).run s k := by
  induction texts with
  | nil => exact absurd rfl some_there
  | cons t rest ih =>
    cases rest with
    | nil =>
      rw [Node.anyOf, List.findSome?_cons]
      cases (Node.literal t).run s k <;> rfl
    | cons u rest =>
      rw [List.findSome?_cons, ← ih (List.cons_ne_nil _ _), Node.anyOf, Node.run]
      cases (Node.literal t).run s k <;> rfl

end Gherkin.Regex
