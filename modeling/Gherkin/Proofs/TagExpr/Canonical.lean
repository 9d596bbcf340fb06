import Gherkin.Proofs.TagExpr.Tokens
import Gherkin.Proofs.Text.Trimming

/-! # The canonical text of a tag expression

Reading the canonical text of an expression whose names are tag names gives the expression back
(`Gherkin.TagExpr.parse_text`), so no two such expressions have the same text. A piece of a canonical text is cut
into its tokens in front of everything that cannot belong to a tag name, and pieces are put together where the
second starts with such a character.
-/

namespace Gherkin.TagExpr

/-- The tag names of an expression, from left to right. -/
def names : TagExpr → List Text
  | tag name => [name]
  | not operand => operand.names
  | and left right | or left right => left.names ++ right.names

/-- Whether every tag of an expression is a tag name. -/
def Named (e : TagExpr) : Prop := ∀ name ∈ e.names, isTagName name = true

instance (e : TagExpr) : Decidable e.Named := inferInstanceAs (Decidable (∀ name ∈ e.names, _))

theorem named_and {left right : TagExpr} : (and left right).Named ↔ left.Named ∧ right.Named :=
  List.forall_mem_append

theorem named_or {left right : TagExpr} : (or left right).Named ↔ left.Named ∧ right.Named :=
  List.forall_mem_append

theorem named_tag {name : Text} : (tag name).Named ↔ isTagName name = true :=
  List.forall_mem_singleton

/-! ### Cutting a piece of a text -/

/-- Whether a tag name in front of a text ends there. -/
def Ends (rest : Text) : Prop := ∀ c ∈ rest.head?, isTagChar c = false

/-- Whether a piece of a text at a position is cut into some tokens, in front of every text of some kind. -/
def CutAt (follows : Text → Prop) (position : Nat) (piece : Text) (tokens : List Token) : Prop :=
  ∀ rest, follows rest →
    tokensFrom position 0 (piece ++ rest) = (tokensFrom (position + piece.length) 0 rest).map (tokens ++ ·)

/-- Two pieces are cut one after the other if the first is cut in front of the second. -/
theorem CutAt.append {follows behind : Text → Prop} {position : Nat} {first second : Text}
    {tokens others : List Token} (cut : CutAt follows position first tokens)
    (next : CutAt behind (position + first.length) second others)
    (between : ∀ rest, behind rest → follows (second ++ rest)) :
    CutAt behind position (first ++ second) (tokens ++ others) := by
  intro rest stops
  rw [List.append_assoc, cut _ (between rest stops), next rest stops, List.length_append, Nat.add_assoc]
  cases tokensFrom (position + (first.length + second.length)) 0 rest with
  | error cause => rfl
  | ok tokens => simp only [Except.map, List.append_assoc]

/-- A tag name is cut where it ends. -/
theorem cutAt_tag {name : Text} (named : isTagName name = true) (position : Nat) :
    CutAt Ends position name [⟨.tag, name, position⟩] := by
  obtain ⟨⟨word, rfl⟩, -⟩ := of_isTagName named
  obtain ⟨nonempty, chars⟩ := Bool.and_eq_true_iff.mp named
  intro rest ends
  have lexeme : Lexeme rest .tag ('@' :: word) := .tag (by simpa using nonempty) (List.all_eq_true.mp chars) ends
  exact lexeme.tokensFrom position

section Pieces

variable (follows : Text → Prop) (position : Nat)

theorem cutAt_open : CutAt follows position "(" [⟨.openParen, "(", position⟩] :=
  fun rest _ => by cases rest <;> rfl

theorem cutAt_close : CutAt follows position ")" [⟨.closeParen, ")", position⟩] :=
  fun rest _ => by cases rest <;> rfl

theorem cutAt_not : CutAt follows position "not " [⟨.not, "not", position⟩] := fun _ _ => rfl

theorem cutAt_and : CutAt follows position " and " [⟨.and, "and", position + 1⟩] := fun _ _ => rfl

theorem cutAt_or : CutAt follows position " or " [⟨.or, "or", position + 1⟩] := fun _ _ => rfl

end Pieces

/-- Two operands and an operator in parentheses are cut if the operator ends a tag name. -/
theorem cutAt_enclosed {position : Nat} {first second word : Text} {before behind : List Token} {sign : Token}
    (left : CutAt Ends (position + 1) first before)
    (joins : CutAt (fun _ => True) (position + ("(" ++ first).length) word [sign])
    (stops : ∀ rest, Ends (word ++ rest))
    (right : CutAt Ends (position + ("(" ++ first ++ word).length) second behind) :
    CutAt Ends position ("(" ++ first ++ word ++ second ++ ")")
      (⟨.openParen, "(", position⟩ :: (before ++ sign :: behind) ++
        [⟨.closeParen, ")", position + ("(" ++ first ++ word ++ second).length⟩]) := by
  have opened := (cutAt_open (fun _ => True) position).append left fun _ _ => trivial
  have joined := (opened.append joins fun rest _ => stops rest).append right fun _ _ => trivial
  have closed := joined.append (cutAt_close Ends _) fun rest _ c first => by
    cases first
    decide
  simpa only [List.append_assoc, List.cons_append, List.nil_append] using closed

/-- The canonical text of an expression is cut into tokens that write the expression. -/
theorem Named.cutAt_text {e : TagExpr} (named : e.Named) (position : Nat) :
    ∃ tokens, Derives .negation tokens e ∧ CutAt Ends position e.text tokens := by
  induction e generalizing position with
  | tag name => exact ⟨_, .primary (.tag rfl), cutAt_tag (named_tag.mp named) position⟩
  | not operand ih =>
    obtain ⟨tokens, written, cut⟩ := ih named (position + 4)
    exact ⟨_, .not rfl written, (cutAt_not (fun _ => True) position).append cut fun _ _ => trivial⟩
  | and left right first second =>
    obtain ⟨leftNamed, rightNamed⟩ := named_and.mp named
    obtain ⟨before, leftWritten, leftCut⟩ := first leftNamed (position + 1)
    obtain ⟨behind, rightWritten, rightCut⟩ := second rightNamed (position + ("(" ++ left.text ++ " and ").length)
    have joins : (Token.mk .and "and" (position + ("(" ++ left.text).length + 1)).kind = .and := rfl
    exact ⟨_, .primary (.group rfl (.conjunction (.and (.negation leftWritten) joins rightWritten)) rfl),
      cutAt_enclosed leftCut (cutAt_and _ _) (fun _ c first => by cases first; decide) rightCut⟩
  | or left right first second =>
    obtain ⟨leftNamed, rightNamed⟩ := named_or.mp named
    obtain ⟨before, leftWritten, leftCut⟩ := first leftNamed (position + 1)
    obtain ⟨behind, rightWritten, rightCut⟩ := second rightNamed (position + ("(" ++ left.text ++ " or ").length)
    have joins : (Token.mk .or "or" (position + ("(" ++ left.text).length + 1)).kind = .or := rfl
    exact ⟨_, .primary (.group rfl (.or (.conjunction (.negation leftWritten)) joins (.negation rightWritten)) rfl),
      cutAt_enclosed leftCut (cutAt_or _ _) (fun _ c first => by cases first; decide) rightCut⟩

/-! ### Reading the text -/

/-- What is left of a text without the white space around it is read as the expression that its tokens write. -/
theorem parse_of_tokenize {t : Text} {body : List Token} {e : TagExpr} (nonempty : Text.trim t ≠ [])
    (cut : tokenize (Text.trim t) = .ok (body ++ [.atEnd (Text.trim t)])) (written : Derives .disjunction body e) :
    parse t = .ok e := by
  simp only [parse, List.isEmpty_iff, nonempty, if_false, cut, written.ofTokens]

/-- A piece that is cut in front of nothing is cut as a whole text. -/
theorem CutAt.tokenize {t : Text} {tokens : List Token} (cut : CutAt Ends 0 t tokens) :
    tokenize t = .ok (tokens ++ [.atEnd t]) := by
  have whole := cut [] (by rintro _ ⟨⟩)
  rw [List.append_nil, Nat.zero_add, tokensFrom] at whole
  rw [TagExpr.tokenize, whole]
  rfl

theorem text_ne_nil {e : TagExpr} (named : e.Named) : e.text ≠ [] := by
  cases e with
  | tag name =>
    obtain ⟨⟨word, rfl⟩, -⟩ := of_isTagName (named_tag.mp named)
    exact List.cons_ne_nil _ _
  | not | and | or => exact List.cons_ne_nil _ _

theorem trimmed_text {e : TagExpr} (named : e.Named) : Text.Trimmed isBlank e.text := by
  induction e with
  | tag name =>
    obtain ⟨-, solid⟩ := of_isTagName (named_tag.mp named)
    exact ⟨fun c first => solid c (List.mem_of_mem_head? first),
      fun c last => solid c (List.mem_of_getLast? last)⟩
  | not operand ih =>
    exact Text.trimmed_append (List.cons_ne_nil _ _) (text_ne_nil (e := operand) named)
      (fun c first => by cases first; decide) (ih named).2
  | and | or =>
    exact Text.trimmed_append (List.cons_ne_nil _ _) (List.cons_ne_nil _ _)
      (fun c first => by cases first; decide) (fun c last => by cases last; decide)

/-- Reading the canonical text of an expression whose names are tag names gives the expression back, and no other
such expression has that text. -/
theorem parse_text (e : TagExpr) (named : e.Named) :
    parse e.text = .ok e ∧ ∀ other : TagExpr, other.Named → other.text = e.text → other = e := by
  have read : ∀ e : TagExpr, e.Named → parse e.text = .ok e := by
    intro e named
    obtain ⟨tokens, written, cut⟩ := named.cutAt_text 0
    have trim : Text.trim e.text = e.text := Text.trimBy_of_trimmed (trimmed_text named)
    refine parse_of_tokenize ?_ ?_ (.conjunction (.negation written))
    · rw [trim]
      exact text_ne_nil named
    · rw [trim]
      exact cut.tokenize
  refine ⟨read e named, fun other otherNamed same => ?_⟩
  have twice := (read other otherNamed).symm.trans (same ▸ read e named)
  exact Except.ok.inj twice

theorem parse_text_nested :
    parse "not (not (@a or not @not) and (@b-1 and @É_2))" =
      .ok (.not (.and (.not (.or (.tag "@a") (.not (.tag "@not")))) (.and (.tag "@b-1") (.tag "@É_2")))) := by
  exact (parse_text (.not (.and (.not (.or (.tag "@a") (.not (.tag "@not")))) (.and (.tag "@b-1") (.tag "@É_2"))))
    (by decide)).1

end Gherkin.TagExpr
