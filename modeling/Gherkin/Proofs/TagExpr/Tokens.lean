import Gherkin.Proofs.Document.Tags
import Gherkin.Proofs.TagExpr.Grammar

/-! # Tokens cover the text

A text is cut into tokens exactly if tokens cover it: they stand in it one behind another, each as long as it can be,
with nothing but white space between them (`Gherkin.TagExpr.tokenize_covers`). What the cutting does at one character
is told by the token that starts there (`Gherkin.TagExpr.firstToken_eq_ok_iff`), and a cover is taken apart from the
front in the same way.
-/

namespace Gherkin.TagExpr

/-- How an operator is spelled in small letters. -/
def TokenKind.spelling? : TokenKind → Option Text
  | and => some ['a', 'n', 'd']
  | or => some ['o', 'r']
  | not => some ['n', 'o', 't']
  | _ => none

/-- Whether some characters are a token of a kind in front of the rest of a text. A tag has a name that ends there, and
an operator is a whole word in any letter case. -/
inductive Lexeme (rest : Text) : TokenKind → Text → Prop
  | openParen : Lexeme rest .openParen ['(']
  | closeParen : Lexeme rest .closeParen [')']
  | tag {name : Text} (nonempty : name ≠ []) (chars : ∀ c ∈ name, isTagChar c = true)
      (ends : ∀ c ∈ rest.head?, isTagChar c = false) : Lexeme rest .tag ('@' :: name)
  | operator {kind : TokenKind} {word : Text} (spelled : kind.spelling? = some (word.map Char.toLower))
      (ends : ∀ c ∈ rest.head?, isWord c = false) : Lexeme rest kind word

/-! ### One token -/

theorem wholeWord?_eq_some {word t start : Text} :
    wholeWord? word t = some start ↔
      ∃ rest, t = start ++ rest ∧ start.map Char.toLower = word ∧ ∀ c ∈ rest.head?, isWord c = false := by
  simp only [wholeWord?, Bool.and_eq_true, decide_eq_true_eq, Bool.not_eq_true', Option.any_eq_false]
  constructor
  · intro found
    split at found
    · rename_i fits
      cases found
      exact ⟨t.drop word.length, (List.take_append_drop _ _).symm, fits.1, by simpa using fits.2⟩
    · cases found
  · rintro ⟨rest, rfl, rfl, ends⟩
    rw [List.length_map, List.take_left, List.drop_left, if_pos ⟨rfl, by simpa using ends⟩]

/-- A text does not start with two words that have different first letters. -/
theorem wholeWord?_eq_none {first second t start : Text} (found : wholeWord? first t = some start)
    (one : first ≠ []) (two : second ≠ []) (differ : first.head? ≠ second.head?) : wholeWord? second t = none := by
  have head {word start : Text} (found : wholeWord? word t = some start) (nonempty : word ≠ []) :
      t.head?.map Char.toLower = word.head? := by
    obtain ⟨rest, rfl, rfl, -⟩ := wholeWord?_eq_some.mp found
    cases start with
    | nil => exact absurd rfl nonempty
    | cons c more => rfl
  cases also : wholeWord? second t with
  | none => rfl
  | some word => exact absurd ((head found one).symm.trans (head also two)) differ

/-- A text starts with the operator that is spelled there as a whole word. -/
theorem operator?_eq_some {t word : Text} {kind : TokenKind} :
    operator? t = some (kind, word) ↔ ∃ spelling ∈ kind.spelling?, wholeWord? spelling t = some word := by
  unfold operator?
  cases and : wholeWord? ['a', 'n', 'd'] t with
  | some start =>
    have or : wholeWord? ['o', 'r'] t = none := wholeWord?_eq_none and (by decide) (by decide) (by decide)
    have not : wholeWord? ['n', 'o', 't'] t = none := wholeWord?_eq_none and (by decide) (by decide) (by decide)
    cases kind <;> simp [TokenKind.spelling?, and, or, not]
  | none =>
    cases or : wholeWord? ['o', 'r'] t with
    | some start =>
      have not : wholeWord? ['n', 'o', 't'] t = none := wholeWord?_eq_none or (by decide) (by decide) (by decide)
      cases kind <;> simp [TokenKind.spelling?, and, or, not]
    | none => cases kind <;> simp [TokenKind.spelling?, and, or]

/-- A letter that is an operator's first in small letters is no white space. -/
theorem isBlank_of_toLower {c : Char} (letter : c.toLower ∈ ['a', 'o', 'n']) : isBlank c = false := by
  cases blank : isBlank c with
  | false => rfl
  | true =>
    have none : ∀ n ∈ blankCodes, (Char.ofNat n).toLower ∉ ['a', 'o', 'n'] := by decide
    have absent := none _ (mem_blankCodes blank)
    rw [Char.ofNat_toNat] at absent
    exact absurd letter absent

/-- The first letter of an operator. -/
theorem head_of_spelling? {kind : TokenKind} {word : Text} (spelled : kind.spelling? = some (word.map Char.toLower)) :
    ∃ c more, word = c :: more ∧ c.toLower ∈ ['a', 'o', 'n'] := by
  cases word with
  | nil => cases kind <;> cases spelled
  | cons c more =>
    refine ⟨c, more, rfl, ?_⟩
    cases kind with
    | and | or | not =>
      have letter := (List.cons.inj (Option.some.inj spelled)).1
      rw [← letter]
      decide
    | _ => cases spelled

/-- A token starts with a character that is no white space. -/
theorem Lexeme.solid {rest value : Text} {kind : TokenKind} (lexeme : Lexeme rest kind value) :
    ∃ c more, value = c :: more ∧ isBlank c = false := by
  cases lexeme with
  | openParen | closeParen | tag => exact ⟨_, _, rfl, by decide⟩
  | operator spelled =>
    obtain ⟨c, more, rfl, letter⟩ := head_of_spelling? spelled
    exact ⟨c, more, rfl, isBlank_of_toLower letter⟩

/-- The name of a tag ends where a character stands that cannot belong to it. -/
theorem takeWhile_isTagChar {name rest : Text} (chars : ∀ c ∈ name, isTagChar c = true)
    (ends : ∀ c ∈ rest.head?, isTagChar c = false) : (name ++ rest).takeWhile isTagChar = name := by
  rw [List.takeWhile_append_of_pos chars]
  cases rest with
  | nil => rw [List.takeWhile_nil, List.append_nil]
  | cons c rest => rw [List.takeWhile_cons_of_neg (by simp [ends c rfl]), List.append_nil]

/-- The token that a text starts with stands there. -/
theorem lexeme_of_firstToken {position : Nat} {c : Char} {rest : Text} {token : Token}
    (found : firstToken position c rest = .ok token) :
    token.position = position ∧ ∃ behind, c :: rest = token.value ++ behind ∧
      Lexeme behind token.kind token.value := by
  unfold firstToken at found
  split at found
  · rename_i same
    cases found
    exact ⟨rfl, rest, rfl, same ▸ .openParen⟩
  split at found
  · rename_i same
    cases found
    exact ⟨rfl, rest, rfl, same ▸ .closeParen⟩
  split at found
  · rename_i same
    dsimp only at found
    split at found
    · cases found
    · rename_i nonempty
      cases found
      subst same
      refine ⟨rfl, rest.dropWhile isTagChar, by simp, .tag ?_ ?_ ?_⟩
      · simpa using nonempty
      · exact List.all_eq_true.mp List.all_takeWhile
      · exact Text.head_trimLeftBy
  · split at found
    · rename_i kind word operates
      cases found
      obtain ⟨spelling, spelled, stands⟩ := operator?_eq_some.mp operates
      obtain ⟨behind, split, rfl, ends⟩ := wholeWord?_eq_some.mp stands
      exact ⟨rfl, behind, split, .operator spelled ends⟩
    · cases found

/-- A text starts with the token that stands there. -/
theorem Lexeme.firstToken {behind value : Text} {kind : TokenKind} (lexeme : Lexeme behind kind value)
    {position : Nat} {c : Char} {rest : Text} (split : c :: rest = value ++ behind) :
    firstToken position c rest = .ok ⟨kind, value, position⟩ := by
  cases lexeme with
  | openParen =>
    cases split
    rfl
  | closeParen =>
    cases split
    rfl
  | @tag name nonempty chars ends =>
    rw [List.cons_append, List.cons.injEq] at split
    obtain ⟨rfl, rfl⟩ := split
    simp only [TagExpr.firstToken, Char.reduceEq, if_false, if_true, takeWhile_isTagChar chars ends]
    rw [if_neg (by simpa using nonempty)]
  | operator spelled ends =>
    have operates : operator? (c :: rest) = some (kind, value) :=
      operator?_eq_some.mpr ⟨_, spelled, wholeWord?_eq_some.mpr ⟨behind, split, rfl, ends⟩⟩
    obtain ⟨first, more, rfl, letter⟩ := head_of_spelling? spelled
    obtain ⟨rfl, -⟩ := List.cons.inj split
    have other {sign : Char} (plain : sign.toLower ∉ ['a', 'o', 'n']) : c ≠ sign := by
      rintro rfl
      exact plain letter
    rw [TagExpr.firstToken, if_neg (other (by decide)), if_neg (other (by decide)), if_neg (other (by decide)),
      operates]

/-! ### Tokens one after another -/

/-- The characters of a token that is already cut are passed over. -/
theorem tokensFrom_skip (position : Nat) (word rest : Text) :
    tokensFrom position word.length (word ++ rest) = tokensFrom (position + word.length) 0 rest := by
  induction word generalizing position with
  | nil => cases rest <;> rfl
  | cons c word ih =>
    rw [List.length_cons, List.cons_append, tokensFrom, ih, Nat.add_assoc, Nat.add_comm 1]

/-- A token that a text starts with is cut off. -/
theorem Lexeme.tokensFrom {behind value : Text} {kind : TokenKind} (lexeme : Lexeme behind kind value)
    (position : Nat) :
    tokensFrom position 0 (value ++ behind) =
      (tokensFrom (position + value.length) 0 behind).map (⟨kind, value, position⟩ :: ·) := by
  obtain ⟨c, more, rfl, solid⟩ := lexeme.solid
  have first : TagExpr.firstToken position c (more ++ behind) = .ok ⟨kind, c :: more, position⟩ :=
    lexeme.firstToken rfl
  rw [List.cons_append, TagExpr.tokensFrom, if_neg (by simp [solid]), first]
  dsimp only
  rw [List.length_cons, Nat.add_sub_cancel, tokensFrom_skip, Nat.add_assoc, Nat.add_comm 1]

/-- How a text that starts at a position is cut into tokens, from the front. -/
inductive Cut : Nat → Text → List Token → Prop
  | nil (position : Nat) : Cut position [] []
  | blank {position : Nat} {c : Char} {rest : Text} {tokens : List Token} (blank : isBlank c = true)
      (cut : Cut (position + 1) rest tokens) : Cut position (c :: rest) tokens
  | token {position : Nat} {behind value : Text} {kind : TokenKind} {tokens : List Token}
      (lexeme : Lexeme behind kind value) (cut : Cut (position + value.length) behind tokens) :
      Cut position (value ++ behind) (⟨kind, value, position⟩ :: tokens)

theorem Cut.tokensFrom {position : Nat} {t : Text} {tokens : List Token} (cut : Cut position t tokens) :
    tokensFrom position 0 t = .ok (tokens ++ [⟨.eof, [], position + t.length⟩]) := by
  induction cut with
  | nil => rfl
  | blank blank _ ih => rw [TagExpr.tokensFrom, if_pos blank, ih, List.length_cons, Nat.add_assoc, Nat.add_comm 1]
  | token lexeme _ ih =>
    rw [lexeme.tokensFrom, ih, List.length_append, Nat.add_assoc]
    rfl

/-- What comes behind the characters that are passed over is cut into the tokens in front of the last. -/
theorem cut_of_tokensFrom {position skip : Nat} {t : Text} {tokens : List Token}
    (found : tokensFrom position skip t = .ok tokens) :
    ∃ body last, tokens = body ++ [last] ∧ Cut (position + skip) (t.drop skip) body := by
  fun_induction TagExpr.tokensFrom position skip t generalizing tokens with
  | case1 position skip =>
    cases found
    exact ⟨[], _, rfl, by rw [List.drop_nil]; exact .nil _⟩
  | case2 position skip c rest ih =>
    obtain ⟨body, last, same, cut⟩ := ih found
    refine ⟨body, last, same, ?_⟩
    rwa [Nat.add_right_comm] at cut
  | case3 position c rest blank ih =>
    obtain ⟨body, last, same, cut⟩ := ih found
    exact ⟨body, last, same, .blank blank cut⟩
  | case4 => cases found
  | case5 position c rest dark token first ih =>
    obtain ⟨kind, value, place⟩ := token
    obtain ⟨rfl, behind, split, lexeme⟩ := lexeme_of_firstToken first
    obtain ⟨first, more, rfl, -⟩ := lexeme.solid
    rw [List.cons_append, List.cons.injEq] at split
    obtain ⟨rfl, rfl⟩ := split
    simp only [List.length_cons, Nat.add_sub_cancel] at found ih
    cases later : TagExpr.tokensFrom (place + 1) more.length (more ++ behind) with
    | error cause =>
      rw [later] at found
      cases found
    | ok others =>
      rw [later] at found
      cases found
      obtain ⟨body, last, rfl, cut⟩ := ih later
      rw [List.drop_left, Nat.add_assoc, Nat.add_comm 1] at cut
      exact ⟨_, last, rfl, .token lexeme cut⟩

/-- A text is cut into tokens in the one way in which it can be cut from the front. -/
theorem tokensFrom_eq_ok_iff {position : Nat} {t : Text} {tokens : List Token} :
    tokensFrom position 0 t = .ok tokens ↔
      ∃ body, tokens = body ++ [⟨.eof, [], position + t.length⟩] ∧ Cut position t body := by
  constructor
  · intro found
    obtain ⟨body, last, rfl, cut⟩ := cut_of_tokensFrom found
    exact ⟨body, Except.ok.inj (found.symm.trans cut.tokensFrom), cut⟩
  · rintro ⟨body, rfl, cut⟩
    exact cut.tokensFrom

/-! ### Positions -/

/-- Whether a token stands in a text that starts at a position: its characters are those at its place, and they are a
token of its kind in front of what comes behind them. -/
def Token.StandsIn (start : Nat) (t : Text) (token : Token) : Prop :=
  ∃ before behind, t = before ++ (token.value ++ behind) ∧ token.position = start + before.length ∧
    Lexeme behind token.kind token.value

/-- Whether a token reaches over a position. -/
def Token.Holds (token : Token) (position : Nat) : Prop :=
  token.position ≤ position ∧ position < token.position + token.value.length

/-- Whether tokens cover a text that starts at a position: they stand in it one behind another, and what no token
holds is white space. -/
structure Covers (start : Nat) (t : Text) (tokens : List Token) : Prop where
  stands : ∀ token ∈ tokens, token.StandsIn start t
  ordered : tokens.Pairwise fun first second =>
    first.position < second.position ∧ first.position + first.value.length ≤ second.position
  between : ∀ i c, t[i]? = some c → (∀ token ∈ tokens, ¬ token.Holds (start + i)) → isBlank c = true

theorem Lexeme.length_pos {rest value : Text} {kind : TokenKind} (lexeme : Lexeme rest kind value) :
    0 < value.length := by
  obtain ⟨c, more, rfl, -⟩ := lexeme.solid
  exact Nat.succ_pos _

theorem Token.StandsIn.append {start : Nat} (before : Text) {t : Text} {token : Token}
    (stands : token.StandsIn (start + before.length) t) : token.StandsIn start (before ++ t) := by
  obtain ⟨front, behind, rfl, position, lexeme⟩ := stands
  exact ⟨before ++ front, behind, (List.append_assoc _ _ _).symm,
    by rw [position, List.length_append, Nat.add_assoc], lexeme⟩

/-- A token that stands behind the start of a text stands in the rest. -/
theorem Token.StandsIn.of_append {start : Nat} (before : Text) {t : Text} {token : Token}
    (stands : token.StandsIn start (before ++ t)) (later : start + before.length ≤ token.position) :
    token.StandsIn (start + before.length) t := by
  obtain ⟨front, behind, split, position, lexeme⟩ := stands
  rw [position] at later
  obtain ⟨more, rfl, rfl⟩ | ⟨more, rfl, same⟩ := List.append_eq_append_iff.mp split
  · exact ⟨more, behind, rfl, by rw [position, List.length_append, Nat.add_assoc], lexeme⟩
  · have none : more = [] := by
      rw [List.length_append] at later
      exact List.length_eq_zero_iff.mp (by omega)
    subst none
    exact ⟨[], behind, same.symm, by simpa using position, lexeme⟩

theorem Token.StandsIn.start_le {start : Nat} {t : Text} {token : Token} (stands : token.StandsIn start t) :
    start ≤ token.position := by
  obtain ⟨before, _, _, position, _⟩ := stands
  rw [position]
  exact Nat.le_add_right _ _

namespace Covers

variable {start : Nat} {t : Text} {tokens : List Token}

/-- A text is covered by the tokens of the rest if white space stands in front of it. -/
theorem blank {c : Char} (blank : isBlank c = true) (covers : Covers (start + 1) t tokens) :
    Covers start (c :: t) tokens := by
  refine ⟨fun token member => (covers.stands token member).append [c], covers.ordered, fun i other found free => ?_⟩
  cases i with
  | zero =>
    cases found
    exact blank
  | succ i =>
    refine covers.between i other found fun token member => ?_
    rw [Nat.add_assoc, Nat.add_comm 1]
    exact free token member

/-- A text is covered by the token in front and those of the rest. -/
theorem token {behind value : Text} {kind : TokenKind} (lexeme : Lexeme behind kind value)
    (covers : Covers (start + value.length) behind tokens) :
    Covers start (value ++ behind) (⟨kind, value, start⟩ :: tokens) := by
  have positive := lexeme.length_pos
  refine ⟨List.forall_mem_cons.mpr ⟨⟨[], behind, rfl, rfl, lexeme⟩, fun token member => ?_⟩,
    List.pairwise_cons.mpr ⟨fun token member => ?_, covers.ordered⟩, fun i c found free => ?_⟩
  · exact (covers.stands token member).append value
  · have later := (covers.stands token member).start_le
    exact ⟨by dsimp only; omega, later⟩
  · rw [List.forall_mem_cons] at free
    have outside : value.length ≤ i := by
      by_contra inside
      exact free.1 ⟨Nat.le_add_right _ _, by dsimp only; omega⟩
    rw [List.getElem?_append_right outside] at found
    refine covers.between _ c found fun token member => ?_
    rw [Nat.add_assoc, Nat.add_sub_cancel' outside]
    exact free.2 token member

/-- The rest of a text behind a character that no token holds. -/
theorem of_later {c : Char} (covers : Covers start (c :: t) tokens) (later : ∀ token ∈ tokens, start < token.position) :
    isBlank c = true ∧ Covers (start + 1) t tokens := by
  refine ⟨covers.between 0 c rfl fun token member holds => ?_,
    fun token member => ?_, covers.ordered, fun i other found free => ?_⟩
  · exact absurd holds.1 (Nat.not_le_of_lt (later token member))
  · exact Token.StandsIn.of_append [c] (covers.stands token member) (later token member)
  · refine covers.between (i + 1) other found fun token member => ?_
    rw [Nat.add_comm i, ← Nat.add_assoc]
    exact free token member

/-- The rest of a text behind a token at its start. -/
theorem of_token {token : Token} (covers : Covers start t (token :: tokens)) (first : token.position = start) :
    ∃ behind, t = token.value ++ behind ∧ Lexeme behind token.kind token.value ∧
      Covers (start + token.value.length) behind tokens := by
  obtain ⟨stands, ordered, between⟩ := covers
  rw [List.forall_mem_cons] at stands
  rw [List.pairwise_cons] at ordered
  obtain ⟨⟨before, behind, rfl, position, lexeme⟩, others⟩ := stands
  have none : before = [] := List.length_eq_zero_iff.mp (by omega)
  subst none
  refine ⟨behind, rfl, lexeme, fun other member => ?_, ordered.2, fun i c found free => ?_⟩
  · have later := (ordered.1 other member).2
    rw [first] at later
    exact Token.StandsIn.of_append token.value (others other member) later
  · have place : (token.value ++ behind)[token.value.length + i]? = some c := by
      rw [List.getElem?_append_right (Nat.le_add_right _ _), Nat.add_sub_cancel_left]
      exact found
    refine between _ c place (List.forall_mem_cons.mpr ⟨fun holds => ?_, fun other member => ?_⟩)
    · have inside := holds.2
      omega
    · rw [← Nat.add_assoc]
      exact free other member

end Covers

/-- What is cut from the front is covered. -/
theorem Cut.covers {start : Nat} {t : Text} {tokens : List Token} (cut : Cut start t tokens) :
    Covers start t tokens := by
  induction cut with
  | nil => exact ⟨List.forall_mem_nil _, .nil, by rintro i c ⟨⟩⟩
  | blank blank _ ih => exact ih.blank blank
  | token lexeme _ ih => exact .token lexeme ih

/-- No token stands in a text without characters. -/
theorem Token.StandsIn.ne_nil {start : Nat} {t : Text} {token : Token} (stands : token.StandsIn start t) : t ≠ [] := by
  obtain ⟨before, behind, rfl, _, lexeme⟩ := stands
  obtain ⟨c, more, value, -⟩ := lexeme.solid
  simp [value]

/-- What is covered is cut from the front. -/
theorem Covers.cut {start : Nat} {t : Text} {tokens : List Token} (covers : Covers start t tokens) :
    Cut start t tokens := by
  induction length : t.length using Nat.strongRecOn generalizing start t tokens with
  | ind n shorter =>
  subst length
  cases t with
  | nil =>
    cases tokens with
    | nil => exact .nil start
    | cons token others => exact absurd rfl (covers.stands token List.mem_cons_self).ne_nil
  | cons c rest =>
    by_cases later : ∀ token ∈ tokens, start < token.position
    · obtain ⟨blank, covers⟩ := covers.of_later later
      exact .blank blank (shorter rest.length (Nat.lt_succ_self _) covers rfl)
    · cases tokens with
      | nil => exact absurd (List.forall_mem_nil _) later
      | cons first others =>
        -- The first token starts no later than the one that starts here.
        obtain ⟨token, member, early⟩ : ∃ token ∈ first :: others, token.position ≤ start := by
          simpa only [Classical.not_forall, Nat.not_lt, exists_prop] using later
        have least : ∀ token ∈ first :: others, first.position ≤ token.position :=
          List.forall_mem_cons.mpr ⟨Nat.le_refl _, fun other member =>
            Nat.le_of_lt ((List.pairwise_cons.mp covers.ordered).1 other member).1⟩
        have here : first.position = start :=
          Nat.le_antisymm (Nat.le_trans (least token member) early)
            (covers.stands first List.mem_cons_self).start_le
        obtain ⟨behind, split, lexeme, covers⟩ := covers.of_token here
        subst here
        rw [split] at shorter ⊢
        have positive := lexeme.length_pos
        exact .token lexeme (shorter behind.length (by rw [List.length_append]; omega) covers rfl)

/-- A text is cut into tokens exactly if they cover it, the last one standing behind its last character. The tokens in
front of it have growing places and do not overlap, each has the characters at its place and is as long as it can be,
and there is only white space between them. Cutting fails exactly if no tokens cover the text. -/
theorem tokenize_covers (t : Text) :
    (∀ tokens, tokenize t = .ok tokens ↔ ∃ body, tokens = body ++ [.atEnd t] ∧ Covers 0 t body) ∧
    ((∃ error, tokenize t = .error error) ↔ ¬ ∃ body, Covers 0 t body) := by
  have cuts (tokens : List Token) :
      tokenize t = .ok tokens ↔ ∃ body, tokens = body ++ [.atEnd t] ∧ Covers 0 t body := by
    have found : tokenize t = .ok tokens ↔ tokensFrom 0 0 t = .ok tokens := by
      rw [tokenize]
      cases tokensFrom 0 0 t <;> simp
    rw [found, tokensFrom_eq_ok_iff, Nat.zero_add]
    exact exists_congr fun body => and_congr_right fun _ => ⟨Cut.covers, Covers.cut⟩
  refine ⟨cuts, fun ⟨error, failed⟩ ⟨body, covers⟩ => ?_, fun uncovered => ?_⟩
  · have found := (cuts _).mpr ⟨body, rfl, covers⟩
    rw [failed] at found
    cases found
  · cases cut : tokenize t with
    | error error => exact ⟨error, rfl⟩
    | ok tokens =>
      obtain ⟨body, -, covers⟩ := (cuts tokens).mp cut
      exact absurd ⟨body, covers⟩ uncovered

example : tokenize "NOT(@a-b or@or)" = .ok [⟨.not, "NOT", 0⟩, ⟨.openParen, "(", 3⟩, ⟨.tag, "@a-b", 4⟩, ⟨.or, "or", 9⟩,
    ⟨.tag, "@or", 11⟩, ⟨.closeParen, ")", 14⟩, ⟨.eof, "", 15⟩] := by cbv

end Gherkin.TagExpr
