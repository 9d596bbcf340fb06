import Mathlib.Data.List.Basic
import Gherkin.TagExpr.Parser

/-! # The grammar of tag expressions

Which tokens write which expression, level by level: an `or` joins conjunctions, an `and` joins negations, and a
`not` stands in front of a negation or a primary. Reading a text gives an expression exactly when its tokens write
it, and tokens write at most one (`Gherkin.TagExpr.parse_eq_ok_iff`). What a reader holds is traced back to the
tokens that it has read, and read tokens that write an expression leave it waiting for what comes behind them.
-/

namespace Gherkin.TagExpr

/-- The levels of the grammar, from the loosest on. -/
inductive Level where
  | disjunction
  | conjunction
  | negation
  | primary
  deriving DecidableEq, Repr

/-- Tokens that write an expression on a level. Conjunctions joined by `or` associate to the left, and so do
negations joined by `and`. -/
inductive Derives : Level → List Token → TagExpr → Prop
  | tag {token : Token} (named : token.kind = .tag) : Derives .primary [token] (.tag token.value)
  | group {opening closing : Token} {inner : List Token} {e : TagExpr} (opens : opening.kind = .openParen)
      (written : Derives .disjunction inner e) (closes : closing.kind = .closeParen) :
      Derives .primary (opening :: inner ++ [closing]) e
  | primary {tokens : List Token} {e : TagExpr} (written : Derives .primary tokens e) :
      Derives .negation tokens e
  | not {sign : Token} {tokens : List Token} {e : TagExpr} (negates : sign.kind = .not)
      (written : Derives .negation tokens e) : Derives .negation (sign :: tokens) (.not e)
  | negation {tokens : List Token} {e : TagExpr} (written : Derives .negation tokens e) :
      Derives .conjunction tokens e
  | and {sign : Token} {first second : List Token} {left right : TagExpr}
      (before : Derives .conjunction first left) (joins : sign.kind = .and)
      (behind : Derives .negation second right) :
      Derives .conjunction (first ++ sign :: second) (.and left right)
  | conjunction {tokens : List Token} {e : TagExpr} (written : Derives .conjunction tokens e) :
      Derives .disjunction tokens e
  | or {sign : Token} {first second : List Token} {left right : TagExpr}
      (before : Derives .disjunction first left) (joins : sign.kind = .or)
      (behind : Derives .conjunction second right) :
      Derives .disjunction (first ++ sign :: second) (.or left right)

/-! ### Tokens -/

/-- The token behind the last character of a text. -/
def Token.atEnd (t : Text) : Token := ⟨.eof, [], t.length⟩

theorem operator?_kind {t word : Text} {kind : TokenKind} (found : operator? t = some (kind, word)) :
    kind = .and ∨ kind = .or ∨ kind = .not := by
  unfold operator? at found
  split at found
  · cases found
    exact .inl rfl
  · split at found
    · cases found
      exact .inr (.inl rfl)
    · obtain ⟨_, _, same⟩ := Option.map_eq_some_iff.mp found
      cases same
      exact .inr (.inr rfl)

theorem firstToken_kind {position : Nat} {c : Char} {rest : Text} {token : Token}
    (found : firstToken position c rest = .ok token) : token.kind ≠ .eof := by
  unfold firstToken at found
  grind [operator?_kind]

theorem firstToken_cause {position : Nat} {c : Char} {rest : Text} {cause : Cause}
    (failed : firstToken position c rest = .error cause) : cause ≠ .empty := by
  unfold firstToken at failed
  grind

/-- The last token, and no other, marks the end. -/
theorem tokensFrom_eq_ok {position skip : Nat} {t : Text} {tokens : List Token}
    (cut : tokensFrom position skip t = .ok tokens) :
    ∃ body, tokens = body ++ [⟨.eof, [], position + t.length⟩] ∧ ∀ token ∈ body, token.kind ≠ .eof := by
  fun_induction tokensFrom position skip t generalizing tokens with
  | case1 position skip =>
    cases cut
    exact ⟨[], rfl, List.forall_mem_nil _⟩
  | case2 position skip c rest ih | case3 position c rest blank ih =>
    obtain ⟨body, rfl, kinds⟩ := ih cut
    exact ⟨body, by rw [List.length_cons, Nat.add_assoc, Nat.add_comm 1], kinds⟩
  | case4 => cases cut
  | case5 position c rest dark token found ih =>
    cases later : tokensFrom (position + 1) (token.value.length - 1) rest with
    | error cause =>
      rw [later] at cut
      cases cut
    | ok others =>
      rw [later] at cut
      cases cut
      obtain ⟨body, rfl, kinds⟩ := ih later
      refine ⟨token :: body, ?_, List.forall_mem_cons.mpr ⟨firstToken_kind found, kinds⟩⟩
      rw [List.length_cons, Nat.add_assoc, Nat.add_comm 1, List.cons_append]

theorem tokensFrom_cause {position skip : Nat} {t : Text} {cause : Cause}
    (failed : tokensFrom position skip t = .error cause) : cause ≠ .empty := by
  fun_induction tokensFrom position skip t with
  | case1 => cases failed
  | case2 _ _ _ _ ih | case3 _ _ _ _ ih => exact ih failed
  | case4 position c rest dark other found =>
    cases failed
    exact firstToken_cause found
  | case5 position c rest dark token found ih =>
    cases later : tokensFrom (position + 1) (token.value.length - 1) rest with
    | error other =>
      rw [later] at failed ih
      cases failed
      exact ih rfl
    | ok others =>
      rw [later] at failed
      cases failed

theorem tokenize_eq_ok {t : Text} {tokens : List Token} (cut : tokenize t = .ok tokens) :
    ∃ body, tokens = body ++ [.atEnd t] ∧ ∀ token ∈ body, token.kind ≠ .eof := by
  unfold tokenize at cut
  cases found : tokensFrom 0 0 t with
  | error cause =>
    rw [found] at cut
    cases cut
  | ok others =>
    rw [found] at cut
    cases cut
    obtain ⟨body, rfl, kinds⟩ := tokensFrom_eq_ok found
    exact ⟨body, by rw [Nat.zero_add]; rfl, kinds⟩

theorem tokenize_eq_error {t : Text} {error : Error} (failed : tokenize t = .error error) :
    error.source = t ∧ error.cause ≠ .empty := by
  unfold tokenize at failed
  cases found : tokensFrom 0 0 t with
  | error cause =>
    rw [found] at failed
    cases failed
    exact ⟨rfl, tokensFrom_cause found⟩
  | ok tokens =>
    rw [found] at failed
    cases failed

/-! ### What a reader has read -/

/-- The tokens of a left operand and of the operator behind it, if there is one. -/
inductive LeftOf (level : Level) (kind : TokenKind) : Option TagExpr → List Token → Prop
  | absent : LeftOf level kind none []
  | present {sign : Token} {tokens : List Token} {e : TagExpr} (written : Derives level tokens e)
      (joins : sign.kind = kind) : LeftOf level kind (some e) (tokens ++ [sign])

/-- The tokens that some waiting operators and their left operands were read from. -/
inductive Waiting.ReadFrom : Waiting → List Token → Prop
  | intro {orLeft andLeft : Option TagExpr} {ors ands signs : List Token}
      (disjunction : LeftOf .disjunction .or orLeft ors) (conjunction : LeftOf .conjunction .and andLeft ands)
      (negations : ∀ sign ∈ signs, sign.kind = .not) :
      ReadFrom ⟨orLeft, andLeft, signs.length⟩ (ors ++ (ands ++ signs))

theorem Waiting.readFrom_none : Waiting.none.ReadFrom [] :=
  @Waiting.ReadFrom.intro .none .none [] [] [] .absent .absent (List.forall_mem_nil _)

theorem Derives.negate {signs tokens : List Token} {e : TagExpr} (negations : ∀ sign ∈ signs, sign.kind = .not)
    (written : Derives .negation tokens e) :
    Derives .negation (signs ++ tokens) (Waiting.negate signs.length e) := by
  induction signs with
  | nil => exact written
  | cons sign rest ih =>
    rw [List.forall_mem_cons] at negations
    exact .not negations.1 (ih negations.2)

/-- An operand takes the `not` and the `and` that waited for it. -/
theorem LeftOf.conjunction {andLeft : Option TagExpr} {ands signs tokens : List Token} {e : TagExpr}
    (before : LeftOf .conjunction .and andLeft ands) (negations : ∀ sign ∈ signs, sign.kind = .not)
    (written : Derives .primary tokens e) (orLeft : Option TagExpr) :
    Derives .conjunction (ands ++ signs ++ tokens)
      (Waiting.conjunction ⟨orLeft, andLeft, signs.length⟩ e) := by
  have negated := Derives.negate negations (.primary written)
  cases before with
  | absent => exact .negation negated
  | present left joins =>
    simp only [List.append_assoc, List.cons_append, List.nil_append]
    exact .and left joins negated

/-- An operand takes all operators that waited for it. -/
theorem Waiting.ReadFrom.disjunction {w : Waiting} {before tokens : List Token} {e : TagExpr}
    (read : w.ReadFrom before) (written : Derives .primary tokens e) :
    Derives .disjunction (before ++ tokens) (w.disjunction e) := by
  obtain @⟨orLeft, andLeft, ors, ands, signs, left, conjunction, negations⟩ := read
  have right := conjunction.conjunction negations written orLeft
  cases left with
  | absent => exact .conjunction right
  | present left joins =>
    simp only [List.append_assoc, List.cons_append, List.nil_append] at right ⊢
    exact .or left joins right

/-- The tokens up to the innermost open parenthesis, with that one. -/
inductive Enclosing : List (Nat × Waiting) → List Token → Prop
  | nil : Enclosing [] []
  | cons {outer : List (Nat × Waiting)} {front tokens : List Token} {waiting : Waiting} {opening : Token}
      {position : Nat} (around : Enclosing outer front) (read : waiting.ReadFrom tokens)
      (opens : opening.kind = .openParen) :
      Enclosing ((position, waiting) :: outer) (front ++ tokens ++ [opening])

/-- The tokens that a reader has read. -/
inductive Reader.ReadFrom : Reader → List Token → Prop
  | waiting {outer : List (Nat × Waiting)} {front tokens : List Token} {waiting : Waiting}
      (around : Enclosing outer front) (read : waiting.ReadFrom tokens) :
      ReadFrom ⟨waiting, outer, none⟩ (front ++ tokens)
  | operand {outer : List (Nat × Waiting)} {front tokens last : List Token} {waiting : Waiting} {e : TagExpr}
      (around : Enclosing outer front) (read : waiting.ReadFrom tokens) (written : Derives .primary last e) :
      ReadFrom ⟨waiting, outer, some e⟩ (front ++ tokens ++ last)

namespace Reader

theorem readFrom_start : start.ReadFrom [] := @ReadFrom.waiting [] [] [] .none .nil Waiting.readFrom_none

/-- A reader that reads a token has read it after the others. -/
theorem ReadFrom.step {r next : Reader} {tokens : List Token} {token : Token} (read : r.ReadFrom tokens)
    (stepped : r.step token = .ok next) (inside : token.kind ≠ .eof) : next.ReadFrom (tokens ++ [token]) := by
  cases read with
  | @waiting outer front tokens waiting around read =>
    simp only [Reader.step, stepOperand] at stepped
    split at stepped
    · rename_i named
      cases stepped
      exact .operand around read (.tag named)
    · rename_i negates
      cases stepped
      obtain ⟨left, conjunction, negations⟩ := read
      rw [List.append_assoc, List.append_assoc, List.append_assoc]
      refine .waiting around ?_
      rw [show ∀ signs : List Token, signs.length + 1 = (signs ++ [token]).length by simp]
      exact .intro left conjunction
        (List.forall_mem_append.mpr ⟨negations, List.forall_mem_singleton.mpr negates⟩)
    · rename_i opens
      cases stepped
      rw [← List.append_nil (front ++ tokens ++ [token])]
      exact .waiting (.cons around read opens) Waiting.readFrom_none
    · cases stepped
  | @operand outer front tokens last waiting e around read written =>
    have whole := read.disjunction written
    simp only [Reader.step, stepOperator] at stepped
    split at stepped
    · rename_i joins
      cases stepped
      obtain @⟨orLeft, andLeft, ors, ands, signs, left, conjunction, negations⟩ := read
      have joined := LeftOf.present (conjunction.conjunction negations written orLeft) joins
      have read := Waiting.ReadFrom.intro left joined (List.forall_mem_nil _)
      simpa only [List.append_assoc, List.append_nil, List.length_nil] using ReadFrom.waiting around read
    · rename_i joins
      cases stepped
      have read := Waiting.ReadFrom.intro (.present whole joins) .absent (List.forall_mem_nil _)
      simpa only [List.append_assoc, List.append_nil, List.length_nil] using ReadFrom.waiting around read
    · rename_i closes
      cases around with
      | nil => cases stepped
      | cons around outside opens =>
        cases stepped
        have read := ReadFrom.operand around outside (.group opens whole closes)
        simpa only [List.append_assoc, List.cons_append, List.nil_append] using read
    · split at stepped
      · cases stepped
      · split at stepped
        · rename_i ends
          exact absurd ends inside
        · cases stepped

theorem run_append (r : Reader) (first second : List Token) :
    r.run (first ++ second) = match r.run first with
      | .ok next => next.run second
      | .error cause => .error cause := by
  induction first generalizing r with
  | nil => rfl
  | cons token rest ih =>
    rw [List.cons_append, run, run]
    cases r.step token with
    | ok next => exact ih next
    | error cause => rfl

/-- A reader has read the tokens that it was run on. -/
theorem ReadFrom.run {r last : Reader} {tokens rest : List Token} (read : r.ReadFrom tokens)
    (ran : r.run rest = .ok last) (inside : ∀ token ∈ rest, token.kind ≠ .eof) :
    last.ReadFrom (tokens ++ rest) := by
  induction rest generalizing r tokens with
  | nil =>
    cases ran
    rwa [List.append_nil]
  | cons token rest ih =>
    rw [List.forall_mem_cons] at inside
    rw [Reader.run] at ran
    cases stepped : r.step token with
    | error cause =>
      rw [stepped] at ran
      cases ran
    | ok next =>
      rw [stepped] at ran
      rw [List.append_cons]
      exact ih (read.step stepped inside.1) ran inside.2

/-- At the end a reader has an operand, and no parenthesis is open. -/
theorem run_atEnd {r last : Reader} {t : Text} (ran : r.run [.atEnd t] = .ok last) :
    r = last ∧ r.outer = [] ∧ ∃ e, r.operand = some e := by
  obtain ⟨waiting, outer, operand⟩ := r
  cases operand with
  | none => cases ran
  | some e =>
    cases outer with
    | nil =>
      cases ran
      exact ⟨rfl, rfl, e, rfl⟩
    | cons => cases ran

theorem step_cause {r : Reader} {token : Token} {cause : Cause} (failed : r.step token = .error cause) :
    cause ≠ .empty := by
  unfold step stepOperand stepOperator at failed
  grind

theorem run_cause {r : Reader} {tokens : List Token} {cause : Cause} (failed : r.run tokens = .error cause) :
    cause ≠ .empty := by
  induction tokens generalizing r with
  | nil => cases failed
  | cons token rest ih =>
    rw [run] at failed
    cases stepped : r.step token with
    | error other =>
      rw [stepped] at failed
      cases failed
      exact step_cause stepped
    | ok next =>
      rw [stepped] at failed
      exact ih failed

end Reader

/-! ### What a reader makes of tokens that write an expression -/

/-- Where tokens lead a reader: behind a primary it holds the expression; behind a looser one it holds the last
operand, and the operators that wait for it make up the expression. -/
def Level.Reads (tokens : List Token) (e : TagExpr) : Level → Prop
  | .primary => ∀ waiting outer rest,
      Reader.run ⟨waiting, outer, none⟩ (tokens ++ rest) = Reader.run ⟨waiting, outer, some e⟩ rest
  | .negation => ∃ nots operand, Waiting.negate nots operand = e ∧ ∀ orLeft andLeft before outer rest,
      Reader.run ⟨⟨orLeft, andLeft, before⟩, outer, none⟩ (tokens ++ rest) =
        Reader.run ⟨⟨orLeft, andLeft, before + nots⟩, outer, some operand⟩ rest
  | .conjunction => ∃ andLeft nots operand, ∀ orLeft, Waiting.conjunction ⟨orLeft, andLeft, nots⟩ operand = e ∧
      ∀ outer rest, Reader.run ⟨⟨orLeft, none, 0⟩, outer, none⟩ (tokens ++ rest) =
        Reader.run ⟨⟨orLeft, andLeft, nots⟩, outer, some operand⟩ rest
  | .disjunction => ∃ waiting operand, Waiting.disjunction waiting operand = e ∧ ∀ outer rest,
      Reader.run ⟨.none, outer, none⟩ (tokens ++ rest) = Reader.run ⟨waiting, outer, some operand⟩ rest

theorem Derives.reads {level : Level} {tokens : List Token} {e : TagExpr} (derived : Derives level tokens e) :
    level.Reads tokens e := by
  induction derived with
  | tag named =>
    intro waiting outer rest
    simp only [List.cons_append, List.nil_append, Reader.run, Reader.step, Reader.stepOperand, named]
  | @group opening closing inner e opens _ closes ih =>
    obtain ⟨inside, operand, rfl, reads⟩ := ih
    intro waiting outer rest
    simp only [List.cons_append, List.append_assoc, List.nil_append, Reader.run, Reader.step, Reader.stepOperand,
      opens, reads, Reader.stepOperator, closes]
  | primary _ ih => exact ⟨0, _, rfl, fun orLeft andLeft before => ih ⟨orLeft, andLeft, before⟩⟩
  | @not sign tokens e negates _ ih =>
    obtain ⟨nots, operand, rfl, reads⟩ := ih
    refine ⟨nots + 1, operand, rfl, fun orLeft andLeft before outer rest => ?_⟩
    simp only [List.cons_append, Reader.run, Reader.step, Reader.stepOperand, negates, reads]
    rw [Nat.add_assoc, Nat.add_comm 1]
  | negation _ ih =>
    obtain ⟨nots, operand, rfl, reads⟩ := ih
    refine ⟨none, nots, operand, fun orLeft => ⟨rfl, fun outer rest => ?_⟩⟩
    rw [reads, Nat.zero_add]
  | @and sign first second left right _ joins _ before behind =>
    obtain ⟨andLeft, nots, operand, reads⟩ := before
    obtain ⟨signs, last, rfl, follows⟩ := behind
    refine ⟨some left, signs, last, fun orLeft => ⟨rfl, fun outer rest => ?_⟩⟩
    obtain ⟨made, reads⟩ := reads orLeft
    simp only [List.append_assoc, List.cons_append, reads, Reader.run, Reader.step, Reader.stepOperator, joins,
      made, follows, Nat.zero_add]
  | conjunction _ ih =>
    obtain ⟨andLeft, nots, operand, reads⟩ := ih
    obtain ⟨made, reads⟩ := reads none
    exact ⟨⟨none, andLeft, nots⟩, operand, made, reads⟩
  | @or sign first second left right _ joins _ before behind =>
    obtain ⟨waiting, operand, made, reads⟩ := before
    obtain ⟨andLeft, nots, last, follows⟩ := behind
    obtain ⟨joined, follows⟩ := follows (some left)
    refine ⟨⟨some left, andLeft, nots⟩, last, congrArg (TagExpr.or left) joined, fun outer rest => ?_⟩
    simp only [List.append_assoc, List.cons_append, reads, Reader.run, Reader.step, Reader.stepOperator, joins,
      made, follows]

/-! ### Reading -/

/-- Tokens in front of the end are read as an expression if they write it. -/
theorem Derives.ofTokens {body : List Token} {e : TagExpr} (derived : Derives .disjunction body e) (t : Text) :
    ofTokens (body ++ [.atEnd t]) = .ok e := by
  obtain ⟨waiting, operand, rfl, reads⟩ := derived.reads
  rw [TagExpr.ofTokens, Reader.start, reads]
  rfl

/-- Tokens that are read as an expression write it. -/
theorem derives_of_ofTokens {body : List Token} {t : Text} {e : TagExpr}
    (inside : ∀ token ∈ body, token.kind ≠ .eof) (read : ofTokens (body ++ [.atEnd t]) = .ok e) :
    Derives .disjunction body e := by
  rw [ofTokens, Reader.run_append] at read
  cases ran : Reader.start.run body with
  | error cause =>
    rw [ran] at read
    cases read
  | ok r =>
    rw [ran] at read
    dsimp only at read
    cases ended : r.run [.atEnd t] with
    | error cause =>
      rw [ended] at read
      cases read
    | ok last =>
      obtain ⟨rfl, closed, operand, found⟩ := Reader.run_atEnd ended
      rw [ended] at read
      simp only [found, Except.ok.injEq] at read
      subst read
      have readFrom := Reader.readFrom_start.run ran inside
      rw [List.nil_append] at readFrom
      cases readFrom with
      | waiting => cases found
      | operand around waits written =>
        cases closed
        cases found
        cases around
        exact waits.disjunction written

/-- Reading the tokens of a text never runs out of tokens. -/
theorem ofTokens_cause {body : List Token} {t : Text} {cause : Cause}
    (failed : ofTokens (body ++ [.atEnd t]) = .error cause) : cause ≠ .empty := by
  rw [ofTokens] at failed
  cases ran : Reader.start.run (body ++ [.atEnd t]) with
  | error other =>
    rw [ran] at failed
    cases failed
    exact Reader.run_cause ran
  | ok last =>
    rw [Reader.run_append] at ran
    cases inFront : Reader.start.run body with
    | error other =>
      rw [inFront] at ran
      cases ran
    | ok r =>
      rw [inFront] at ran
      obtain ⟨rfl, _, e, found⟩ := Reader.run_atEnd ran
      simp only [Reader.run_append, inFront, ran, found, reduceCtorEq] at failed

/-- Tokens write at most one expression. -/
theorem Derives.unique {body : List Token} {e other : TagExpr} (first : Derives .disjunction body e)
    (second : Derives .disjunction body other) : e = other := by
  have read := (first.ofTokens []).symm.trans (second.ofTokens [])
  exact Except.ok.inj read

/-- A text is read as an expression exactly when something is left of it without the white space around it, this
is cut into tokens, and the tokens in front of the end write the expression, which is then the only one that they
write. What is not read is refused for a reason, and only an empty text for being empty. -/
theorem parse_eq_ok_iff (t : Text) :
    (∀ e, parse t = .ok e ↔ Text.trim t ≠ [] ∧ ∃ body,
      tokenize (Text.trim t) = .ok (body ++ [.atEnd (Text.trim t)]) ∧ Derives .disjunction body e) ∧
    (∀ body e other, Derives .disjunction body e → Derives .disjunction body other → e = other) ∧
    ∀ error, parse t = .error error →
      error.source = Text.trim t ∧ (error.cause = .empty ↔ Text.trim t = []) := by
  refine ⟨fun e => ?_, fun _ _ _ => Derives.unique, fun error failed => ?_⟩
  · by_cases empty : Text.trim t = []
    · simp [parse, empty]
    simp only [parse, List.isEmpty_iff, empty, if_false, ne_eq, not_false_eq_true, true_and]
    cases cut : tokenize (Text.trim t) with
    | error error => simp
    | ok tokens =>
      obtain ⟨body, rfl, inside⟩ := tokenize_eq_ok cut
      simp only [Except.ok.injEq, List.append_cancel_right_eq, exists_eq_left']
      constructor
      · intro read
        apply derives_of_ofTokens inside
        split at read
        · rename_i found
          cases read
          exact found
        · cases read
      · intro derived
        rw [derived.ofTokens]
  · by_cases empty : Text.trim t = []
    · simp only [parse, empty, List.isEmpty_nil, if_true] at failed
      cases failed
      exact ⟨empty.symm, iff_of_true rfl empty⟩
    simp only [parse, List.isEmpty_iff, empty, if_false, iff_false] at failed ⊢
    cases cut : tokenize (Text.trim t) with
    | error other =>
      rw [cut] at failed
      cases failed
      exact tokenize_eq_error cut
    | ok tokens =>
      obtain ⟨body, rfl, inside⟩ := tokenize_eq_ok cut
      rw [cut] at failed
      dsimp only at failed
      split at failed
      · cases failed
      · rename_i found
        cases failed
        exact ⟨rfl, ofTokens_cause found⟩

example : parse "@a or @b and not @c or @d" =
    .ok (.or (.or (.tag "@a") (.and (.tag "@b") (.not (.tag "@c")))) (.tag "@d")) := by cbv

end Gherkin.TagExpr
