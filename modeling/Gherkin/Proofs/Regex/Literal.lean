import Gherkin.Proofs.Regex.Fragment

/-! # Texts that are meant literally

An escaped text is read as its characters in a row, whatever stands around it: each of its characters is one token
(`Gherkin.Regex.tokens_escapeLiteral`). Where an item starts, that token adds the character
(`Gherkin.Regex.Reader.steps_literal`), and so it does behind bounds or a quantifier that what stands in front may have
left open, in the end (`Gherkin.Regex.Reader.settle_literal`).
-/

namespace Gherkin.Regex

/-- The token of a character that is meant literally. -/
def literalToken (c : Char) : Token := if specialCharacters.contains c then .escaped c else .plain c

/-- What an escape of a special character cannot be. -/
theorem special_plain : ∀ c ∈ specialCharacters, category? c = none ∧ anchor? c = none ∧ Escape.start? c = none ∧
    control? c = none ∧ c ≠ '0' ∧ c.isDigit = false ∧ c.isAlpha = false :=
  -- Goes through the list, not through all characters.
  @of_decide_eq_true _ (List.decidableBAll _ specialCharacters) (by decide)

/-- No token of a character that is meant literally is punctuation. -/
theorem literalToken_ne {c d : Char} (special : specialCharacters.contains d = true) : literalToken c ≠ .plain d := by
  unfold literalToken
  split
  · nofun
  · next plain =>
    rintro ⟨⟩
    exact plain special

/-- The token of a character that is meant literally is one that a character starts. -/
theorem tokens_literal (c : Char) (rest : Text) :
    tokens ((if specialCharacters.contains c then ['\\', c] else [c]) ++ rest) = literalToken c :: tokens rest := by
  unfold literalToken
  split
  · rfl
  · next plain =>
    apply tokens_cons
    rintro rfl
    exact plain (by decide)

/-- The tokens of an escaped text are those of its characters. -/
theorem tokens_escapeLiteral (t rest : Text) :
    tokens (escapeLiteral t ++ rest) = t.map literalToken ++ tokens rest := by
  induction t with
  | nil => rfl
  | cons c t ih =>
    rw [escapeLiteral, List.flatMap_cons, List.append_assoc, tokens_literal, ← escapeLiteral, ih, List.map_cons,
      List.cons_append]

theorem tokens_escaped (t : Text) : tokens (escapeLiteral t) = t.map literalToken := by
  simpa [tokens] using tokens_escapeLiteral t []

/-- An escaped text does not end within an escape. -/
theorem closed_escapeLiteral (t : Text) : .dangling ∉ tokens (escapeLiteral t) := by
  rw [tokens_escaped]
  intro member
  obtain ⟨c, -, eq⟩ := List.mem_map.mp member
  unfold literalToken at eq
  split at eq <;> cases eq

/-- Where an item may start, the token of a character that is meant literally is read as that character. -/
theorem scanItem_literal (c : Char) : scanItem false (literalToken c) = .leaf (.char c) := by
  unfold literalToken
  split
  · next special =>
    obtain ⟨noClass, noAnchor, noStart, noControl, notZero, notDigit, notAlpha⟩ :=
      special_plain c (List.contains_iff_mem.mp special)
    simp only [scanItem, scanEscape, noClass, noAnchor, noStart, noControl, if_neg notZero, notDigit, notAlpha,
      Bool.false_eq_true, if_false]
  · next plain =>
    apply Construct.scanPlain_ordinary
    intro member
    have all_special : ("|)([\x7b*+?.^$".toList.all fun d => specialCharacters.contains d) = true := by decide
    exact plain (List.all_eq_true.mp all_special c member)

/-! ### Reading characters -/

/-- The items of characters that are meant literally, last ones first. -/
def literalItems (t : Text) : List Item := (t.map fun c => (.atom, .char c)).reverse

theorem literalItems_cons (c : Char) (t : Text) : literalItems (c :: t) = literalItems t ++ [(.atom, .char c)] := by
  simp [literalItems]

theorem literalItems_concat (t : Text) (c : Char) : literalItems (t ++ [c]) = (.atom, .char c) :: literalItems t := by
  simp [literalItems]

/-- Literal items are passed in the order of their characters. -/
theorem map_literalItems (t : Text) : (literalItems t).reverse.map Prod.snd = t.map Node.char := by
  simp [literalItems, Function.comp_def]

/-- A text as a pattern of its characters. -/
def Node.literal (t : Text) : Node := sequenceOf (literalItems t)

/-- Nothing is wrong with a text that is meant literally. -/
theorem Node.fault?_literal (t : Text) : (literal t).fault? false = none := by
  apply fault?_sequenceOf
  intro item member
  obtain ⟨c, -, rfl⟩ := List.mem_map.mp (List.mem_reverse.mp member)
  rfl

/-- The pattern that is built, with a text that is meant literally behind what the innermost group holds. -/
def Build.literally (b : Build) (t : Text) : Build :=
  { b with frame := { b.frame with items := literalItems t ++ b.frame.items } }

/-- In a group without flags, characters are added in turn. -/
theorem Build.performAll_chars {b : Build} (noFlags : b.frame.flags = []) (place : Nat) (t : Text) :
    b.performAll place (t.map fun c => .leaf (.char c)) = .ok (b.literally t) := by
  induction t generalizing b with
  | nil => rfl
  | cons c t ih =>
    have leaf : (Leaf.char c).node b.frame.flags = .char c := by
      rw [noFlags]
      rfl
    have rest := ih (b := b.push .atom (.char c)) noFlags
    rw [literally, literalItems_cons, List.append_assoc]
    simp only [List.map_cons, performAll, perform, leaf]
    exact rest

/-- Where an item starts in a group without flags, a character that is meant literally is added as an item. -/
theorem Reader.take_literal {r : Reader} [CharacterNames] (item : r.construct = .item)
    (noFlags : r.build.frame.flags = []) (c : Char) : r.take (literalToken c) =
      .ok ⟨r.position + (literalToken c).source.length, .item, r.build.push .atom (.char c)⟩ := by
  have verbose : r.build.verbose = false := by
    rw [Build.verbose, noFlags]
    rfl
  have leaf : (Leaf.char c).node r.build.frame.flags = .char c := by
    rw [noFlags]
    rfl
  simp only [take, item, Construct.scan, verbose, scanItem_literal]
  simp only [Scan.leaf, follow, Build.performAll, Build.perform, leaf]
  rfl

section Reading

variable [CharacterNames]

/-- Where an item starts in a group without flags, a text that is meant literally is read as its characters. -/
theorem Reader.steps_literal {r : Reader} (item : r.construct = .item) (noFlags : r.build.frame.flags = []) (t : Text) :
    ∃ position, r.steps (t.map literalToken) = .ok ⟨position, .item, r.build.literally t⟩ := by
  induction t generalizing r with
  | nil =>
    obtain ⟨position, construct, build⟩ := r
    cases item
    exact ⟨position, rfl⟩
  | cons c t ih =>
    have first := (step_of_settle (r.settle_item item _)).trans (take_literal item noFlags c)
    obtain ⟨position, rest⟩ :=
      ih (r := ⟨r.position + (literalToken c).source.length, .item, r.build.push .atom (.char c)⟩) rfl noFlags
    refine ⟨position, ?_⟩
    rw [List.map_cons, steps_cons, first, Build.literally, literalItems_cons, List.append_assoc]
    exact rest

/-- A construct at rest that is no escape ends in front of a character that is meant literally, or these are bounds that
the character belongs to. -/
theorem Construct.settle_literal {c : Construct} (rests : c.isResting = true) (no_escape : c.isEscape = false)
    (d : Char) : c.settle (some (literalToken d)) = c.settle none ∨ ∃ low high low' high', c = .bounds low high ∧
      c.settle (some (literalToken d)) = .more c ∧ scanBounds low high (literalToken d) = .more (.bounds low' high') ∧
      boundsSource low' high' = boundsSource low high ++ [d] := by
  cases c with
  | item => exact .inl rfl
  | quantified least most =>
    left
    have lazy : literalToken d ≠ .plain '?' := literalToken_ne (by decide)
    have possessive : literalToken d ≠ .plain '+' := literalToken_ne (by decide)
    simp [settle, lazy, possessive]
  | bounds low high =>
    by_cases more : boundsGoOn low high (literalToken d) = true
    · right
      have brace : d ≠ '\x7d' := by
        rintro rfl
        cases more
      have plain : literalToken d = .plain d := by
        unfold literalToken at more ⊢
        split at more
        · cases more
        · next ordinary => exact if_neg ordinary
      have kept : settle (.bounds low high) (some (literalToken d)) = .more (.bounds low high) := by
        simp only [settle, Option.any_some, more, if_true]
      rw [plain] at more
      simp only [boundsGoOn, Bool.or_eq_true, Bool.and_eq_true, beq_iff_eq, brace, false_and, or_false] at more
      rcases more with digit | ⟨rfl, none_yet⟩
      · cases high with
        | none =>
          refine ⟨low, none, low ++ [d], none, rfl, kept, ?_, by simp [boundsSource]⟩
          simp only [plain, scanBounds, digit, if_true]
        | some high =>
          refine ⟨low, some high, low, some (high ++ [d]), rfl, kept, ?_, by simp [boundsSource]⟩
          simp only [plain, scanBounds, digit, if_true]
      · cases high with
        | none => exact ⟨low, none, low, some [], rfl, kept, rfl, by simp [boundsSource]⟩
        | some high => cases none_yet
    · left
      simp [settle, more]
  | escape => cases no_escape
  | _ => cases rests

/-- Behind a construct at rest that is no escape, a character that is meant literally is added in the end, behind what
the construct becomes. -/
theorem Reader.step_literal {r next : Reader} {c : Char} (rests : r.construct.isResting = true)
    (no_escape : r.construct.isEscape = false) (noFlags : r.build.frame.flags = [])
    (read : r.step (literalToken c) = .ok next) :
    next.construct.isResting = true ∧ next.construct.isEscape = false ∧ next.build.frame.flags = [] ∧
      ∃ build, r.settle none = .ok ⟨r.position, .item, build⟩ ∧
        next.settle none = .ok ⟨next.position, .item, build.push .atom (.char c)⟩ := by
  rcases Construct.settle_literal rests no_escape c with same | ⟨low, high, low', high', shown, kept, scans, source⟩
  · obtain ⟨s, ends, taken⟩ := step_eq_ok read
    have settled : r.settle none = .ok s := by rw [← ends, settle, settle, same]
    obtain ⟨construct, actions, build, settles, performed, rfl⟩ := settle_eq_ok settled
    obtain ⟨rfl, plain⟩ := Construct.settle_end rests settles
    have ended : build.frame.flags = [] := (Build.extends_of_performAll plain performed).flags.trans noFlags
    cases (take_literal (r := ⟨r.position, .item, build⟩) rfl ended c).symm.trans taken
    exact ⟨rfl, rfl, ended, build, settled, rfl⟩
  · -- The character belongs to the bounds, which turn out to be none.
    have stays : r.settle (some (literalToken c)) = .ok r := by
      rw [settle, kept]
      rfl
    have taken : r.take (literalToken c) =
        .ok ⟨r.position + (literalToken c).source.length, .bounds low' high', r.build⟩ := by
      rw [take, shown, Construct.scan, scans]
      rfl
    cases (step_of_settle stays).symm.trans read |>.symm.trans taken
    have ends (low : Text) (high : Option Text) (position : Nat) :
        (⟨position, .bounds low high, r.build⟩ : Reader).settle none =
          .ok ⟨position, .item, r.build.literally (boundsSource low high)⟩ := by
      simp only [settle, Construct.settle, Option.any_none, Bool.false_eq_true, if_false, follow, plainBounds,
        Build.performAll_chars noFlags]
    refine ⟨rfl, rfl, noFlags, r.build.literally (boundsSource low high), ?_, ?_⟩
    · rw [← ends low high, ← shown]
    · rw [ends, source, Build.literally, literalItems_concat]
      rfl

/-- Behind a construct at rest that is no escape, a text that is meant literally is added in the end, behind what the
construct becomes. -/
theorem Reader.settle_literal {r next ended : Reader} {t : Text} (rests : r.construct.isResting = true)
    (no_escape : r.construct.isEscape = false) (noFlags : r.build.frame.flags = [])
    (read : r.steps (t.map literalToken) = .ok next) (settled : next.settle none = .ok ended) :
    ∃ s, r.settle none = .ok s ∧ ended.build = s.build.literally t := by
  induction t generalizing r with
  | nil =>
    cases read
    exact ⟨ended, settled, rfl⟩
  | cons c t ih =>
    obtain ⟨middle, first, read⟩ := steps_cons_eq_ok read
    obtain ⟨rests, no_escape, noFlags, build, start, behind⟩ := step_literal rests no_escape noFlags first
    obtain ⟨s, later, eq⟩ := ih rests no_escape noFlags read
    cases behind.symm.trans later
    refine ⟨_, start, ?_⟩
    rw [eq, Build.literally, Build.literally, literalItems_cons, List.append_assoc]
    rfl

/-! ### Literal patterns -/

/-- A reader that has read items only is at the end of a pattern, if nothing is wrong with them. -/
theorem Reader.finish_item {r : Reader} (item : r.construct = .item) (sound : r.build.fault? = none) :
    r.finish = .ok r.build := by
  rw [finish, settle_item r item]
  simp only [item, Construct.unfinished?, sound]

/-- An escaped text is a regular expression without groups. -/
theorem compile_escapeLiteral (t : Text) : compile (escapeLiteral t) = .ok ⟨escapeLiteral t, 0, .literal t⟩ := by
  obtain ⟨position, read⟩ := Reader.steps_literal (r := .start []) rfl rfl t
  rw [← tokens_escaped] at read
  have node : ((Build.start []).literally t).frame.node = .literal t := by
    simp only [Build.literally, Build.start, Frame.node, List.append_nil]
    rfl
  have sound : ((Build.start []).literally t).fault? = none := by
    simp only [Build.fault?, node]
    simp [Build.literally, Build.start, Build.hasTwoModes, Node.fault?_literal]
  rw [← node]
  exact compileWith_of_steps (closed_escapeLiteral t) read (Reader.finish_item rfl sound)

theorem Piece.literal (t : Text) : Piece (escapeLiteral t) 0 := .of_compile (compile_escapeLiteral t)

end Reading

end Gherkin.Regex
