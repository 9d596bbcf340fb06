import Mathlib.Data.List.Basic
import Gherkin.Regex.Matcher

/-! # Tokens and steps

The tokens of a pattern write the pattern, and a pattern without a backslash at its end can be cut anywhere in front of
a token (`Gherkin.Regex.tokens_append`). Reading a pattern is reading its tokens one after the other
(`Gherkin.Regex.compileWith_eq_ok`): a token is a step, in which a construct that it does not belong to is settled
first.
-/

namespace Gherkin.Regex

/-! ### Tokens -/

/-- A character that is no backslash is a token of its own. -/
theorem tokens_cons {c : Char} (plain : c ≠ '\\') (rest : Text) : tokens (c :: rest) = .plain c :: tokens rest :=
  tokens.eq_4 _ _ (fun _ _ eq _ => plain eq) fun eq _ => plain eq

/-- The tokens of a pattern write it. -/
theorem flatMap_source_tokens (t : Text) : (tokens t).flatMap Token.source = t := by
  fun_induction tokens t with
  | case1 => rfl
  | case2 c rest ih => exact congrArg ('\\' :: c :: ·) ih
  | case3 => rfl
  | case4 c rest _ _ ih => exact congrArg (c :: ·) ih

/-- Behind a text that does not end within an escape, the tokens are those of what follows. -/
theorem tokens_append {t : Text} (closed : .dangling ∉ tokens t) (u : Text) :
    tokens (t ++ u) = tokens t ++ tokens u := by
  fun_induction tokens t with
  | case1 => rfl
  | case2 c rest ih => exact congrArg (.escaped c :: ·) (ih fun member => closed (List.mem_cons_of_mem _ member))
  | case3 => exact absurd List.mem_cons_self closed
  | case4 c rest paired single ih =>
    have plain : c ≠ '\\' := by
      rintro rfl
      cases rest with
      | nil => exact single rfl rfl
      | cons d rest => exact paired d rest rfl rfl
    rw [List.cons_append, tokens_cons plain, ih fun member => closed (List.mem_cons_of_mem _ member)]
    rfl

/-- A backslash at the end is the last token. -/
theorem exists_of_dangling {t : Text} (member : .dangling ∈ tokens t) : ∃ front, tokens t = front ++ [.dangling] := by
  fun_induction tokens t with
  | case1 => cases member
  | case2 c rest ih =>
    obtain ⟨front, eq⟩ := ih ((List.mem_cons.mp member).resolve_left nofun)
    exact ⟨.escaped c :: front, congrArg _ eq⟩
  | case3 => exact ⟨[], rfl⟩
  | case4 c rest _ _ ih =>
    obtain ⟨front, eq⟩ := ih ((List.mem_cons.mp member).resolve_left nofun)
    exact ⟨.plain c :: front, congrArg _ eq⟩

theorem Token.length_pos (token : Token) : 0 < token.source.length := by cases token <;> simp [source]

/-! ### Steps -/

namespace Reader

variable {r s next last : Reader} {token : Token} {ts more : List Token}

/-- A scan that is followed gives the construct, and its actions what is built. -/
theorem follow_eq_ok {scan : Scan} (read : r.follow scan = .ok next) : ∃ construct actions build,
    scan = .ok (construct, actions) ∧ r.build.performAll r.position actions = .ok build ∧
      next = ⟨r.position, construct, build⟩ := by
  unfold follow at read
  split at read
  · cases read
  · next construct actions =>
    split at read
    · next build performed =>
      cases read
      exact ⟨construct, actions, build, rfl, performed, rfl⟩
    · cases read

variable [CharacterNames]

/-- Reads tokens one after the other. -/
def steps (r : Reader) (ts : List Token) : Except (Cause × Nat) Reader := ts.foldlM step r

theorem steps_cons (r : Reader) (token : Token) (ts : List Token) :
    r.steps (token :: ts) = (r.step token).bind fun next => next.steps ts := List.foldlM_cons

/-- Tokens may be read in two parts. -/
theorem steps_append (r : Reader) (ts more : List Token) :
    r.steps (ts ++ more) = (r.steps ts).bind fun next => next.steps more := List.foldlM_append

theorem steps_cons_eq_ok (read : r.steps (token :: ts) = .ok last) :
    ∃ next, r.step token = .ok next ∧ next.steps ts = .ok last := by
  rw [steps_cons] at read
  cases first : r.step token with
  | error e => rw [first] at read; cases read
  | ok next =>
    rw [first] at read
    exact ⟨next, rfl, read⟩

theorem steps_append_eq_ok (read : r.steps (ts ++ more) = .ok last) :
    ∃ next, r.steps ts = .ok next ∧ next.steps more = .ok last := by
  rw [steps_append] at read
  cases first : r.steps ts with
  | error e => rw [first] at read; cases read
  | ok next =>
    rw [first] at read
    exact ⟨next, rfl, read⟩

theorem steps_singleton (r : Reader) (token : Token) : r.steps [token] = r.step token := by
  rw [steps_cons]
  cases r.step token <;> rfl

/-- In a step, a token is taken behind what it settles. -/
theorem step_eq_ok (read : r.step token = .ok next) :
    ∃ s, r.settle (some token) = .ok s ∧ s.take token = .ok next := by
  unfold step at read
  split at read
  · next s settled => exact ⟨s, settled, read⟩
  · cases read

/-- A token is read by the construct that is left when the one before has been settled. -/
theorem step_of_settle (settled : r.settle (some token) = .ok s) : r.step token = s.take token := by
  simp only [step, settled]

/-- A reader that settles gets its construct and its pattern from what the construct settles with. -/
theorem settle_eq_ok {token : Option Token} (read : r.settle token = .ok next) : ∃ construct actions build,
    r.construct.settle token = .ok (construct, actions) ∧ r.build.performAll r.position actions = .ok build ∧
      next = ⟨r.position, construct, build⟩ := follow_eq_ok read

/-- A reader that takes a token gets its construct and its pattern from what the construct makes of the token. -/
theorem take_eq_ok (read : r.take token = .ok next) : ∃ construct actions build,
    r.construct.scan r.build.verbose token = .ok (construct, actions) ∧
      r.build.performAll (r.position + token.source.length) actions = .ok build ∧
      next = ⟨r.position + token.source.length, construct, build⟩ := follow_eq_ok read

/-- A step moves past its token. -/
theorem step_position (read : r.step token = .ok next) : next.position = r.position + token.source.length := by
  obtain ⟨s, settled, taken⟩ := step_eq_ok read
  obtain ⟨_, _, _, _, _, rfl⟩ := settle_eq_ok settled
  obtain ⟨_, _, _, _, _, rfl⟩ := take_eq_ok taken
  rfl

/-- A reader moves on by the characters of the tokens. -/
theorem steps_position (read : r.steps ts = .ok next) :
    next.position = r.position + (ts.flatMap Token.source).length := by
  induction ts generalizing r with
  | nil =>
    cases read
    rfl
  | cons token rest ih =>
    obtain ⟨middle, first, read⟩ := steps_cons_eq_ok read
    rw [ih read, step_position first, List.flatMap_cons, List.length_append, Nat.add_assoc]

/-! ### Patterns as a whole -/

/-- Tokens that are read through are read one after another. -/
theorem run_eq_ok (read : r.run ts = .ok last) : r.steps ts = .ok last := by
  fun_induction run r ts with
  | case1 r => exact read
  | case2 | case3 | case5 => cases read
  | case4 r token rest s settled closed next taken ih =>
    rw [steps_cons, step_of_settle settled, taken]
    exact ih read

/-- Tokens that are read one after another are read through, unless a backslash is left at the end. -/
theorem run_of_steps (closed : .dangling ∉ ts) (read : r.steps ts = .ok last) : r.run ts = .ok last := by
  induction ts generalizing r with
  | nil => exact read
  | cons token rest ih =>
    obtain ⟨next, first, read⟩ := steps_cons_eq_ok read
    obtain ⟨s, settled, taken⟩ := step_eq_ok first
    have others : ¬rest = [.dangling] := by
      rintro rfl
      exact closed (by simp)
    rw [run, settled]
    simp only [if_neg others, taken]
    exact ih (fun member => closed (List.mem_cons_of_mem _ member)) read

/-- A backslash at the end is refused with the token in front of it. -/
theorem run_dangling_ne_ok (r : Reader) {front : List Token} (some_there : front ≠ []) :
    r.run (front ++ [.dangling]) ≠ .ok last := by
  induction front generalizing r with
  | nil => exact absurd rfl some_there
  | cons token rest ih =>
    rw [List.cons_append, run]
    split
    · nofun
    · next s settled =>
      split
      · nofun
      · next others =>
        split
        · next next taken => exact ih next (by rintro rfl; exact others rfl)
        · nofun

/-- A pattern that has been read has no group open, and nothing is wrong with it. -/
theorem finish_eq_ok {build : Build} (ends : r.finish = .ok build) :
    ∃ construct, r.settle none = .ok ⟨r.position, construct, build⟩ ∧ construct.unfinished? = none ∧
      build.fault? = none := by
  unfold finish at ends
  split at ends
  · cases ends
  · next s settled =>
    split at ends
    · cases ends
    · next finished =>
      split at ends
      · cases ends
      · next sound =>
        cases ends
        obtain ⟨construct, _, build, _, _, rfl⟩ := settle_eq_ok settled
        exact ⟨construct, settled, finished, sound⟩

end Reader

/-- In a pattern with nothing wrong no group is left open. -/
theorem Build.outer_of_fault {b : Build} (sound : b.fault? = none) : b.outer = [] := by
  unfold fault? at sound
  split at sound
  · cases sound
  · next closed => simpa using closed

section Compilation

variable [CharacterNames] {flags : List Flag} {pattern : Text} {regex : Regex}

/-- A pattern that compiles is read token by token, and it has no backslash at its end. -/
theorem compileWith_eq_ok (compiled : compileWith flags pattern = .ok regex) :
    .dangling ∉ tokens pattern ∧ ∃ last build, (Reader.start flags).steps (tokens pattern) = .ok last ∧
      last.finish = .ok build ∧ regex = ⟨pattern, build.groups, build.frame.node⟩ := by
  unfold compileWith at compiled
  split at compiled
  · cases compiled
  · next last read =>
    split at compiled
    · cases compiled
    · next build ends =>
      cases compiled
      refine ⟨fun member => ?_, last, build, Reader.run_eq_ok read, ends, rfl⟩
      obtain ⟨front, eq⟩ := exists_of_dangling member
      rw [eq] at read
      cases front with
      | nil => cases read
      | cons token front => exact Reader.run_dangling_ne_ok _ (List.cons_ne_nil _ _) read

/-- A pattern whose tokens can be read, and with which nothing is wrong at the end, is compiled to what was built. -/
theorem compileWith_of_steps {last : Reader} {build : Build} (closed : .dangling ∉ tokens pattern)
    (read : (Reader.start flags).steps (tokens pattern) = .ok last) (ends : last.finish = .ok build) :
    compileWith flags pattern = .ok ⟨pattern, build.groups, build.frame.node⟩ := by
  rw [compileWith, Reader.run_of_steps closed read]
  simp only [ends]

end Compilation

end Gherkin.Regex
