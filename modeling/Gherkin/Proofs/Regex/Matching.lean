import Mathlib.Data.List.Basic
import Gherkin.Regex.Matcher
import Gherkin.Proofs.Regex.Shape

/-! # The ways through a regular expression

Matching tries the ways through a pattern in an order and goes on from the first one that lets the rest match. This
module says what a way through a pattern is without the order: which places it can lead to from a place. Only what is
matched without regard to the rest, as in an atomic group, in a look or in a possessive repetition, has the one way that
is tried first. The matcher finds a way if there is one, and what a group holds afterwards is a text that a way through
the group's body passed over. A way through a pattern without conditions depends only on the text that it passes over.
-/

namespace Gherkin

namespace Regex

/-! ### Ways -/

/-- A body is passed a number of times in a row. -/
inductive Times (body : Cursor → Cursor → Prop) : Nat → Cursor → Cursor → Prop where
  | zero (s : Cursor) : Times body 0 s s
  | succ {n : Nat} {s t u : Cursor} : body s t → Times body n t u → Times body (n + 1) s u

/-- A body is passed some number of times that is still allowed; after a round that passes over no text there is no
other. -/
inductive More (body : Cursor → Cursor → Prop) : Option Nat → Cursor → Cursor → Prop where
  | stop (most : Option Nat) (s : Cursor) : More body most s s
  | again {most : Option Nat} {s t u : Cursor} : mayGoOn most = true → body s t →
      t.rest.length < s.rest.length → More body (most.map (· - 1)) t u → More body most s u
  | stall {most : Option Nat} {s t : Cursor} : mayGoOn most = true → body s t →
      ¬t.rest.length < s.rest.length → More body most s t

/-- Whether some way through a pattern leads from a place to another. -/
def Node.Reaches : Node → Cursor → Cursor → Prop
  | .empty, s, t => t = s
  | .any lines, s, t => ∃ c rest, s.rest = c :: rest ∧ ¬(c = '\n' ∧ lines = false) ∧ t = s.advance c rest
  | .oneOf rule negated items, s, t => ∃ c rest, s.rest = c :: rest ∧
      classHolds rule negated items c = true ∧ t = s.advance c rest
  | .anchor place, s, t => place.holds s = true ∧ t = s
  | .reference rule number _, s, t => ∃ held, s.captures.lookup number = some held ∧ s.passSame rule held = some t
  | .seq first second, s, t => ∃ u, first.Reaches s u ∧ second.Reaches u t
  | .alt first second, s, t => first.Reaches s t ∨ second.Reaches s t
  | .group number body, s, t => ∃ u, body.Reaches s u ∧ t = u.capture number s
  | .atomic body, s, t => body.run s some = some t
  | .look behind negated body, s, t => match (s.lookFrom behind).bind fun place => body.run place some with
      | some u => negated = false ∧ t = { s with captures := u.captures }
      | none => negated = true ∧ t = s
  | .conditional number yes no, s, t =>
      if (s.captures.lookup number).isSome then yes.Reaches s t else no.Reaches s t
  | .loop least most style body, s, t => match style with
      | .possessive => commit (fun s k => body.run s k) least most s = some t
      | _ => ∃ u, Times body.Reaches least s u ∧ More body.Reaches (most.map (· - least)) u t

/-- The text between two places. -/
def Cursor.passed (s t : Cursor) : Text := s.rest.take (s.rest.length - t.rest.length)

/-! ### The matcher follows a way -/

variable {out : Cursor} {body : Cursor → Continuation → Option Cursor} {way : Cursor → Cursor → Prop}

theorem orElse_eq_some {first : Option Cursor} {second : Unit → Option Cursor} :
    orElse first second = some out → first = some out ∨ second () = some out := by
  cases first with
  | none => exact .inr
  | some s => exact .inl

theorem orElse_isSome {first : Option Cursor} {second : Unit → Option Cursor} :
    (orElse first second).isSome ↔ first.isSome ∨ (second ()).isSome := by
  cases first <;> simp [orElse]

/-- A match behind a number of rounds comes from a way through so many rounds. -/
theorem repeatTimes_eq_some
    (follows : ∀ s k, body s k = some out → ∃ t, way s t ∧ k t = some out) {n : Nat} {s : Cursor}
    {k : Continuation} (matched : repeatTimes body n s k = some out) :
    ∃ t, Times way n s t ∧ k t = some out := by
  induction n generalizing s with
  | zero => exact ⟨s, .zero s, matched⟩
  | succ n ih =>
    obtain ⟨t, first, matched⟩ := follows _ _ matched
    obtain ⟨u, others, matched⟩ := ih matched
    exact ⟨u, .succ first others, matched⟩

/-- What a repetition finds when it goes on: another round, and more of them if that one passed over text. -/
def anotherRound (body : Cursor → Continuation → Option Cursor) (lazy : Bool) (k : Continuation)
    (fuel : Nat) (most : Option Nat) (s : Cursor) : Option Cursor :=
  if mayGoOn most then
    body s fun t => if t.rest.length < s.rest.length then repeatMore body lazy k fuel (most.map (· - 1)) t else k t
  else none

/-- A greedy repetition goes on if it can. -/
theorem repeatMore_greedy (k : Continuation) (fuel : Nat) (most : Option Nat) (s : Cursor) :
    repeatMore body false k (fuel + 1) most s =
      orElse (anotherRound body false k fuel most s) fun _ => k s := rfl

/-- A lazy repetition stops if it can. -/
theorem repeatMore_lazy (k : Continuation) (fuel : Nat) (most : Option Nat) (s : Cursor) :
    repeatMore body true k (fuel + 1) most s =
      orElse (k s) fun _ => anotherRound body true k fuel most s := rfl

/-- A match behind further rounds comes from a way through some rounds that are allowed. -/
theorem repeatMore_eq_some
    (follows : ∀ s k, body s k = some out → ∃ t, way s t ∧ k t = some out) {lazy : Bool}
    {k : Continuation} {fuel : Nat} {most : Option Nat} {s : Cursor}
    (matched : repeatMore body lazy k fuel most s = some out) :
    ∃ t, More way most s t ∧ k t = some out := by
  induction fuel generalizing most s with
  | zero => exact ⟨s, .stop most s, matched⟩
  | succ fuel ih =>
    have tries : anotherRound body lazy k fuel most s = some out ∨ k s = some out := by
      cases lazy with
      | false => exact orElse_eq_some (repeatMore_greedy .. ▸ matched)
      | true => exact (orElse_eq_some (repeatMore_lazy .. ▸ matched)).symm
    rcases tries with matched | matched
    · unfold anotherRound at matched
      split at matched
      · next allowed =>
        obtain ⟨t, round, matched⟩ := follows _ _ matched
        split at matched
        · next progress =>
          obtain ⟨u, others, matched⟩ := ih matched
          exact ⟨u, .again allowed round progress others, matched⟩
        · next stuck => exact ⟨t, .stall allowed round stuck, matched⟩
      · cases matched
    · exact ⟨s, .stop most s, matched⟩

/-- Whether a pattern leads to one place at most, whatever the rest of the match asks for. -/
def Node.isSingle : Node → Bool
  | .empty | .any _ | .oneOf .. | .anchor _ | .reference .. | .atomic _ | .look .. | .loop _ _ .possessive _ => true
  | .seq .. | .alt .. | .group .. | .conditional .. | .loop .. => false

/-- A pattern that leads to one place is matched first, and the rest from there. -/
theorem Node.run_of_single {node : Node} (single : node.isSingle = true) (s : Cursor) (k : Continuation) :
    node.run s k = (node.run s some).bind k := by
  cases node with
  | empty => rfl
  | any | oneOf =>
    unfold run
    split
    · split <;> rfl
    · rfl
  | anchor =>
    unfold run
    split <;> rfl
  | reference =>
    unfold run
    split
    · split <;> rfl
    · rfl
  | atomic body =>
    unfold run
    split <;> rfl
  | look =>
    unfold run
    split <;> split <;> rfl
  | loop _ _ style =>
    cases style with
    | greedy | lazy => cases single
    | possessive =>
      unfold run
      dsimp only
      split <;> rfl
  | seq | alt | group | conditional => cases single

/-- The place that such a pattern leads to is the one that is found when nothing else is asked for. -/
theorem Node.reaches_of_single {node : Node} (single : node.isSingle = true) {s t : Cursor} :
    node.Reaches s t ↔ node.run s some = some t := by
  cases node with
  | empty => exact eq_comm.trans (Option.some_inj (a := s) (b := t)).symm
  | any lines =>
    cases here : s.rest with
    | nil => simp [Reaches, run, here]
    | cons c rest => simp [Reaches, run, here, @eq_comm _ t]
  | oneOf rule negated items =>
    cases here : s.rest with
    | nil => simp [Reaches, run, here]
    | cons c rest => simp [Reaches, run, here, @eq_comm _ t]
  | anchor place => simp [Reaches, run, @eq_comm _ t]
  | reference rule number width =>
    cases known : s.captures.lookup number with
    | none => simp [Reaches, run, known]
    | some held => cases passes : s.passSame rule held <;> simp [Reaches, run, known, passes]
  | atomic body => cases committed : body.run s some <;> simp [Reaches, run, committed]
  | look behind negated body =>
    cases seen : (s.lookFrom behind).bind fun place => body.run place some <;>
      simp [Reaches, run, seen, @eq_comm _ t]
  | loop least most style body =>
    cases style with
    | greedy | lazy => cases single
    | possessive =>
      cases committed : commit (fun s k => body.run s k) least most s <;> simp [Reaches, run, committed]
  | seq | alt | group | conditional => cases single

/-- A match through such a pattern goes on from the place that it leads to. -/
theorem Node.run_eq_some_of_single {node : Node} (single : node.isSingle = true) {s : Cursor} {k : Continuation}
    (matched : node.run s k = some out) : ∃ t, node.Reaches s t ∧ k t = some out := by
  rw [run_of_single single] at matched
  obtain ⟨t, here, on⟩ := Option.bind_eq_some_iff.mp matched
  exact ⟨t, (reaches_of_single single).mpr here, on⟩

/-- A match goes some way through the pattern and on from there. -/
theorem Node.run_eq_some {node : Node} {s : Cursor} {k : Continuation}
    (matched : node.run s k = some out) : ∃ t, node.Reaches s t ∧ k t = some out := by
  induction node generalizing s k with
  | empty | any | oneOf | anchor | reference | atomic | look => exact run_eq_some_of_single rfl matched
  | seq _ _ first_ih second_ih =>
    obtain ⟨t, through, matched⟩ := first_ih matched
    obtain ⟨u, on, matched⟩ := second_ih matched
    exact ⟨u, ⟨t, through, on⟩, matched⟩
  | alt _ _ first_ih second_ih =>
    rcases orElse_eq_some matched with matched | matched
    · obtain ⟨t, through, matched⟩ := first_ih matched
      exact ⟨t, .inl through, matched⟩
    · obtain ⟨t, through, matched⟩ := second_ih matched
      exact ⟨t, .inr through, matched⟩
  | group number body ih =>
    obtain ⟨t, through, matched⟩ := ih matched
    exact ⟨_, ⟨t, through, rfl⟩, matched⟩
  | conditional number yes no yes_ih no_ih =>
    unfold run at matched
    unfold Reaches
    split at matched
    · next holds =>
      simp only [if_pos holds]
      exact yes_ih matched
    · next none_there =>
      simp only [if_neg none_there]
      exact no_ih matched
  | loop least most style body ih =>
    have follows (s : Cursor) (k : Continuation) (matched : body.run s k = some out) :
        ∃ t, body.Reaches s t ∧ k t = some out := ih matched
    cases style with
    | possessive => exact run_eq_some_of_single rfl matched
    | greedy | lazy =>
      obtain ⟨t, rounds, matched⟩ := repeatTimes_eq_some follows matched
      obtain ⟨u, others, matched⟩ := repeatMore_eq_some follows matched
      exact ⟨u, ⟨t, rounds, others⟩, matched⟩

/-- What is matched without regard to the rest, goes a way through the pattern. -/
theorem Node.reaches_of_run {node : Node} {s t : Cursor} (matched : node.run s some = some t) : node.Reaches s t := by
  obtain ⟨u, through, last⟩ := run_eq_some matched
  cases last
  exact through

/-! ### The matcher finds a way -/

/-- Where a way leads through a number of rounds and the rest matches, there is a match. -/
theorem repeatTimes_isSome
    (finds : ∀ s t k, way s t → (k t).isSome → (body s k).isSome) {n : Nat} {s t : Cursor}
    {k : Continuation} (through : Times way n s t) (on : (k t).isSome) : (repeatTimes body n s k).isSome := by
  induction through with
  | zero => exact on
  | succ first _ ih => exact finds _ _ _ first (ih on)

/-- Further rounds match if another round does or the rest does from here, in whichever order they are tried. -/
theorem repeatMore_succ_isSome {lazy : Bool} {k : Continuation} {fuel : Nat} {most : Option Nat}
    {s : Cursor} : (repeatMore body lazy k (fuel + 1) most s).isSome ↔
      (anotherRound body lazy k fuel most s).isSome ∨ (k s).isSome := by
  cases lazy with
  | false => rw [repeatMore_greedy, orElse_isSome]
  | true => rw [repeatMore_lazy, orElse_isSome, or_comm]

/-- Where a way leads through rounds that are allowed and the rest matches, there is a match, as long as each round
takes something of what is left. -/
theorem repeatMore_isSome
    (finds : ∀ s t k, way s t → (k t).isSome → (body s k).isSome) {lazy : Bool} {k : Continuation}
    {fuel : Nat} {most : Option Nat} {s t : Cursor} (through : More way most s t)
    (enough : s.rest.length < fuel) (on : (k t).isSome) :
    (repeatMore body lazy k fuel most s).isSome := by
  induction through generalizing fuel with
  | stop most s =>
    cases fuel with
    | zero => exact on
    | succ fuel => exact repeatMore_succ_isSome.mpr (.inr on)
  | @again most s t u allowed round progress _ ih =>
    obtain ⟨fuel, rfl⟩ := Nat.exists_eq_add_of_lt enough
    refine repeatMore_succ_isSome.mpr (.inl ?_)
    rw [anotherRound, if_pos allowed]
    refine finds _ _ _ round ?_
    rw [if_pos progress]
    exact ih (by omega) on
  | @stall most s t allowed round stuck =>
    obtain ⟨fuel, rfl⟩ := Nat.exists_eq_add_of_lt enough
    refine repeatMore_succ_isSome.mpr (.inl ?_)
    rw [anotherRound, if_pos allowed]
    refine finds _ _ _ round ?_
    rwa [if_neg stuck]

/-- There is a match through such a pattern if the rest matches from the place that it leads to. -/
theorem Node.run_isSome_of_single {node : Node} (single : node.isSingle = true) {s t : Cursor} {k : Continuation}
    (through : node.Reaches s t) (on : (k t).isSome) : (node.run s k).isSome := by
  rw [run_of_single single, (reaches_of_single single).mp through]
  exact on

/-- If some way through a pattern leads to a place from which the match can go on, there is a match. -/
theorem Node.run_isSome {node : Node} {s t : Cursor} {k : Continuation}
    (through : node.Reaches s t) (on : (k t).isSome) : (node.run s k).isSome := by
  induction node generalizing s t k with
  | empty | any | oneOf | anchor | reference | atomic | look => exact run_isSome_of_single rfl through on
  | seq _ _ first_ih second_ih =>
    obtain ⟨u, through, further⟩ := through
    exact first_ih through (second_ih further on)
  | alt _ _ first_ih second_ih =>
    rcases through with through | through
    · exact orElse_isSome.mpr (.inl (first_ih through on))
    · exact orElse_isSome.mpr (.inr (second_ih through on))
  | group number body ih =>
    obtain ⟨u, through, rfl⟩ := through
    exact ih through on
  | conditional number yes no yes_ih no_ih =>
    unfold Reaches at through
    unfold run
    split at through
    · next holds =>
      rw [if_pos holds]
      exact yes_ih through on
    · next none_there =>
      rw [if_neg none_there]
      exact no_ih through on
  | loop least most style body ih =>
    have finds (s t : Cursor) (k : Continuation) (through : body.Reaches s t)
        (on : (k t).isSome) : (body.run s k).isSome := ih through on
    cases style with
    | possessive => exact run_isSome_of_single rfl through on
    | greedy | lazy =>
      obtain ⟨u, rounds, others⟩ := through
      exact repeatTimes_isSome finds rounds (repeatMore_isSome finds others (Nat.lt_succ_self _) on)

/-! ### Rounds -/

/-- Rounds that are not taken back are rounds. -/
theorem times_of_commitTimes (follows : ∀ s t, body s some = some t → way s t) {n : Nat} {s t : Cursor}
    (committed : commitTimes body n s = some t) : Times way n s t := by
  induction n generalizing s with
  | zero =>
    cases committed
    exact .zero t
  | succ n ih =>
    unfold commitTimes at committed
    split at committed
    · next u first => exact .succ (follows s u first) (ih committed)
    · cases committed

/-- Further rounds that are not taken back are rounds that are allowed. -/
theorem more_of_commitMore (follows : ∀ s t, body s some = some t → way s t) (fuel : Nat) (most : Option Nat)
    (s : Cursor) : More way most s (commitMore body fuel most s) := by
  induction fuel generalizing most s with
  | zero => exact .stop most s
  | succ fuel ih =>
    unfold commitMore
    split
    · next allowed =>
      split
      · next t round =>
        split
        · next progress => exact .again allowed (follows s t round) progress (ih _ t)
        · next stuck => exact .stall allowed (follows s t round) stuck
      · exact .stop most s
    · exact .stop most s

/-- Every repetition passes its body the least number of times and then some number of times that is allowed. -/
theorem Node.Reaches.exists_rounds {least : Nat} {most : Option Nat} {style : Style} {body : Node} {s t : Cursor}
    (through : (Node.loop least most style body).Reaches s t) :
    ∃ u, Times body.Reaches least s u ∧ More body.Reaches (most.map (· - least)) u t := by
  cases style with
  | greedy | lazy => exact through
  | possessive =>
    have follows (s t : Cursor) (matched : body.run s some = some t) : body.Reaches s t := reaches_of_run matched
    obtain ⟨u, committed, rfl⟩ := Option.map_eq_some_iff.mp through
    exact ⟨u, times_of_commitTimes follows committed, more_of_commitMore follows _ _ u⟩

/-! ### What a way passes over -/

theorem Times.suffix {n : Nat} {s t : Cursor} (passes : ∀ s t, way s t → t.rest <:+ s.rest)
    (through : Times way n s t) : t.rest <:+ s.rest := by
  induction through with
  | zero => exact List.suffix_rfl
  | succ first _ ih => exact ih.trans (passes _ _ first)

theorem More.suffix {most : Option Nat} {s t : Cursor} (passes : ∀ s t, way s t → t.rest <:+ s.rest)
    (through : More way most s t) : t.rest <:+ s.rest := by
  induction through with
  | stop => exact List.suffix_rfl
  | again _ round _ _ ih => exact ih.trans (passes _ _ round)
  | stall _ round _ => exact passes _ _ round

/-- What is compared with a text is passed over, and groups hold what they held. -/
theorem Cursor.passSame_eq_some {rule : Rule} {held : Text} {s t : Cursor} (passes : s.passSame rule held = some t) :
    t.rest <:+ s.rest ∧ t.captures = s.captures := by
  induction held generalizing s with
  | nil =>
    cases passes
    exact ⟨List.suffix_rfl, rfl⟩
  | cons c held ih =>
    unfold passSame at passes
    split at passes
    · next d rest at_ =>
      split at passes
      · obtain ⟨suffix, same⟩ := ih passes
        refine ⟨suffix.trans ?_, same⟩
        rw [at_]
        exact List.suffix_cons d rest
      · cases passes
    · cases passes

/-- A look leads nowhere else. What groups hold behind it, they hold where it leads to in its pattern. -/
theorem Node.Reaches.look_eq {behind : Option Width} {negated : Bool} {body : Node} {s t : Cursor}
    (through : (Node.look behind negated body).Reaches s t) : t = s ∨ ∃ place u, place.captures = s.captures ∧
      body.Reaches place u ∧ t = { s with captures := u.captures } := by
  unfold Reaches at through
  split at through
  · next u seen =>
    obtain ⟨place, found, matched⟩ := Option.bind_eq_some_iff.mp seen
    refine .inr ⟨place, u, ?_, reaches_of_run matched, through.2⟩
    cases behind with
    | none =>
      cases found
      rfl
    | some width =>
      unfold Cursor.lookFrom Cursor.back at found
      dsimp only at found
      split at found
      · cases found
        rfl
      · cases found
  · exact .inl through.2

/-- A way through a pattern leaves an end of the text. -/
theorem Node.Reaches.suffix {node : Node} {s t : Cursor} (through : node.Reaches s t) :
    t.rest <:+ s.rest := by
  induction node generalizing s t with
  | empty =>
    cases through
    exact List.suffix_rfl
  | any | oneOf =>
    obtain ⟨c, rest, at_, _, rfl⟩ := through
    exact at_ ▸ List.suffix_cons c rest
  | anchor =>
    obtain ⟨_, rfl⟩ := through
    exact List.suffix_rfl
  | reference =>
    obtain ⟨_, _, passes⟩ := through
    exact (Cursor.passSame_eq_some passes).1
  | seq first second first_ih second_ih =>
    obtain ⟨u, through, further⟩ := through
    exact (second_ih further).trans (first_ih through)
  | alt first second first_ih second_ih => exact through.elim first_ih second_ih
  | group number body ih =>
    obtain ⟨u, through, rfl⟩ := through
    exact (ih through : u.rest <:+ s.rest)
  | atomic body ih => exact ih (reaches_of_run through)
  | look behind negated body =>
    rcases through.look_eq with rfl | ⟨_, _, _, _, rfl⟩
    · exact List.suffix_rfl
    · exact List.suffix_rfl
  | conditional number yes no yes_ih no_ih =>
    unfold Reaches at through
    split at through
    · exact yes_ih through
    · exact no_ih through
  | loop least most style body ih =>
    obtain ⟨u, rounds, others⟩ := through.exists_rounds
    exact (others.suffix fun _ _ => ih).trans (rounds.suffix fun _ _ => ih)

/-- What a way has passed and what is left make up the text. -/
theorem Node.Reaches.passed_append {node : Node} {s t : Cursor} (through : node.Reaches s t) :
    s.passed t ++ t.rest = s.rest := by
  obtain ⟨front, at_⟩ := through.suffix
  simp [Cursor.passed, ← at_]

/-- A property of groups and texts that a body's ways have, every way that passes the body keeps. -/
theorem Times.keeps {P : Cursor → Prop} {n : Nat} {s t : Cursor}
    (keeps : ∀ s t, way s t → P s → P t) (through : Times way n s t) (start : P s) : P t := by
  induction through with
  | zero => exact start
  | succ first _ ih => exact ih (keeps _ _ first start)

/-- What each round keeps is kept by further rounds. -/
theorem More.keeps {P : Cursor → Prop} {most : Option Nat} {s t : Cursor}
    (keeps : ∀ s t, way s t → P s → P t) (through : More way most s t) (start : P s) : P t := by
  induction through with
  | stop => exact start
  | again _ round _ _ ih => exact ih (keeps _ _ round start)
  | stall _ round _ => exact keeps _ _ round start

/-- What the groups hold behind a pattern they held before it, or it is a text that some way through the body of one of
the pattern's groups passes over. -/
theorem Node.Reaches.captures {node : Node} (held : Nat → Text → Prop)
    (bodies : ∀ number body, (number, body) ∈ node.groupsIn →
      ∀ s t, body.Reaches s t → held number (s.passed t))
    {s t : Cursor} (through : node.Reaches s t)
    (before : ∀ capture ∈ s.captures, held capture.1 capture.2) :
    ∀ capture ∈ t.captures, held capture.1 capture.2 := by
  induction node generalizing s t with
  | empty =>
    cases through
    exact before
  | any | oneOf =>
    obtain ⟨c, rest, _, _, rfl⟩ := through
    exact before
  | anchor =>
    obtain ⟨_, rfl⟩ := through
    exact before
  | reference =>
    obtain ⟨_, _, passes⟩ := through
    rw [(Cursor.passSame_eq_some passes).2]
    exact before
  | seq first second first_ih second_ih =>
    obtain ⟨u, through, further⟩ := through
    have between := first_ih (fun number body member => bodies number body (List.mem_append_left _ member))
      through before
    exact second_ih (fun number body member => bodies number body (List.mem_append_right _ member))
      further between
  | alt first second first_ih second_ih =>
    rcases through with through | through
    · exact first_ih (fun number body member => bodies number body (List.mem_append_left _ member))
        through before
    · exact second_ih (fun number body member => bodies number body (List.mem_append_right _ member))
        through before
  | group number body ih =>
    obtain ⟨u, through, rfl⟩ := through
    have inside := ih (fun number body member => bodies number body (List.mem_cons_of_mem _ member))
      through before
    intro capture member
    rcases List.mem_cons.mp member with rfl | member
    · exact bodies number body List.mem_cons_self s u through
    · exact inside capture member
  | atomic body ih => exact ih bodies (reaches_of_run through) before
  | look behind negated body ih =>
    rcases through.look_eq with rfl | ⟨place, u, same, inside, rfl⟩
    · exact before
    · have held := ih bodies inside (same ▸ before)
      exact held
  | conditional number yes no yes_ih no_ih =>
    unfold Reaches at through
    split at through
    · exact yes_ih (fun number body member => bodies number body (List.mem_append_left _ member)) through before
    · exact no_ih (fun number body member => bodies number body (List.mem_append_right _ member)) through before
  | loop least most style body ih =>
    obtain ⟨u, rounds, others⟩ := through.exists_rounds
    have round (s t : Cursor) (through : body.Reaches s t)
        (before : ∀ capture ∈ s.captures, held capture.1 capture.2) := ih bodies through before
    exact others.keeps round (rounds.keeps round before)

/-! ### Ways without conditions -/

/-- Whether each way can also be gone when the text ends sooner, from every place in front of the same characters. -/
def Local (way : Cursor → Cursor → Prop) : Prop :=
  ∀ s t u : Cursor, ∀ tail : Text, way s t → u.rest ++ tail = s.rest → tail <:+ t.rest →
    ∃ v, way u v ∧ v.rest ++ tail = t.rest

/-- A number of rounds can also be gone when the text ends sooner, if each round can. -/
theorem Times.isLocal (bodyLocal : Local way) (suffix : ∀ s t, way s t → t.rest <:+ s.rest) (n : Nat) :
    Local (Times way n) := by
  intro s t u tail through
  induction through generalizing u with
  | zero => exact fun at_ _ => ⟨u, .zero u, at_⟩
  | succ first others ih =>
    intro at_ inside
    obtain ⟨v, round, at_⟩ := bodyLocal _ _ u tail first at_ (inside.trans (others.suffix suffix))
    obtain ⟨w, rounds, at_⟩ := ih v at_ inside
    exact ⟨w, .succ round rounds, at_⟩

/-- Further rounds can also be gone when the text ends sooner, if each round can. -/
theorem More.isLocal (bodyLocal : Local way) (suffix : ∀ s t, way s t → t.rest <:+ s.rest)
    (most : Option Nat) : Local (More way most) := by
  intro s t u tail through
  induction through generalizing u with
  | stop most => exact fun at_ _ => ⟨u, .stop most u, at_⟩
  | again allowed round progress others ih =>
    intro at_ inside
    obtain ⟨v, first, next⟩ := bodyLocal _ _ u tail round at_ (inside.trans (others.suffix suffix))
    obtain ⟨w, rounds, last⟩ := ih v next inside
    refine ⟨w, .again allowed first ?_ rounds, last⟩
    simpa [← at_, ← next] using progress
  | stall allowed round stuck =>
    intro at_ inside
    obtain ⟨v, first, next⟩ := bodyLocal _ _ u tail round at_ inside
    refine ⟨v, .stall allowed first ?_, next⟩
    simpa [← at_, ← next] using stuck

/-- A way through a pattern without conditions sees no more than the text that it passes over. -/
theorem Node.isLocal {node : Node} (unanchored : node.unanchored = true) : Local node.Reaches := by
  have single {c : Char} {rest tail : Text} {u : Cursor} (at_ : u.rest ++ tail = c :: rest)
      (inside : tail <:+ rest) : ∃ front, u.rest = c :: front ∧ front ++ tail = rest := by
    cases shown : u.rest with
    | nil =>
      rw [shown, List.nil_append] at at_
      have shorter := inside.length_le
      rw [at_, List.length_cons] at shorter
      omega
    | cons d front =>
      rw [shown] at at_
      injection at_ with first others
      exact ⟨front, first ▸ rfl, others⟩
  induction node with
  | empty =>
    rintro s t u tail rfl at_ _
    exact ⟨u, rfl, at_⟩
  | any lines =>
    rintro s t u tail ⟨c, rest, from_, taken, rfl⟩ at_ inside
    obtain ⟨front, first, others⟩ := single (at_.trans from_) inside
    exact ⟨u.advance c front, ⟨c, front, first, taken, rfl⟩, others⟩
  | oneOf rule negated items =>
    rintro s t u tail ⟨c, rest, from_, held, rfl⟩ at_ inside
    obtain ⟨front, first, others⟩ := single (at_.trans from_) inside
    exact ⟨u.advance c front, ⟨c, front, first, held, rfl⟩, others⟩
  | anchor | reference | atomic | look | conditional => cases unanchored
  | seq first second first_ih second_ih =>
    have both := Bool.and_eq_true_iff.mp unanchored
    rintro s t u tail ⟨middle, through, further⟩ at_ inside
    obtain ⟨v, through, at_⟩ := first_ih both.1 _ _ u tail through at_ (inside.trans further.suffix)
    obtain ⟨w, further, at_⟩ := second_ih both.2 _ _ v tail further at_ inside
    exact ⟨w, ⟨v, through, further⟩, at_⟩
  | alt first second first_ih second_ih =>
    have both := Bool.and_eq_true_iff.mp unanchored
    rintro s t u tail (through | through) at_ inside
    · obtain ⟨v, through, at_⟩ := first_ih both.1 _ _ u tail through at_ inside
      exact ⟨v, .inl through, at_⟩
    · obtain ⟨v, through, at_⟩ := second_ih both.2 _ _ u tail through at_ inside
      exact ⟨v, .inr through, at_⟩
  | group number body ih =>
    rintro s t u tail ⟨end_, through, rfl⟩ at_ inside
    obtain ⟨v, through, at_⟩ := ih unanchored _ _ u tail through at_ inside
    exact ⟨v.capture number u, ⟨v, through, rfl⟩, at_⟩
  | loop least most style body ih =>
    have suffix (s t : Cursor) (through : body.Reaches s t) := through.suffix
    cases style with
    | possessive => cases unanchored
    | greedy | lazy =>
      rintro s t u tail ⟨middle, rounds, others⟩ at_ inside
      obtain ⟨v, rounds, at_⟩ := Times.isLocal (ih unanchored) suffix _ _ _ u tail rounds at_
        (inside.trans (others.suffix suffix))
      obtain ⟨w, others, at_⟩ := More.isLocal (ih unanchored) suffix _ _ _ v tail others at_ inside
      exact ⟨w, ⟨v, rounds, others⟩, at_⟩

/-! ### Searches and full matches -/

/-- The texts of the groups of the first match that takes a whole text. -/
def fullMatch (r : Regex) (t : Text) : Option (List (Option Text)) :=
  (r.root.run ⟨[], t, []⟩ fun s => if s.rest.isEmpty then some s else none).map fun s =>
    (List.range r.groups).map fun i => s.captures.lookup (i + 1)

/-- What a group holds behind a pattern, some way through the body of a group of that number passes over, if no group
held anything before. -/
theorem passed_of_lookup {node : Node} {s out : Cursor} {number : Nat} {captured : Text}
    (through : node.Reaches s out) (before : s.captures = [])
    (held : out.captures.lookup number = some captured) :
    ∃ body s t, (number, body) ∈ node.groupsIn ∧ body.Reaches s t ∧ s.passed t = captured := by
  obtain ⟨front, back, eq, _⟩ := List.lookup_eq_some_iff.mp held
  exact through.captures
    (fun number held => ∃ body s t, (number, body) ∈ node.groupsIn ∧ body.Reaches s t ∧ s.passed t = held)
    (fun number body member s t inside => ⟨body, s, t, member, inside, rfl⟩) (by simp [before])
    (number, captured) (by simp [eq])

/-- The text of a group among the texts of all. -/
theorem lookup_of_getElem? {captures : List (Nat × Text)} {groups i : Nat} {captured : Text}
    (at_ : ((List.range groups).map fun i => captures.lookup (i + 1))[i]? = some (some captured)) :
    i < groups ∧ captures.lookup (i + 1) = some captured := by
  simp only [List.getElem?_map, Option.map_eq_some_iff] at at_
  obtain ⟨j, position, held⟩ := at_
  obtain ⟨within, rfl⟩ := List.getElem?_eq_some_iff.mp position
  rw [List.length_range] at within
  rw [List.getElem_range] at held
  exact ⟨within, held⟩

/-- The text that a search finds for a group, some way through the body of a group of that number passes over. -/
theorem passed_of_search {r : Regex} {text : Text} {groups : List (Option Text)} {i : Nat} {captured : Text}
    (found : r.search text = some groups) (at_ : groups[i]? = some (some captured)) :
    i < r.groups ∧ ∃ body s t, (i + 1, body) ∈ r.root.groupsIn ∧ body.Reaches s t ∧ s.passed t = captured := by
  unfold search at found
  obtain ⟨out, searched, rfl⟩ := Option.map_eq_some_iff.mp found
  have reached : ∃ s, s.captures = [] ∧ r.root.Reaches s out := by
    clear found at_
    generalize ([] : Text) = before at searched
    induction text generalizing before with
    | nil => exact ⟨_, rfl, Node.reaches_of_run searched⟩
    | cons c rest ih =>
      unfold searchFrom at searched
      split at searched
      · next matched =>
        cases searched
        exact ⟨_, rfl, Node.reaches_of_run matched⟩
      · exact ih _ searched
  obtain ⟨s, before, through⟩ := reached
  obtain ⟨within, held⟩ := lookup_of_getElem? at_
  exact ⟨within, passed_of_lookup through before held⟩

/-- The text that a full match has for a group, some way through the body of a group of that number passes over. -/
theorem passed_of_fullMatch {r : Regex} {text : Text} {groups : List (Option Text)} {i : Nat} {captured : Text}
    (found : r.fullMatch text = some groups) (at_ : groups[i]? = some (some captured)) :
    ∃ body s t, (i + 1, body) ∈ r.root.groupsIn ∧ body.Reaches s t ∧ s.passed t = captured := by
  obtain ⟨out, matched, rfl⟩ := Option.map_eq_some_iff.mp found
  obtain ⟨t, through, last⟩ := Node.run_eq_some matched
  split at last
  · cases last
    exact passed_of_lookup through rfl (lookup_of_getElem? at_).2
  · cases last

/-- A repeated class passes over characters of the class. -/
theorem classHolds_of_passed {least : Nat} {most : Option Nat} {style : Style} {rule : Rule} {negated : Bool}
    {items : List ClassItem} {s t : Cursor}
    (through : (Node.loop least most style (.oneOf rule negated items)).Reaches s t) :
    ∀ c ∈ s.passed t, classHolds rule negated items c = true := by
  let Within (u : Cursor) : Prop :=
    ∃ front, s.rest = front ++ u.rest ∧ ∀ c ∈ front, classHolds rule negated items c = true
  have round (u v : Cursor) (one : (Node.oneOf rule negated items).Reaches u v) :
      Within u → Within v := by
    rintro ⟨front, eq, held⟩
    obtain ⟨c, rest, at_, holds, rfl⟩ := one
    refine ⟨front ++ [c], by simp [eq, at_, Cursor.advance], fun d member => ?_⟩
    rcases List.mem_append.mp member with member | member
    · exact held d member
    · exact List.mem_singleton.mp member ▸ holds
  obtain ⟨front, eq, held⟩ : Within t := by
    obtain ⟨u, rounds, others⟩ := through.exists_rounds
    exact others.keeps round (rounds.keeps round ⟨[], rfl, by simp⟩)
  simpa [Cursor.passed, eq] using held

/-- A pattern that is one group around a body without conditions takes every text that a way through the body passes
over, wherever that is, as its group. -/
theorem fullMatch_passed {r : Regex} {body : Node} {s t : Cursor} (one : r.groups = 1)
    (root : r.root = .group 1 body) (unanchored : body.unanchored = true)
    (through : body.Reaches s t) : r.fullMatch (s.passed t) = some [some (s.passed t)] := by
  have at_ := through.passed_append
  generalize s.passed t = passed at at_
  obtain ⟨v, alone, ends⟩ := Node.isLocal unanchored s t ⟨[], passed, []⟩ t.rest through at_
    List.suffix_rfl
  replace ends : v.rest = [] := List.append_left_eq_self.mp ends
  have whole : r.root.Reaches ⟨[], passed, []⟩ (v.capture 1 ⟨[], passed, []⟩) := by
    rw [root]
    exact ⟨v, alone, rfl⟩
  have found := Node.run_isSome (k := fun s => if s.rest.isEmpty then some s else none) whole
    (by simp [Cursor.capture, ends])
  obtain ⟨out, matched⟩ := Option.isSome_iff_exists.mp found
  have holds : out.captures.lookup 1 = some passed := by
    obtain ⟨w, through, last⟩ := Node.run_eq_some matched
    rw [root] at through
    obtain ⟨u, _, rfl⟩ := through
    split at last
    · next empty =>
      cases last
      have ended : u.rest = [] := by simpa [Cursor.capture] using empty
      simp [Cursor.capture, ended]
    · cases last
  rw [fullMatch, matched, one]
  exact congrArg some (congrArg (fun held => [held]) holds)

end Regex

end Gherkin
