import Mathlib.Data.Char
import Gherkin.Proofs.Regex.Matching

/-! # Patterns in sequence

What patterns in a row take: the texts that they pass over, and what their groups hold afterwards. A repeated class
takes as many of its characters as its bounds allow (`Gherkin.Regex.Takes.loop`), a group keeps the text that its body
takes (`Gherkin.Regex.Takes.group`), and what stands behind one another takes one text behind the other
(`Gherkin.Regex.Takes.append`).
-/

namespace Gherkin.Regex

/-! ### Ways through a sequence -/

/-- Whether patterns in turn lead from a place to another. -/
def Through : List Node → Cursor → Cursor → Prop
  | [], s, t => t = s
  | node :: rest, s, t => ∃ u, node.Reaches s u ∧ Through rest u t

theorem through_append {first second : List Node} {s t : Cursor} :
    Through (first ++ second) s t ↔
      ∃ u, Through first s u ∧ Through second u t := by
  induction first generalizing s with
  | nil =>
    constructor
    · exact fun through => ⟨s, rfl, through⟩
    · rintro ⟨_, rfl, through⟩
      exact through
  | cons node rest ih =>
    simp only [List.cons_append, Through, ih]
    constructor
    · rintro ⟨u, here, v, front, back⟩
      exact ⟨v, ⟨u, here, front⟩, back⟩
    · rintro ⟨v, ⟨u, here, front⟩, back⟩
      exact ⟨u, here, v, front, back⟩

theorem through_singleton {node : Node} {s t : Cursor} :
    Through [node] s t ↔ node.Reaches s t := by
  constructor
  · rintro ⟨u, here, rfl⟩
    exact here
  · exact fun here => ⟨t, here, rfl⟩

theorem Through.suffix {nodes : List Node} {s t : Cursor} (through : Through nodes s t) :
    t.rest <:+ s.rest := by
  induction nodes generalizing s with
  | nil => exact through ▸ List.suffix_rfl
  | cons node rest ih =>
    obtain ⟨u, here, further⟩ := through
    exact (ih further).trans here.suffix

/-- The items of a frame are passed in the order in which they were read. -/
theorem reaches_sequenceOf {items : List Item} {s t : Cursor} :
    (sequenceOf items).Reaches s t ↔ Through (items.reverse.map Prod.snd) s t := by
  fun_induction sequenceOf items generalizing t with
  | case1 => exact Iff.rfl
  | case2 kind node => exact through_singleton.symm
  | case3 kind node before nonempty ih =>
    rw [List.reverse_cons, List.map_append, through_append]
    simp only [List.map_cons, List.map_nil, through_singleton, ← ih]
    exact Iff.rfl

/-- Between anchors, a sequence is passed from the start of the text to its end, or to a line feed there. -/
theorem through_anchored {nodes : List Node} {s t : Cursor} :
    Through (.anchor .start :: (nodes ++ [.anchor .lastLine])) s t ↔
      s.before = [] ∧ Through nodes s t ∧ (t.rest = [] ∨ t.rest = ['\n']) := by
  have starts (u : Cursor) : (Node.anchor .start).Reaches s u ↔ s.before = [] ∧ u = s := by
    simp [Node.Reaches, Anchor.holds]
  have ends (u : Cursor) : Through [.anchor .lastLine] u t ↔
      (u.rest = [] ∨ u.rest = ['\n']) ∧ t = u := by
    rw [through_singleton]
    simp [Node.Reaches, Anchor.holds]
  change (∃ u, (Node.anchor .start).Reaches s u ∧
    Through (nodes ++ [.anchor .lastLine]) u t) ↔ _
  simp only [starts, through_append, ends]
  constructor
  · rintro ⟨_, ⟨first, rfl⟩, _, through, last, rfl⟩
    exact ⟨first, through, last⟩
  · rintro ⟨first, through, last⟩
    exact ⟨s, ⟨first, rfl⟩, t, through, last, rfl⟩

/-- What a match of the whole text leaves is nothing, or a line feed at the end. -/
theorem eq_or_eq_of_ends {text body rest : Text} (whole : text = body ++ rest) (ends : rest = [] ∨ rest = ['\n']) :
    text = body ∨ text = body ++ ['\n'] := by
  rcases ends with rfl | rfl
  · exact .inl (whole.trans (List.append_nil body))
  · exact .inr whole

/-! ### What patterns take -/

/-- The place behind a text that a pattern has passed over, with what its groups hold. -/
def Cursor.past (s : Cursor) (taken : Text) (held : List (Nat × Text)) (rest : Text) : Cursor :=
  ⟨taken.reverse ++ s.before, rest, held ++ s.captures⟩

theorem Cursor.past_nil (s : Cursor) : s.past [] [] s.rest = s := rfl

theorem Cursor.past_past (s : Cursor) (first second : Text) (held more : List (Nat × Text)) (middle rest : Text) :
    (s.past first held middle).past second more rest = s.past (first ++ second) (more ++ held) rest := by
  simp only [past, List.reverse_append, List.append_assoc]

/-- A group that is closed behind a text holds the text. -/
theorem Cursor.capture_past {s : Cursor} {taken rest : Text} (there : s.rest = taken ++ rest) (held : List (Nat × Text))
    (number : Nat) : (s.past taken held rest).capture number s = s.past taken ((number, taken) :: held) rest := by
  have kept : (taken ++ rest).take ((taken ++ rest).length - rest.length) = taken := by simp
  simp only [capture, past, there, kept, List.cons_append]

/-- Whether patterns in turn pass over the texts, and leave in their groups what goes with them, that a condition
allows. -/
def Takes (nodes : List Node) (allowed : Text → List (Nat × Text) → Prop) : Prop :=
  ∀ s t, Through nodes s t ↔
    ∃ taken held rest, s.rest = taken ++ rest ∧ allowed taken held ∧ t = s.past taken held rest

/-- Texts that leave nothing in groups. -/
def plainly (allowed : Text → Prop) (taken : Text) (held : List (Nat × Text)) : Prop := held = [] ∧ allowed taken

/-- A class of one character holds that one. -/
theorem classHolds_self (negated : Bool) (c d : Char) :
    classHolds ⟨false, false⟩ negated [.one c.toNat] d = (decide (d = c) != negated) := by
  have itself : (d.toNat == c.toNat) = decide (d = c) := by
    rw [beq_eq_decide, decide_eq_decide]
    exact Char.toNat_inj
  simp only [classHolds, List.any_cons, List.any_nil, Bool.or_false, ClassItem.holds, Bool.false_eq_true, if_false,
    itself]

namespace Takes

variable {nodes first second : List Node} {body : Node} {allowed front back : Text → List (Nat × Text) → Prop}

theorem congr {other : Text → List (Nat × Text) → Prop} (takes : Takes nodes allowed)
    (same : ∀ taken held, allowed taken held ↔ other taken held) : Takes nodes other := by
  intro s t
  simp only [takes s t, same]

theorem nil : Takes [] (plainly fun taken => taken = []) := by
  intro s t
  constructor
  · rintro rfl
    exact ⟨[], [], t.rest, rfl, ⟨rfl, rfl⟩, t.past_nil.symm⟩
  · rintro ⟨_, _, rest, at_, ⟨rfl, rfl⟩, rfl⟩
    obtain rfl : s.rest = rest := at_
    exact s.past_nil

theorem append (left : Takes first front) (right : Takes second back) :
    Takes (first ++ second) fun taken held => ∃ before behind kept more, taken = before ++ behind ∧
      held = more ++ kept ∧ front before kept ∧ back behind more := by
  intro s t
  rw [through_append]
  constructor
  · rintro ⟨u, through, further⟩
    obtain ⟨before, kept, middle, at_, allows, rfl⟩ := (left s u).mp through
    obtain ⟨behind, more, rest, there, allowsMore, rfl⟩ := (right _ t).mp further
    obtain rfl : middle = behind ++ rest := there
    refine ⟨before ++ behind, more ++ kept, rest, ?_, ⟨before, behind, kept, more, rfl, rfl, allows, allowsMore⟩, ?_⟩
    · rw [at_, List.append_assoc]
    · rw [Cursor.past_past]
  · rintro ⟨_, _, rest, at_, ⟨before, behind, kept, more, rfl, rfl, allows, allowsMore⟩, rfl⟩
    rw [List.append_assoc] at at_
    refine ⟨s.past before kept (behind ++ rest), (left _ _).mpr ⟨before, kept, behind ++ rest, at_, allows, rfl⟩, ?_⟩
    exact (right _ _).mpr ⟨behind, more, rest, rfl, allowsMore, by rw [Cursor.past_past]⟩

/-- A sequence takes what its items take in turn. -/
theorem sequence {items : List Item} (takes : Takes (items.reverse.map Prod.snd) allowed) :
    Takes [sequenceOf items] allowed := by
  intro s t
  rw [through_singleton, reaches_sequenceOf]
  exact takes s t

/-- A group keeps the text that its body takes. -/
theorem group (number : Nat) (takes : Takes [body] allowed) :
    Takes [.group number body] fun taken held => ∃ inner, allowed taken inner ∧
      held = (number, taken) :: inner := by
  intro s t
  rw [through_singleton]
  constructor
  · rintro ⟨u, through, rfl⟩
    obtain ⟨taken, inner, rest, at_, allows, rfl⟩ := (takes s u).mp (through_singleton.mpr through)
    exact ⟨taken, _, rest, at_, ⟨inner, allows, rfl⟩, Cursor.capture_past at_ inner number⟩
  · rintro ⟨taken, _, rest, at_, ⟨inner, allows, rfl⟩, rfl⟩
    refine ⟨s.past taken inner rest, through_singleton.mp ((takes _ _).mpr ⟨taken, inner, rest, at_, allows, rfl⟩), ?_⟩
    rw [Cursor.capture_past at_]

/-! ### Single characters -/

theorem oneOf (rule : Rule) (negated : Bool) (items : List ClassItem) : Takes [.oneOf rule negated items]
    (plainly fun taken => ∃ c, taken = [c] ∧ classHolds rule negated items c = true) := by
  intro s t
  rw [through_singleton]
  constructor
  · rintro ⟨c, rest, at_, holds, rfl⟩
    exact ⟨[c], [], rest, at_, ⟨rfl, c, rfl, holds⟩, rfl⟩
  · rintro ⟨_, _, rest, at_, ⟨rfl, c, rfl, holds⟩, rfl⟩
    exact ⟨c, rest, at_, holds, rfl⟩

theorem any : Takes [.any false] (plainly fun taken => ∃ c, taken = [c] ∧ c ≠ '\n') := by
  intro s t
  rw [through_singleton]
  constructor
  · rintro ⟨c, rest, at_, inLine, rfl⟩
    exact ⟨[c], [], rest, at_, ⟨rfl, c, rfl, fun feed => inLine ⟨feed, rfl⟩⟩, rfl⟩
  · rintro ⟨_, _, rest, at_, ⟨rfl, c, rfl, inLine⟩, rfl⟩
    exact ⟨c, rest, at_, fun feed => inLine feed.1, rfl⟩

/-- A character takes itself. -/
theorem char (c : Char) : Takes [.char c] (plainly fun taken => taken = [c]) := by
  have class_ : Takes [.char c] _ := oneOf ⟨false, false⟩ false [.one c.toNat]
  refine class_.congr fun taken held => and_congr_right fun _ => ?_
  simp [classHolds_self]

theorem chars (t : Text) : Takes (t.map Node.char) (plainly fun taken => taken = t) := by
  induction t with
  | nil => exact nil
  | cons c t ih =>
    refine ((char c).append ih).congr fun taken held => ?_
    constructor
    · rintro ⟨_, _, _, _, rfl, rfl, ⟨rfl, rfl⟩, rfl, rfl⟩
      exact ⟨rfl, rfl⟩
    · rintro ⟨rfl, rfl⟩
      exact ⟨[c], t, [], [], rfl, rfl, ⟨rfl, rfl⟩, rfl, rfl⟩

/-! ### Repetitions -/

section Repeated

variable {holds : Char → Prop} (single : Takes [body] (plainly fun taken => ∃ c, taken = [c] ∧ holds c))
include single

theorem reaches_single {s t : Cursor} :
    body.Reaches s t ↔ ∃ c rest, s.rest = c :: rest ∧ holds c ∧ t = s.past [c] [] rest := by
  rw [← through_singleton, single s t]
  constructor
  · rintro ⟨_, _, rest, at_, ⟨rfl, c, rfl, held⟩, rfl⟩
    exact ⟨c, rest, at_, held, rfl⟩
  · rintro ⟨c, rest, at_, held, rfl⟩
    exact ⟨[c], [], rest, at_, ⟨rfl, c, rfl, held⟩, rfl⟩

theorem times {n : Nat} {s t : Cursor} : Times body.Reaches n s t ↔
    ∃ taken rest, s.rest = taken ++ rest ∧ taken.length = n ∧ (∀ c ∈ taken, holds c) ∧ t = s.past taken [] rest := by
  constructor
  · intro through
    induction through with
    | zero s => exact ⟨[], s.rest, rfl, rfl, by simp, rfl⟩
    | succ first _ ih =>
      obtain ⟨c, middle, at_, held, rfl⟩ := (reaches_single single).mp first
      obtain ⟨taken, rest, there, rfl, all, rfl⟩ := ih
      obtain rfl : middle = taken ++ rest := there
      exact ⟨c :: taken, rest, at_, rfl, List.forall_mem_cons.mpr ⟨held, all⟩, by rw [Cursor.past_past]; rfl⟩
  · rintro ⟨taken, rest, at_, rfl, all, rfl⟩
    induction taken generalizing s with
    | nil =>
      obtain rfl : s.rest = rest := at_
      exact .zero s
    | cons c taken ih =>
      rw [List.forall_mem_cons] at all
      have others := ih (s := s.past [c] [] (taken ++ rest)) rfl all.2
      rw [Cursor.past_past] at others
      exact .succ ((reaches_single single).mpr ⟨c, taken ++ rest, at_, all.1, rfl⟩) others

theorem more {most : Option Nat} {s t : Cursor} : More body.Reaches most s t ↔
    ∃ taken rest, s.rest = taken ++ rest ∧ (∀ m ∈ most, taken.length ≤ m) ∧ (∀ c ∈ taken, holds c) ∧
      t = s.past taken [] rest := by
  constructor
  · intro through
    induction through with
    | stop most s => exact ⟨[], s.rest, rfl, by simp, by simp, rfl⟩
    | @again most _ _ _ allowed first _ _ ih =>
      obtain ⟨c, middle, at_, held, rfl⟩ := (reaches_single single).mp first
      obtain ⟨taken, rest, there, bounded, all, rfl⟩ := ih
      obtain rfl : middle = taken ++ rest := there
      refine ⟨c :: taken, rest, at_, ?_, List.forall_mem_cons.mpr ⟨held, all⟩, by rw [Cursor.past_past]; rfl⟩
      rintro m member
      obtain rfl : most = some m := member
      have fits := bounded (m - 1) rfl
      cases m with
      | zero => cases allowed
      | succ m => simpa using fits
    | stall _ round stuck =>
      obtain ⟨c, rest, at_, _, rfl⟩ := (reaches_single single).mp round
      simp [Cursor.past, at_] at stuck
  · rintro ⟨taken, rest, at_, bounded, all, rfl⟩
    induction taken generalizing s most with
    | nil =>
      obtain rfl : s.rest = rest := at_
      exact .stop most s
    | cons c taken ih =>
      rw [List.forall_mem_cons] at all
      have round : body.Reaches s (s.past [c] [] (taken ++ rest)) :=
        (reaches_single single).mpr ⟨c, taken ++ rest, at_, all.1, rfl⟩
      have allowed : mayGoOn most = true := by
        cases most with
        | none => rfl
        | some m =>
          have fits := bounded m rfl
          cases m with
          | zero => cases fits
          | succ m => rfl
      have fewer : ∀ m ∈ most.map (· - 1), taken.length ≤ m := by
        intro m member
        obtain ⟨n, rfl, rfl⟩ := Option.map_eq_some_iff.mp member
        exact Nat.le_sub_one_of_lt (bounded n rfl)
      have others := ih (s := s.past [c] [] (taken ++ rest)) rfl fewer all.2
      rw [Cursor.past_past] at others
      refine .again allowed round ?_ others
      rw [at_]
      exact Nat.lt_succ_self _

/-- A repeated character takes as many characters as its bounds allow. -/
theorem loop (least : Nat) (most : Option Nat) : Takes [.loop least most .greedy body]
    (plainly fun taken => least ≤ taken.length ∧ (∀ m ∈ most, taken.length ≤ least + (m - least)) ∧
      ∀ c ∈ taken, holds c) := by
  intro s t
  rw [through_singleton]
  constructor
  · rintro ⟨u, rounds, others⟩
    obtain ⟨first, middle, at_, rfl, all, rfl⟩ := (times single).mp rounds
    obtain ⟨second, rest, there, bounded, allMore, rfl⟩ := (more single).mp others
    obtain rfl : middle = second ++ rest := there
    refine ⟨first ++ second, [], rest, by rw [at_, List.append_assoc], ⟨rfl, ?_, ?_, ?_⟩, by rw [Cursor.past_past]; rfl⟩
    · simp
    · intro m member
      rw [List.length_append]
      exact Nat.add_le_add_left (bounded _ (Option.map_eq_some_iff.mpr ⟨m, member, rfl⟩)) _
    · exact List.forall_mem_append.mpr ⟨all, allMore⟩
  · rintro ⟨taken, _, rest, at_, ⟨rfl, enough, bounded, all⟩, rfl⟩
    have split : taken.take least ++ taken.drop least = taken := List.take_append_drop ..
    refine ⟨s.past (taken.take least) [] (taken.drop least ++ rest), ?_, ?_⟩
    · refine (times single).mpr ⟨taken.take least, taken.drop least ++ rest, ?_, ?_, ?_, rfl⟩
      · rw [← List.append_assoc, split, at_]
      · rw [List.length_take, Nat.min_eq_left enough]
      · exact fun c member => all c (List.mem_of_mem_take member)
    · refine (more single).mpr ⟨taken.drop least, rest, rfl, ?_, ?_, ?_⟩
      · intro m member
        obtain ⟨n, rfl, rfl⟩ := Option.map_eq_some_iff.mp member
        have fits := bounded n rfl
        rw [List.length_drop]
        omega
      · exact fun c member => all c (List.mem_of_mem_drop member)
      · rw [Cursor.past_past, split]
        rfl

end Repeated

end Takes

/-! ### Searches for what only stands at the start -/

section Anchored

variable {r : Regex} (anchored : ∀ s t, r.root.Reaches s t → s.before = [])
include anchored

theorem searchFrom_behind (c : Char) (before text : Text) : r.searchFrom (c :: before) text = none := by
  have fails (c : Char) (before rest : Text) : r.root.run ⟨c :: before, rest, []⟩ some = none := by
    refine Option.eq_none_iff_forall_ne_some.mpr fun out matched => ?_
    cases anchored _ _ (Node.reaches_of_run matched)
  induction text generalizing c before with
  | nil => exact fails c before []
  | cons d rest ih =>
    rw [searchFrom, fails]
    exact ih d (c :: before)

theorem searchFrom_start (text : Text) : r.searchFrom [] text = r.root.run ⟨[], text, []⟩ some := by
  cases text with
  | nil => rfl
  | cons c rest =>
    rw [searchFrom, searchFrom_behind anchored]
    cases r.root.run ⟨[], c :: rest, []⟩ some <;> rfl

theorem search_isSome (text : Text) :
    (r.search text).isSome ↔ ∃ out, r.root.Reaches ⟨[], text, []⟩ out := by
  rw [search, searchFrom_start anchored, Option.isSome_map]
  constructor
  · intro found
    obtain ⟨out, matched⟩ := Option.isSome_iff_exists.mp found
    exact ⟨out, Node.reaches_of_run matched⟩
  · rintro ⟨out, through⟩
    exact Node.run_isSome through rfl

theorem search_eq_some {text : Text} {groups : List (Option Text)} (found : r.search text = some groups) :
    ∃ out, r.root.Reaches ⟨[], text, []⟩ out ∧
      groups = (List.range r.groups).map fun i => out.captures.lookup (i + 1) := by
  rw [search, searchFrom_start anchored] at found
  obtain ⟨out, matched, rfl⟩ := Option.map_eq_some_iff.mp found
  exact ⟨out, Node.reaches_of_run matched, rfl⟩

end Anchored

end Gherkin.Regex
