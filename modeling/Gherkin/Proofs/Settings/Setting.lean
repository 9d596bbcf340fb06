import Mathlib.Data.List.Infix
import Gherkin.Settings.Basic

/-! # Setting and getting

Settings are changed in place. On the way to a key an empty mapping is put wherever nothing is found, and whether
something is found depends on the kind of value that is asked. So a failure on the way could leave mappings behind that
nobody set. This module writes the way to a key as a program with a state, shows that it does what the operation that
gives new settings does, and that a failure changes nothing. It fails exactly if something else than a mapping stands on
the way; otherwise the key has its new value, and keys that do not lie on one way with it keep theirs
(`Gherkin.Settings.setting_laws`).
-/

namespace Gherkin

namespace Entries

variable {κ α : Type} [DecidableEq κ]

/-- The value stored last under a key is the one that counts. -/
theorem store_store (entries : Entries κ α) (key : κ) (v w : α) :
    store (store entries key v) key w = store entries key w := by
  induction entries with
  | nil => simp [store]
  | cons entry rest ih =>
    by_cases same : entry.1 = key
    · simp [store, same]
    · simp [store, same, ih]

/-- Storing what is there already changes nothing. -/
theorem store_of_lookup {entries : Entries κ α} {key : κ} {v : α} (found : lookup entries key = some v) :
    store entries key v = entries := by
  induction entries with
  | nil => cases found
  | cons entry rest ih =>
    obtain ⟨first, value⟩ := entry
    by_cases same : first = key
    · rw [lookup, if_pos same] at found
      rw [store, if_pos same, Option.some.inj found, same]
    · rw [lookup, if_neg same] at found
      rw [store, if_neg same, ih found]

end Entries

namespace Settings

/-! ### Changes in place -/

/-- What a change of a value in place comes to, and the value that it leaves, which it may have changed before it
failed. -/
abbrev Outcome := Except Error Unit × Value

/-- Whether a segment is found in a value: among the keys of a mapping, the members of a list or the parts of a text.
Other values cannot be asked. -/
def finds? (segment : Text) : Value → Option Bool
  | .map entries => some (Entries.lookup entries segment).isSome
  | .list items => some (items.any fun item => item == .text segment)
  | .text t => some (decide (segment <:+: t))
  | _ => none

/-- Stores a value under a key of a mapping. -/
def assign (segment : Text) (new : Value) : Value → Outcome
  | .map entries => (.ok (), .map (Entries.store entries segment new))
  | v => (.error .badPlace, v)

/-- Puts an empty mapping under a segment that is not found. -/
def ensure (segment : Text) (v : Value) : Outcome :=
  match finds? segment v with
  | some true => (.ok (), v)
  | some false => assign segment (.map []) v
  | none => (.error .badPlace, v)

/-- Changes the value under a key of a mapping. The mapping holds what the change leaves, also if it fails. -/
def within (segment : Text) (change : Value → Outcome) : Value → Outcome
  | .map entries => match Entries.lookup entries segment with
    | some v => ((change v).1, .map (Entries.store entries segment (change v).2))
    | none => (.error .badPlace, .map entries)
  | v => (.error .badPlace, v)

/-- Makes one change, and another one if it succeeds. -/
def andThen (first second : Value → Outcome) (v : Value) : Outcome :=
  match first v with
  | (.ok (), next) => second next
  | (.error e, next) => (.error e, next)

/-- Sets the value at a place. On the way to it, an empty mapping is put wherever nothing is found. -/
def put (new : Value) : List Text → Value → Outcome
  | [], _ => (.ok (), new)
  | [segment], v => assign segment new v
  | segment :: next :: rest, v => andThen (ensure segment) (within segment (put new (next :: rest))) v

/-- Sets the value of a key in place. -/
def setting (s : Settings) (key : Text) (v : Value) : Except Error Unit × Settings :=
  let (outcome, tree) := put v (segments key) s.tree
  (outcome, { s with tree := tree })

/-- Below an empty mapping every place can be set. -/
theorem set?_empty (new : Value) (places : List Text) : ∃ v, set? new places (.map []) = some v := by
  induction places with
  | nil => exact ⟨new, rfl⟩
  | cons segment rest ih =>
    obtain ⟨v, set⟩ := ih
    exact ⟨.map [(segment, v)], by simp [set?, Entries.lookup, Entries.store, set]⟩

/-- Where a segment is found in a mapping, the place is set below it. -/
theorem put_of_lookup {entries : Entries Text Value} {segment : Text} {v : Value}
    (found : Entries.lookup entries segment = some v) (new : Value) (next : Text) (rest : List Text) :
    put new (segment :: next :: rest) (.map entries) =
      ((put new (next :: rest) v).1, .map (Entries.store entries segment (put new (next :: rest) v).2)) := by
  simp [put, andThen, ensure, finds?, within, found]

/-- Where a segment is not found in a mapping, the place is set below an empty one, which is put there first. -/
theorem put_of_not_lookup {entries : Entries Text Value} {segment : Text}
    (missing : Entries.lookup entries segment = none) (new : Value) (next : Text) (rest : List Text) :
    put new (segment :: next :: rest) (.map entries) =
      ((put new (next :: rest) (.map [])).1,
        .map (Entries.store entries segment (put new (next :: rest) (.map [])).2)) := by
  simp [put, andThen, ensure, finds?, assign, within, missing, Entries.lookup_store, Entries.store_store]

/-- Nothing else than a mapping can be gone through, whatever is found in it. -/
theorem put_of_not_map {v : Value} (other : ∀ entries, v ≠ .map entries) (new : Value) (segment : Text)
    (rest : List Text) : put new (segment :: rest) v = (.error .badPlace, v) := by
  cases rest with
  | nil => cases v <;> simp_all [put, assign]
  | cons next rest =>
    cases v with
    | map entries => exact absurd rfl (other entries)
    | list items =>
      simp only [put, andThen, ensure, finds?]
      cases items.any fun item => item == .text segment <;> rfl
    | text t =>
      simp only [put, andThen, ensure, finds?]
      cases decide (segment <:+: t) <;> rfl
    | _ => rfl

-- a part of a text is found in it, and then the text is in the way
example (new : Value) :
    put new ["x", "a", "b"] (.map [("x", .text "bar")]) = (.error .badPlace, .map [("x", .text "bar")]) := rfl

/-- Setting in place does what the operation that gives a new value does. If that is refused, the value is left as it
was: a mapping is put somewhere only where nothing was found, and then nothing below it can be in the way. -/
theorem put_eq (new : Value) (places : List Text) (v : Value) :
    put new places v =
      match set? new places v with
      | some after => (.ok (), after)
      | none => (.error .badPlace, v) := by
  induction places generalizing v with
  | nil => rfl
  | cons segment rest ih =>
    by_cases mapping : ∃ entries, v = .map entries
    · obtain ⟨entries, rfl⟩ := mapping
      cases rest with
      | nil => rfl
      | cons next rest =>
        rw [set?]
        cases found : Entries.lookup entries segment with
        | some w =>
          rw [put_of_lookup found, ih, Option.getD_some]
          cases set? new (next :: rest) w with
          | some after => rfl
          | none => simp [Entries.store_of_lookup found]
        | none =>
          obtain ⟨after, set⟩ := set?_empty new (next :: rest)
          rw [put_of_not_lookup found, ih, Option.getD_none, set]
          rfl
    · have other : ∀ entries, v ≠ .map entries := fun entries same => mapping ⟨entries, same⟩
      rw [put_of_not_map other, set?]
      exact other

/-! ### Laws -/

/-- Whether a value on the way to a place is something else than a mapping. -/
def Blocked (places : List Text) (v : Value) : Prop :=
  ∃ front back w, places = front ++ back ∧ back ≠ [] ∧ get? front v = some w ∧ ∀ entries, w ≠ .map entries

/-- Whether neither of two places lies on the way to the other. -/
def Apart (places others : List Text) : Prop := ¬ places <+: others ∧ ¬ others <+: places

theorem not_blocked_nil (v : Value) : ¬ Blocked [] v := by
  intro ⟨front, back, _, split, more, _⟩
  exact more (List.append_eq_nil_iff.mp split.symm).2

theorem get?_map_cons (entries : Entries Text Value) (segment : Text) (rest : List Text) :
    get? (segment :: rest) (.map entries) = (Entries.lookup entries segment).bind (get? rest) := by
  rw [get?]

/-- A mapping itself is not in the way, so what is in the way is below it. -/
theorem blocked_map_iff (entries : Entries Text Value) (segment : Text) (rest : List Text) :
    Blocked (segment :: rest) (.map entries) ↔ Blocked rest ((Entries.lookup entries segment).getD (.map [])) := by
  constructor
  · intro ⟨front, back, w, split, more, bound, other⟩
    cases front with
    | nil =>
      cases bound
      exact absurd rfl (other entries)
    | cons first front =>
      rw [List.cons_append, List.cons.injEq] at split
      obtain ⟨rfl, rfl⟩ := split
      rw [get?_map_cons] at bound
      obtain ⟨child, found, bound⟩ := Option.bind_eq_some_iff.mp bound
      rw [found]
      exact ⟨front, back, w, rfl, more, bound, other⟩
  · intro ⟨front, back, w, split, more, bound, other⟩
    cases found : Entries.lookup entries segment with
    | none =>
      -- below an empty mapping nothing is bound, and it is itself a mapping
      rw [found] at bound
      cases front with
      | nil =>
        cases bound
        exact absurd rfl (other [])
      | cons first front => cases bound
    | some child =>
      rw [found] at bound
      refine ⟨segment :: front, back, w, by rw [split, List.cons_append], more, ?_, other⟩
      rw [get?_map_cons, found]
      exact bound

/-- A place cannot be set exactly if something else than a mapping is in the way. -/
theorem set?_eq_none_iff (new : Value) (places : List Text) (v : Value) :
    set? new places v = none ↔ Blocked places v := by
  induction places generalizing v with
  | nil => simp [set?, not_blocked_nil]
  | cons segment rest ih =>
    by_cases mapping : ∃ entries, v = .map entries
    · obtain ⟨entries, rfl⟩ := mapping
      rw [set?, Option.map_eq_none_iff, ih, blocked_map_iff]
    · have other : ∀ entries, v ≠ .map entries := fun entries same => mapping ⟨entries, same⟩
      rw [set?]
      · exact iff_of_true rfl ⟨[], segment :: rest, v, rfl, List.cons_ne_nil _ _, rfl, other⟩
      · exact other

/-- What becomes of a mapping when a place below it is set. -/
theorem set?_eq_some {new after : Value} {segment : Text} {rest : List Text} {v : Value}
    (set : set? new (segment :: rest) v = some after) :
    ∃ entries child, v = .map entries ∧ set? new rest ((Entries.lookup entries segment).getD (.map [])) = some child ∧
      after = .map (Entries.store entries segment child) := by
  cases v with
  | map entries =>
    rw [set?] at set
    obtain ⟨child, below, rfl⟩ := Option.map_eq_some_iff.mp set
    exact ⟨entries, child, rfl, below, rfl⟩
  | _ => cases set

/-- A place that was set has its new value. -/
theorem get?_set? {new after : Value} {places : List Text} {v : Value} (set : set? new places v = some after) :
    get? places after = some new := by
  induction places generalizing v after with
  | nil =>
    cases set
    rfl
  | cons segment rest ih =>
    obtain ⟨entries, child, rfl, below, rfl⟩ := set?_eq_some set
    rw [get?_map_cons, Entries.lookup_store, Option.bind_some, ih below]

/-- A place apart from the one that was set has the value it had. -/
theorem get?_set?_of_apart {new after : Value} {places others : List Text} {v : Value}
    (set : set? new places v = some after) (apart : Apart places others) : get? others after = get? others v := by
  induction places generalizing v after others with
  | nil => exact absurd List.nil_prefix apart.1
  | cons segment rest ih =>
    obtain ⟨entries, child, rfl, below, rfl⟩ := set?_eq_some set
    cases others with
    | nil => exact absurd List.nil_prefix apart.2
    | cons other others =>
      rw [get?_map_cons, get?_map_cons]
      by_cases same : other = segment
      · subst same
        have inner : Apart rest others := by
          simpa only [Apart, List.cons_prefix_cons, true_and] using apart
        rw [Entries.lookup_store, Option.bind_some, ih below inner]
        cases Entries.lookup entries other with
        | some _ => rfl
        | none =>
          -- a mapping that was put there binds nothing but what lies on the way
          cases others with
          | nil => exact absurd List.nil_prefix inner.2
          | cons _ _ => rfl
      · rw [Entries.lookup_store_of_ne entries same]

/-- Setting a key is refused exactly if something else than a mapping is in the way, and then changes nothing, whatever
was gone through and looked for until then. Otherwise the key has its new value, and keys that lie apart from it have
the values they had. -/
theorem setting_laws (s : Settings) (key : Text) (v : Value) :
    (Blocked (segments key) s.tree ∧ s.setting key v = (.error .badPlace, s) ∧ s.set key v = .error .badPlace) ∨
    (¬ Blocked (segments key) s.tree ∧ ∃ after, s.setting key v = (.ok (), after) ∧ s.set key v = .ok after ∧
      (∀ default, after.get key default = v) ∧
      ∀ other, Apart (segments key) (segments other) → ∀ default, after.get other default = s.get other default) := by
  rw [setting, put_eq, Settings.set, ← set?_eq_none_iff v]
  cases changed : set? v (segments key) s.tree with
  | none => exact .inl ⟨rfl, rfl, rfl⟩
  | some tree =>
    refine .inr ⟨nofun, { s with tree := tree }, rfl, rfl, ?_, ?_⟩
    · intro default
      rw [Settings.get, get?_set? changed, Option.getD_some]
    · intro other apart default
      rw [Settings.get, Settings.get, get?_set?_of_apart changed apart]

end Settings

end Gherkin
