/-! # Entries

A mapping as the list of its keys with their values, in the order in which the keys were first set. -/

namespace Gherkin

/-- Keys with their values, in the order in which the keys were first set. -/
abbrev Entries (κ α : Type) := List (κ × α)

namespace Entries

variable {κ α : Type} [DecidableEq κ]

/-- The value stored under a key. -/
def lookup : Entries κ α → κ → Option α
  | [], _ => none
  | (k, v) :: rest, key => if k = key then some v else lookup rest key

/-- Stores a value under a key, in the place of the key if it is there and at the end otherwise. -/
def store : Entries κ α → κ → α → Entries κ α
  | [], key, value => [(key, value)]
  | (k, v) :: rest, key, value => if k = key then (k, value) :: rest else (k, v) :: store rest key value

theorem lookup_store (entries : Entries κ α) (key : κ) (v : α) :
    lookup (store entries key v) key = some v := by
  induction entries with
  | nil => simp [store, lookup]
  | cons entry rest ih =>
    by_cases h : entry.1 = key
    · simp [store, lookup, h]
    · simp [store, lookup, h, ih]

/-- Storing under one key leaves the others alone. -/
theorem lookup_store_of_ne (entries : Entries κ α) {key other : κ} (h : other ≠ key) (v : α) :
    lookup (store entries key v) other = lookup entries other := by
  induction entries with
  | nil => simp [store, lookup, Ne.symm h]
  | cons entry rest ih =>
    by_cases same : entry.1 = key
    · simp [store, lookup, same, Ne.symm h]
    · simp [store, lookup, same, ih]

/-- A key that is there keeps its place, and a new one comes last. -/
theorem keys_store (entries : Entries κ α) (key : κ) (v : α) :
    (store entries key v).map Prod.fst =
      if key ∈ entries.map Prod.fst then entries.map Prod.fst else entries.map Prod.fst ++ [key] := by
  induction entries with
  | nil => simp [store]
  | cons entry rest ih =>
    by_cases same : entry.1 = key
    · simp [store, same]
    · by_cases h : key ∈ rest.map Prod.fst <;> simp_all [store, Ne.symm same]

end Entries

end Gherkin
