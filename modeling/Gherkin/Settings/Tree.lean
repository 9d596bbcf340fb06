import Gherkin.Value.Basic

/-! # Trees of settings

Settings are nested mappings. A key names a place in them by its segments, which are joined by dots. -/

namespace Gherkin.Settings

/-- The segments of a key. -/
def segments (key : Text) : List Text := Text.splitAtChar '.' key

/-- The value at a place. -/
def get? : List Text → Value → Option Value
  | [], v => some v
  | segment :: rest, .map entries => (Entries.lookup entries segment).bind (get? rest)
  | _ :: _, _ => none

/-- Sets the value at a place, with new mappings on the way to it where there is nothing. None if there
is something else than a mapping on the way. -/
def set? (new : Value) : List Text → Value → Option Value
  | [], _ => some new
  | segment :: rest, .map entries =>
      (set? new rest ((Entries.lookup entries segment).getD (.map []))).map fun v =>
        .map (Entries.store entries segment v)
  | _ :: _, _ => none

/-- Sets the entries of one mapping in another. -/
def update (new old : Entries Text Value) : Entries Text Value :=
  new.foldl (fun entries (key, v) => entries.store key v) old

/-- Lays loaded sections over others: a mapping is laid over a mapping entry by entry, and anything else
takes the place of what was there. -/
def layer (loaded base : Entries Text Value) : Entries Text Value :=
  loaded.foldl (fun entries (name, v) =>
    entries.store name (match v, entries.lookup name with
      | .map new, some (.map old) => .map (update new old)
      | v, _ => v)) base

end Gherkin.Settings
