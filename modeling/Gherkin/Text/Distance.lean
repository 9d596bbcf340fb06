import Gherkin.Text.Basic

/-! # Edit distance

The least number of insertions, deletions and substitutions of single characters between two texts,
computed row by row. -/

namespace Gherkin

/-- The rest of a row: `diagonal` is the entry above the last one, `left` the last one, and `above` the
entries of the row above that are still to come. -/
def distanceRowFrom (c : Char) : Nat → Nat → List Nat → Text → List Nat
  | diagonal, left, up :: above, d :: rest =>
      let entry := min (min (up + 1) (left + 1)) (diagonal + if c = d then 0 else 1)
      entry :: distanceRowFrom c up entry above rest
  | _, _, _, _ => []

/-- The row for one more character of the first text; it starts with the length of that text so far. -/
def distanceRow (c : Char) (above : List Nat) (t : Text) : List Nat :=
  match above with
  | [] => []
  | first :: rest => (first + 1) :: distanceRowFrom c first (first + 1) rest t

/-- The last row for two texts. -/
def distanceRows (t : Text) : Text → List Nat → List Nat
  | [], row => row
  | c :: rest, row => distanceRows t rest (distanceRow c row t)

/-- The edit distance of two texts; the longer one gives the rows. -/
def editDistance (a b : Text) : Nat :=
  let (long, short) := if a.length < b.length then (b, a) else (a, b)
  ((distanceRows short long (List.range (short.length + 1))).getLast?).getD 0

end Gherkin
