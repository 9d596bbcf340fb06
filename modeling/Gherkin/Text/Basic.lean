/-! # Texts

A text is the list of its code points, so lengths, columns and positions count code points. This module
holds the operations that take texts apart and put them together: trimming, cutting at a character,
lines, and replacing one text by another. -/

namespace Gherkin

/-- A text, as the list of its code points. -/
abbrev Text := List Char

instance : Coe String Text := ⟨String.toList⟩

/-- Whether a character lies in one of some closed ranges of code points. -/
def inRanges (ranges : List (Nat × Nat)) (c : Char) : Bool :=
  ranges.any fun range => range.1 ≤ c.toNat && c.toNat ≤ range.2

namespace Text

variable (p : Char → Bool)

/-- Removes the characters of a class from the front. -/
def trimLeftBy (t : Text) : Text := t.dropWhile p

/-- Removes the characters of a class from the end. -/
def trimRightBy (t : Text) : Text := (t.reverse.dropWhile p).reverse

/-- Removes the characters of a class from both ends. -/
def trimBy (t : Text) : Text := trimRightBy p (trimLeftBy p t)

/-- Puts a character in front of the first piece. -/
def consFirst (c : Char) : List Text → List Text
  | [] => [[c]]
  | first :: rest => (c :: first) :: rest

/-- The pieces between the occurrences of a character; always at least one. -/
def splitAtChar (sep : Char) : Text → List Text
  | [] => [[]]
  | c :: rest => if c = sep then [] :: splitAtChar sep rest else consFirst c (splitAtChar sep rest)

/-- The lines of a text. A line ends at a line feed, together with a carriage return right before it;
a carriage return anywhere else belongs to its line. -/
def lines : Text → List Text
  | [] => [[]]
  | '\r' :: '\n' :: rest => [] :: lines rest
  | '\n' :: rest => [] :: lines rest
  | c :: rest => consFirst c (lines rest)

/-- The texts one after another with a separator between them. -/
def joinWith (sep : Text) : List Text → Text
  | [] => []
  | [t] => t
  | t :: u :: rest => t ++ sep ++ joinWith sep (u :: rest)

/-- The rest of the text after a prefix, if it starts with it. -/
def afterPrefix? : Text → Text → Option Text
  | [], t => some t
  | _ :: _, [] => none
  | c :: p, d :: t => if c = d then afterPrefix? p t else none

/-- Replaces, from the left, the occurrences of `old` that do not overlap; `skip` characters of the
last one are still to be passed over. -/
def replaceFrom (old new : Text) : Nat → Text → Text
  | _, [] => []
  | skip + 1, _ :: rest => replaceFrom old new skip rest
  | 0, c :: rest =>
      if old.isPrefixOf (c :: rest) then new ++ replaceFrom old new (old.length - 1) rest
      else c :: replaceFrom old new 0 rest

/-- Replaces, from the left, the occurrences of a nonempty text that do not overlap. -/
def replace (old new t : Text) : Text := replaceFrom old new 0 t

/-- Replaces every occurrence of a character by a text. -/
def replaceChar (old : Char) (new : Text) (t : Text) : Text :=
  t.flatMap fun c => if c = old then new else [c]

/-- Fills a text up with spaces on the right. -/
def padRight (width : Nat) (t : Text) : Text := t ++ List.replicate (width - t.length) ' '

/-- A number of spaces. -/
def spaces (n : Nat) : Text := List.replicate n ' '

/-- The decimal digits of a natural number. -/
def ofNat (n : Nat) : Text := Nat.toDigits 10 n

/-- The decimal digits of an integer, after a minus sign if it is negative. -/
def ofInt : Int → Text
  | .ofNat n => ofNat n
  | .negSucc n => '-' :: ofNat (n + 1)

end Text

theorem Text.splitAtChar_ne_nil (sep : Char) (t : Text) : Text.splitAtChar sep t ≠ [] := by
  induction t with
  | nil => simp [Text.splitAtChar]
  | cons c rest ih =>
    by_cases h : c = sep
    · simp [Text.splitAtChar, h]
    · cases hs : Text.splitAtChar sep rest <;> simp_all [Text.splitAtChar, Text.consFirst]

theorem Text.joinWith_splitAtChar (sep : Char) (t : Text) : joinWith [sep] (splitAtChar sep t) = t := by
  induction t with
  | nil => rfl
  | cons c rest ih =>
    cases pieces : splitAtChar sep rest with
    | nil => exact absurd pieces (splitAtChar_ne_nil sep rest)
    | cons first others =>
      rw [pieces] at ih
      by_cases h : c = sep
      · simp [splitAtChar, h, pieces, joinWith, ih]
      · cases others <;> simp_all [splitAtChar, consFirst, joinWith]

end Gherkin
