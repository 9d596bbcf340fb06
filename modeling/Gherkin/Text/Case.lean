import Gherkin.Text.Basic
import Gherkin.Text.CaseTable

/-! # Small and capital letters

The full case mappings of texts, which may change the length, and the single-character mapping under
which a pattern compares letters without regard to case. -/

namespace Gherkin

/-- The small form of one character, as one character. -/
def toSmall (c : Char) : Char :=
  if c.toNat < 128 then c.toLower
  else match lowerRuns.find? (·.covers c.toNat) with
    | some run => Char.ofNat ((c.toNat : Int) + run.offset).toNat
    | none => c

/-- The capital form of a character, which may be longer than one character. -/
def toCapitals (c : Char) : Text :=
  if c.toNat < 128 then [c.toUpper]
  else match upperExpansions.find? (·.1 == c.toNat) with
    | some (_, expansion) => expansion.map Char.ofNat
    | none => match upperRuns.find? (·.covers c.toNat) with
      | some run => [Char.ofNat ((c.toNat : Int) + run.offset).toNat]
      | none => [c]

namespace Text

/-- Whether the nearest character that is not ignored has a case. -/
def startsCased (t : Text) : Bool :=
  match t.dropWhile (inRanges caseIgnorableRanges) with
  | [] => false
  | c :: _ => inRanges casedRanges c

/-- The small forms of a text; `before` holds the characters already passed, last one first. A capital
sigma becomes a final sigma after a letter that has case when no such letter follows. -/
def lowerFrom : Text → Text → Text
  | _, [] => []
  | before, c :: rest =>
      (if c = 'Σ' then if startsCased before && !startsCased rest then ['ς'] else ['σ']
        else if c = 'İ' then ['i', '\u0307']
        else [toSmall c]) ++ lowerFrom (c :: before) rest

/-- The text in small letters. -/
def lower (t : Text) : Text := lowerFrom [] t

/-- The text in capital letters. -/
def upper (t : Text) : Text := t.flatMap toCapitals

end Text

end Gherkin
