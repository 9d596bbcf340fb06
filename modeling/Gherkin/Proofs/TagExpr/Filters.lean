import Gherkin.Proofs.TagExpr.Canonical
import Gherkin.TagExpr.Filter

/-! # Ways to test tags

A filter that is one tag is tested without being read as an expression. Testing a text, reading it as a filter, and
reading it as an expression give the same answer or the same error (`Gherkin.tagsMatch_eq_matchesTags`): a text
that passes for one tag is cut into that tag and read as it, and nothing depends on the white space around a text.
-/

namespace Gherkin

open TagExpr

theorem trim_trim (t : Text) : Text.trim (Text.trim t) = Text.trim t :=
  Text.trimBy_of_trimmed (Text.trimmed_trimBy t)

theorem isSingleTag_trim (t : Text) : isSingleTag (Text.trim t) = isSingleTag t := by
  rw [isSingleTag, trim_trim, isSingleTag]

theorem TagExpr.parse_trim (t : Text) : parse (Text.trim t) = parse t := by
  rw [parse, trim_trim, parse]

/-- A text that is one tag is cut into that tag. -/
theorem tokenize_of_isSingleTag {t : Text} (single : isSingleTag t = true) :
    tokenize (Text.trim t) = .ok [⟨.tag, Text.trim t, 0⟩, .atEnd (Text.trim t)] :=
  (cutAt_tag single 0).tokenize

/-- A text that is one tag is read as that tag. -/
theorem parse_of_isSingleTag {t : Text} (single : isSingleTag t = true) : parse t = .ok (.tag (Text.trim t)) := by
  have nonempty : Text.trim t ≠ [] := text_ne_nil (named_tag.mpr single)
  have written : Derives .primary [⟨.tag, Text.trim t, 0⟩] (.tag (Text.trim t)) := @Derives.tag ⟨_, _, _⟩ rfl
  exact parse_of_tokenize nonempty (tokenize_of_isSingleTag single) (.conjunction (.negation (.primary written)))

/-- A filter holds the expression that its text is read as. -/
theorem TagFilter.ofText_eq (t : Text) : ofText t = (parse t).map fun e => ⟨Text.trim t, e⟩ := by
  simp only [ofText, isSingleTag_trim, parse_trim]
  split
  · rename_i single
    rw [parse_of_isSingleTag single]
    rfl
  · cases parse t <;> rfl

/-- Testing a text by itself, through a filter and as an expression is all the same, and a text that passes for one
tag is cut into that tag and read as it. -/
theorem tagsMatch_eq_matchesTags (t : Text) (tags : List Text) :
    tagsMatch t tags = matchesTags t tags ∧
    (TagFilter.ofText t).map (·.holds tags) = matchesTags t tags ∧
    (isSingleTag t = true →
      tokenize (Text.trim t) = .ok [⟨.tag, Text.trim t, 0⟩, .atEnd (Text.trim t)] ∧
      parse t = .ok (.tag (Text.trim t))) := by
  refine ⟨?_, ?_, fun single => ⟨tokenize_of_isSingleTag single, parse_of_isSingleTag single⟩⟩
  · rw [tagsMatch]
    split
    · rename_i single
      rw [matchesTags, parse_of_isSingleTag single]
      rfl
    · rfl
  · rw [TagFilter.ofText_eq, matchesTags]
    cases parse t <;> rfl

theorem tagsMatch_eq_matchesTags_not :
    tagsMatch "\t@not-É " ["@a", "@not-É"] = matchesTags "\t@not-É " ["@a", "@not-É"] ∧
      parse "\t@not-É " = .ok (.tag "@not-É") := by
  have agree := tagsMatch_eq_matchesTags "\t@not-É " ["@a", "@not-É"]
  exact ⟨agree.1, (agree.2.2 (by decide)).2⟩

end Gherkin
