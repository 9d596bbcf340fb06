import Gherkin.Document.Mark
import Gherkin.Proofs.Text.Splitting

/-! # Tags are read as they were written

Tag names hold no white space and no number sign, so the tags on a line are found again
(`Gherkin.tagTokens_joinWith`).
-/

namespace Gherkin

/-- The code points of white space. -/
def blankCodes : List Nat := [
  9, 10, 11, 12, 13, 28, 29, 30, 31, 32, 0x85, 0xA0, 0x1680, 0x2000, 0x2001, 0x2002, 0x2003, 0x2004, 0x2005,
  0x2006, 0x2007, 0x2008, 0x2009, 0x200A, 0x2028, 0x2029, 0x202F, 0x205F, 0x3000]

theorem mem_blankCodes {c : Char} (blank : isBlank c = true) : c.toNat ∈ blankCodes := by
  simp only [isBlank, Bool.or_eq_true, Bool.and_eq_true, decide_eq_true_eq, beq_iff_eq] at blank
  simp only [blankCodes, List.mem_cons, List.not_mem_nil, or_false]
  omega

theorem isTagChar_of_isBlank {c : Char} (blank : isBlank c = true) : isTagChar c = false := by
  have all : ∀ n ∈ blankCodes, isTagChar (Char.ofNat n) = false := by decide +kernel
  rw [← Char.ofNat_toNat c]
  exact all _ (mem_blankCodes blank)

theorem isBlank_of_isTagChar {c : Char} (named : isTagChar c = true) : isBlank c = false := by
  cases blank : isBlank c with
  | false => rfl
  | true =>
    rw [isTagChar_of_isBlank blank] at named
    cases named

/-- A tag name is an at sign and other characters than white space. -/
theorem of_isTagName {tag : Text} (named : isTagName tag = true) :
    (∃ name, tag = '@' :: name) ∧ ∀ c ∈ tag, isBlank c = false := by
  unfold isTagName at named
  split at named
  · rename_i name
    obtain ⟨_, chars⟩ := Bool.and_eq_true_iff.mp named
    refine ⟨⟨name, rfl⟩, List.forall_mem_cons.mpr ⟨by decide, fun c member => ?_⟩⟩
    exact isBlank_of_isTagChar (List.all_eq_true.mp chars c member)
  · cases named

section Lines

variable {tags : List Text} (named : ∀ tag ∈ tags, isTagName tag = true)

include named

/-- The tags on a line are found again. -/
theorem tagTokens_joinWith : tagTokens (Text.joinWith [' '] tags) = tags := by
  have words : Text.words (Text.joinWith [' '] tags) = tags := by
    apply Text.words_joinWith
    intro tag member
    obtain ⟨⟨name, same⟩, solid⟩ := of_isTagName (named tag member)
    exact ⟨by rw [same]; exact List.cons_ne_nil _ _, solid⟩
  have plain : ∀ tag ∈ tags, (tag.head? != some '#') = true := by
    intro tag member
    obtain ⟨⟨name, rfl⟩, _⟩ := of_isTagName (named tag member)
    rfl
  have all : (tags ++ []).takeWhile (fun token => token.head? != some '#') = tags ++ [].takeWhile _ :=
    List.takeWhile_append_of_pos plain
  rw [tagTokens, words]
  simpa using all

theorem head_joinWith_tags (nonempty : tags ≠ []) : (Text.joinWith [' '] tags).head? = some '@' := by
  cases tags with
  | nil => exact absurd rfl nonempty
  | cons tag rest =>
    obtain ⟨⟨name, rfl⟩, _⟩ := of_isTagName (named tag List.mem_cons_self)
    cases rest <;> rfl

theorem lineFeed_notMem_tags : '\n' ∉ Text.joinWith [' '] tags := by
  intro member
  obtain space | ⟨tag, among, inside⟩ := Text.mem_joinWith member
  · revert space
    decide
  · have solid := (of_isTagName (named tag among)).2 _ inside
    revert solid
    decide

theorem trimmed_tags : Text.Trimmed isBlank (Text.joinWith [' '] tags) := by
  constructor
  · intro c first
    by_cases nonempty : tags = []
    · rw [nonempty] at first
      cases first
    · rw [head_joinWith_tags named nonempty] at first
      cases first
      decide
  · intro c last
    have nonempty : ∀ tag ∈ tags, tag ≠ [] := by
      intro tag member
      obtain ⟨⟨name, rfl⟩, _⟩ := of_isTagName (named tag member)
      exact List.cons_ne_nil _ _
    obtain ⟨tag, among, inside⟩ := Text.mem_of_getLast?_joinWith nonempty c last
    exact (of_isTagName (named tag among)).2 c inside

end Lines

end Gherkin
