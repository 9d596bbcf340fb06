import Gherkin.Proofs.Document.RoundTrip

/-! # Doc strings between their fences

A doc string that is written between its fences is closed by its own last line, whatever it holds, and is read
with its fence and media type. Its content comes back exactly if no line of it holds an escaped fence that does
not run on into a fence (`Gherkin.DocString.toLines_reads_back`).
-/

namespace Gherkin

/-- The doc string that some lines right behind a step are read as; the first of them has a number. -/
def docStringBehind (d : Dialect) (inScenario nested : Bool) (first : Nat) (lines : List Text) : Option DocString :=
  (stepsBelow (numberFrom first (marksFrom d (.within (.argument inScenario nested)) lines))).doc

namespace DocString

variable {d : Dialect} {doc : DocString}

/-- The marks of a doc string but for the last do not close it. -/
theorem closeDoc_notMem_marks (indent : Nat) (doc : DocString) :
    ∃ front, doc.marks indent = front ++ [.closeDoc] ∧ .closeDoc ∉ front := by
  refine ⟨_, (List.cons_append ..).symm, ?_⟩
  intro member
  rcases List.mem_cons.mp member with opening | content
  · cases opening
  · obtain ⟨line, _, same⟩ := List.mem_map.mp content
    cases same

theorem length_marks (indent : Nat) (doc : DocString) :
    (doc.marks indent).length = (doc.toLines (Text.spaces indent)).length := by
  rw [marks, toLines_eq]
  simp

/-- A doc string that can be written is read behind a step with what is read from its lines. -/
theorem Writable.docStringBehind (writable : doc.Writable) (inScenario nested : Bool) (indent first : Nat)
    (behind : List Text) :
    Gherkin.docStringBehind d inScenario nested first (doc.toLines (Text.spaces indent) ++ behind) =
      some { doc with content := doc.readContent, line := first } := by
  rw [Gherkin.docStringBehind, writable.reads inScenario nested indent behind, numberFrom_append, stepsBelow_doc]

theorem forall_contentLines {P : Text → Prop} (empty : P []) :
    (∀ line ∈ doc.contentLines, P line) ↔ ∀ line ∈ Text.splitAtChar '\n' doc.content, P line := by
  rw [contentLines]
  split
  · rename_i blank
    rw [List.isEmpty_iff.mp blank]
    simpa [Text.splitAtChar] using empty
  · rfl

/-- The lines that write a doc string are lines of a text. Read behind any step, the last of them is the one
that closes the doc string, and reading goes on behind it; the fence and the media type come back. The content
comes back exactly if in its lines every escaped fence is followed by two more characters of the fence. -/
theorem toLines_reads_back (doc : DocString) (level : Int) (plain : '\r' ∉ doc.content)
    (media : ∀ type ∈ doc.mediaType, type ≠ [] ∧ Text.Trimmed isBlank type ∧ '\n' ∉ type) :
    Text.lines (printLines (doc.toLines (indentation level))) = doc.toLines (indentation level) ++ [[]] ∧
    ∃ content,
      (content = doc.content ↔ ∀ line ∈ Text.splitAtChar '\n' doc.content, doc.fence.Kept line) ∧
      ∀ (d : Dialect) (inScenario nested : Bool) (first : Nat) (behind : List Text),
        (∃ front,
          marksFrom d (.within (.argument inScenario nested)) (doc.toLines (indentation level) ++ behind) =
            front ++ .closeDoc :: marksFrom d (.within (.steps inScenario nested)) behind ∧
          front.length + 1 = (doc.toLines (indentation level)).length ∧ .closeDoc ∉ front) ∧
        docStringBehind d inScenario nested first (doc.toLines (indentation level) ++ behind) =
          some { doc with content := content, line := first } := by
  have writable : doc.Writable := ⟨plain, media⟩
  have empty : doc.fence.Kept [] := by
    intro before rest same
    rw [Fence.escaped_eq] at same
    simp at same
  refine ⟨Text.lines_printLines (writable.isLine level), doc.readContent, ?_, ?_⟩
  · exact doc.readContent_eq_iff.trans (forall_contentLines empty)
  · intro d inScenario nested first behind
    refine ⟨?_, writable.docStringBehind inScenario nested _ first behind⟩
    obtain ⟨front, marks, open_⟩ := doc.closeDoc_notMem_marks (2 * level.toNat)
    refine ⟨front, ?_, ?_, open_⟩
    · rw [indentation, writable.reads inScenario nested _ behind, marks, List.append_assoc, List.singleton_append]
    · rw [indentation, ← length_marks, marks, List.length_append, List.length_singleton]

/-- A doc string with an escaped fence on its second line that does not run on into a fence. -/
def quoting : DocString := ⟨"a\n  \\\"\\\"\\\"x", some "a b", .quotes, 1⟩

/-- The escaped fence is read back as a fence, so the content has changed; the media type has not. -/
theorem toLines_reads_back_changed :
    '\r' ∉ quoting.content ∧
    (∀ type ∈ quoting.mediaType, type ≠ [] ∧ Text.Trimmed isBlank type ∧ '\n' ∉ type) ∧
    ∃ content, content ≠ quoting.content ∧
      docStringBehind .english true false 4 (quoting.toLines (indentation 2)) =
        some ⟨content, some "a b", .quotes, 4⟩ := by
  have plain : '\r' ∉ quoting.content := by decide
  have media : ∀ type ∈ quoting.mediaType, type ≠ [] ∧ Text.Trimmed isBlank type ∧ '\n' ∉ type := by
    intro type given
    obtain rfl := Option.some.inj given
    refine ⟨by decide, ⟨?_, ?_⟩, by decide⟩
    · rintro c ⟨⟩
      rfl
    · rintro c ⟨⟩
      rfl
  obtain ⟨_, content, same, reads⟩ := toLines_reads_back quoting 2 plain media
  refine ⟨plain, media, content, ?_, ?_⟩
  · intro unchanged
    have kept := same.mp unchanged "  \\\"\\\"\\\"x" (by decide)
    obtain ⟨more, onwards⟩ := kept "  " "x" rfl
    simp at onwards
  · have read := (reads .english true false 4 []).2
    rw [List.append_nil] at read
    exact read

end DocString

end Gherkin
