import Gherkin.Proofs.Text.Splitting

/-! # Doc strings are read as they were written

Inside a doc string its fence is written with backslashes. Reading replaces every such escape by the fence,
and writing puts the escapes back; the lines that reading gives are those for which writing and reading
again changes nothing (`Gherkin.Fence.unescape_escape_iff`).
-/

namespace Gherkin

namespace Text

variable {old new : Text}

/-- Characters that are skipped might as well not be there. -/
private theorem replaceFrom_eq_drop (skip : Nat) (t : Text) :
    replaceFrom old new skip t = replace old new (t.drop skip) := by
  induction skip generalizing t with
  | zero => rfl
  | succ skip ih =>
    cases t with
    | nil => simp [replaceFrom, replace]
    | cons c rest => rw [replaceFrom, ih, List.drop_succ_cons]

/-- Where the text that is replaced stands in front, it is replaced. -/
theorem replace_append (some : old ≠ []) (t : Text) :
    replace old new (old ++ t) = new ++ replace old new t := by
  cases old with
  | nil => exact absurd rfl some
  | cons c rest =>
    have found : (c :: rest).isPrefixOf (c :: (rest ++ t)) = true := by simp
    rw [replace, List.cons_append, replaceFrom, if_pos found, replaceFrom_eq_drop]
    simp

theorem replace_cons {c : Char} {t : Text} (absent : ¬ old <+: c :: t) :
    replace old new (c :: t) = c :: replace old new t := by
  have missing : ¬ old.isPrefixOf (c :: t) = true := fun found => absent (List.isPrefixOf_iff_prefix.mp found)
  rw [replace, replaceFrom, if_neg missing]
  rfl

theorem mem_replace {t : Text} {c : Char} (member : c ∈ replace old new t) : c ∈ t ∨ c ∈ new := by
  rw [replace] at member
  generalize 0 = skip at member
  induction t generalizing skip with
  | nil => cases skip <;> cases member
  | cons d rest ih =>
    cases skip with
    | succ skip => exact (ih skip member).imp (List.mem_cons_of_mem _) id
    | zero =>
      rw [replaceFrom] at member
      split at member
      · obtain inNew | later := List.mem_append.mp member
        · exact .inr inNew
        · exact (ih _ later).imp (List.mem_cons_of_mem _) id
      · obtain rfl | later := List.mem_cons.mp member
        · exact .inl List.mem_cons_self
        · exact (ih _ later).imp (List.mem_cons_of_mem _) id

end Text

namespace Fence

/-- The character of a fence. -/
def char : Fence → Char
  | .quotes => '"'
  | .backticks => '\x60'

variable (f : Fence)

theorem text_eq : f.text = [f.char, f.char, f.char] := by cases f <;> rfl

theorem escaped_eq : f.escaped = ['\\', f.char, '\\', f.char, '\\', f.char] := by cases f <;> rfl

theorem char_ne_backslash : f.char ≠ '\\' := by cases f <;> decide

/-- A line of a doc string as its fence is written. -/
def escape (line : Text) : Text := Text.replace f.text f.escaped line

/-- A line of a doc string as its fence is read. -/
def unescape (line : Text) : Text := Text.replace f.escaped f.text line

/-- Whether every escaped fence in a line runs on into a fence. Such lines are those that reading gives. -/
def Kept (line : Text) : Prop :=
  ∀ before rest, line = before ++ f.escaped ++ rest → ∃ more, rest = f.char :: f.char :: more

variable {f}

theorem Kept.tail {c : Char} {line : Text} (kept : f.Kept (c :: line)) : f.Kept line := by
  intro before rest same
  exact kept (c :: before) rest (by rw [same, List.cons_append, List.cons_append])

theorem Kept.drop {line : Text} (before : Text) (kept : f.Kept (before ++ line)) : f.Kept line := by
  induction before with
  | nil => exact kept
  | cons c rest ih => exact ih kept.tail

/-! ### Escaping -/

theorem escape_text (line : Text) : f.escape (f.text ++ line) = f.escaped ++ f.escape line :=
  Text.replace_append (by simp [text_eq]) line

theorem escape_cons {c : Char} {line : Text} (absent : ¬ f.text <+: c :: line) :
    f.escape (c :: line) = c :: f.escape line := Text.replace_cons absent

theorem unescape_escaped (line : Text) : f.unescape (f.escaped ++ line) = f.text ++ f.unescape line :=
  Text.replace_append (by simp [escaped_eq]) line

theorem unescape_cons {c : Char} {line : Text} (absent : ¬ f.escaped <+: c :: line) :
    f.unescape (c :: line) = c :: f.unescape line := Text.replace_cons absent

/-- An escaped line that starts with the fence's character comes from one that does and is no fence. -/
private theorem escape_eq_char {line rest : Text} (same : f.escape line = f.char :: rest) :
    ∃ others, line = f.char :: others ∧ f.escape others = rest ∧ ¬ f.text <+: line := by
  cases line with
  | nil => cases same
  | cons c others =>
    by_cases starts : f.text <+: c :: others
    · obtain ⟨more, split⟩ := starts
      rw [← split, escape_text, escaped_eq] at same
      exact absurd (List.cons.inj same).1.symm f.char_ne_backslash
    · rw [escape_cons starts] at same
      obtain ⟨rfl, rfl⟩ := List.cons.inj same
      exact ⟨others, rfl, rfl, starts⟩

/-- An escaped line that starts with a backslash comes from one that does or from a fence. -/
private theorem escape_eq_backslash {line rest : Text} (same : f.escape line = '\\' :: rest) :
    (∃ others, line = '\\' :: others ∧ f.escape others = rest) ∨ f.text <+: line := by
  cases line with
  | nil => cases same
  | cons c others =>
    by_cases starts : f.text <+: c :: others
    · exact .inr starts
    · rw [escape_cons starts] at same
      obtain ⟨rfl, rfl⟩ := List.cons.inj same
      exact .inl ⟨others, rfl, rfl⟩

/-- A character of the fence that is no start of a fence is not followed by a fence either. -/
private theorem text_notBefore_tail {line : Text} (absent : ¬ f.text <+: f.char :: line) : ¬ f.text <+: line := by
  rintro ⟨more, rfl⟩
  apply absent
  rw [text_eq]
  exact ⟨f.char :: more, rfl⟩

/-- In a line that reading gives, escaping makes an escaped fence only out of a fence. -/
private theorem escaped_notBefore_tail {c : Char} {line : Text} (kept : f.Kept (c :: line)) :
    ¬ f.escaped <+: c :: f.escape line := by
  rintro ⟨rest, same⟩
  rw [escaped_eq] at same
  obtain ⟨rfl, first⟩ := List.cons.inj same
  obtain ⟨line₁, rfl, second, absent₁⟩ := escape_eq_char first.symm
  obtain ⟨line₂, rfl, third⟩ | fence := escape_eq_backslash second
  · obtain ⟨line₃, rfl, fourth, absent₃⟩ := escape_eq_char third
    obtain ⟨line₄, rfl, fifth⟩ | fence := escape_eq_backslash fourth
    · obtain ⟨line₅, rfl, _, absent₅⟩ := escape_eq_char fifth
      obtain ⟨more, rfl⟩ := kept [] line₅ (by rw [escaped_eq]; rfl)
      exact absent₅ ⟨more, by rw [text_eq]; rfl⟩
    · exact text_notBefore_tail absent₃ fence
  · exact text_notBefore_tail absent₁ fence

/-- Writing a line that reading gives, and reading it again, gives the line. -/
theorem unescape_escape {line : Text} (kept : f.Kept line) : f.unescape (f.escape line) = line := by
  match line with
  | [] => rfl
  | c :: rest =>
    by_cases starts : f.text <+: c :: rest
    · obtain ⟨more, split⟩ := starts
      have shorter : more.length < (c :: rest).length := by
        rw [← split, text_eq]
        simp only [List.length_append, List.length_cons, List.length_nil]
        omega
      rw [← split] at kept ⊢
      rw [escape_text, unescape_escaped, unescape_escape (kept.drop _)]
    · rw [escape_cons starts, unescape_cons (escaped_notBefore_tail kept), unescape_escape kept.tail]
termination_by line.length
decreasing_by
  · exact shorter
  · exact Nat.lt_succ_self _

/-- What is read and starts with the fence's character is either that character or an escaped fence. -/
private theorem unescape_eq_char {line rest : Text} (same : f.unescape line = f.char :: rest) :
    (∃ others, line = f.char :: others ∧ f.unescape others = rest) ∨
      ∃ more, rest = f.char :: f.char :: more := by
  cases line with
  | nil => cases same
  | cons c others =>
    by_cases starts : f.escaped <+: c :: others
    · obtain ⟨more, split⟩ := starts
      rw [← split, unescape_escaped, text_eq] at same
      exact .inr ⟨_, (List.cons.inj same).2.symm⟩
    · rw [unescape_cons starts] at same
      obtain ⟨rfl, rfl⟩ := List.cons.inj same
      exact .inl ⟨others, rfl, rfl⟩

/-- A backslash in front after unescaping was there before and started no escaped fence. -/
private theorem unescape_eq_backslash {line rest : Text} (same : f.unescape line = '\\' :: rest) :
    ∃ others, line = '\\' :: others ∧ f.unescape others = rest ∧ ¬ f.escaped <+: line := by
  cases line with
  | nil => cases same
  | cons c others =>
    by_cases starts : f.escaped <+: c :: others
    · obtain ⟨more, split⟩ := starts
      rw [← split, unescape_escaped, text_eq] at same
      exact absurd (List.cons.inj same).1 f.char_ne_backslash
    · rw [unescape_cons starts] at same
      obtain ⟨rfl, rfl⟩ := List.cons.inj same
      exact ⟨others, rfl, rfl, starts⟩

/-- Unescaping leaves an escaped fence only in front of two more characters of the fence. -/
private theorem escaped_of_unescape {line rest : Text} (same : f.unescape line = f.escaped ++ rest) :
    ∃ more, rest = f.char :: f.char :: more := by
  rw [escaped_eq] at same
  have apart : ∀ {more : Text}, '\\' :: f.char :: rest ≠ f.char :: f.char :: more := fun same =>
    f.char_ne_backslash (List.cons.inj same).1.symm
  obtain ⟨line₁, rfl, first, absent⟩ := unescape_eq_backslash same
  obtain ⟨line₂, rfl, second⟩ | ⟨more, fence⟩ := unescape_eq_char first
  · obtain ⟨line₃, rfl, third, _⟩ := unescape_eq_backslash second
    obtain ⟨line₄, rfl, fourth⟩ | ⟨more, fence⟩ := unescape_eq_char third
    · obtain ⟨line₅, rfl, fifth, _⟩ := unescape_eq_backslash fourth
      obtain ⟨line₆, rfl, _⟩ | fence := unescape_eq_char fifth
      · exact absurd ⟨line₆, by rw [escaped_eq]; rfl⟩ absent
      · exact fence
    · exact absurd (List.cons.inj fence).1.symm f.char_ne_backslash
  · exact absurd (List.cons.inj fence).1.symm f.char_ne_backslash

/-- A fence in front of a line changes nothing about the escaped fences of the line. -/
private theorem Kept.text_append {line : Text} (kept : f.Kept line) : f.Kept (f.text ++ line) := by
  intro before rest same
  rw [text_eq, escaped_eq] at same
  match before with
  | [] => exact absurd (List.cons.inj same).1 f.char_ne_backslash
  | [_] => exact absurd (List.cons.inj (List.cons.inj same).2).1 f.char_ne_backslash
  | [_, _] => exact absurd (List.cons.inj (List.cons.inj (List.cons.inj same).2).2).1 f.char_ne_backslash
  | _ :: _ :: _ :: before =>
    apply kept before rest
    rw [escaped_eq]
    exact (List.cons.inj (List.cons.inj (List.cons.inj same).2).2).2

/-- Reading gives lines in which every escaped fence runs on into a fence. -/
theorem kept_unescape (line : Text) : f.Kept (f.unescape line) := by
  match line with
  | [] =>
    intro before rest same
    rw [escaped_eq] at same
    cases before <;> cases same
  | c :: others =>
    by_cases starts : f.escaped <+: c :: others
    · obtain ⟨more, split⟩ := starts
      have shorter : more.length < (c :: others).length := by
        rw [← split, escaped_eq]
        simp only [List.length_append, List.length_cons, List.length_nil]
        omega
      rw [← split, unescape_escaped]
      exact (kept_unescape more).text_append
    · intro before rest same
      cases before with
      | nil => exact escaped_of_unescape same
      | cons d before =>
        rw [unescape_cons starts] at same
        exact kept_unescape others before rest (List.cons.inj same).2
termination_by line.length
decreasing_by
  · exact shorter
  · exact Nat.lt_succ_self _

/-- Writing a line and reading it again gives the line exactly if every escaped fence in it runs on into a
fence. -/
theorem unescape_escape_iff (line : Text) : f.unescape (f.escape line) = line ↔ f.Kept line := by
  constructor
  · intro same
    rw [← same]
    exact kept_unescape _
  · exact unescape_escape

/-- Escaping and unescaping adds only characters of the fence and its escapes. -/
theorem mem_unescape_escape {line : Text} {c : Char} (member : c ∈ f.unescape (f.escape line)) :
    c ∈ line ∨ c ∈ f.escaped ∨ c ∈ f.text := by
  obtain inEscaped | inFence := Text.mem_replace member
  · obtain inLine | inEscape := Text.mem_replace inEscaped
    · exact .inl inLine
    · exact .inr (.inl inEscape)
  · exact .inr (.inr inFence)

/-- A line with its fences escaped holds a fence only next to a backslash. -/
theorem backslash_mem_escape {line before behind : Text}
    (same : f.escape line = before ++ f.text ++ behind) : '\\' ∈ f.escape line := by
  match line with
  | [] =>
    rw [text_eq] at same
    cases before <;> cases same
  | c :: others =>
    by_cases starts : f.text <+: c :: others
    · obtain ⟨more, split⟩ := starts
      rw [← split, escape_text, escaped_eq]
      exact List.mem_append_left _ List.mem_cons_self
    · rw [escape_cons starts] at same ⊢
      cases before with
      | cons d before => exact List.mem_cons_of_mem _ (backslash_mem_escape (List.cons.inj same).2)
      | nil =>
        rw [text_eq] at same
        obtain ⟨rfl, first⟩ := List.cons.inj same
        obtain ⟨others, rfl, second, _⟩ := escape_eq_char first
        obtain ⟨others, rfl, _, _⟩ := escape_eq_char second
        exact absurd ⟨others, by rw [text_eq]; rfl⟩ starts
termination_by line.length
decreasing_by exact Nat.lt_succ_self _

end Fence

/-! ### Lines of doc strings -/

/-- Indentation can be taken off again. -/
theorem deindent_spaces (n : Nat) (t : Text) : deindent n (Text.spaces n ++ t) = t := by
  induction n with
  | zero => cases t <;> rfl
  | succ n ih => exact ih

namespace DocString

theorem mem_deindent {n : Nat} {t : Text} {c : Char} (member : c ∈ deindent n t) : c ∈ t := by
  induction t generalizing n with
  | nil => cases n <;> cases member
  | cons d rest ih =>
    cases n with
    | zero => exact member
    | succ n =>
      rw [deindent] at member
      split at member
      · exact List.mem_cons_of_mem _ (ih member)
      · exact member

/-- The content of a doc string as lines; without content there are none. -/
def contentLines (d : DocString) : List Text :=
  if d.content.isEmpty then [] else Text.splitAtChar '\n' d.content

/-- A line of the content as it is written. -/
def writtenLine (indent : Nat) (fence : Fence) (line : Text) : Text :=
  if line.isEmpty then [] else Text.spaces indent ++ fence.escape line

/-- A doc string that can be written between fences: its lines are lines of a text, and its media type is one
that can stand behind a fence. -/
structure Writable (d : DocString) : Prop where
  plain : '\r' ∉ d.content
  mediaType : ∀ type ∈ d.mediaType, type ≠ [] ∧ Text.Trimmed isBlank type ∧ '\n' ∉ type

/-- A doc string that is read as it is written: its lines are such as reading gives, and its media type is
one that can stand behind a fence. -/
structure Printable (d : DocString) : Prop where
  content : ∃ lines, d.content = Text.joinWith ['\n'] lines ∧
    ∀ line ∈ lines, '\n' ∉ line ∧ '\r' ∉ line ∧ d.fence.Kept line
  mediaType : ∀ type ∈ d.mediaType, type ≠ [] ∧ Text.Trimmed isBlank type ∧ '\n' ∉ type

theorem Printable.writable {d : DocString} (printable : d.Printable) : d.Writable := by
  refine ⟨fun inside => ?_, printable.mediaType⟩
  obtain ⟨lines, same, plain⟩ := printable.content
  rw [same] at inside
  obtain between | ⟨line, member, inside⟩ := Text.mem_joinWith inside
  · simp at between
  · exact (plain line member).2.1 inside

/-- The lines of a doc string make up its content again. -/
theorem join_contentLines (d : DocString) : Text.joinWith ['\n'] d.contentLines = d.content := by
  rw [contentLines]
  split
  · rename_i empty
    exact (List.isEmpty_iff.mp empty).symm
  · exact Text.joinWith_splitAtChar '\n' d.content

theorem lineFeed_notMem_contentLines (d : DocString) : ∀ line ∈ d.contentLines, '\n' ∉ line := by
  rw [contentLines]
  split
  · exact List.forall_mem_nil _
  · intro line member
    exact Text.not_mem_of_mem_splitAtChar member

/-- The lines of a doc string that reads back are kept by escaping. -/
theorem Printable.kept {d : DocString} (printable : d.Printable) : ∀ line ∈ d.contentLines, d.fence.Kept line := by
  obtain ⟨lines, same, plain⟩ := printable.content
  rw [contentLines]
  split
  · exact List.forall_mem_nil _
  · rename_i some
    have several : lines ≠ [] := by
      rintro rfl
      exact some (by rw [same]; rfl)
    rw [same, Text.splitAtChar_joinWith several fun line member => (plain line member).1]
    exact fun line member => (plain line member).2.2

/-- A line is read without its indentation, escaped and unescaped. -/
theorem contentLine_writtenLine (fence : Fence) (indent : Nat) (line : Text) :
    contentLine fence indent (writtenLine indent fence line) = fence.unescape (fence.escape line) := by
  rw [writtenLine]
  split
  · rename_i empty
    rw [List.isEmpty_iff.mp empty]
    cases indent <;> rfl
  · rw [contentLine, deindent_spaces]
    rfl

/-- The content that is read from the lines that write a doc string. -/
def readContent (d : DocString) : Text :=
  Text.joinWith ['\n'] (d.contentLines.map fun line => d.fence.unescape (d.fence.escape line))

/-- The lines that are written have the content that is read. -/
theorem contentOf_writtenLines (d : DocString) (indent : Nat) :
    contentOf d.fence indent true (d.contentLines.map (writtenLine indent d.fence)) = d.readContent := by
  simp only [contentOf, if_true, List.map_map, Function.comp_def, contentLine_writtenLine, readContent]

/-- The content is read as it was written exactly if every escaped fence in its lines runs on into a fence. -/
theorem readContent_eq_iff (d : DocString) :
    d.readContent = d.content ↔ ∀ line ∈ d.contentLines, d.fence.Kept line := by
  have single : ∀ line ∈ d.contentLines, '\n' ∉ d.fence.unescape (d.fence.escape line) := by
    intro line member feed
    obtain inLine | inEscape | inFence := Fence.mem_unescape_escape feed
    · exact d.lineFeed_notMem_contentLines line member inLine
    · cases fence : d.fence <;> simp [fence, Fence.escaped, Fence.text] at inEscape
    · cases fence : d.fence <;> simp [fence, Fence.text] at inFence
  constructor
  · intro same line member
    have some : d.contentLines ≠ [] := List.ne_nil_of_mem member
    have pieces := congrArg (Text.splitAtChar '\n') (same.trans d.join_contentLines.symm)
    rw [readContent, Text.splitAtChar_joinWith (by simpa using some) (by simpa using single),
      Text.splitAtChar_joinWith some d.lineFeed_notMem_contentLines] at pieces
    rw [← Fence.unescape_escape_iff]
    exact List.map_inj_left.mp (pieces.trans (List.map_id _).symm) line member
  · intro kept
    have lines : (d.contentLines.map fun line => d.fence.unescape (d.fence.escape line)) = d.contentLines := by
      refine (List.map_congr_left fun line member => ?_).trans (List.map_id _)
      exact Fence.unescape_escape (kept line member)
    rw [readContent, lines, join_contentLines]

/-- What reads back is read with its own content. -/
theorem Printable.readContent {d : DocString} (printable : d.Printable) : d.readContent = d.content :=
  d.readContent_eq_iff.mpr printable.kept

/-- A written line of the content ends no doc string. -/
theorem trim_writtenLine (indent : Nat) (fence : Fence) (line : Text) :
    Text.trim (writtenLine indent fence line) ≠ fence.text := by
  intro closes
  rw [writtenLine] at closes
  split at closes
  · rw [Fence.text_eq] at closes
    cases closes
  · have spaces : ∀ c ∈ Text.spaces indent, isBlank c = true := by
      intro c inside
      rw [List.eq_of_mem_replicate inside]
      decide
    rw [Text.trim, Text.trimBy, Text.trimLeftBy_append spaces] at closes
    obtain ⟨before, behind, same, front, back⟩ := Text.trimBy_cover isBlank (fence.escape line)
    rw [Text.trimBy, closes] at same
    have escaped := Fence.backslash_mem_escape same
    rw [same, Fence.text_eq] at escaped
    simp only [List.mem_append, List.mem_cons, List.not_mem_nil, or_false] at escaped
    obtain (inFront | inFence) | inBack := escaped
    · exact absurd (front _ inFront) (by decide)
    · have apart := fence.char_ne_backslash.symm
      obtain same | same | same := inFence <;> exact apart same
    · exact absurd (back _ inBack) (by decide)

/-- A written line of the content is a line of its own. -/
theorem Writable.writtenLine {d : DocString} (writable : d.Writable) (indent : Nat) :
    ∀ line ∈ d.contentLines, '\n' ∉ DocString.writtenLine indent d.fence line ∧
      (DocString.writtenLine indent d.fence line).getLast? ≠ some '\r' := by
  intro line member
  have feeds := d.lineFeed_notMem_contentLines line member
  have returns : '\r' ∉ line := by
    intro here
    rw [contentLines] at member
    split at member
    · cases member
    · exact writable.plain (Text.subset_of_mem_splitAtChar member _ here)
  have inside : ∀ c ∈ DocString.writtenLine indent d.fence line, c = ' ' ∨ c ∈ line ∨ c ∈ d.fence.escaped := by
    intro c inside
    rw [DocString.writtenLine] at inside
    split at inside
    · cases inside
    · obtain space | written := List.mem_append.mp inside
      · exact .inl (List.eq_of_mem_replicate space)
      · exact .inr (Text.mem_replace written)
  have escapes : ∀ c ∈ d.fence.escaped, c ≠ '\n' ∧ c ≠ '\r' := by
    cases d.fence <;> simp [Fence.escaped, Fence.text]
  refine ⟨fun feed => ?_, fun ending => ?_⟩
  · obtain space | here | escape := inside _ feed
    · cases space
    · exact feeds here
    · exact (escapes _ escape).1 rfl
  · obtain space | here | escape := inside _ (List.mem_of_getLast? ending)
    · cases space
    · exact returns here
    · exact (escapes _ escape).2 rfl

end DocString

end Gherkin
