import Gherkin.Proofs.Document.Reading

/-! # Printed blocks are collected

The marks of a printed block form a section that is this block, and the marks of a printed layout form
sections that are its blocks, without any report (`Gherkin.Laid.sections`).
-/

namespace Gherkin

variable {d : Dialect}

/-! ### Steps -/

/-- Steps with nothing in front of them. -/
def StepsBelow.bare (steps : List Step) : StepsBelow := ⟨[], none, [], false, steps⟩

/-- Whether a mark says nothing about steps. -/
def Mark.isQuiet : Mark → Bool
  | .blank | .comment _ | .tags _ | .description _ => true
  | _ => false

/-- Marks that say nothing about steps change nothing about them. -/
theorem stepsBelow_quiet {marks : List Mark} (quiet : ∀ m ∈ marks, m.isQuiet = true) (n : Nat)
    (rest : List NumberedMark) : stepsBelow (numberFrom n marks ++ rest) = stepsBelow rest := by
  induction marks generalizing n with
  | nil => rfl
  | cons m others ih =>
    rw [List.forall_mem_cons] at quiet
    rw [numberFrom, List.cons_append, stepsBelow, ih quiet.2]
    cases m with
    | blank | comment | tags | description => rfl
    | _ => cases quiet.1

/-- Rows belong to the step or heading in front of them. -/
theorem stepsBelow_rows (rows : List (List Text)) (n : Nat) (rest : List NumberedMark) :
    ∃ read : List Row, read.map Row.cells = rows ∧
      stepsBelow (numberFrom n (rows.map .row) ++ rest) =
        { stepsBelow rest with rows := read ++ (stepsBelow rest).rows } := by
  induction rows generalizing n with
  | nil => exact ⟨[], rfl, rfl⟩
  | cons cells others ih =>
    obtain ⟨read, same, below⟩ := ih (n + 1)
    refine ⟨⟨cells, n⟩ :: read, by rw [List.map_cons, same], ?_⟩
    rw [List.map_cons, numberFrom, List.cons_append, stepsBelow, below]
    rfl

/-- The lines of a doc string belong to the fence in front of them. -/
theorem stepsBelow_docLines (lines : List Text) (n : Nat) (rest : List NumberedMark) :
    stepsBelow (numberFrom n (lines.map .docLine) ++ rest) =
      { stepsBelow rest with lines := lines ++ (stepsBelow rest).lines } := by
  induction lines generalizing n with
  | nil => rfl
  | cons line others ih =>
    rw [List.map_cons, numberFrom, List.cons_append, stepsBelow, ih]
    rfl

variable {steps : List Step} {rest : List NumberedMark}

/-- A doc string is collected with the content that is read from its lines. -/
theorem stepsBelow_doc (doc : DocString) (indent n : Nat) (rest : List NumberedMark) :
    stepsBelow (numberFrom n (doc.marks indent) ++ rest) =
      { stepsBelow rest with
        doc := some { doc with content := doc.readContent, line := n }, lines := [], closed := false } := by
  have lines : doc.contentLines.map (fun line => Mark.docLine (DocString.writtenLine indent doc.fence line)) =
      (doc.contentLines.map (DocString.writtenLine indent doc.fence)).map .docLine := by
    rw [List.map_map]
    rfl
  rw [DocString.marks, numberFrom, List.cons_append, stepsBelow, lines, numberFrom_append, List.append_assoc,
    stepsBelow_docLines]
  simp only [numberFrom, List.cons_append, List.nil_append, stepsBelow, StepsBelow.add, List.append_nil,
    DocString.contentOf_writtenLines]

/-- The argument of a step is collected as it was written. -/
theorem stepsBelow_argument {s : Step} (printable : s.Printable d) (indent n : Nat)
    (bare : stepsBelow rest = .bare steps) :
    ∃ rows doc, stepsBelow (numberFrom n (s.tableMarks ++ s.docMarks indent) ++ rest) =
        ⟨rows, doc, [], false, steps⟩ ∧
      (if rows.isEmpty then none else some (DataTable.mk rows)).map DataTable.forgetLines =
        s.table.map DataTable.forgetLines ∧
      doc.map DocString.forgetLines = s.doc.map DocString.forgetLines := by
  rw [Step.tableMarks, Step.docMarks]
  cases tabled : s.table with
  | none =>
    cases documented : s.doc with
    | none => exact ⟨[], none, bare, rfl, rfl⟩
    | some doc =>
      refine ⟨[], some { doc with line := n }, ?_, rfl, rfl⟩
      simp only [List.nil_append, stepsBelow_doc, bare, StepsBelow.bare, (printable.doc doc documented).readContent]
  | some table =>
    have undocumented : s.doc = none := printable.single.resolve_left (by rw [tabled]; rintro ⟨⟩)
    obtain ⟨nonempty, _⟩ := printable.table table tabled
    obtain ⟨read, same, below⟩ := stepsBelow_rows (table.rows.map Row.cells) n rest
    rw [List.map_map] at below
    refine ⟨read, none, ?_, ?_, by rw [undocumented]⟩
    · rw [undocumented, List.append_nil]
      simpa [bare, StepsBelow.bare, Function.comp_def] using below
    · have some : read.isEmpty = false := by
        cases read with
        | nil => exact absurd (List.map_eq_nil_iff.mp same.symm) nonempty
        | cons row others => rfl
      have unnumbered : read.map Row.forgetLines = table.rows.map Row.forgetLines := by
        have cells := congrArg (List.map fun cells => Row.mk cells 0) same
        rw [List.map_map, List.map_map] at cells
        exact cells
      rw [some, if_neg Bool.false_ne_true, Option.map_some, Option.map_some, DataTable.forgetLines,
        DataTable.forgetLines, unnumbered]

/-- A step is collected as it was written. -/
theorem stepsBelow_step {s : Step} (printable : s.Printable d) (indent n : Nat)
    (bare : stepsBelow rest = .bare steps) :
    ∃ read : Step, read.forgetLines = s.forgetLines ∧
      stepsBelow (numberFrom n (s.marks indent) ++ rest) = .bare (read :: steps) := by
  obtain ⟨rows, doc, below, table, documented⟩ := stepsBelow_argument printable indent (n + 1) bare
  rw [Step.marks, numberFrom, List.cons_append, stepsBelow, below]
  refine ⟨⟨s.keyword, s.type, s.text, if rows.isEmpty then none else some ⟨rows⟩, doc, n⟩, ?_, rfl⟩
  rw [Step.forgetLines, Step.forgetLines]
  simp only [table, documented]

/-- Steps are collected in their order with their tables and doc strings, by induction on the steps. -/
theorem stepsBelow_steps {written : List Step} (printable : ∀ s ∈ written, s.Printable d) (indent n : Nat)
    (bare : stepsBelow rest = .bare steps) :
    ∃ read : List Step, read.map Step.forgetLines = written.map Step.forgetLines ∧
      stepsBelow (numberFrom n (written.flatMap (Step.marks indent)) ++ rest) = .bare (read ++ steps) := by
  induction written generalizing n with
  | nil => exact ⟨[], rfl, bare⟩
  | cons s others ih =>
    rw [List.forall_mem_cons] at printable
    rw [List.flatMap_cons, numberFrom_append, List.append_assoc]
    obtain ⟨later, sameLater, below⟩ := ih printable.2 (n + (s.marks indent).length)
    obtain ⟨read, same, whole⟩ := stepsBelow_step printable.1 indent n below
    exact ⟨read :: later, by rw [List.map_cons, List.map_cons, same, sameLater], whole⟩

/-! ### What stands below a heading -/

namespace Mark

/-- The line of a description. -/
def text? : Mark → Option Text
  | .description text => some text
  | _ => none

/-- The cells of a row. -/
def cells? : Mark → Option (List Text)
  | .row cells => some cells
  | _ => none

/-- Whether a mark is one of a step or of its argument. -/
def isStep : Mark → Bool
  | .step _ _ _ | .row _ | .openDoc _ _ _ | .docLine _ | .closeDoc => true
  | _ => false

/-- Whether a mark is one of well-formed tags. -/
def IsTags (m : Mark) : Prop := ∃ tokens, m = .tags tokens ∧ ∀ token ∈ tokens, isTagName token = true

theorem IsTags.isQuiet {m : Mark} (tags : m.IsTags) : m.isQuiet = true := by
  obtain ⟨tokens, rfl, _⟩ := tags
  rfl

theorem IsGap.isQuiet {m : Mark} (gap : m.IsGap) : m.isQuiet = true := by
  obtain rfl | rfl := gap <;> rfl

end Mark

/-- The marks of a step say something about steps only. -/
theorem isStep_of_mem_marks {s : Step} {indent : Nat} {m : Mark} (member : m ∈ s.marks indent) :
    m.isStep = true := by
  obtain rfl | argument := List.mem_cons.mp member
  · rfl
  rw [Step.tableMarks, Step.docMarks] at argument
  obtain row | doc := List.mem_append.mp argument
  · split at row
    · obtain ⟨row, _, rfl⟩ := List.mem_map.mp row
      rfl
    · cases row
  · split at doc
    · obtain rfl | below := List.mem_cons.mp doc
      · rfl
      obtain line | last := List.mem_append.mp below
      · obtain ⟨line, _, rfl⟩ := List.mem_map.mp line
        rfl
      · rw [List.mem_singleton.mp last]
        rfl
    · cases doc

namespace Section

variable (s : Section)

/-- The description of a section is read off its marks alone. -/
theorem description_eq :
    s.description = Text.trimBy (· == '\n') (Text.joinWith ['\n'] ((s.marks.map Prod.snd).filterMap Mark.text?)) := by
  rw [description, List.filterMap_map]
  rfl

theorem cells_eq : s.rows.map Row.cells = (s.marks.map Prod.snd).filterMap Mark.cells? := by
  rw [rows, List.map_filterMap, List.filterMap_map]
  congr 1
  funext m
  obtain ⟨n, m⟩ := m
  cases m <;> rfl

end Section

/-! ### Reports -/

/-- Whether a doc string is left open is found mark by mark. -/
theorem openDocAfter_append (current : Option (Nat × Fence)) (first second : List NumberedMark) :
    openDocAfter current (first ++ second) = openDocAfter (openDocAfter current first) second := by
  induction first generalizing current with
  | nil => rfl
  | cons m others ih =>
    obtain ⟨n, m⟩ := m
    cases m with
    | openDoc | closeDoc => exact ih _
    | _ => exact ih current

/-- Marks that neither open nor close a doc string. -/
theorem openDocAfter_plain {marks : List Mark} (plain : ∀ m ∈ marks, m.isQuiet = true ∨ m.cells?.isSome = true)
    (n : Nat) (current : Option (Nat × Fence)) : openDocAfter current (numberFrom n marks) = current := by
  induction marks generalizing n with
  | nil => rfl
  | cons m others ih =>
    rw [List.forall_mem_cons] at plain
    rw [numberFrom]
    cases m with
    | openDoc | closeDoc => obtain impossible | impossible := plain.1 <;> cases impossible
    | _ => exact ih plain.2 (n + 1)

/-- A step leaves no doc string open. -/
theorem openDocAfter_step (s : Step) (indent n : Nat) : openDocAfter none (numberFrom n (s.marks indent)) = none := by
  have table : ∀ m ∈ s.tableMarks, m.isQuiet = true ∨ m.cells?.isSome = true := by
    intro m member
    rw [Step.tableMarks] at member
    split at member
    · obtain ⟨row, _, rfl⟩ := List.mem_map.mp member
      exact .inr rfl
    · cases member
  rw [Step.marks, numberFrom, openDocAfter, numberFrom_append, openDocAfter_append, openDocAfter_plain table,
    Step.docMarks]
  split
  · rw [DocString.marks, ← List.cons_append, numberFrom_append, openDocAfter_append]
    rfl
  · rfl
  · rintro _ _ _ _ ⟨⟩
  · rintro _ ⟨⟩

theorem openDocAfter_steps (steps : List Step) (indent n : Nat) :
    openDocAfter none (numberFrom n (steps.flatMap (Step.marks indent))) = none := by
  induction steps generalizing n with
  | nil => rfl
  | cons s others ih =>
    rw [List.flatMap_cons, numberFrom_append, openDocAfter_append, openDocAfter_step, ih]

/-- Marks that nothing is reported about. -/
theorem lineDiagnostics_eq_nil {m : Mark} (known : m.isStep = true ∨ m.cells?.isSome = true ∨
    m.text?.isSome = true ∨ m = .blank ∨ m.IsTags) (n : Nat) : lineDiagnostics (n, m) = [] := by
  cases m with
  | tags tokens =>
    obtain impossible | impossible | impossible | impossible | ⟨_, same, named⟩ := known
    · cases impossible
    · cases impossible
    · cases impossible
    · cases impossible
    · cases same
      have none : tokens.filter (fun token => !isTagName token) = [] :=
        List.filter_eq_nil_iff.mpr fun token member => by simp [named token member]
      rw [lineDiagnostics, none]
      rfl
  | unexpected | unrecognized =>
    obtain impossible | impossible | impossible | impossible | ⟨_, impossible, _⟩ := known <;> cases impossible
  | _ => rfl

/-! ### Blocks -/

section Below

/-- The marks below a heading, up to the next one. -/
def Block.below (b : Block) (indent : Nat) (gap : Mark) (tags : List Mark) : List Mark :=
  b.bodyMarks indent ++ gap :: tags

variable {gap : Mark} {tags : List Mark}

/-- The texts below a heading are the lines of its description, perhaps with an empty one from the gap. -/
theorem text?_below (b : Block) (indent : Nat) (empty : gap.IsGap) (named : ∀ m ∈ tags, m.IsTags) :
    (b.below indent gap tags).filterMap Mark.text? = descriptionLines b.description ∨
      (b.below indent gap tags).filterMap Mark.text? = descriptionLines b.description ++ [[]] := by
  have described : ((descriptionLines b.description).map Mark.description).filterMap Mark.text? =
      descriptionLines b.description := by
    rw [List.filterMap_map]
    exact List.filterMap_some
  have steps : (b.steps.flatMap (Step.marks indent)).filterMap Mark.text? = [] := by
    apply List.filterMap_eq_nil_iff.mpr
    intro m member
    obtain ⟨s, _, inside⟩ := List.mem_flatMap.mp member
    have step := isStep_of_mem_marks inside
    cases m with
    | description => cases step
    | _ => rfl
  have rows : (b.rows.map Mark.row).filterMap Mark.text? = [] := by
    apply List.filterMap_eq_nil_iff.mpr
    intro m member
    obtain ⟨cells, _, rfl⟩ := List.mem_map.mp member
    rfl
  have tagged : tags.filterMap Mark.text? = [] := by
    apply List.filterMap_eq_nil_iff.mpr
    intro m member
    obtain ⟨tokens, rfl, _⟩ := named m member
    rfl
  rw [Block.below, Block.bodyMarks]
  simp only [List.filterMap_append, List.filterMap_cons, described, steps, rows, tagged, List.append_nil]
  obtain rfl | rfl := empty
  · exact .inl (List.append_nil _)
  · exact .inr rfl

/-- The lines of a description make it up again. -/
theorem joinWith_descriptionLines (t : Text) : Text.joinWith ['\n'] (descriptionLines t) = t := by
  rw [descriptionLines]
  split
  · rename_i empty
    exact (List.isEmpty_iff.mp empty).symm
  · exact Text.joinWith_splitAtChar '\n' t

variable {b : Block} {indent : Nat} {s : Section} (printable : b.Printable d) (empty : gap.IsGap)
  (named : ∀ m ∈ tags, m.IsTags)

include printable empty named

/-- The description of a block is collected. -/
theorem description_below (marks : s.marks.map Prod.snd = b.below indent gap tags) :
    s.description = b.description := by
  have whole := Text.trimBy_of_trimmed printable.trimmed
  rw [s.description_eq, marks]
  obtain same | same := text?_below b indent empty named
  · rw [same, joinWith_descriptionLines, whole]
  · rw [same]
    by_cases blank : b.description = []
    · rw [blank]
      rfl
    · have lines : descriptionLines b.description ≠ [] := by
        rw [descriptionLines, if_neg (by simpa using blank)]
        exact Text.splitAtChar_ne_nil _ _
      rw [Text.joinWith_concat_nil _ lines, joinWith_descriptionLines]
      have padded : Text.trimBy (· == '\n') ([] ++ b.description ++ ['\n']) = b.description :=
        Text.trimBy_pad (List.forall_mem_nil _) printable.trimmed (by simp)
      rwa [List.nil_append] at padded

omit printable in
theorem isQuiet_of_mem_end {m : Mark} (member : m ∈ gap :: tags) : m.isQuiet = true := by
  obtain rfl | inside := List.mem_cons.mp member
  · exact empty.isQuiet
  · exact (named m inside).isQuiet

/-- The steps of a block are collected. -/
theorem steps_below (has : b.kind.hasSteps = true) {n : Nat}
    (marks : s.marks = numberFrom n (b.below indent gap tags)) : s.steps.map Step.forgetLines = b.steps := by
  have rowless : b.rows = [] := printable.rowless fun kind => by
    rw [kind] at has
    cases has
  have described : ∀ m ∈ (descriptionLines b.description).map Mark.description, m.isQuiet = true := by
    intro m member
    obtain ⟨line, _, rfl⟩ := List.mem_map.mp member
    rfl
  have ending (n : Nat) : stepsBelow (numberFrom n (gap :: tags)) = .bare [] := by
    have quiet := stepsBelow_quiet (fun m => isQuiet_of_mem_end empty named (m := m)) n []
    rwa [List.append_nil] at quiet
  rw [Section.steps, marks, Block.below, Block.bodyMarks, rowless, List.map_nil, List.append_nil, List.append_assoc,
    numberFrom_append, stepsBelow_quiet described, numberFrom_append]
  obtain ⟨read, same, below⟩ := stepsBelow_steps printable.steps indent _ (ending _)
  rw [below, StepsBelow.bare, List.append_nil, same]
  exact (List.map_congr_left printable.unnumbered).trans (List.map_id _)

/-- The table of examples is collected. -/
theorem cells_below (kind : b.kind = .examples) (marks : s.marks.map Prod.snd = b.below indent gap tags) :
    s.rows.map Row.cells = b.rows := by
  have stepless : b.steps = [] := printable.stepless (by rw [kind]; rfl)
  have described : ((descriptionLines b.description).map Mark.description).filterMap Mark.cells? = [] := by
    apply List.filterMap_eq_nil_iff.mpr
    intro m member
    obtain ⟨line, _, rfl⟩ := List.mem_map.mp member
    rfl
  have rows : (b.rows.map Mark.row).filterMap Mark.cells? = b.rows := by
    rw [List.filterMap_map]
    exact List.filterMap_some
  have ending : (gap :: tags).filterMap Mark.cells? = [] := by
    apply List.filterMap_eq_nil_iff.mpr
    intro m member
    have quiet := isQuiet_of_mem_end empty named member
    cases m with
    | row => cases quiet
    | _ => rfl
  rw [s.cells_eq, marks, Block.below, Block.bodyMarks, stepless, List.flatMap_nil, List.append_nil]
  simp only [List.filterMap_append, described, rows, ending, List.nil_append, List.append_nil]

omit printable in
/-- Nothing is reported about what stands below the heading of a printed block. -/
theorem marksDiagnostics_below (n : Nat) : marksDiagnostics (numberFrom n (b.below indent gap tags)) = [] := by
  have lines : (numberFrom n (b.below indent gap tags)).flatMap lineDiagnostics = [] := by
    apply List.flatMap_eq_nil_iff.mpr
    rintro ⟨line, m⟩ member
    have among : m ∈ b.below indent gap tags := by
      rw [← map_snd_numberFrom n (b.below indent gap tags)]
      exact List.mem_map_of_mem member
    apply lineDiagnostics_eq_nil
    obtain body | ending := List.mem_append.mp among
    · obtain (described | step) | row := by simpa only [Block.bodyMarks, List.mem_append] using body
      · obtain ⟨text, _, rfl⟩ := List.mem_map.mp described
        exact .inr (.inr (.inl rfl))
      · obtain ⟨s, _, inside⟩ := List.mem_flatMap.mp step
        exact .inl (isStep_of_mem_marks inside)
      · obtain ⟨cells, _, rfl⟩ := List.mem_map.mp row
        exact .inr (.inl rfl)
    · obtain rfl | inside := List.mem_cons.mp ending
      · obtain rfl | rfl := empty
        · exact .inr (.inr (.inr (.inl rfl)))
        · exact .inr (.inr (.inl rfl))
      · exact .inr (.inr (.inr (.inr (named m inside))))
  have closed : openDocAfter none (numberFrom n (b.below indent gap tags)) = none := by
    have described : ∀ m ∈ (descriptionLines b.description).map Mark.description,
        m.isQuiet = true ∨ m.cells?.isSome = true := by
      intro m member
      obtain ⟨line, _, rfl⟩ := List.mem_map.mp member
      exact .inl rfl
    have ending : ∀ m ∈ b.rows.map Mark.row ++ gap :: tags, m.isQuiet = true ∨ m.cells?.isSome = true := by
      intro m member
      obtain row | last := List.mem_append.mp member
      · obtain ⟨cells, _, rfl⟩ := List.mem_map.mp row
        exact .inr rfl
      · exact .inl (isQuiet_of_mem_end empty named last)
    rw [Block.below, Block.bodyMarks, List.append_assoc, List.append_assoc, numberFrom_append, openDocAfter_append,
      openDocAfter_plain described, numberFrom_append, openDocAfter_append, openDocAfter_steps,
      openDocAfter_plain ending]
  rw [marksDiagnostics, lines, closed]
  rfl

omit empty named in
theorem Block.Printable.head?_rows : b.rows.head? = b.header := by
  rw [Block.rows]
  cases header : b.header with
  | some cells => rfl
  | none =>
    rw [printable.headed header]
    rfl

omit empty named in
theorem Block.Printable.tail_rows : b.rows.tail = b.body := by
  rw [Block.rows]
  cases header : b.header with
  | some cells => rfl
  | none =>
    rw [printable.headed header]
    rfl

/-- A section that a printed block was read into is the block, and nothing is reported about it. -/
theorem Block.Printable.section {line n : Nat} (heading : s.heading = ⟨b.kind, b.keyword, b.name, line⟩)
    (tagged : s.tags.map Tag.name = b.tags) (marks : s.marks = numberFrom n (b.below indent gap tags)) :
    s.block = b ∧ s.diagnostics = [] := by
  have plain : s.marks.map Prod.snd = b.below indent gap tags := by rw [marks, map_snd_numberFrom]
  have description := description_below printable empty named plain
  have steps : (if b.kind.hasSteps then s.steps.map Step.forgetLines else []) = b.steps := by
    split
    · rename_i has
      exact steps_below printable empty named has marks
    · rename_i hasNot
      exact (printable.stepless (by simpa using hasNot)).symm
  have header : (if b.kind = .examples then s.rows.head?.map Row.cells else none) = b.header := by
    rw [← printable.head?_rows]
    split
    · rename_i kind
      rw [← List.head?_map, cells_below printable empty named kind plain]
    · rename_i other
      rw [printable.rowless other]
      rfl
  have body : (if b.kind = .examples then s.rows.tail.map Row.cells else []) = b.body := by
    rw [← printable.tail_rows]
    split
    · rename_i kind
      rw [List.map_tail, cells_below printable empty named kind plain]
    · rename_i other
      rw [printable.rowless other]
      rfl
  constructor
  · rw [Section.block, heading]
    simp only [description, tagged, steps, header, body]
  · have untagged : ∀ nested, b.kind = .background nested → s.tags = [] := fun nested kind =>
      List.map_eq_nil_iff.mp (tagged.trans (printable.untagged nested kind))
    rw [Section.diagnostics, marks, marksDiagnostics_below empty named, List.append_nil, heading]
    split
    · rename_i nested kind
      rw [untagged nested kind]
      rfl
    · rfl

end Below

/-! ### Layouts -/

/-- The marks of the tags above the first of some blocks. -/
def Layout.frontMarks : Layout → List Mark
  | [] => []
  | (_, b) :: _ => b.tagMarks

theorem isTags_of_mem_tagMarks {b : Block} (named : ∀ tag ∈ b.tags, isTagName tag = true) :
    ∀ m ∈ b.tagMarks, m.IsTags := by
  intro m member
  rw [Block.tagMarks] at member
  split at member
  · cases member
  · exact ⟨b.tags, List.mem_singleton.mp member, named⟩

/-- In front of the first heading there are only tags. -/
theorem isTags_of_mem_frontMarks {layout : Layout} (printable : layout.Printable d) :
    ∀ m ∈ layout.frontMarks, m.IsTags := by
  cases layout with
  | nil => exact List.forall_mem_nil _
  | cons entry rest => exact isTags_of_mem_tagMarks (printable entry List.mem_cons_self).tags

theorem isHeading_of_mem_tagMarks {b : Block} {m : Mark} (member : m ∈ b.tagMarks) : m.isHeading = false := by
  rw [Block.tagMarks] at member
  split at member
  · cases member
  · rw [List.mem_singleton.mp member]
    rfl

theorem isHeading_of_mem_bodyMarks {b : Block} {indent : Nat} {m : Mark} (member : m ∈ b.bodyMarks indent) :
    m.isHeading = false := by
  obtain (described | step) | row := by simpa only [Block.bodyMarks, List.mem_append] using member
  · obtain ⟨text, _, rfl⟩ := List.mem_map.mp described
    rfl
  · obtain ⟨s, _, inside⟩ := List.mem_flatMap.mp step
    have known := isStep_of_mem_marks inside
    cases m with
    | heading => cases known
    | _ => rfl
  · obtain ⟨cells, _, rfl⟩ := List.mem_map.mp row
    rfl

theorem isHeading_of_mem_numberFrom {marks : List Mark} (plain : ∀ m ∈ marks, m.isHeading = false) (n : Nat) :
    ∀ m ∈ numberFrom n marks, m.2.isHeading = false := by
  intro m member
  apply plain
  rw [← map_snd_numberFrom n marks]
  exact List.mem_map_of_mem member

/-- Cutting marks that start with those of a block. -/
theorem cutAtHeadings_block (b : Block) (indent n : Nat) (marks : List Mark) :
    ∃ line next, next = line + 1 + (b.bodyMarks indent).length ∧
      cutAtHeadings (numberFrom n (b.marks indent ++ marks)) =
        (numberFrom n b.tagMarks,
          (⟨b.kind, b.keyword, b.name, line⟩,
            numberFrom (line + 1) (b.bodyMarks indent) ++ (cutAtHeadings (numberFrom next marks)).1) ::
            (cutAtHeadings (numberFrom next marks)).2) := by
  refine ⟨n + b.tagMarks.length, _, rfl, ?_⟩
  rw [Block.marks, List.append_assoc, List.cons_append, numberFrom_append,
    cutAtHeadings_append (isHeading_of_mem_numberFrom (fun m => isHeading_of_mem_tagMarks) n), numberFrom,
    cutAtHeadings_heading, List.append_nil, numberFrom_append,
    cutAtHeadings_append (isHeading_of_mem_numberFrom (fun m => isHeading_of_mem_bodyMarks) _)]

/-- In front of the first block stand its tags. -/
theorem Laid.front {layout : Layout} {marks : List Mark} (laid : Laid layout marks) (n : Nat) :
    ∃ gap, gap.IsGap ∧ (cutAtHeadings (numberFrom n marks)).1 = numberFrom n (gap :: layout.frontMarks) := by
  cases laid with
  | @nil gap empty =>
    refine ⟨gap, empty, ?_⟩
    obtain rfl | rfl := empty <;> rfl
  | @cons gap level b rest marks empty indent later =>
    obtain ⟨line, next, _, cut⟩ := cutAtHeadings_block b indent (n + 1) marks
    have plain : gap.isHeading = false := by obtain rfl | rfl := empty <;> rfl
    refine ⟨gap, empty, ?_⟩
    rw [numberFrom, cutAtHeadings_plain plain, cut]
    rfl

theorem tagsOf_append (first second : List NumberedMark) :
    tagsOf (first ++ second) = tagsOf first ++ tagsOf second := List.flatMap_append

theorem tagsOf_eq_nil {marks : List Mark} (plain : ∀ m ∈ marks, ∀ tokens, m ≠ .tags tokens) (n : Nat) :
    tagsOf (numberFrom n marks) = [] := by
  apply List.flatMap_eq_nil_iff.mpr
  rintro ⟨line, m⟩ member
  have among : m ∈ marks := by
    rw [← map_snd_numberFrom n marks]
    exact List.mem_map_of_mem member
  cases m with
  | tags tokens => exact absurd rfl (plain _ among tokens)
  | _ => rfl

/-- The tags above a block are found again. -/
theorem tagsOf_tagMarks {b : Block} (named : ∀ tag ∈ b.tags, isTagName tag = true) (n : Nat) :
    (tagsOf (numberFrom n b.tagMarks)).map Tag.name = b.tags := by
  rw [Block.tagMarks]
  split
  · rename_i empty
    rw [List.isEmpty_iff.mp empty]
    rfl
  · have all : b.tags.filter isTagName = b.tags := List.filter_eq_self.mpr named
    simp [numberFrom, tagsOf, lineTags, all, Function.comp_def]

/-- Below the heading of a block there are no tags. -/
theorem tags_notMem_bodyMarks {b : Block} {indent : Nat} :
    ∀ m ∈ b.bodyMarks indent, ∀ tokens, m ≠ .tags tokens := by
  rintro m member tokens rfl
  obtain (described | step) | row := by simpa only [Block.bodyMarks, List.mem_append] using member
  · obtain ⟨text, _, impossible⟩ := List.mem_map.mp described
    cases impossible
  · obtain ⟨s, _, inside⟩ := List.mem_flatMap.mp step
    cases isStep_of_mem_marks inside
  · obtain ⟨cells, _, impossible⟩ := List.mem_map.mp row
    cases impossible

/-- Tags in front of the first heading do not count behind the last one. -/
theorem trailingTags_append {more : List NumberedMark} (plain : tagsOf more = []) (front : List NumberedMark)
    (entries : List (HeadingLine × List NumberedMark)) :
    trailingTags (more ++ front) entries = trailingTags front entries := by
  cases entries with
  | nil => rw [trailingTags, trailingTags, tagsOf_append, plain, List.nil_append]
  | cons entry rest => rfl

/-- Marks that were cut form sections that are some blocks; nothing is reported about them, and no tags are
left. -/
structure Collected (tags : List Tag) (cut : List NumberedMark × List (HeadingLine × List NumberedMark))
    (blocks : List Block) : Prop where
  blocks : (sectionsFrom tags cut.2).map Section.block = blocks
  quiet : ∀ s ∈ sectionsFrom tags cut.2, s.diagnostics = []
  untagged : trailingTags cut.1 cut.2 = []

/-- The marks of a block in front of those of a layout that is collected. -/
theorem Collected.block {b : Block} (printable : b.Printable d) (indent n : Nat) {tags : List Tag}
    (above : tags.map Tag.name = b.tags) {rest : Layout} {marks : List Mark} (laid : Laid rest marks)
    (others : rest.Printable d)
    (later : ∀ n tags, (∀ entry ∈ rest.head?, tags.map Tag.name = entry.2.tags) →
      Collected tags (cutAtHeadings (numberFrom n marks)) (rest.map Prod.snd)) :
    Collected tags (cutAtHeadings (numberFrom n (b.marks indent ++ marks))) (b :: rest.map Prod.snd) := by
  obtain ⟨line, next, same, cut⟩ := cutAtHeadings_block b indent n marks
  obtain ⟨ending, blank, front⟩ := laid.front next
  have body : tagsOf (numberFrom (line + 1) (b.bodyMarks indent)) = [] := tagsOf_eq_nil tags_notMem_bodyMarks _
  have below : numberFrom (line + 1) (b.bodyMarks indent) ++ (cutAtHeadings (numberFrom next marks)).1 =
      numberFrom (line + 1) (b.below indent ending rest.frontMarks) := by
    rw [front, same, Block.below, numberFrom_append]
  have following : ∀ entry ∈ rest.head?, (tagsOf (numberFrom (line + 1) (b.bodyMarks indent) ++
      (cutAtHeadings (numberFrom next marks)).1)).map Tag.name = entry.2.tags := by
    intro entry head
    cases rest with
    | nil => cases head
    | cons second more =>
      cases head
      have untagged : tagsOf [(next, ending)] = [] := by obtain rfl | rfl := blank <;> rfl
      rw [tagsOf_append, body, front, numberFrom, ← List.singleton_append, tagsOf_append, untagged]
      exact tagsOf_tagMarks (others _ List.mem_cons_self).tags _
  have rest := later next _ following
  obtain ⟨here, silent⟩ := printable.section (s := ⟨⟨b.kind, b.keyword, b.name, line⟩, tags, _⟩) blank
    (isTags_of_mem_frontMarks others) rfl above below
  rw [cut]
  refine ⟨?_, List.forall_mem_cons.mpr ⟨silent, rest.quiet⟩, ?_⟩
  · rw [sectionsFrom, List.map_cons, here, rest.blocks]
  · rw [trailingTags, trailingTags_append body, rest.untagged]

/-- The marks of a printed layout are collected into its blocks. -/
theorem Laid.collected {layout : Layout} {marks : List Mark} (laid : Laid layout marks)
    (printable : layout.Printable d) (n : Nat) (tags : List Tag)
    (above : ∀ entry ∈ layout.head?, tags.map Tag.name = entry.2.tags) :
    Collected tags (cutAtHeadings (numberFrom n marks)) (layout.map Prod.snd) := by
  induction laid generalizing n tags with
  | nil empty => obtain rfl | rfl := empty <;> exact ⟨rfl, List.forall_mem_nil _, rfl⟩
  | @cons gap level b rest marks empty indent later ih =>
    obtain ⟨first, others⟩ := List.forall_mem_cons.mp printable
    have plain : gap.isHeading = false := by obtain rfl | rfl := empty <;> rfl
    have untagged : tagsOf [(n, gap)] = [] := by obtain rfl | rfl := empty <;> rfl
    have collected := Collected.block first indent (n + 1) (above _ rfl) later others (ih others)
    rw [numberFrom, cutAtHeadings_plain plain]
    refine ⟨collected.blocks, collected.quiet, ?_⟩
    rw [← List.singleton_append, trailingTags_append untagged, collected.untagged]

end Gherkin
