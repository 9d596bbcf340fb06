import Mathlib
import Gherkin.Proofs.Document.Collecting
import Gherkin.Proofs.Document.Order

/-! # Printing and reading again

A feature that was read and has its rules last is printed as a text that reads as the same feature, without
any report, and is printed in the same way again (`Gherkin.parse_print`).
-/

namespace Gherkin

variable {d : Dialect}

/-! ### Lines that are written -/

/-- Whether a text that is written as a line is read as this line. -/
def IsLine (line : Text) : Prop := '\n' ∉ line ∧ line.getLast? ≠ some '\r'

theorem Inline.isLine {t : Text} (inline : Inline t) (indent : Nat) : IsLine (Text.spaces indent ++ t) := by
  refine ⟨fun member => ?_, fun last => ?_⟩
  · obtain space | inside := List.mem_append.mp member
    · cases List.eq_of_mem_replicate space
    · exact inline.2 inside
  · rw [List.getLast?_append] at last
    cases ends : t.getLast? with
    | none =>
      rw [ends, Option.none_or] at last
      cases List.eq_of_mem_replicate (List.mem_of_getLast? last)
    | some c =>
      rw [ends, Option.some_or] at last
      cases last
      have solid := inline.1.2 _ ends
      revert solid
      decide

theorem isLine_nil : IsLine [] := ⟨List.not_mem_nil, by rintro ⟨⟩⟩

theorem isLine_tableLines (level : Int) (rows : List (List Text)) :
    ∀ line ∈ tableLines (indentation level) rows, IsLine line := by
  intro line member
  rw [tableLines_eq] at member
  obtain ⟨cells, _, rfl⟩ := List.mem_map.mp member
  exact Inline.isLine ⟨trimmed_rowText _ cells, lineFeed_notMem_rowText _ cells⟩ _

theorem DocString.Writable.isLine {doc : DocString} (writable : doc.Writable) (level : Int) :
    ∀ line ∈ doc.toLines (indentation level), IsLine line := by
  have clean : '\n' ∉ doc.fence.text := by cases doc.fence <;> decide
  have media : Text.Trimmed isBlank (doc.mediaType.getD []) ∧ '\n' ∉ doc.mediaType.getD [] := by
    cases found : doc.mediaType with
    | none => exact ⟨.nil, List.not_mem_nil⟩
    | some type => exact (writable.mediaType type found).2
  have opening : Inline (doc.fence.text ++ doc.mediaType.getD []) :=
    ⟨doc.fence.trimmed_append media.1, fun member => (List.mem_append.mp member).elim clean media.2⟩
  have closing : Inline doc.fence.text := by
    have trimmed := doc.fence.trimmed_append (.nil : Text.Trimmed isBlank [])
    rw [List.append_nil] at trimmed
    exact ⟨trimmed, clean⟩
  rw [indentation, DocString.toLines_eq]
  refine List.forall_mem_cons.mpr ⟨opening.isLine _, fun line member => ?_⟩
  obtain content | last := List.mem_append.mp member
  · obtain ⟨line, among, rfl⟩ := List.mem_map.mp content
    exact writable.writtenLine _ line among
  · rw [List.mem_singleton.mp last]
    exact closing.isLine _

theorem Step.Printable.isLine {s : Step} (printable : s.Printable d) (regular : d.Regular) (level : Int) :
    ∀ line ∈ s.lines level, IsLine line := by
  obtain ⟨nonempty, feeds, start⟩ := printable.opens.start regular
  have solid : ∀ c ∈ s.keyword.head?, isBlank c = false := fun c head => (start c head).1
  have text : Inline (stepText s.keyword s.text) := by
    refine ⟨trimmed_stepText nonempty solid printable.nonempty printable.inline, fun member => ?_⟩
    obtain inKeyword | inText := List.mem_append.mp member
    · exact feeds inKeyword
    · obtain space | inText := List.mem_cons.mp inText
      · cases space
      · exact printable.inline.2 inText
  rw [Step.lines, stepLine_eq level nonempty solid printable.nonempty printable.inline]
  refine List.forall_mem_cons.mpr ⟨text.isLine _, fun line member => ?_⟩
  rw [Step.tableLines, Step.docLines] at member
  obtain table | doc := List.mem_append.mp member
  · split at table
    · exact isLine_tableLines _ _ line table
    · cases table
  · split at doc
    · rename_i found
      exact (printable.doc _ found).writable.isLine _ line doc
    · cases doc

theorem Block.Printable.isLine {b : Block} (printable : b.Printable d) (regular : d.Regular) (level : Int) :
    ∀ line ∈ b.lines level, IsLine line := by
  have known := printable.known regular
  have heading : Inline (headingText b.keyword b.name) := by
    refine ⟨trimmed_headingText known printable.name, fun member => ?_⟩
    rw [headingText, headingRest] at member
    obtain inKeyword | behind := List.mem_append.mp member
    · exact known.lineFeed inKeyword
    · split at behind
      · simp at behind
      · obtain colon | space | inName := by simpa only [List.mem_cons] using behind
        · cases colon
        · cases space
        · exact printable.name.2 inName
  intro line member
  rw [Block.lines, headingLine_eq level known printable.name] at member
  obtain tags | rest := List.mem_append.mp member
  · rw [tagLines] at tags
    split at tags
    · cases tags
    · rw [List.mem_singleton.mp tags]
      exact Inline.isLine ⟨trimmed_tags printable.tags, lineFeed_notMem_tags printable.tags⟩ _
  · obtain rfl | rest := List.mem_cons.mp rest
    · exact heading.isLine _
    · obtain (described | step) | table := by simpa only [List.mem_append] using rest
      · obtain ⟨line, among, rfl⟩ := List.mem_map.mp described
        have inline := (printable.description line among).inline
        rw [indentation, Text.trimRight_spaces_append _ inline.1]
        split
        · exact isLine_nil
        · exact inline.isLine _
      · obtain ⟨s, among, inside⟩ := List.mem_flatMap.mp step
        exact (printable.steps s among).isLine regular _ line inside
      · exact isLine_tableLines _ _ line table

theorem isLine_languageLine : ∀ entry ∈ Languages.builtIn, IsLine (("# language: " : Text) ++ entry.1) := by
  unfold IsLine
  decide

/-- The lines of a feature that was read are read as they are written. -/
theorem Feature.isLine (regular : d.Regular) {f : Feature} (printable : f.block.Printable d)
    (below : f.layout.Printable d) {dialect : Dialect} (member : (f.language, dialect) ∈ Languages.builtIn) :
    ∀ line ∈ f.lines, IsLine line := by
  intro line inside
  obtain (language | block) | layout := by simpa only [Feature.lines, List.mem_append] using inside
  · rw [languageLines] at language
    split at language
    · cases language
    · rw [List.mem_singleton.mp language]
      exact isLine_languageLine _ member
  · exact printable.isLine regular 0 line block
  · obtain ⟨⟨level, b⟩, among, inside⟩ := List.mem_flatMap.mp layout
    obtain rfl | inside := List.mem_cons.mp inside
    · exact isLine_nil
    · exact (below _ among).isLine regular level line inside

/-! ### The language -/

theorem languageDirective?_eq_none {t : Text} (plain : t.head? ≠ some '#') : languageDirective? t = none := by
  cases t with
  | nil => rfl
  | cons c rest =>
    rw [languageDirective?]
    rintro others same
    cases same
    exact plain rfl

/-- The first line of a printed block is no comment. -/
theorem Block.Printable.head_lines {b : Block} (printable : b.Printable d) (regular : d.Regular) (level : Int) :
    ∃ first rest, b.lines level = first :: rest ∧ (Text.trim first).head? ≠ some '#' := by
  have known := printable.known regular
  rw [Block.lines, tagLines]
  split
  · refine ⟨_, _, rfl, ?_⟩
    rw [trim_headingLine level known printable.name]
    exact known.head_ne (by decide) _
  · rename_i tagged
    refine ⟨_, _, rfl, ?_⟩
    rw [indentation, Text.trim_spaces_append _ (trimmed_tags printable.tags),
      head_joinWith_tags printable.tags (by simpa using tagged)]
    rintro ⟨⟩

/-- The first line of a printed feature names its language, unless it is English. -/
theorem Feature.languageOf_lines (regular : d.Regular) {f : Feature} (printable : f.block.Printable d)
    {dialect : Dialect} (member : (f.language, dialect) ∈ Languages.builtIn) (rest : List Text) :
    languageOf Languages.defaultCode (f.lines ++ rest) = f.language := by
  rw [languageOf, Feature.lines, languageLines]
  split
  · rename_i english
    obtain ⟨first, others, same, plain⟩ := printable.head_lines regular 0
    have unnamed : languageDirective? (Text.trim first) = none := languageDirective?_eq_none plain
    rw [same, english]
    simp only [List.nil_append, List.cons_append, List.head?_cons, Option.bind_some, unnamed, Option.getD_none]
    rfl
  · obtain ⟨trimmed, named⟩ := languageLine_of_mem _ member
    simp only [List.cons_append, List.head?_cons, Option.bind_some, trimmed, named, Option.getD_some]

/-! ### Reading a printed feature -/

/-- The marks in front of the heading of a printed feature. -/
theorem isComment_or_isTags {f : Feature} (named : ∀ tag ∈ f.block.tags, isTagName tag = true) :
    ∀ m ∈ languageMarks f.language ++ f.block.tagMarks, (∃ text, m = .comment text) ∨ m.IsTags := by
  intro m member
  obtain language | tags := List.mem_append.mp member
  · obtain ⟨text, _, rfl⟩ := List.mem_map.mp language
    exact .inl ⟨text, rfl⟩
  · exact .inr (isTags_of_mem_tagMarks named m tags)

theorem marksDiagnostics_front {marks : List Mark} (known : ∀ m ∈ marks, (∃ text, m = .comment text) ∨ m.IsTags)
    (n : Nat) : marksDiagnostics (numberFrom n marks) = [] := by
  have lines : (numberFrom n marks).flatMap lineDiagnostics = [] := by
    apply List.flatMap_eq_nil_iff.mpr
    rintro ⟨line, m⟩ member
    have among : m ∈ marks := by
      rw [← map_snd_numberFrom n marks]
      exact List.mem_map_of_mem member
    obtain ⟨text, rfl⟩ | tags := known m among
    · rfl
    · exact lineDiagnostics_eq_nil (.inr (.inr (.inr (.inr tags)))) line
  have plain : ∀ m ∈ marks, m.isQuiet = true ∨ m.cells?.isSome = true := by
    intro m member
    obtain ⟨text, rfl⟩ | tags := known m member
    · exact .inl rfl
    · exact .inl tags.isQuiet
  rw [marksDiagnostics, lines, openDocAfter_plain plain]
  rfl

/-- The document that the marks of a printed feature describe. -/
theorem documentOf_printed {f : Feature} (printable : f.block.Printable d) (below : f.layout.Printable d)
    {marks : List Mark} (laid : Laid f.layout marks) (uri : Option Text) (lineCount indent : Nat) :
    (documentOf f.language uri lineCount []
        (numberFrom 1 (languageMarks f.language ++ (f.block.marks indent ++ marks)))).diagnostics = [] ∧
      (documentOf f.language uri lineCount []
        (numberFrom 1 (languageMarks f.language ++ (f.block.marks indent ++ marks)))).feature.map
          Feature.forgetLines = some f.forgetLines := by
  have comments : ∀ m ∈ languageMarks f.language, m.isHeading = false ∧ ∀ tokens, m ≠ .tags tokens := by
    intro m member
    obtain ⟨text, _, rfl⟩ := List.mem_map.mp member
    exact ⟨rfl, by rintro _ ⟨⟩⟩
  have untagged : tagsOf (numberFrom 1 (languageMarks f.language)) = [] :=
    tagsOf_eq_nil (fun m member => (comments m member).2) 1
  generalize start : 1 + (languageMarks f.language).length = n
  obtain ⟨line, next, _, block⟩ := cutAtHeadings_block f.block indent n marks
  have front : numberFrom 1 (languageMarks f.language ++ f.block.tagMarks) =
      numberFrom 1 (languageMarks f.language) ++ (cutAtHeadings (numberFrom n (f.block.marks indent ++ marks))).1 := by
    rw [numberFrom_append, start, block]
  have cut : cutAtHeadings (numberFrom 1 (languageMarks f.language ++ (f.block.marks indent ++ marks))) =
      (numberFrom 1 (languageMarks f.language ++ f.block.tagMarks),
        (cutAtHeadings (numberFrom n (f.block.marks indent ++ marks))).2) := by
    rw [numberFrom_append 1 (languageMarks f.language), start,
      cutAtHeadings_append (isHeading_of_mem_numberFrom (fun m member => (comments m member).1) 1), front]
  have above : (tagsOf (numberFrom 1 (languageMarks f.language ++ f.block.tagMarks))).map Tag.name = f.block.tags := by
    rw [numberFrom_append, tagsOf_append, untagged, List.nil_append]
    exact tagsOf_tagMarks printable.tags _
  have collected := Collected.block printable indent n above laid below (laid.collected below)
  have trailing := collected.untagged
  rw [← trailingTags_append untagged, ← front] at trailing
  obtain ⟨s, rest, sections, heading, shown⟩ := List.map_eq_cons_iff.mp collected.blocks
  have reports : (s :: rest).flatMap Section.diagnostics = [] :=
    List.flatMap_eq_nil_iff.mpr fun s member => collected.quiet s (sections ▸ member)
  have quiet := marksDiagnostics_front (isComment_or_isTags printable.tags) 1
  simp only [documentOf, cut, quiet, trailing, sections, reports]
  exact ⟨rfl, featureOf_forgetLines heading shown⟩

/-- A printed feature is read as itself, without any report. -/
theorem parseLenient_print (regular : d.Regular) {f : Feature} (printable : f.block.Printable d)
    (below : f.layout.Printable d) (ordered : f.RulesLast)
    (known : Languages.builtIn.find? f.language = some d) (uri : Option Text) :
    (parseLenient .builtIn Languages.defaultCode f.print uri).diagnostics = [] ∧
      (parseLenient .builtIn Languages.defaultCode f.print uri).feature.map Feature.forgetLines =
        some f.forgetLines := by
  obtain ⟨before, behind, split, _⟩ := List.lookup_eq_some_iff.mp known
  have member : (f.language, d) ∈ Languages.builtIn := by
    rw [split]
    exact List.mem_append_right _ List.mem_cons_self
  have lines : Text.lines f.print = f.lines ++ [[]] := by
    rw [f.print_eq]
    exact Text.lines_printLines (Feature.isLine regular printable below member)
  obtain ⟨next, between, reads⟩ := Feature.reads regular printable member
  have laid := Layout.reads regular below (ordered.follows false) between
  have read : marks d (f.lines ++ [[]]) =
      languageMarks f.language ++ (f.block.marks 4 ++ marksFrom d next (f.layout.lines ++ [[]])) := by
    rw [marks, Feature.lines, List.append_assoc, reads, List.append_assoc]
  have named : languageOf Languages.defaultCode (Text.lines f.print) = f.language := by
    rw [lines, Feature.languageOf_lines regular printable member]
  rw [parseLenient_known named known, lines, read]
  exact documentOf_printed printable below laid uri _ 4

/-! ### Features that were read -/

/-- A lenient reader reads every text. -/
theorem Parser.parse_lenient {p : Parser} (lenient : p.strict = false) (languages : Languages) (text : Text)
    (uri : Option Text) : p.parse languages text uri = .ok (parseLenient languages p.language text uri) := by
  rw [parse]
  split
  · rw [lenient]
    rfl
  · rfl

/-- A lenient reader reads a text whose language is known in the dialect of this language. -/
theorem Parser.parse_known {p : Parser} {languages : Languages} {text language : Text} {uri : Option Text}
    (lenient : p.strict = false) (named : languageOf p.language (Text.lines text) = language)
    (known : languages.find? language = some d) :
    p.parse languages text uri = .ok (documentOf language uri (Text.lines text).length []
      (numberFrom 1 (marks d (Text.lines text)))) :=
  (parse_lenient lenient languages text uri).trans (congrArg _ (parseLenient_known named known))

theorem Parser.parse_english {text : Text} {uri : Option Text}
    (plain : languageOf Languages.defaultCode (Text.lines text) = Languages.defaultCode) :
    ({} : Parser).parse .builtIn text uri = .ok (documentOf Languages.defaultCode uri (Text.lines text).length []
      (numberFrom 1 (marks .english (Text.lines text)))) :=
  parse_known rfl plain rfl

/-- The dialect that a document is read in. -/
def Languages.dialectOf (languages : Languages) (default : Text) (lines : List Text) : Dialect :=
  (languages.find? (languageOf default lines)).getD .english

/-- Texts that name one language are read in one language that is built in, and nothing is reported ahead of their
lines but an unknown language. -/
theorem parseLenient_eq (default : Text) (lines : List Text) :
    ∃ language early, Languages.builtIn.find? language = some (Languages.builtIn.dialectOf default lines) ∧
      (∀ x ∈ early, ∃ code fallback, x.problem = .unknownLanguage code fallback) ∧
        ∀ text uri, languageOf default (Text.lines text) = languageOf default lines →
          parseLenient .builtIn default text uri = documentOf language uri (Text.lines text).length early
            (numberFrom 1 (marksFrom (Languages.builtIn.dialectOf default lines) .start (Text.lines text))) := by
  rw [Languages.dialectOf]
  cases found : Languages.builtIn.find? (languageOf default lines) with
  | some d =>
    exact ⟨languageOf default lines, [], found, List.forall_mem_nil _,
      fun _ _ named => parseLenient_known named found⟩
  | none =>
    refine ⟨Languages.defaultCode, [⟨1, .unknownLanguage (languageOf default lines) Languages.defaultCode⟩], rfl,
      List.forall_mem_singleton.mpr ⟨_, _, rfl⟩, fun _ _ named => ?_⟩
    rw [parseLenient, named, found]
    rfl

theorem regular_of_find? {language : Text} (known : Languages.builtIn.find? language = some d) :
    (language, d) ∈ Languages.builtIn ∧ d.Regular := by
  obtain ⟨before, behind, split, _⟩ := List.lookup_eq_some_iff.mp known
  have member : (language, d) ∈ Languages.builtIn := by
    rw [split]
    exact List.mem_append_right _ List.mem_cons_self
  exact ⟨member, Languages.regular_of_mem_builtIn _ member⟩

theorem plain_of_mem_lines {text : Text} (plain : '\r' ∉ text) :
    ∀ line ∈ Text.lines text, '\n' ∉ line ∧ '\r' ∉ line := by
  intro line member
  rw [Text.lines_eq_splitAtChar plain] at member
  exact ⟨Text.not_mem_of_mem_splitAtChar member,
    fun inside => plain (Text.subset_of_mem_splitAtChar member _ inside)⟩

section Documents

variable {language : Text} {uri : Option Text} {count : Nat} {early : List Diagnostic} {lines : List Text}
  {f : Feature}

/-- The headings of a document, in their order. -/
theorem kinds_sections (tags : List Tag) (n : Nat) (marks : List Mark) :
    (sectionsFrom tags (cutAtHeadings (numberFrom n marks)).2).map (fun s => s.heading.kind) =
      marks.filterMap Mark.headingKind? := by
  have kinds := kinds_cutAtHeadings (numberFrom n marks)
  rw [map_snd_numberFrom, ← sectionsFrom_map tags (cutAtHeadings (numberFrom n marks)).2,
    List.map_map] at kinds
  exact kinds

/-- A feature that was read is made of the sections of its lines, the first of them being its own. -/
theorem exists_sections_of_documentOf (regular : d.Regular)
    (read : (documentOf language uri count early (numberFrom 1 (marksFrom d .start lines))).feature = some f) :
    ∃ tags s rest, (∀ tag ∈ tags, isTagName tag.name = true) ∧
      sectionsFrom tags (cutAtHeadings (numberFrom 1 (marksFrom d .start lines))).2 = s :: rest ∧
        s.heading.kind = .feature ∧ featureOf language (s :: rest) = some f := by
  simp only [documentOf] at read
  generalize above : tagsOf _ = tags at read
  have named : ∀ tag ∈ tags, isTagName tag.name = true := fun _ member => isTagName_of_mem_tagsOf (above ▸ member)
  have first := head_headingKind? regular (p := .start) rfl lines
  rw [← kinds_sections tags 1] at first
  cases sections : sectionsFrom tags (cutAtHeadings (numberFrom 1 (marksFrom d .start lines))).2 with
  | nil =>
    rw [sections] at read
    cases read
  | cons s rest =>
    rw [sections] at read first
    exact ⟨tags, s, rest, named, sections, first _ rfl, read⟩

/-- A feature that was read can be printed, if no line holds a carriage return. -/
theorem printable_of_documentOf (regular : d.Regular) (plain : ∀ line ∈ lines, '\n' ∉ line ∧ '\r' ∉ line)
    (read : (documentOf language uri count early (numberFrom 1 (marksFrom d .start lines))).feature = some f) :
    f.block.Printable d ∧ f.layout.Printable d ∧ f.language = language := by
  obtain ⟨tags, s, rest, named, sections, kind, collected⟩ := exists_sections_of_documentOf regular read
  have printable := printable_sectionsFrom regular plain .start 1 named
  rw [sections] at printable
  exact printable_of_featureOf printable kind collected

/-- A feature that was read without any report has its rules last. -/
theorem rulesLast_of_diagnostics (regular : d.Regular)
    (read : (documentOf language uri count early (numberFrom 1 (marksFrom d .start lines))).feature = some f)
    (quiet : (documentOf language uri count early (numberFrom 1 (marksFrom d .start lines))).diagnostics = []) :
    f.RulesLast := by
  have known : ∀ text, Mark.unrecognized text ∉ marksFrom d .start lines := by
    intro text member
    rw [← map_snd_numberFrom 1 (marksFrom d .start lines)] at member
    obtain ⟨⟨n, mark⟩, among, rfl⟩ := List.mem_map.mp member
    have reported : ⟨n, .unrecognizedLine text⟩ ∈ ([] : List Diagnostic) :=
      quiet ▸ mem_diagnostics_of_unrecognized among
    cases reported
  have ordered := pairwise_headings regular known
  simp only [documentOf] at read
  generalize tagsOf _ = tags at read
  rw [← kinds_sections tags 1] at ordered
  generalize sectionsFrom tags _ = sections at read ordered
  cases sections with
  | nil => cases read
  | cons s rest =>
    cases read
    exact pairwise_nodes (List.pairwise_cons.mp ordered).2

end Documents

/-! ### Reading, printing and reading again -/

/-- A feature that was read without carriage returns and has its rules last is printed as a text that reads as
the same feature, without any report, and is printed as this text again. Without reports a feature always has its
rules last; the lines, tags or languages reported for the first text do not matter. -/
theorem parse_print {text : Text} (plain : '\r' ∉ text) (default : Text) (uri other : Option Text) :
    ∃ document, ({ language := default } : Parser).parse .builtIn text uri = .ok document ∧
      ∀ f, document.feature = some f →
        (document.diagnostics = [] → f.RulesLast) ∧
          (f.RulesLast → ∃ again, ({} : Parser).parse .builtIn document.print other = .ok again ∧
            again.diagnostics = [] ∧ again.feature.map Feature.forgetLines = some f.forgetLines ∧
              again.print = document.print) := by
  refine ⟨_, Parser.parse_lenient rfl .builtIn text uri, fun f found => ?_⟩
  obtain ⟨language, early, known, -, read⟩ := parseLenient_eq default (Text.lines text)
  have same := read text uri rfl
  obtain ⟨_, regular⟩ := regular_of_find? known
  refine ⟨fun quiet => ?_, fun ordered => ?_⟩
  · rw [same] at found quiet
    exact rulesLast_of_diagnostics regular found quiet
  · have printed : (parseLenient .builtIn default text uri).print = f.print := by rw [Document.print, found]
    rw [same] at found
    obtain ⟨printable, below, rfl⟩ := printable_of_documentOf regular (plain_of_mem_lines plain) found
    obtain ⟨quiet, shown⟩ := parseLenient_print regular printable below ordered known other
    refine ⟨_, Parser.parse_lenient rfl .builtIn _ other, ?_⟩
    rw [printed]
    refine ⟨quiet, shown, ?_⟩
    obtain ⟨g, reread, alike⟩ := Option.map_eq_some_iff.mp shown
    rw [Document.print, reread]
    exact Feature.print_congr alike

/-- A line that is passed over in the first text is not in the second. -/
theorem parse_print_unrecognized_line :
    ∃ document f again, ({ language := "de" } : Parser).parse .builtIn
        "@t\nFunktionalität: f\nRegel: r\nSzenario: s\nWenn a\n| x\\|y |\nnichts" none = .ok document ∧
      document.feature = some f ∧ document.diagnostics = [⟨7, .unrecognizedLine "nichts"⟩] ∧
      ({} : Parser).parse .builtIn document.print none = .ok again ∧ again.diagnostics = [] ∧
      again.feature.map Feature.forgetLines = some f.forgetLines ∧ again.print = document.print := by
  have plain : '\r' ∉ ("@t\nFunktionalität: f\nRegel: r\nSzenario: s\nWenn a\n| x\\|y |\nnichts" : Text) := by decide
  obtain ⟨document, read, shown⟩ := parse_print plain "de" none none
  have evaluated : document.diagnostics = [⟨7, .unrecognizedLine "nichts"⟩] ∧
      document.feature.map (fun f => decide f.RulesLast) = some true := by
    have known : Languages.builtIn.find? "de" = some .german := rfl
    obtain rfl := Except.ok.inj ((Parser.parse_known rfl (by cbv) known).symm.trans read)
    constructor <;> cbv
  obtain ⟨reported, ordered⟩ := evaluated
  obtain ⟨f, found, ordered⟩ := Option.map_eq_some_iff.mp ordered
  obtain ⟨again, reread, same⟩ := (shown f found).2 (of_decide_eq_true ordered)
  exact ⟨document, f, again, read, found, reported, reread, same⟩

end Gherkin
