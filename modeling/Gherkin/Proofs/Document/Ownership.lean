import Mathlib
import Gherkin.Proofs.Document.Provenance

/-! # Which rule owns what

A background or scenario belongs to the rule before it, unless a line in between is skipped that reads like the heading
of a feature: such a line ends the rule. So a feature has its rules last exactly if every background and scenario
behind a rule is still reached by one (`Gherkin.parse_owns_iff`).
-/

namespace Gherkin

/-! ### Stray headings -/

/-- Whether a heading opens a background or scenario, and then whether in a rule. -/
def Heading.nested? : Heading → Option Bool
  | .background nested | .scenario nested _ => some nested
  | _ => none

/-- Whether a document reports that it skipped a line that reads like the heading of a feature. -/
def Document.StraysAt (document : Document) (d : Dialect) (line : Nat) : Prop :=
  ∃ text, ⟨line, .unrecognizedLine text⟩ ∈ document.diagnostics ∧ (heading? d.feature text).isSome = true

/-- Whether a rule stands before a line. -/
def Document.RuleBefore (document : Document) (line : Nat) : Prop :=
  ∃ rule ∈ document.stanzas, rule.heading.kind = .rule ∧ rule.heading.line < line

/-- Whether a rule goes on up to a line: no stray heading ends it in between. -/
def Document.RuleReaches (document : Document) (d : Dialect) (line : Nat) : Prop :=
  ∃ rule ∈ document.stanzas, rule.heading.kind = .rule ∧ rule.heading.line < line ∧
    ∀ stray, document.StraysAt d stray → rule.heading.line < stray → line ≤ stray

/-! ### Lines that end a rule -/

section Marking

variable {d : Dialect} {nested : Bool} {t u : Text} {next : Position}

/-- A heading that is recognized is no line that is passed over. -/
theorem childHeading?_ne_unrecognized {marked : Mark × Position} (found : childHeading? d nested t = some marked) :
    marked.1 ≠ .unrecognized u := by
  rw [childHeading?] at found
  split at found
  · cases found
    rintro ⟨⟩
  · split at found
    · cases found
      rintro ⟨⟩
    · obtain ⟨_, -, rfl⟩ := Option.map_eq_some_iff.mp found
      rintro ⟨⟩

/-- Where no heading is found, the line itself is passed over and the rule goes on. -/
theorem unrecognized_of_getD {found : Option (Mark × Position)} {inner : Bool}
    (headings : ∀ marked, found = some marked → marked.1 ≠ .unrecognized u)
    (marked : found.getD (.unrecognized t, .within (.children inner)) = (.unrecognized u, next)) :
    u = t ∧ next.place.inRule = inner := by
  cases found with
  | some other => exact absurd (congrArg Prod.fst marked) (headings other rfl)
  | none =>
    cases marked
    exact ⟨rfl, rfl⟩

/-- Between the children of a rule, a line that is not recognized ends the rule if it reads like a feature. -/
theorem markChild_unrecognized (marked : markChild d nested t = (.unrecognized u, next)) :
    u = t ∧ next.place.inRule = (nested && !(heading? d.feature t).isSome) := by
  rw [markChild] at marked
  split at marked
  · cases marked
  · split at marked
    · rename_i inner
      obtain ⟨same, within⟩ := unrecognized_of_getD (fun _ => childHeading?_ne_unrecognized) marked
      obtain ⟨rfl, other⟩ := Bool.and_eq_true_iff.mp inner
      rw [Bool.not_eq_true', Bool.or_eq_false_iff] at other
      exact ⟨same, by rw [within, other.2]; rfl⟩
    · rename_i outer
      rw [markInFeature] at marked
      split at marked
      · cases marked
      · rename_i noRule
        obtain ⟨same, within⟩ := unrecognized_of_getD (fun _ => childHeading?_ne_unrecognized) marked
        rw [noRule] at outer
        refine ⟨same, within.trans ?_⟩
        cases nested with
        | false => rfl
        | true => simpa [Option.isSome_iff_ne_none] using outer

theorem markBlock_unrecognized {ahead : List Text} (marked : markBlock d nested t ahead = (.unrecognized u, next)) :
    markChild d nested t = (.unrecognized u, next) := by
  rw [markBlock] at marked
  split at marked
  · cases marked
  · split at marked
    · cases marked
    · exact marked

theorem markStep_unrecognized {inScenario : Bool} {ahead : List Text}
    (marked : markStep d inScenario nested t ahead = (.unrecognized u, next)) :
    markChild d nested t = (.unrecognized u, next) := by
  rw [markStep] at marked
  split at marked
  · cases marked
  · split at marked
    · exact markBlock_unrecognized marked
    · exact marked

/-- Wherever a line is passed over, it is no heading below the rule or feature. -/
theorem Place.mark_unrecognized {place : Place} {raw : Text} {ahead : List Text}
    (marked : place.mark d t raw ahead = (.unrecognized u, next)) :
    markChild d place.inRule t = (.unrecognized u, next) := by
  cases place with
  | preamble =>
    rw [mark] at marked
    split at marked
    · cases marked
    · split at marked <;> cases marked
  | children => exact marked
  | steps => exact markStep_unrecognized marked
  | argument =>
    rw [mark] at marked
    split at marked
    · cases marked
    · split at marked
      · cases marked
      · exact markStep_unrecognized marked
  | rows =>
    rw [mark] at marked
    split at marked
    · cases marked
    · exact markStep_unrecognized marked
  | doc => cases marked
  | blocks => exact markBlock_unrecognized marked
  | examples | exampleRows =>
    rw [mark] at marked
    split at marked
    · cases marked
    · exact markBlock_unrecognized marked

/-- A line that is passed over leaves the rule exactly if it is the heading of a feature. -/
theorem Position.mark_unrecognized {p : Position} {raw : Text} {ahead : List Text}
    (marked : p.mark d raw ahead = (.unrecognized u, next)) :
    u = Text.trim raw ∧ next.place.inRule = (p.place.inRule && !(heading? d.feature u).isSome) := by
  have child : markChild d p.place.inRule (Text.trim raw) = (.unrecognized u, next) := by
    unfold mark at marked
    split at marked
    · split at marked <;> cases marked
    · split at marked
      · split at marked <;> cases marked
      · rename_i c t line
        rw [line]
        split at marked
        · cases marked
        · split at marked
          · cases marked
          · exact Place.mark_unrecognized marked
  obtain ⟨rfl, within⟩ := markChild_unrecognized child
  exact ⟨rfl, within⟩

/-- Whether a mark says that a line was skipped that reads like the heading of a feature. -/
def Mark.isStray (d : Dialect) : Mark → Bool
  | .unrecognized text => (heading? d.feature text).isSome
  | _ => false

/-- Rules are entered at their headings and left at stray headings of features. -/
theorem Position.inRule_mark (regular : d.Regular) (p : Position) (raw : Text) (ahead : List Text) :
    (p.mark d raw ahead).2.place.inRule =
      ((p.mark d raw ahead).1.headingKind? = some .rule || p.place.inRule && !(p.mark d raw ahead).1.isStray d) := by
  have marking := p.marking regular raw ahead
  have unrecognized {u : Text} {next : Position} := @Position.mark_unrecognized d u next p raw ahead
  generalize p.mark d raw ahead = marked at marking unrecognized ⊢
  obtain ⟨mark, next⟩ := marked
  cases marking with
  | @heading _ _ _ _ kind _ _ _ early =>
    cases kind with
    | feature => simp [Heading.place, Place.inRule, Mark.headingKind?, early.mp rfl]
    | _ => simp [Heading.place, Place.inRule, Mark.headingKind?, Mark.isStray]
  | unrecognized => simp [unrecognized rfl, Mark.headingKind?, Mark.isStray]
  | blank => simp [Place.inRule_afterBlank, Mark.headingKind?, Mark.isStray]
  | row after => simp [Place.inRule_afterRow? after, Mark.headingKind?, Mark.isStray]
  | tags _ same => simp [same, Mark.headingKind?, Mark.isStray]
  | _ => simp [Place.inRule, Mark.headingKind?, Mark.isStray]

end Marking

/-! ### Runs of marks -/

section Runs

variable {d : Dialect}

/-- Whether no stray heading stands between two lines. -/
def ClearBetween (d : Dialect) (marks : List NumberedMark) (low high : Nat) : Prop :=
  ∀ m ∈ marks, m.2.isStray d = true → low < m.1 → high ≤ m.1

/-- Whether some marks have the heading of a rule that goes on up to a line. -/
def Reached (d : Dialect) (marks : List NumberedMark) (line : Nat) : Prop :=
  ∃ m ∈ marks, m.2.headingKind? = some .rule ∧ m.1 < line ∧ ClearBetween d marks m.1 line

theorem line_of_mem_numberFrom {n : Nat} {marks : List Mark} {m : NumberedMark} (member : m ∈ numberFrom n marks) :
    n ≤ m.1 := by
  obtain ⟨line, mark⟩ := m
  obtain ⟨i, rfl, -⟩ := mem_numberFrom.mp member
  exact Nat.le_add_right n i

variable {n line : Nat} {mark : Mark} {marks : List NumberedMark}

/-- In front of all marks, it does not matter from where on a stretch is clear. -/
theorem clearBetween_iff {low other : Nat} (behind : ∀ m ∈ marks, low < m.1 ∧ other < m.1) :
    ClearBetween d marks low line ↔ ClearBetween d marks other line :=
  forall₂_congr fun m member => imp_congr_right fun _ =>
    imp_congr_left (iff_of_true (behind m member).1 (behind m member).2)

theorem clearBetween_cons {low : Nat} :
    ClearBetween d ((n, mark) :: marks) low line ↔
      (mark.isStray d = true → low < n → line ≤ n) ∧ ClearBetween d marks low line :=
  List.forall_mem_cons

/-- What a mark in front of others adds for a line behind it. -/
theorem reached_cons (behind : ∀ m ∈ marks, n < m.1) (later : n < line) :
    Reached d ((n, mark) :: marks) line ↔
      Reached d marks line ∨ mark.headingKind? = some .rule ∧ ClearBetween d marks n line := by
  have skip {low : Nat} (above : n ≤ low) :
      ClearBetween d ((n, mark) :: marks) low line ↔ ClearBetween d marks low line := by
    rw [clearBetween_cons]
    exact and_iff_right fun _ below => absurd below (Nat.not_lt.mpr above)
  rw [Reached, List.exists_mem_cons_iff, or_comm, skip (Nat.le_refl n)]
  refine or_congr (exists_congr fun m => and_congr_right fun member => ?_) ?_
  · rw [skip (behind m member).le]
  · simp [later]

/-- A background or scenario is nested exactly if the position is in a rule. -/
theorem Marking.nested_eq {p next : Position} {raw : Text} {kind : Heading} {nested : Bool}
    (marking : Marking d p raw mark next) (heads : mark.headingKind? = some kind)
    (element : kind.nested? = some nested) : nested = p.place.inRule := by
  cases mark with
  | heading =>
    cases heads
    obtain ⟨fits, -⟩ := marking.of_heading
    cases kind with
    | background | scenario =>
      cases element
      exact fits
    | _ => cases element
  | _ => cases heads

/-- The heading of a background or scenario says whether it stands in a rule that was entered before and not left. -/
theorem nested_iff (regular : d.Regular) (lines : List Text) (p : Position) {n : Nat} (positive : 0 < n)
    {kind : Heading} {nested : Bool} (member : (line, mark) ∈ numberFrom n (marksFrom d p lines))
    (heads : mark.headingKind? = some kind) (element : kind.nested? = some nested) :
    nested = true ↔ Reached d (numberFrom n (marksFrom d p lines)) line ∨
      p.place.inRule = true ∧ ClearBetween d (numberFrom n (marksFrom d p lines)) 0 line := by
  induction lines generalizing p n with
  | nil => cases member
  | cons raw rest ih =>
    have rule := p.inRule_mark regular raw rest
    have marking := p.marking regular raw rest
    rw [marksFrom, numberFrom] at member ⊢
    generalize (p.mark d raw rest).1 = first at member marking rule ⊢
    have behind : ∀ m ∈ numberFrom (n + 1) (marksFrom d (p.mark d raw rest).2 rest), n < m.1 :=
      fun m among => line_of_mem_numberFrom among
    obtain same | later := List.mem_cons.mp member
    · obtain ⟨rfl, rfl⟩ := Prod.mk.inj same
      -- Nothing stands in front of the heading, so it is in the rule that the first position is in.
      have unreached : ¬ Reached d ((line, mark) :: numberFrom (line + 1) (marksFrom d (p.mark d raw rest).2 rest))
          line := by
        rintro ⟨m, among, -, before, -⟩
        obtain rfl | among := List.mem_cons.mp among
        · exact lt_irrefl _ before
        · exact lt_asymm before (behind m among)
      have clear : ClearBetween d ((line, mark) :: numberFrom (line + 1) (marksFrom d (p.mark d raw rest).2 rest))
          0 line :=
        clearBetween_cons.mpr ⟨fun _ _ => le_rfl, fun m among _ _ => (behind m among).le⟩
      rw [marking.nested_eq heads element, or_iff_right unreached, and_iff_left clear]
    · have after := behind _ later
      have stray : (first.isStray d = true → 0 < n → line ≤ n) ↔ first.isStray d = false := by
        rw [Bool.eq_false_iff]
        exact ⟨fun none stray => absurd (none stray positive) (Nat.not_le.mpr after),
          fun none stray => absurd stray none⟩
      have clear : ClearBetween d (numberFrom (n + 1) (marksFrom d (p.mark d raw rest).2 rest)) n line ↔
          ClearBetween d (numberFrom (n + 1) (marksFrom d (p.mark d raw rest).2 rest)) 0 line :=
        clearBetween_iff fun m among => ⟨behind m among, positive.trans (behind m among)⟩
      rw [ih (p.mark d raw rest).2 n.succ_pos later, rule, reached_cons behind after, clearBetween_cons, stray, clear]
      simp only [Bool.or_eq_true, Bool.and_eq_true, decide_eq_true_eq, Bool.not_eq_true']
      tauto

end Runs

/-! ### Documents -/

section Documents

variable {d : Dialect} {document : Document} {lines : List Text}

/-- Cutting at headings loses no heading. -/
theorem marks_cutAtHeadings (marks : List NumberedMark) :
    (cutAtHeadings marks).2.map (fun entry => entry.1.mark) = marks.filter fun m => m.2.isHeading := by
  induction marks with
  | nil => rfl
  | cons first rest ih =>
    obtain ⟨line, mark⟩ := first
    cases mark with
    | heading kind keyword name =>
      rw [cutAtHeadings_heading, List.map_cons, ih]
      rfl
    | _ =>
      rw [cutAtHeadings_plain rfl, ih]
      rfl

/-- The headings of a document that was read are those of its marks. -/
theorem Document.ReadFrom.mem_headings (regular : d.Regular) (read : document.ReadFrom d lines) {m : NumberedMark}
    (heading : m.2.isHeading = true) :
    m ∈ numberFrom 1 (marksFrom d .start lines) ↔ ∃ s ∈ document.stanzas, s.heading.mark = m := by
  obtain ⟨language, uri, count, early, -, rfl⟩ := read
  have headed := congrArg (List.map fun entry : HeadingLine × List NumberedMark => entry.1.mark)
    (sectionsFrom_map (tagsOf (frontAt d .start 1 lines)) (cutAtHeadings (numberFrom 1 (marksFrom d .start lines))).2)
  rw [marks_cutAtHeadings, List.map_map] at headed
  rw [stanzas_documentOf regular, ← List.mem_map (f := fun s : Stanza => s.heading.mark), List.map_map]
  have same : m ∈ (numberFrom 1 (marksFrom d .start lines)).filter (fun m => m.2.isHeading) ↔
      m ∈ numberFrom 1 (marksFrom d .start lines) := by
    rw [List.mem_filter, and_iff_left heading]
  rw [← same, ← headed]
  rfl

/-- The stray headings that a document reports are those of its marks. -/
theorem Document.ReadFrom.straysAt_iff (read : document.ReadFrom d lines) {line : Nat} :
    document.StraysAt d line ↔
      ∃ m ∈ numberFrom 1 (marksFrom d .start lines), m.2.isStray d = true ∧ m.1 = line := by
  have reported (text : Text) : ⟨line, .unrecognizedLine text⟩ ∈ document.diagnostics ↔
      (line, .unrecognized text) ∈ numberFrom 1 (marksFrom d .start lines) := by
    simp only [read.mem_diagnostics (x := ⟨line, .unrecognizedLine text⟩) rfl, mem_lineDiagnostics_unrecognized,
      exists_eq_right]
  simp only [Document.StraysAt, reported]
  constructor
  · rintro ⟨text, member, feature⟩
    exact ⟨_, member, feature, rfl⟩
  · rintro ⟨⟨_, mark⟩, member, stray, rfl⟩
    cases mark with
    | unrecognized text => exact ⟨text, member, stray⟩
    | _ => cases stray

theorem Mark.isHeading_of_headingKind? {mark : Mark} {kind : Heading} (heads : mark.headingKind? = some kind) :
    mark.isHeading = true := by
  cases mark with
  | heading => rfl
  | _ => cases heads

/-- Whether no stray heading stands between two lines can be seen from the document. -/
theorem Document.ReadFrom.clearBetween_iff (read : document.ReadFrom d lines) {low high : Nat} :
    ClearBetween d (numberFrom 1 (marksFrom d .start lines)) low high ↔
      ∀ stray, document.StraysAt d stray → low < stray → high ≤ stray := by
  constructor
  · intro clear stray strays above
    obtain ⟨m, member, isStray, rfl⟩ := read.straysAt_iff.mp strays
    exact clear m member isStray above
  · intro clear m member isStray above
    exact clear m.1 (read.straysAt_iff.mpr ⟨m, member, isStray, rfl⟩) above

/-- Whether a rule reaches a line can be seen from the document. -/
theorem Document.ReadFrom.reached_iff (regular : d.Regular) (read : document.ReadFrom d lines) {line : Nat} :
    Reached d (numberFrom 1 (marksFrom d .start lines)) line ↔ document.RuleReaches d line := by
  constructor
  · rintro ⟨m, member, heads, before, clear⟩
    obtain ⟨rule, among, rfl⟩ := (read.mem_headings regular (Mark.isHeading_of_headingKind? heads)).mp member
    exact ⟨rule, among, Option.some.inj heads, before, read.clearBetween_iff.mp clear⟩
  · rintro ⟨rule, among, kind, before, clear⟩
    have member : rule.heading.mark ∈ numberFrom 1 (marksFrom d .start lines) :=
      (read.mem_headings regular rfl).mpr ⟨rule, among, rfl⟩
    exact ⟨_, member, congrArg some kind, before, read.clearBetween_iff.mpr clear⟩

/-- A background or scenario stands in a rule exactly where a rule before it goes on. -/
theorem Document.ReadFrom.nested_iff (regular : d.Regular) (read : document.ReadFrom d lines) {s : Stanza}
    (member : s ∈ document.stanzas) {nested : Bool} (element : s.heading.kind.nested? = some nested) :
    nested = true ↔ document.RuleReaches d s.heading.line := by
  have among : s.heading.mark ∈ numberFrom 1 (marksFrom d .start lines) :=
    (read.mem_headings regular rfl).mpr ⟨s, member, rfl⟩
  have outside : ¬ (Position.start.place.inRule = true ∧
      ClearBetween d (numberFrom 1 (marksFrom d .start lines)) 0 s.heading.line) := by
    rintro ⟨⟨⟩, -⟩
  rw [← read.reached_iff regular, Gherkin.nested_iff regular lines .start Nat.one_pos among rfl element,
    or_iff_left outside]

end Documents

/-! ### Rules last -/

/-- Outer headings are those of backgrounds and scenarios outside rules. -/
theorem Heading.isOuter_iff {kind : Heading} : kind.isOuter = true ↔ kind.nested? = some false := by
  cases kind with
  | background nested | scenario nested => cases nested <;> simp [isOuter, nested?]
  | _ => simp [isOuter, nested?]

/-- A background or scenario has no rule in it, and outer headings only outside rules. -/
theorem Element.kind_of_mem_stanzas {nested : Bool} {e : Element} {s : Stanza} (member : s ∈ e.stanzas nested) :
    s.heading.kind ≠ .rule ∧ (s.heading.kind.isOuter = true → nested = false) := by
  cases e with
  | background b =>
    obtain rfl := List.mem_singleton.mp member
    cases nested <;> simp [Background.stanza, Heading.isOuter]
  | scenario scenario =>
    obtain rfl | later := List.mem_cons.mp member
    · cases nested <;> simp [Scenario.stanza, Heading.isOuter]
    · obtain ⟨examples, -, rfl⟩ := List.mem_map.mp later
      simp [Examples.stanza, Heading.isOuter]

/-- Outside rules, a background or scenario has an outer heading. -/
theorem Element.exists_outer (e : Element) : ∃ s ∈ e.stanzas false, s.heading.kind.isOuter = true := by
  cases e with
  | background b => exact ⟨_, List.mem_singleton.mpr rfl, rfl⟩
  | scenario scenario => exact ⟨_, List.mem_cons_self, rfl⟩

/-- Whether headings stand in an order in which nothing outside the rules comes after them. -/
def Stanza.InOrder (first second : Stanza) : Prop :=
  first.heading.kind = .rule → second.heading.kind.isOuter = false

/-- A rule has no outer heading. -/
theorem Rule.inner_of_mem_stanzas {r : Rule} {s : Stanza} (member : s ∈ (Child.rule r).stanzas) :
    s.heading.kind.isOuter = false := by
  obtain rfl | later := List.mem_cons.mp member
  · rfl
  · obtain ⟨e, -, inside⟩ := List.mem_flatMap.mp later
    exact Bool.eq_false_iff.mpr fun outer => Bool.noConfusion ((Element.kind_of_mem_stanzas inside).2 outer)

/-- The stanzas of one child are in order. -/
theorem Child.pairwise_stanzas (c : Child) : c.stanzas.Pairwise Stanza.InOrder := by
  cases c with
  | rule r => exact List.pairwise_of_forall_mem_list fun _ _ _ inside _ => Rule.inner_of_mem_stanzas inside
  | element e =>
    exact List.pairwise_of_forall_mem_list fun _ inside _ _ rule => absurd rule (Element.kind_of_mem_stanzas inside).1

/-- The stanzas of two children are in order unless something else than a rule follows a rule. -/
theorem Child.inOrder_iff (first second : Child) :
    (∀ s ∈ first.stanzas, ∀ t ∈ second.stanzas, s.InOrder t) ↔ (first.isRule = true → second.isRule = true) := by
  cases first with
  | element e =>
    exact iff_of_true (fun _ inside _ _ rule => absurd rule (Element.kind_of_mem_stanzas inside).1) (by rintro ⟨⟩)
  | rule r =>
    cases second with
    | rule q => exact iff_of_true (fun _ _ _ inside _ => Rule.inner_of_mem_stanzas inside) fun _ => rfl
    | element e =>
      obtain ⟨t, inside, outer⟩ := e.exists_outer
      refine iff_of_false (fun ordered => ?_) fun rules => Bool.noConfusion (rules rfl)
      have inner := ordered r.stanza List.mem_cons_self t inside rfl
      rw [outer] at inner
      cases inner

/-- A feature has its rules last exactly if its headings stand in order. -/
theorem Feature.rulesLast_iff (f : Feature) : f.RulesLast ↔ f.stanzas.Pairwise Stanza.InOrder := by
  have first : ∀ s ∈ f.children.flatMap Child.stanzas, f.stanza.InOrder s := by rintro _ _ ⟨⟩
  rw [RulesLast, stanzas, List.pairwise_cons, and_iff_right first, List.pairwise_flatMap,
    and_iff_right fun c _ => c.pairwise_stanzas]
  exact (List.Pairwise.iff fun _ _ => Child.inOrder_iff _ _).symm

/-- Of headings that go on from line to line, it is the lines that tell which stand in front of which. -/
theorem pairwise_iff_of_sorted {stanzas : List Stanza} {holds : Stanza → Stanza → Prop}
    (sorted : stanzas.Pairwise fun first second => first.heading.line < second.heading.line) :
    stanzas.Pairwise holds ↔
      ∀ first ∈ stanzas, ∀ second ∈ stanzas, first.heading.line < second.heading.line → holds first second := by
  constructor
  · intro all
    induction stanzas with
    | nil => exact List.forall_mem_nil _
    | cons s rest ih =>
      obtain ⟨behind, sorted⟩ := List.pairwise_cons.mp sorted
      obtain ⟨here, later⟩ := List.pairwise_cons.mp all
      intro first inFirst second inSecond before
      rcases List.mem_cons.mp inFirst with rfl | firstLater <;>
        rcases List.mem_cons.mp inSecond with rfl | secondLater
      · exact absurd before (lt_irrefl _)
      · exact here second secondLater
      · exact absurd before (lt_asymm (behind first firstLater))
      · exact ih sorted later first firstLater second secondLater before
  · intro all
    exact sorted.imp_of_mem fun inFirst inSecond before => all _ inFirst _ inSecond before

/-- A background or scenario is in a rule exactly where a rule before it goes on, and the rules of a feature are last
exactly if no background or scenario stands behind a rule that a stray heading ended. -/
theorem parse_owns_iff (default text : Text) (uri : Option Text) :
    ∃ document, ({ language := default } : Parser).parse .builtIn text uri = .ok document ∧
      (∀ s ∈ document.stanzas, ∀ nested, s.heading.kind.nested? = some nested →
        (nested = true ↔
          document.RuleReaches (Languages.builtIn.dialectOf default (Text.lines text)) s.heading.line)) ∧
      ∀ f, document.feature = some f →
        (f.RulesLast ↔ ∀ s ∈ document.stanzas, s.heading.kind.nested?.isSome = true →
          document.RuleBefore s.heading.line →
            document.RuleReaches (Languages.builtIn.dialectOf default (Text.lines text)) s.heading.line) := by
  have read := parseLenient_readFrom default text uri
  have regular := Languages.dialectOf_regular default (Text.lines text)
  refine ⟨_, Parser.parse_lenient rfl .builtIn text uri, fun s member nested => read.nested_iff regular member, ?_⟩
  intro f found
  have stanzas : (parseLenient .builtIn default text uri).stanzas = f.stanzas := by rw [Document.stanzas, found]; rfl
  rw [f.rulesLast_iff, ← stanzas, pairwise_iff_of_sorted (read.stanzas_pairwise regular)]
  constructor
  · rintro ordered s member element ⟨rule, among, kind, before⟩
    obtain ⟨nested, element⟩ := Option.isSome_iff_exists.mp element
    refine (read.nested_iff regular member element).mp ?_
    have inner := ordered rule among s member before kind
    cases nested with
    | true => rfl
    | false =>
      rw [Heading.isOuter_iff.mpr element] at inner
      cases inner
  · intro reached rule among s member before kind
    refine Bool.eq_false_iff.mpr fun outer => ?_
    have element := Heading.isOuter_iff.mp outer
    have nested := (read.nested_iff regular member element).mpr
      (reached s member (Option.isSome_of_eq_some element) ⟨rule, among, kind, before⟩)
    cases nested

/-- The rules of a feature are last if another rule stands behind the stray heading that ended one. -/
theorem parse_owns_behind_next_rule :
    ∃ document f, ({} : Parser).parse .builtIn "Feature: f\nRule: r\nFeature: g\nRule: q\nScenario: s" none =
        .ok document ∧ document.feature = some f ∧ document.diagnostics = [⟨3, .unrecognizedLine "Feature: g"⟩] ∧
      document.RuleReaches .english 5 ∧ f.RulesLast := by
  obtain ⟨document, read, nested, last⟩ :=
    parse_owns_iff "en" "Feature: f\nRule: r\nFeature: g\nRule: q\nScenario: s" none
  have evaluated : document.feature.isSome = true ∧ document.diagnostics = [⟨3, .unrecognizedLine "Feature: g"⟩] ∧
      document.stanzas.map (fun s => (s.heading.kind, s.heading.line)) =
        [(.feature, 1), (.rule, 2), (.rule, 4), (.scenario true false, 5)] := by
    obtain rfl := Except.ok.inj ((Parser.parse_english (by cbv)).symm.trans read)
    refine ⟨?_, ?_, ?_⟩ <;> cbv
  obtain ⟨some, reported, headings⟩ := evaluated
  obtain ⟨f, found⟩ := Option.isSome_iff_exists.mp some
  have reached : ∀ s ∈ document.stanzas, s.heading.kind.nested?.isSome = true →
      s.heading.line = 5 ∧ document.RuleReaches .english s.heading.line := by
    intro s member element
    have among := List.mem_map_of_mem (f := fun s : Stanza => (s.heading.kind, s.heading.line)) member
    rw [headings] at among
    obtain ⟨kind, line⟩ : s.heading.kind = .scenario true false ∧ s.heading.line = 5 := by
      cases kind : s.heading.kind <;> simp_all [Heading.nested?]
    exact ⟨line, (nested s member true (by rw [kind]; rfl)).mp rfl⟩
  have scenario : (Heading.scenario true false, 5) ∈
      document.stanzas.map (fun s => (s.heading.kind, s.heading.line)) := by
    simp [headings]
  obtain ⟨s, member, same⟩ := List.mem_map.mp scenario
  obtain ⟨kind, line⟩ := Prod.mk.inj same
  obtain ⟨-, here⟩ := reached s member (by rw [kind]; rfl)
  exact ⟨document, f, read, found, reported, line ▸ here,
    (last f found).mpr fun s member element _ => (reached s member element).2⟩

/-- A rule with a stray heading of a feature in it. -/
def strayText : Text := "Feature: F\n  Rule: r\n    Scenario: a\n      Given x\nFeature: G\n  Scenario: b\n"

/-- What is printed of its tree: the last scenario stands behind the heading of the rule again. -/
def strayPrinted : Text := "Feature: F\n\n  Rule: r\n\n    Scenario: a\n      Given x\n\n  Scenario: b\n"

/-- A stray heading of a feature moves the scenario behind it out of its rule, and what is printed then is read as
another tree. -/
theorem stray_heading_ends_rule :
    ∃ document f again, ({} : Parser).parse .builtIn strayText none = .ok document ∧ document.feature = some f ∧
      document.diagnostics = [⟨5, .unrecognizedLine "Feature: G"⟩] ∧ ¬ f.RulesLast ∧
        ({} : Parser).parse .builtIn document.print none = .ok again ∧
          again.feature.map Feature.forgetLines ≠ some f.forgetLines := by
  have read : ({} : Parser).parse .builtIn strayText none = .ok _ := Parser.parse_english (by cbv)
  have reread : ({} : Parser).parse .builtIn strayPrinted none = .ok _ := Parser.parse_english (by cbv)
  generalize evaluated : documentOf _ none (Text.lines strayText).length _ _ = document at read
  generalize reevaluated : documentOf _ none (Text.lines strayPrinted).length _ _ = again at reread
  have reported : document.diagnostics = [⟨5, .unrecognizedLine "Feature: G"⟩] := by
    rw [← evaluated]
    cbv
  have printed : document.print = strayPrinted := by
    rw [← evaluated]
    cbv
  have shape : document.feature.map (fun f => (decide f.RulesLast, f.children.length)) = some (false, 2) := by
    rw [← evaluated]
    cbv
  have single : again.feature.map (fun f => f.children.length) = some 1 := by
    rw [← reevaluated]
    cbv
  obtain ⟨f, found, shape⟩ := Option.map_eq_some_iff.mp shape
  obtain ⟨ordered, children⟩ := Prod.mk.inj shape
  refine ⟨document, f, again, read, found, reported, of_decide_eq_false ordered, printed ▸ reread, fun same => ?_⟩
  obtain ⟨g, readAgain, forgotten⟩ := Option.map_eq_some_iff.mp same
  rw [readAgain] at single
  have lengths := congrArg (fun f : Feature => f.children.length) forgotten
  simp [Feature.forgetLines, children, Option.some.inj single] at lengths

end Gherkin
