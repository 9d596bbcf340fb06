import Gherkin.Proofs.Document.Blocks
import Gherkin.Proofs.Document.Marking
import Gherkin.Proofs.Document.Sections

/-! # The order of headings

The first heading of a document is that of its feature. A rule goes on up to the next one unless a line is
not recognized, so that without such lines nothing outside the rules comes after them
(`Gherkin.pairwise_headings`, `Gherkin.pairwise_nodes`).
-/

namespace Gherkin

variable {d : Dialect} {p next : Position} {raw : Text} {mark : Mark}

/-- Whether a heading opens a background or scenario outside all rules. -/
def Heading.isOuter : Heading → Bool
  | .background false | .scenario false _ => true
  | _ => false

/-- In front of the feature stands nothing else that has a heading. -/
theorem Marking.early (marking : Marking d p raw mark next) (start : p.place = .preamble) :
    mark.headingKind? = some .feature ∨ (mark.headingKind? = none ∧ next.place = .preamble) := by
  cases marking with
  | heading _ _ _ early => exact .inl (congrArg some (early.mpr start))
  | blank =>
    obtain rfl := start
    exact .inr ⟨rfl, rfl⟩
  | row after =>
    obtain rfl := start
    cases after
  | docLine | closeDoc | openDoc => cases start
  | tags _ _ early => exact .inr ⟨rfl, early start⟩
  | step _ late | unrecognized late => exact absurd start late
  | unexpected => exact .inr ⟨rfl, rfl⟩
  | gap | comment | description => exact .inr ⟨rfl, start⟩

/-- The first heading of a document is that of the feature. -/
theorem head_headingKind? (regular : d.Regular) (start : p.place = .preamble) (lines : List Text) :
    ∀ kind ∈ ((marksFrom d p lines).filterMap Mark.headingKind?).head?, kind = .feature := by
  induction lines generalizing p with
  | nil => rintro _ ⟨⟩
  | cons raw rest ih =>
    rw [marksFrom]
    obtain feature | ⟨plain, start⟩ := (p.marking regular raw rest).early start
    · rw [List.filterMap_cons_some feature]
      rintro kind ⟨⟩
      rfl
    · rw [List.filterMap_cons_none plain]
      exact ih start

/-! ### Rules -/

theorem Place.inRule_afterBlank (place : Place) : place.afterBlank.inRule = place.inRule := by
  cases place <;> rfl

theorem Place.inRule_afterRow? {place next : Place} (after : place.afterRow? = some next) :
    next.inRule = place.inRule := by
  cases place with
  | argument | rows | examples | exampleRows =>
    cases after
    rfl
  | _ => cases after

/-- In a rule no heading stands outside of it, and a line that is recognized does not end it. -/
theorem Marking.nested (marking : Marking d p raw mark next) (inRule : p.place.inRule = true)
    (known : ∀ text, mark ≠ .unrecognized text) :
    (∀ kind ∈ mark.headingKind?, kind.isOuter = false) ∧ next.place.inRule = true := by
  cases marking with
  | @heading _ _ _ _ kind _ _ fits early =>
    rw [inRule] at fits
    cases kind with
    | feature =>
      rw [early.mp rfl] at inRule
      cases inRule
    | rule => exact ⟨fun kind same => by cases same; rfl, rfl⟩
    | background inner | scenario inner outline =>
      obtain rfl : inner = true := fits
      exact ⟨fun kind same => by cases same; rfl, inRule⟩
    | examples => exact ⟨fun kind same => by cases same; rfl, inRule⟩
  | blank => exact ⟨by rintro _ ⟨⟩, (Place.inRule_afterBlank _).trans inRule⟩
  | row after => exact ⟨by rintro _ ⟨⟩, (Place.inRule_afterRow? after).trans inRule⟩
  | docLine | closeDoc | openDoc | gap | comment | description => exact ⟨by rintro _ ⟨⟩, inRule⟩
  | tags _ same _ => exact ⟨by rintro _ ⟨⟩, same.trans inRule⟩
  | step _ late => exact ⟨by rintro _ ⟨⟩, inRule⟩
  | unrecognized late => exact absurd rfl (known _)
  | unexpected => cases inRule

/-- The heading of a rule starts it. -/
theorem Marking.inRule (marking : Marking d p raw mark next) (rule : mark.headingKind? = some .rule) :
    next.place.inRule = true := by
  cases marking with
  | heading =>
    cases rule
    rfl
  | _ => cases rule

/-- From a line in a rule on no heading stands outside of the rules, if every line is recognized. -/
theorem isOuter_of_mem_marksFrom (regular : d.Regular) (inRule : p.place.inRule = true) {lines : List Text}
    (known : ∀ text, Mark.unrecognized text ∉ marksFrom d p lines) :
    ∀ kind ∈ (marksFrom d p lines).filterMap Mark.headingKind?, kind.isOuter = false := by
  induction lines generalizing p with
  | nil => exact List.forall_mem_nil _
  | cons raw rest ih =>
    rw [marksFrom] at known ⊢
    have here := (p.marking regular raw rest).nested inRule fun text same =>
      known text (List.mem_cons.mpr (.inl same.symm))
    have later := ih here.2 fun text member => known text (List.mem_cons_of_mem _ member)
    intro kind member
    obtain ⟨mark, among, same⟩ := List.mem_filterMap.mp member
    obtain rfl | among := List.mem_cons.mp among
    · exact here.1 kind same
    · exact later kind (List.mem_filterMap.mpr ⟨mark, among, same⟩)

/-- If every line is recognized, no heading after that of a rule stands outside of the rules. -/
theorem pairwise_headings (regular : d.Regular) {lines : List Text}
    (known : ∀ text, Mark.unrecognized text ∉ marksFrom d p lines) :
    ((marksFrom d p lines).filterMap Mark.headingKind?).Pairwise fun first second =>
      first = .rule → second.isOuter = false := by
  induction lines generalizing p with
  | nil => exact .nil
  | cons raw rest ih =>
    rw [marksFrom] at known ⊢
    have known := fun text member => known text (List.mem_cons_of_mem _ member)
    cases heads : (p.mark d raw rest).1.headingKind? with
    | none =>
      rw [List.filterMap_cons_none heads]
      exact ih known
    | some kind =>
      rw [List.filterMap_cons_some heads, List.pairwise_cons]
      refine ⟨?_, ih known⟩
      rintro other member rfl
      exact isOuter_of_mem_marksFrom regular ((p.marking regular raw rest).inRule heads) known other member

/-! ### Nodes -/

theorem Nodes.add_inner (n : Nodes) {s : Section} (inner : s.heading.kind.isOuter = false) :
    (n.add s).outer = n.outer ∨ ∃ r, (n.add s).outer = .rule r :: n.outer := by
  rw [add]
  split
  · exact .inl rfl
  · exact .inr ⟨_, rfl⟩
  · rename_i nested kind
    cases nested with
    | true => exact .inl rfl
    | false => rw [kind] at inner; cases inner
  · rename_i nested outline kind
    cases nested with
    | true => exact .inl rfl
    | false => rw [kind] at inner; cases inner
  · exact .inl rfl

theorem Nodes.add_notRule (n : Nodes) {s : Section} (other : s.heading.kind ≠ .rule) :
    (n.add s).outer = n.outer ∨ ∃ e, (n.add s).outer = .element e :: n.outer := by
  rw [add]
  split
  · exact .inl rfl
  · rename_i kind
    exact absurd kind other
  · rename_i nested kind
    cases nested with
    | true => exact .inl rfl
    | false => exact .inr ⟨_, rfl⟩
  · rename_i nested outline kind
    cases nested with
    | true => exact .inl rfl
    | false => exact .inr ⟨_, rfl⟩
  · exact .inl rfl

theorem isRule_of_mem_nodes {sections : List Section}
    (inner : ∀ s ∈ sections, s.heading.kind.isOuter = false) :
    ∀ c ∈ (nodes sections).outer, c.isRule = true := by
  induction sections with
  | nil => exact List.forall_mem_nil _
  | cons s rest ih =>
    rw [List.forall_mem_cons] at inner
    have later := ih inner.2
    rw [nodes]
    obtain same | ⟨r, same⟩ := (nodes rest).add_inner inner.1
    · rwa [same]
    · rw [same]
      exact List.forall_mem_cons.mpr ⟨rfl, later⟩

/-- Sections whose headings stand in order have their rules last. -/
theorem pairwise_nodes {sections : List Section}
    (ordered : (sections.map fun s => s.heading.kind).Pairwise fun first second =>
      first = .rule → second.isOuter = false) :
    (nodes sections).outer.Pairwise fun first second => first.isRule = true → second.isRule = true := by
  induction sections with
  | nil => exact .nil
  | cons s rest ih =>
    obtain ⟨first, later⟩ := List.pairwise_cons.mp ordered
    rw [nodes]
    by_cases rule : s.heading.kind = .rule
    · have rules := isRule_of_mem_nodes fun s member => first _ (List.mem_map_of_mem member) rule
      rw [Nodes.add, rule]
      exact List.pairwise_cons.mpr ⟨fun c member _ => rules c member, ih later⟩
    · obtain same | ⟨e, same⟩ := (nodes rest).add_notRule rule
      · rw [same]
        exact ih later
      · rw [same]
        exact List.pairwise_cons.mpr ⟨by rintro _ _ ⟨⟩, ih later⟩

/-! ### Reports -/

/-- A line that is not recognized is reported. -/
theorem mem_diagnostics_of_unrecognized {language : Text} {uri : Option Text} {count : Nat}
    {early : List Diagnostic} {marks : List NumberedMark} {n : Nat} {text : Text}
    (member : (n, Mark.unrecognized text) ∈ marks) :
    ⟨n, .unrecognizedLine text⟩ ∈ (documentOf language uri count early marks).diagnostics := by
  have reported {some : List NumberedMark} (inside : (n, Mark.unrecognized text) ∈ some) :
      ⟨n, .unrecognizedLine text⟩ ∈ marksDiagnostics some :=
    List.mem_append_left _ (List.mem_flatMap.mpr ⟨_, inside, List.mem_singleton.mpr rfl⟩)
  simp only [documentOf, List.mem_append]
  obtain inFront | ⟨entry, among, inside⟩ := mem_cutAtHeadings member rfl
  · exact .inl (.inl (.inr (reported inFront)))
  · rw [← sectionsFrom_map (tagsOf (cutAtHeadings marks).1) (cutAtHeadings marks).2] at among
    obtain ⟨s, listed, rfl⟩ := List.mem_map.mp among
    exact .inl (.inr (List.mem_flatMap.mpr ⟨s, listed, List.mem_append_right _ (reported inside)⟩))

end Gherkin
