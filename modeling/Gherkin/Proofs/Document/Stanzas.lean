import Gherkin.Proofs.Document.Nodes

/-! # Stanzas

A tree consists of its headings, each with the tags above it and the steps or rows right below it. These stanzas, in
the order of the tree, are the sections that the tree was made of (`Gherkin.stanzas_documentOf`).
-/

namespace Gherkin

/-- A heading with the tags above it and what stands right below it. -/
structure Stanza where
  heading : HeadingLine
  description : Text
  tags : List Tag
  steps : List Step
  rows : List Row
  deriving DecidableEq, Repr

/-! ### The stanzas of trees -/

def Examples.stanza (e : Examples) : Stanza :=
  ⟨⟨.examples, e.keyword, e.name, e.line⟩, e.description, e.tags, [], e.header.toList ++ e.body⟩

def Background.stanza (nested : Bool) (b : Background) : Stanza :=
  ⟨⟨.background nested, b.keyword, b.name, b.line⟩, b.description, [], b.steps, []⟩

def Scenario.stanza (nested : Bool) (s : Scenario) : Stanza :=
  ⟨⟨.scenario nested s.isOutline, s.keyword, s.name, s.line⟩, s.description, s.tags, s.steps, []⟩

def Rule.stanza (r : Rule) : Stanza := ⟨⟨.rule, r.keyword, r.name, r.line⟩, r.description, r.tags, [], []⟩

def Feature.stanza (f : Feature) : Stanza :=
  ⟨⟨.feature, f.keyword, f.name, f.line⟩, f.description, f.tags, [], []⟩

def Element.stanzas (nested : Bool) : Element → List Stanza
  | .background b => [b.stanza nested]
  | .scenario s => s.stanza nested :: s.examples.map Examples.stanza

def Child.stanzas : Child → List Stanza
  | .rule r => r.stanza :: r.children.flatMap (Element.stanzas true)
  | .element e => e.stanzas false

def Feature.stanzas (f : Feature) : List Stanza := f.stanza :: f.children.flatMap Child.stanzas

/-- The stanzas of a document in the order of its tree. -/
def Document.stanzas (d : Document) : List Stanza := (d.feature.map Feature.stanzas).getD []

/-! ### The stanzas of sections -/

/-- The tags that a heading of a kind keeps: a background has none. -/
def Heading.keptTags (tags : List Tag) : Heading → List Tag
  | .background _ => []
  | _ => tags

/-- The stanza that a section is. -/
def Section.stanza (s : Section) : Stanza where
  heading := s.heading
  description := s.description
  tags := s.heading.kind.keptTags s.tags
  steps := match s.heading.kind with
    | .background _ | .scenario _ _ => s.steps
    | _ => []
  rows := match s.heading.kind with
    | .examples => s.rows
    | _ => []

/-- The stanzas that were collected, in the order in which their headings stand. -/
def Nodes.stanzas (n : Nodes) : List Stanza :=
  n.examples.map Examples.stanza ++ n.inner.flatMap (Element.stanzas true) ++ n.outer.flatMap Child.stanzas

theorem Section.stanza_examples {s : Section} (kind : s.heading.kind = .examples) :
    s.toExamples.stanza = s.stanza := by
  rw [Examples.stanza, s.rows_toExamples]
  obtain ⟨⟨_, keyword, name, line⟩, tags, marks⟩ := s
  cases kind
  rfl

theorem Section.stanzas_background {s : Section} {nested : Bool} (kind : s.heading.kind = .background nested) :
    (Element.background s.toBackground).stanzas nested = [s.stanza] := by
  obtain ⟨⟨_, keyword, name, line⟩, tags, marks⟩ := s
  cases kind
  rfl

theorem Section.stanzas_scenario {s : Section} {nested outline : Bool}
    (kind : s.heading.kind = .scenario nested outline) (examples : List Examples) :
    (Element.scenario (s.toScenario outline examples)).stanzas nested =
      s.stanza :: examples.map Examples.stanza := by
  obtain ⟨⟨_, keyword, name, line⟩, tags, marks⟩ := s
  cases kind
  rfl

theorem Section.stanzas_rule {s : Section} (kind : s.heading.kind = .rule) (children : List Element) :
    (Child.rule (s.toRule children)).stanzas = s.stanza :: children.flatMap (Element.stanzas true) := by
  obtain ⟨⟨_, keyword, name, line⟩, tags, marks⟩ := s
  cases kind
  rfl

theorem Nodes.stanzas_addElement {n : Nodes} {nested : Bool} (inner : nested = false → n.inner = []) (e : Element) :
    (n.addElement nested e).stanzas =
      e.stanzas nested ++ n.inner.flatMap (Element.stanzas true) ++ n.outer.flatMap Child.stanzas := by
  cases nested with
  | true => simp [addElement, stanzas]
  | false => simp [addElement, stanzas, inner rfl, Child.stanzas]

/-- A section in front of sections that stand at the place after its heading. -/
theorem Nodes.stanzas_add {n : Nodes} {s : Section} {nested : Bool}
    (stands : n.Stands (s.heading.kind.place nested)) (fits : s.heading.kind.Fits nested)
    (other : s.heading.kind ≠ .feature) : (n.add s).stanzas = s.stanza :: n.stanzas := by
  rw [Nodes.add]
  cases kind : s.heading.kind with
  | feature => exact absurd kind other
  | rule =>
    rw [kind] at stands
    simp [stanzas, Section.stanzas_rule kind, stands.examples rfl]
  | background inRule =>
    rw [kind] at stands fits
    obtain rfl : inRule = nested := fits
    have inner : inRule = false → n.inner = [] := stands.inner
    rw [stanzas_addElement inner, Section.stanzas_background kind, stanzas, stands.examples rfl]
    rfl
  | scenario inRule outline =>
    rw [kind] at stands fits
    obtain rfl : inRule = nested := fits
    have inner : inRule = false → n.inner = [] := stands.inner
    rw [stanzas_addElement inner, Section.stanzas_scenario kind, stanzas]
    rfl
  | examples => simp [stanzas, Section.stanza_examples kind]

section Documents

variable {d : Dialect}

/-- The sections of some lines after the heading of a feature are collected in their order. -/
theorem stanzas_nodes (regular : d.Regular) (lines : List Text) {p : Position} (late : p.place ≠ .preamble) (n : Nat)
    (tags : List Tag) :
    (nodes (sectionsAt d p n tags lines)).stanzas = (sectionsAt d p n tags lines).map Section.stanza := by
  induction lines generalizing p n tags with
  | nil => rfl
  | cons raw rest ih =>
    rcases p.heading_or_plain regular raw rest with ⟨kind, keyword, name, marked, fits, early, _⟩ | plain
    · have below : (Position.after (kind.place p.place.inRule)).place ≠ .preamble := kind.place_late p.place.inRule
      obtain ⟨stands, -⟩ := walk_nodes regular rest below (n + 1) (tagsOf (frontAt d _ (n + 1) rest))
      rw [sectionsAt_heading marked, nodes, List.map_cons, ← ih below]
      exact Nodes.stanzas_add stands fits fun same => late (early.mp same)
    · rw [sectionsAt_plain plain]
      exact ih (((p.marking regular raw rest).within plain).late late) (n + 1) tags

theorem stanzas_featureOf (regular : d.Regular) (language : Text) (lines : List Text) {p : Position}
    (start : p.place = .preamble) (n : Nat) (tags : List Tag) :
    ((featureOf language (sectionsAt d p n tags lines)).map Feature.stanzas).getD [] =
      (sectionsAt d p n tags lines).map Section.stanza := by
  induction lines generalizing p n with
  | nil => rfl
  | cons raw rest ih =>
    have marking := p.marking regular raw rest
    rcases p.heading_or_plain regular raw rest with ⟨kind, keyword, name, marked, _, early, _⟩ | plain
    · obtain rfl := early.mpr start
      have below : (Position.after (Heading.feature.place p.place.inRule)).place ≠ .preamble := by rintro ⟨⟩
      have collected := stanzas_nodes regular rest below (n + 1)
      obtain ⟨stands, -⟩ := walk_nodes regular rest below (n + 1) (tagsOf (frontAt d _ (n + 1) rest))
      rw [sectionsAt_heading marked, List.map_cons, ← collected, Nodes.stanzas, stands.examples rfl, stands.inner rfl]
      rfl
    · obtain feature | ⟨_, later⟩ := marking.early start
      · cases mark : (p.mark d raw rest).1 <;> rw [mark] at plain feature
        all_goals cases feature
        cases plain
      · rw [sectionsAt_plain plain]
        exact ih later (n + 1)

/-- The stanzas of a document that was read are its sections. -/
theorem stanzas_documentOf (regular : d.Regular) (language : Text) (uri : Option Text) (count : Nat)
    (early : List Diagnostic) (lines : List Text) :
    (documentOf language uri count early (numberFrom 1 (marksFrom d .start lines))).stanzas =
      (sectionsAt d .start 1 (tagsOf (frontAt d .start 1 lines)) lines).map Section.stanza :=
  stanzas_featureOf regular language lines rfl 1 _

end Documents

end Gherkin
