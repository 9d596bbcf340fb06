import Gherkin.Document.Parser
import Gherkin.Document.Printer

/-! # Blocks

A feature is written block by block: a heading with the tags above it and what stands directly below it.
The blocks of a feature are its layout. The printed feature consists of the lines of its blocks
(`Gherkin.Feature.print_eq`), and the nodes that sections are collected into are determined by the blocks
that the sections are (`Gherkin.nodes_forgetLines`), so that sections which are the blocks of a feature
form this feature again (`Gherkin.nodesOf_layout`).
-/

namespace Gherkin

/-- A heading with the tags above it and what stands directly below it, without line numbers. -/
structure Block where
  kind : Heading
  keyword : Text
  name : Text
  description : Text
  tags : List Text
  steps : List Step
  header : Option (List Text)
  body : List (List Text)

/-- The rows of the table that stands directly below a heading. -/
def Block.rows (b : Block) : List (List Text) := b.header.toList ++ b.body

/-- Whether steps stand below a heading. -/
def Heading.hasSteps : Heading → Bool
  | .background _ | .scenario _ _ => true
  | _ => false

/-! ### The blocks of a feature -/

def Examples.block (e : Examples) : Block :=
  ⟨.examples, e.keyword, e.name, e.description, e.tags.map Tag.name, [], e.header.map Row.cells,
    e.body.map Row.cells⟩

def Background.block (nested : Bool) (b : Background) : Block :=
  ⟨.background nested, b.keyword, b.name, b.description, [], b.steps.map Step.forgetLines, none, []⟩

def Scenario.block (nested : Bool) (s : Scenario) : Block :=
  ⟨.scenario nested s.isOutline, s.keyword, s.name, s.description, s.tags.map Tag.name,
    s.steps.map Step.forgetLines, none, []⟩

def Rule.block (r : Rule) : Block :=
  ⟨.rule, r.keyword, r.name, r.description, r.tags.map Tag.name, [], none, []⟩

def Feature.block (f : Feature) : Block :=
  ⟨.feature, f.keyword, f.name, f.description, f.tags.map Tag.name, [], none, []⟩

/-- Blocks one after another, each with its level. -/
abbrev Layout := List (Int × Block)

def Scenario.layout (level : Int) (nested : Bool) (s : Scenario) : Layout :=
  (level, s.block nested) :: s.examples.map fun e => (level + 1, e.block)

def Element.layout (level : Int) (nested : Bool) : Element → Layout
  | .background b => [(level, b.block nested)]
  | .scenario s => s.layout level nested

def Rule.layout (level : Int) (r : Rule) : Layout :=
  (level, r.block) :: r.children.flatMap (Element.layout (level + 1) true)

def Child.layout (level : Int) : Child → Layout
  | .rule r => r.layout level
  | .element e => e.layout level false

/-- The blocks below the heading of a feature. -/
def Feature.layout (f : Feature) : Layout := f.children.flatMap (Child.layout 1)

/-! ### Lines -/

/-- The line of tags above an element, if it has any. -/
def tagLines (level : Int) (tags : List Text) : List Text :=
  if tags.isEmpty then [] else [indentation level ++ Text.joinWith [' '] tags]

def descriptionLines (description : Text) : List Text :=
  if description.isEmpty then [] else Text.splitAtChar '\n' description

def headingLine (level : Int) (keyword name : Text) : Text :=
  Text.trimRight (indentation level ++ keyword ++ [':', ' '] ++ name)

def stepLine (level : Int) (s : Step) : Text :=
  Text.trimRight (indentation level ++ s.keyword ++ [' '] ++ s.text)

def Step.tableLines (level : Int) (s : Step) : List Text :=
  match s.table with
  | some table => Gherkin.tableLines (indentation level) (table.rows.map Row.cells)
  | none => []

def Step.docLines (level : Int) (s : Step) : List Text :=
  match s.doc with
  | some doc => doc.toLines (indentation level)
  | none => []

/-- The lines of a step and its argument. -/
def Step.lines (level : Int) (s : Step) : List Text :=
  stepLine level s :: (s.tableLines (level + 1) ++ s.docLines (level + 1))

/-- The lines of a block. -/
def Block.lines (level : Int) (b : Block) : List Text :=
  tagLines level b.tags ++ headingLine level b.keyword b.name ::
    ((descriptionLines b.description).map (fun line => Text.trimRight (indentation (level + 1) ++ line)) ++
      b.steps.flatMap (Step.lines (level + 1)) ++ tableLines (indentation (level + 1)) b.rows)

/-- The lines of blocks, each with an empty line in front of it. -/
def Layout.lines (layout : Layout) : List Text := layout.flatMap fun (level, b) => [] :: b.lines level

/-- The line that names a language, which English goes without. -/
def languageLines (language : Text) : List Text :=
  if language = "en" then [] else [("# language: " : Text) ++ language]

/-- The lines of a feature. -/
def Feature.lines (f : Feature) : List Text :=
  languageLines f.language ++ f.block.lines 0 ++ f.layout.lines

section Printing

@[simp] theorem printLines_nil : printLines [] = [] := rfl

@[simp] theorem printLines_cons (line : Text) (rest : List Text) :
    printLines (line :: rest) = line ++ '\n' :: printLines rest := by
  simp [printLines]

@[simp] theorem printLines_append (first second : List Text) :
    printLines (first ++ second) = printLines first ++ printLines second :=
  List.flatMap_append

/-- Tags are printed as the line of their names, if there are any. -/
theorem printTags_eq (level : Int) (tags : List Tag) :
    printTags level tags = printLines (tagLines level (tags.map Tag.name)) := by
  cases tags with
  | nil => rfl
  | cons tag rest => simp [printTags, tagLines]

theorem printLines_map {α : Type} (f : α → Text) (l : List α) :
    printLines (l.map f) = l.flatMap fun x => f x ++ ['\n'] := by
  rw [printLines, List.flatMap_map]

theorem printLines_flatMap {α : Type} (f : α → List Text) (l : List α) :
    printLines (l.flatMap f) = l.flatMap fun x => printLines (f x) := by
  rw [printLines, List.flatMap_assoc]
  rfl

/-- A heading is printed as its line and those of its description. -/
theorem printHeading_eq (level : Int) (keyword name description : Text) :
    printHeading level keyword name description =
      printLines (headingLine level keyword name ::
        (descriptionLines description).map fun line =>
          Text.trimRight (indentation (level + 1) ++ line)) := by
  rw [printLines_cons, printLines_map, printHeading, headingLine, descriptionLines]
  split <;> simp [printLine]

/-- A step is printed as its lines, which know nothing of where it stood. -/
theorem Step.print_eq (level : Int) (s : Step) : s.print level = printLines (s.forgetLines.lines level) := by
  have table : s.forgetLines.tableLines (level + 1) = s.tableLines (level + 1) := by
    cases tabled : s.table <;> simp [forgetLines, tableLines, tabled, DataTable.forgetLines,
      Row.forgetLines, Function.comp_def]
  have doc : s.forgetLines.docLines (level + 1) = s.docLines (level + 1) := by
    cases documented : s.doc with
    | none => simp [forgetLines, docLines, documented]
    | some doc => simp [forgetLines, docLines, documented, DocString.forgetLines, DocString.toLines]
  rw [lines, table, doc, printLines_cons, printLines_append, print, tableLines, docLines]
  cases s.table <;> cases s.doc <;> simp [printLine, stepLine, forgetLines]

theorem printSteps_eq (level : Int) (steps : List Step) :
    steps.flatMap (Step.print level) =
      printLines ((steps.map Step.forgetLines).flatMap (Step.lines level)) := by
  rw [printLines_flatMap, List.flatMap_map]
  congr 1
  funext s
  exact s.print_eq level

theorem tableLines_nil (indent : Text) : tableLines indent [] = [] := rfl

/-- A background is printed as the lines of its block. -/
theorem Background.print_eq (level : Int) (nested : Bool) (b : Background) :
    b.print level = printLines ((b.block nested).lines level) := by
  simp [print, printHeading_eq, printSteps_eq, Block.lines, block, tagLines, tableLines_nil, Block.rows]

theorem Examples.print_eq (level : Int) (e : Examples) : e.print level = printLines (e.block.lines level) := by
  cases header : e.header <;>
    simp [print, printTags_eq, printHeading_eq, Block.lines, block, Block.rows, header]

/-- A scenario is printed as the blocks of its layout, itself and its examples. -/
theorem Scenario.print_eq (level : Int) (nested : Bool) (s : Scenario) :
    '\n' :: s.print level = printLines (s.layout level nested).lines := by
  simp [print, printTags_eq, printHeading_eq, printSteps_eq, Block.lines, block, tableLines_nil, Block.rows, layout,
    Layout.lines, printLines_flatMap, List.flatMap_map, Examples.print_eq]

theorem Element.print_eq (level : Int) (nested : Bool) (e : Element) :
    '\n' :: e.print level = printLines (e.layout level nested).lines := by
  cases e with
  | background b => simp [print, b.print_eq level nested, layout, Layout.lines]
  | scenario s => exact s.print_eq level nested

theorem Rule.print_eq (level : Int) (r : Rule) :
    '\n' :: r.print level = printLines (r.layout level).lines := by
  simp [print, printTags_eq, printHeading_eq, Block.lines, block, tableLines_nil, Block.rows, layout,
    Layout.lines, List.flatMap_assoc, printLines_flatMap, Element.print_eq _ true]

theorem Child.print_eq (level : Int) (c : Child) :
    '\n' :: c.print level = printLines (c.layout level).lines := by
  cases c with
  | rule r => exact r.print_eq level
  | element e => exact e.print_eq level false

/-- A feature is printed as its lines. -/
theorem Feature.print_eq (f : Feature) : f.print = printLines f.lines := by
  have language : printLines (languageLines f.language) =
      if f.language = "en" then [] else ("# language: " : Text) ++ f.language ++ ['\n'] := by
    rw [languageLines]
    split <;> simp
  have children : f.children.flatMap (fun c => '\n' :: c.print 1) = printLines f.layout.lines := by
    simp [Child.print_eq, layout, Layout.lines, List.flatMap_assoc, printLines_flatMap]
  have heading : printLines (f.block.lines 0) =
      printTags 0 f.tags ++ printHeading 0 f.keyword f.name f.description := by
    simp [printTags_eq, printHeading_eq, Block.lines, block, tableLines_nil, Block.rows]
  rw [lines, printLines_append, printLines_append, language, heading, ← children, print]
  simp only [List.append_assoc]

end Printing

/-! ### Line numbers do not matter -/

section ForgetLines

theorem Step.forgetLines_forgetLines (s : Step) : s.forgetLines.forgetLines = s.forgetLines := by
  cases tabled : s.table <;> cases documented : s.doc <;>
    simp [forgetLines, DataTable.forgetLines, Row.forgetLines, DocString.forgetLines, tabled, documented,
      Function.comp_def]

theorem tagNames_forgetLines (tags : List Tag) :
    (tags.map Tag.forgetLines).map Tag.name = tags.map Tag.name := by
  simp [Tag.forgetLines, Function.comp_def]

theorem steps_forgetLines (steps : List Step) :
    (steps.map Step.forgetLines).map Step.forgetLines = steps.map Step.forgetLines := by
  simp [Step.forgetLines_forgetLines, Function.comp_def]

/-- The block of examples knows nothing of lines. -/
theorem Examples.block_forgetLines (e : Examples) : e.forgetLines.block = e.block := by
  cases header : e.header <;>
    simp [block, forgetLines, Row.forgetLines, Tag.forgetLines, header, Function.comp_def]

theorem Background.block_forgetLines (nested : Bool) (b : Background) :
    b.forgetLines.block nested = b.block nested := by
  simp only [block, forgetLines, steps_forgetLines]

theorem Scenario.layout_forgetLines (level : Int) (nested : Bool) (s : Scenario) :
    s.forgetLines.layout level nested = s.layout level nested := by
  have examples : (s.examples.map Examples.forgetLines).map (fun e => (level + 1, e.block)) =
      s.examples.map fun e => (level + 1, e.block) := by
    simp [Examples.block_forgetLines, Function.comp_def]
  simp only [layout, block, forgetLines, tagNames_forgetLines, steps_forgetLines, examples]

theorem Element.layout_forgetLines (level : Int) (nested : Bool) (e : Element) :
    e.forgetLines.layout level nested = e.layout level nested := by
  cases e with
  | background b => simp only [forgetLines, layout, b.block_forgetLines]
  | scenario s => exact s.layout_forgetLines level nested

theorem Child.layout_forgetLines (level : Int) (c : Child) : c.forgetLines.layout level = c.layout level := by
  cases c with
  | rule r =>
    simp only [forgetLines, layout, Rule.layout, Rule.forgetLines, Rule.block, tagNames_forgetLines,
      List.flatMap_map, Element.layout_forgetLines]
  | element e => exact e.layout_forgetLines level false

theorem Feature.block_forgetLines (f : Feature) : f.forgetLines.block = f.block := by
  simp only [block, forgetLines, tagNames_forgetLines]

/-- The layout of a feature knows nothing of lines. -/
theorem Feature.layout_forgetLines (f : Feature) : f.forgetLines.layout = f.layout := by
  simp only [layout, forgetLines, List.flatMap_map, Child.layout_forgetLines]

/-- Features that differ only in their line numbers are printed in the same way. -/
theorem Feature.print_congr {f g : Feature} (same : f.forgetLines = g.forgetLines) : f.print = g.print := by
  have plain (f : Feature) : f.lines = f.forgetLines.lines := by
    rw [lines, lines, block_forgetLines, layout_forgetLines]
    rfl
  rw [print_eq, print_eq, plain f, plain g, same]

end ForgetLines

/-! ### Nodes -/

/-- The block that a section is. -/
def Section.block (s : Section) : Block where
  kind := s.heading.kind
  keyword := s.heading.keyword
  name := s.heading.name
  description := s.description
  tags := s.tags.map Tag.name
  steps := if s.heading.kind.hasSteps then s.steps.map Step.forgetLines else []
  header := if s.heading.kind = .examples then s.rows.head?.map Row.cells else none
  body := if s.heading.kind = .examples then s.rows.tail.map Row.cells else []

namespace Block

/-- The tags of a block on no line. -/
def nodeTags (b : Block) : List Tag := b.tags.map fun name => ⟨name, 0⟩

def toExamples (b : Block) : Examples :=
  ⟨b.keyword, b.name, b.description, b.nodeTags, b.header.map (⟨·, 0⟩), b.body.map (⟨·, 0⟩), 0⟩

def toBackground (b : Block) : Background := ⟨b.keyword, b.name, b.description, b.steps, 0⟩

def toScenario (b : Block) (isOutline : Bool) (examples : List Examples) : Scenario :=
  ⟨b.keyword, b.name, b.description, b.nodeTags, b.steps, examples, 0, isOutline⟩

def toRule (b : Block) (children : List Element) : Rule :=
  ⟨b.keyword, b.name, b.description, b.nodeTags, children, 0⟩

end Block

namespace Section

variable (s : Section)

theorem forgetLines_tags : s.tags.map Tag.forgetLines = s.block.nodeTags := by
  simp [block, Block.nodeTags, Tag.forgetLines]

theorem forgetLines_toRule (children : List Element) :
    (s.toRule children).forgetLines = s.block.toRule (children.map Element.forgetLines) := by
  rw [Rule.forgetLines, Block.toRule, ← s.forgetLines_tags]
  rfl

variable {s}

/-- The steps of a section that may have some are those of its block but for their lines. -/
theorem block_steps (has : s.heading.kind.hasSteps = true) : s.block.steps = s.steps.map Step.forgetLines :=
  if_pos has

theorem forgetLines_toBackground (has : s.heading.kind.hasSteps = true) :
    s.toBackground.forgetLines = s.block.toBackground := by
  rw [Background.forgetLines, Block.toBackground, block_steps has]
  rfl

theorem forgetLines_toScenario (has : s.heading.kind.hasSteps = true) (isOutline : Bool)
    (examples : List Examples) :
    (s.toScenario isOutline examples).forgetLines =
      s.block.toScenario isOutline (examples.map Examples.forgetLines) := by
  rw [Scenario.forgetLines, Block.toScenario, block_steps has, ← s.forgetLines_tags]
  rfl

theorem forgetLines_toExamples (kind : s.heading.kind = .examples) :
    s.toExamples.forgetLines = s.block.toExamples := by
  have header : s.block.header = s.rows.head?.map Row.cells := if_pos kind
  have body : s.block.body = s.rows.tail.map Row.cells := if_pos kind
  rw [Examples.forgetLines, Block.toExamples, header, body, Option.map_map, List.map_map, ← s.forgetLines_tags]
  rfl

end Section

namespace Nodes

/-- Puts a block in front of the blocks that some nodes come from. -/
def addBlock (n : Nodes) (b : Block) : Nodes :=
  match b.kind with
  | .feature => n
  | .rule => ⟨[], [], .rule (b.toRule n.inner) :: n.outer⟩
  | .background nested => n.addElement nested (.background b.toBackground)
  | .scenario nested outline => n.addElement nested (.scenario (b.toScenario outline n.examples))
  | .examples => { n with examples := b.toExamples :: n.examples }

/-- The nodes without their lines. -/
def forgetLines (n : Nodes) : Nodes :=
  ⟨n.examples.map Examples.forgetLines, n.inner.map Element.forgetLines, n.outer.map Child.forgetLines⟩

theorem forgetLines_addElement (n : Nodes) (nested : Bool) (e : Element) :
    (n.addElement nested e).forgetLines = n.forgetLines.addElement nested e.forgetLines := by
  cases nested <;> rfl

/-- A section is added to nodes as its block is, but for lines. -/
theorem forgetLines_add (n : Nodes) (s : Section) :
    (n.add s).forgetLines = n.forgetLines.addBlock s.block := by
  have same : s.block.kind = s.heading.kind := rfl
  rw [add, addBlock, same]
  cases kind : s.heading.kind with
  | feature => rfl
  | rule => simp only [forgetLines, List.map_nil, List.map_cons, Child.forgetLines, s.forgetLines_toRule]
  | background nested =>
    rw [forgetLines_addElement, Element.forgetLines, Section.forgetLines_toBackground (by rw [kind]; rfl)]
  | scenario nested outline =>
    rw [forgetLines_addElement, Element.forgetLines, Section.forgetLines_toScenario (by rw [kind]; rfl)]
    rfl
  | examples => simp only [forgetLines, List.map_cons, Section.forgetLines_toExamples kind]

end Nodes

/-- Puts blocks in front of the blocks that some nodes come from. -/
def Nodes.addLayout (n : Nodes) (layout : Layout) : Nodes :=
  layout.foldr (fun entry n => n.addBlock entry.2) n

theorem Nodes.addLayout_cons (n : Nodes) (level : Int) (b : Block) (rest : Layout) :
    n.addLayout ((level, b) :: rest) = (n.addLayout rest).addBlock b := rfl

/-- Layouts are added from the last block to the first. -/
theorem Nodes.addLayout_append (n : Nodes) (first second : Layout) :
    n.addLayout (first ++ second) = (n.addLayout second).addLayout first :=
  List.foldr_append

/-- The nodes of sections are those of the blocks that the sections are. -/
theorem nodes_forgetLines {sections : List Section} {layout : Layout}
    (shown : sections.map Section.block = layout.map Prod.snd) :
    (nodes sections).forgetLines = Nodes.addLayout ⟨[], [], []⟩ layout := by
  induction sections generalizing layout with
  | nil =>
    obtain rfl := List.map_eq_nil_iff.mp shown.symm
    rfl
  | cons s rest ih =>
    obtain ⟨entry, others, rfl, block, shown⟩ := List.map_eq_cons_iff.mp shown.symm
    rw [nodes, Nodes.forgetLines_add, ih shown.symm, ← block]
    rfl

/-! ### The feature of a layout -/

section Trees

variable (n : Nodes)

theorem Block.nodeTags_eq {b : Block} {tags : List Tag} (same : b.tags = tags.map Tag.name) :
    b.nodeTags = tags.map Tag.forgetLines := by
  simp [nodeTags, same, Tag.forgetLines]

/-- From their block, examples come back but for lines. -/
theorem Examples.toExamples_block (e : Examples) : e.block.toExamples = e.forgetLines := by
  rw [Block.toExamples, Block.nodeTags_eq rfl]
  simp only [forgetLines, block, Option.map_map, List.map_map]
  rfl

/-- The blocks of examples come back as examples in front of those that wait. -/
theorem Nodes.addLayout_examples (level : Int) (examples : List Examples) :
    n.addLayout (examples.map fun e => (level, e.block)) =
      ⟨examples.map Examples.forgetLines ++ n.examples, n.inner, n.outer⟩ := by
  induction examples with
  | nil => rfl
  | cons e rest ih =>
    rw [List.map_cons, addLayout_cons, ih, List.map_cons, ← e.toExamples_block]
    rfl

variable {n}

/-- The layout of a background or scenario comes back as what it was laid out from, with its examples. -/
theorem Nodes.addLayout_element (alone : n.examples = []) (level : Int) (nested : Bool) (e : Element) :
    n.addLayout (e.layout level nested) = n.addElement nested e.forgetLines := by
  cases e with
  | background b => rfl
  | scenario s =>
    have tags : (s.block nested).nodeTags = s.tags.map Tag.forgetLines := Block.nodeTags_eq rfl
    rw [Element.layout, Scenario.layout, addLayout_cons, addLayout_examples, alone, List.append_nil,
      Element.forgetLines, Scenario.forgetLines, ← tags]
    cases nested <;> rfl

/-- Backgrounds and scenarios of a rule come back in their order. -/
theorem Nodes.addLayout_elements (alone : n.examples = []) (level : Int) (elements : List Element) :
    n.addLayout (elements.flatMap (Element.layout level true)) =
      ⟨[], elements.map Element.forgetLines ++ n.inner, n.outer⟩ := by
  induction elements with
  | nil =>
    rw [List.flatMap_nil, List.map_nil, List.nil_append, ← alone]
    rfl
  | cons e rest ih =>
    rw [List.flatMap_cons, addLayout_append, ih, addLayout_element rfl]
    rfl

/-- The layout of a child of a feature comes back as that child. -/
theorem Nodes.addLayout_child (alone : n.examples = []) (empty : n.inner = []) (level : Int) (c : Child) :
    n.addLayout (c.layout level) = ⟨[], [], c.forgetLines :: n.outer⟩ := by
  cases c with
  | rule r =>
    have tags : r.block.nodeTags = r.tags.map Tag.forgetLines := Block.nodeTags_eq rfl
    rw [Child.layout, Rule.layout, addLayout_cons, addLayout_elements alone, empty, List.append_nil,
      Child.forgetLines, Rule.forgetLines, ← tags]
    rfl
  | element e =>
    rw [Child.layout, addLayout_element alone, addElement, empty]
    rfl

/-- The blocks of a feature form its children again. -/
theorem Feature.addLayout_layout (f : Feature) :
    Nodes.addLayout ⟨[], [], []⟩ f.layout = ⟨[], [], f.children.map Child.forgetLines⟩ := by
  rw [layout]
  induction f.children with
  | nil => rfl
  | cons c rest ih => rw [List.flatMap_cons, Nodes.addLayout_append, ih, Nodes.addLayout_child rfl rfl]; rfl

/-- Sections that are the blocks of a feature form this feature. -/
theorem featureOf_forgetLines {f : Feature} {s : Section} {rest : List Section}
    (heading : s.block = f.block) (shown : rest.map Section.block = f.layout.map Prod.snd) :
    (featureOf f.language (s :: rest)).map Feature.forgetLines = some f.forgetLines := by
  have outer : (nodes rest).outer.map Child.forgetLines = f.children.map Child.forgetLines := by
    have collected := nodes_forgetLines shown
    rw [f.addLayout_layout] at collected
    exact congrArg Nodes.outer collected
  have tags : s.tags.map Tag.forgetLines = f.tags.map Tag.forgetLines := by
    rw [s.forgetLines_tags, heading]
    exact Block.nodeTags_eq rfl
  have keyword : s.heading.keyword = f.keyword := congrArg Block.keyword heading
  have name : s.heading.name = f.name := congrArg Block.name heading
  have description : s.description = f.description := congrArg Block.description heading
  rw [featureOf, Option.map_some, Feature.forgetLines, Feature.forgetLines]
  simp only [outer, tags, keyword, name, description]

end Trees

/-! ### The order of blocks -/

/-- Whether a child is a rule. -/
def Child.isRule : Child → Bool
  | .rule _ => true
  | .element _ => false

/-- Whether no background or scenario of a feature comes after one of its rules. -/
def Feature.RulesLast (f : Feature) : Prop :=
  f.children.Pairwise fun first second => first.isRule = true → second.isRule = true

instance (f : Feature) : Decidable f.RulesLast :=
  inferInstanceAs (Decidable (f.children.Pairwise fun first second => first.isRule = true → second.isRule = true))

namespace Layout

/-- Whether blocks can be read after others. The blocks before end in a scenario or not, and in a rule or
not: examples can follow only in a scenario, and in a rule only what is nested in it and other rules. -/
inductive Follows : Bool → Bool → Layout → Prop
  | nil {inScenario nested : Bool} : Follows inScenario nested []
  | rule {inScenario nested : Bool} {level : Int} {b : Block} {rest : Layout} (kind : b.kind = .rule)
      (later : Follows false true rest) : Follows inScenario nested ((level, b) :: rest)
  | background {inScenario nested : Bool} {level : Int} {b : Block} {rest : Layout}
      (kind : b.kind = .background nested) (later : Follows false nested rest) :
      Follows inScenario nested ((level, b) :: rest)
  | scenario {inScenario nested outline : Bool} {level : Int} {b : Block} {rest : Layout}
      (kind : b.kind = .scenario nested outline) (later : Follows true nested rest) :
      Follows inScenario nested ((level, b) :: rest)
  | examples {nested : Bool} {level : Int} {b : Block} {rest : Layout} (kind : b.kind = .examples)
      (later : Follows true nested rest) : Follows true nested ((level, b) :: rest)

variable {rest : Layout} {nested : Bool}

/-- Behind a scenario there may be examples. -/
theorem follows_examples (level : Int) (examples : List Examples) (later : Follows true nested rest) :
    Follows true nested ((examples.map fun e => (level, e.block)) ++ rest) := by
  induction examples with
  | nil => exact later
  | cons e others ih => exact .examples rfl ih

/-- A background or scenario may stand anywhere in its rule or feature. -/
theorem follows_element (level : Int) (inScenario : Bool) (e : Element)
    (later : ∀ inScenario, Follows inScenario nested rest) :
    Follows inScenario nested (e.layout level nested ++ rest) := by
  cases e with
  | background b => exact .background rfl (later false)
  | scenario s => exact .scenario rfl (follows_examples _ s.examples (later true))

/-- Backgrounds and scenarios of a rule may stand one behind another. -/
theorem follows_elements (level : Int) (inScenario : Bool) (elements : List Element)
    (later : ∀ inScenario, Follows inScenario true rest) :
    Follows inScenario true (elements.flatMap (Element.layout level true) ++ rest) := by
  induction elements generalizing inScenario with
  | nil => exact later inScenario
  | cons e others ih =>
    rw [List.flatMap_cons, List.append_assoc]
    exact follows_element level inScenario e fun inScenario => ih inScenario

/-- Rules may stand one behind another, with nothing else behind them. -/
theorem follows_rules (level : Int) (inScenario : Bool) (children : List Child)
    (rules : ∀ c ∈ children, c.isRule = true) :
    Follows inScenario nested (children.flatMap (Child.layout level)) := by
  induction children generalizing inScenario nested with
  | nil => exact .nil
  | cons c others ih =>
    rw [List.forall_mem_cons] at rules
    cases c with
    | element e => cases rules.1
    | rule r =>
      exact .rule rfl (follows_elements _ false r.children fun inScenario => ih inScenario rules.2)

end Layout

/-- The blocks of a feature with its rules last can be read after its heading. -/
theorem Feature.RulesLast.follows {f : Feature} (ordered : f.RulesLast) (inScenario : Bool) :
    Layout.Follows inScenario false f.layout := by
  rw [RulesLast] at ordered
  rw [layout]
  generalize f.children = children at ordered ⊢
  induction children generalizing inScenario with
  | nil => exact .nil
  | cons c others ih =>
    obtain ⟨first, later⟩ := List.pairwise_cons.mp ordered
    cases c with
    | element e => exact Layout.follows_element 1 inScenario e fun inScenario => ih inScenario later
    | rule r =>
      apply Layout.follows_rules
      exact List.forall_mem_cons.mpr ⟨rfl, fun c member => first c member rfl⟩

end Gherkin
