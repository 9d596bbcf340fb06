import Gherkin.Proofs.Regex.Rooting
import Gherkin.Proofs.Step.Drift

/-! # The ends of what a pattern matches

A definition matches only texts that start with the pattern's first literal and end with its last one, if the types of
its placeholders are sealed: a fragment with a bar outside all groups splits the whole pattern, and an escape at the end
of a fragment can take digits from the literal behind it. Only types that are defined with a group of their own can be
like that, since the others are put in parentheses (`Gherkin.StepRegistry.added_frames`).
-/

namespace Gherkin

open Regex (CharacterNames)

namespace Segment

/-- The literal text in front of the first placeholder. -/
def leading : List Segment → Text
  | literal t :: _ => t
  | _ => []

/-- The literal text behind the last placeholder. -/
def trailing (segments : List Segment) : Text :=
  match segments.getLast? with
  | some (literal t) => t
  | _ => []

/-- Whether a text starts and ends as segments do, perhaps with a line feed behind its end. -/
def Frames (segments : List Segment) (text : Text) : Prop :=
  leading segments <+: text ∧ ∃ body, (text = body ∨ text = body ++ ['\n']) ∧ trailing segments <:+ body

end Segment

/-- Whether a fragment can be put into any pattern and leaves what stands around it as it is: it has no bar outside all
groups, and no digit behind it can belong to an escape at its end. -/
def ParameterType.Sealed [CharacterNames] (type : ParameterType) : Prop := Regex.Sealed type.fragment

open Regex

namespace Segment

section Reading

variable [CharacterNames] {type? : Text → Option ParameterType} {segments : List Segment} {base : List Item}
  {q q' : Reader}

/-- Segments whose fragments are firm leave the items at the start of the pattern as they are. -/
theorem begins_segments (typed : ∀ name type, type? name = some type → Piece type.fragment 1)
    (firm : ∀ name, placeholder name ∈ segments → Firm (source type? (placeholder name))) (some_there : base ≠ [])
    (begins : q.Begins base) (ready : q.Ready)
    (read : q.steps (tokens (segments.flatMap (source type?))) = .ok q') : q'.Begins base := by
  induction segments generalizing q with
  | nil =>
    cases read
    exact begins
  | cons segment rest ih =>
    have others (name : Text) (member : placeholder name ∈ rest) := firm name (List.mem_cons_of_mem _ member)
    have piece := piece_flatMap typed [segment]
    rw [List.flatMap_singleton] at piece
    rw [List.flatMap_cons, tokens_append piece.closed] at read
    obtain ⟨middle, first, later⟩ := Reader.steps_append_eq_ok read
    have passes := piece.passes q middle ready first
    cases segment with
    | literal t =>
      rw [source, tokens_escaped] at first
      exact ih others (begins.literal some_there ready first) passes.ready later
    | placeholder name =>
      exact ih others (begins.firm some_there (firm name List.mem_cons_self) ready first) passes.ready later

/-- The condition on places that stands at the start of every pattern. -/
abbrev startItem : Item := (.anchor, .anchor .start)

/-- The pattern starts with the literal text in front of the first placeholder. -/
theorem begins_leading (typed : ∀ name type, type? name = some type → Piece type.fragment 1)
    (firm : ∀ name, placeholder name ∈ segments → Firm (source type? (placeholder name)))
    (read : Reader.anchored.steps (tokens (segments.flatMap (source type?))) = .ok q') :
    q'.Begins (literalItems (leading segments) ++ [startItem]) := by
  have some_there (t : Text) : literalItems t ++ [startItem] ≠ [] := by simp
  have start : Reader.anchored.Begins [startItem] := ⟨rfl, .inl ⟨rfl, List.suffix_rfl⟩⟩
  rcases segments with - | ⟨t | name, rest⟩
  · exact begins_segments typed firm (some_there []) start Reader.ready_anchored read
  · rw [List.flatMap_cons, source, tokens_escapeLiteral] at read
    obtain ⟨middle, first, read⟩ := Reader.steps_append_eq_ok read
    obtain ⟨position, literal⟩ := Reader.steps_literal (r := .anchored) rfl rfl t
    cases literal.symm.trans first
    have others (name : Text) (member : placeholder name ∈ rest) := firm name (List.mem_cons_of_mem _ member)
    have passes := (Piece.literal t).passes _ _ Reader.ready_anchored (tokens_escaped t ▸ first)
    exact begins_segments typed others (some_there t) ⟨rfl, .inl ⟨rfl, List.suffix_rfl⟩⟩ passes.ready read
  · exact begins_segments typed firm (some_there []) start Reader.ready_anchored read

/-- Firm fragments leave no escape open. -/
theorem escape_segments (typed : ∀ name type, type? name = some type → Piece type.fragment 1)
    (firm : ∀ name, placeholder name ∈ segments → Firm (source type? (placeholder name))) (ready : q.Ready)
    (no_escape : q.construct.isEscape = false)
    (read : q.steps (tokens (segments.flatMap (source type?))) = .ok q') : q'.construct.isEscape = false := by
  induction segments generalizing q with
  | nil =>
    cases read
    exact no_escape
  | cons segment rest ih =>
    have others (name : Text) (member : placeholder name ∈ rest) := firm name (List.mem_cons_of_mem _ member)
    have piece := piece_flatMap typed [segment]
    rw [List.flatMap_singleton] at piece
    rw [List.flatMap_cons, tokens_append piece.closed] at read
    obtain ⟨middle, first, read⟩ := Reader.steps_append_eq_ok read
    have passes := piece.passes q middle ready first
    have keeps : q.Keeps middle := by
      cases segment with
      | literal t => exact Reader.keeps_of_sealed (compile_escapeLiteral t) (sealed_escapeLiteral t) ready first
      | placeholder name => exact (firm name List.mem_cons_self).keeps q middle ready first
    exact ih others passes.ready (keeps.escape no_escape) read

/-- The pattern ends with the literal text behind the last placeholder. -/
theorem ends_trailing {position : Nat} {build : Build}
    (typed : ∀ name type, type? name = some type → Piece type.fragment 1)
    (firm : ∀ name, placeholder name ∈ segments → Firm (source type? (placeholder name)))
    (read : Reader.anchored.steps (tokens (segments.flatMap (source type?))) = .ok q')
    (settled : q'.settle none = .ok ⟨position, .item, build⟩) :
    literalItems (trailing segments) <+: build.frame.items := by
  rcases segments.eq_nil_or_concat with rfl | ⟨before, t | name, rfl⟩
  · exact List.nil_prefix
  · have front (name : Text) (member : placeholder name ∈ before) := firm name (by simp [member])
    have piece := piece_flatMap typed before
    rw [List.concat_eq_append, List.flatMap_append, tokens_append piece.closed] at read
    obtain ⟨middle, first, read⟩ := Reader.steps_append_eq_ok read
    have passes := piece.passes _ middle Reader.ready_anchored first
    have no_escape := escape_segments typed front Reader.ready_anchored rfl first
    rw [List.flatMap_singleton, source, tokens_escaped] at read
    obtain ⟨s, -, eq⟩ := Reader.settle_literal passes.ready.resting no_escape passes.ready.noFlags read settled
    obtain rfl : build = s.build.literally t := eq
    simp [trailing, Build.literally]
  · simp [trailing, literalItems]

/-- A pattern whose fragments are firm is one sequence between the anchors, which starts and ends with the literal texts
at the ends of the pattern. -/
theorem root_of_compile (typed : ∀ name type, type? name = some type → Piece type.fragment 1)
    (firm : ∀ name, placeholder name ∈ segments → Firm (source type? (placeholder name))) {regex : Regex}
    (compiled : compile (patternSource type? segments) = .ok regex) : ∃ items,
      regex.root = sequenceOf ((.anchor, .anchor .lastLine) :: items) ∧
        literalItems (leading segments) ++ [startItem] <:+ items ∧ literalItems (trailing segments) <+: items := by
  have piece := piece_flatMap typed segments
  obtain ⟨q, build, read, -, settled, -, rfl⟩ := exists_of_anchored (piece.append .lastLine) compiled
  rw [tokens_append piece.closed] at read
  obtain ⟨middle, body, last⟩ := Reader.steps_append_eq_ok read
  rw [show tokens ['$'] = [.plain '$'] from rfl, Reader.steps_singleton] at last
  have passes := piece.passes _ middle Reader.ready_anchored body
  obtain ⟨ended, extends_, ends, taken⟩ := Reader.step_other passes.ready.resting (by decide) last
  have noFlags : ended.frame.flags = [] := extends_.flags.trans passes.ready.noFlags
  obtain ⟨single, starts⟩ := (begins_leading typed firm body).settled (by simp) extends_ ends
  refine ⟨ended.frame.items, ?_, starts, ends_trailing typed firm body ends⟩
  have anchors : (⟨middle.position, .item, ended⟩ : Reader).take (.plain '$') = .ok ⟨middle.position + 1, .item,
      ended.push .anchor ((Leaf.lineEnd).node ended.frame.flags)⟩ := rfl
  cases anchors.symm.trans taken
  cases settled
  simp only [Build.push, Frame.push, Frame.node, single, noFlags, List.foldl_nil]
  rfl

end Reading

/-- A sequence between the anchors leads from the start of a text, which starts and ends as the sequence does. -/
theorem frames_of_reaches {segments : List Segment} {items : List Item} {s t : Cursor}
    (starts : literalItems (leading segments) ++ [startItem] <:+ items)
    (ends : literalItems (trailing segments) <+: items)
    (through : (sequenceOf ((.anchor, .anchor .lastLine) :: items)).Reaches s t) :
    s.before = [] ∧ Frames segments s.rest := by
  obtain ⟨later, starts⟩ := starts
  obtain ⟨earlier, ends⟩ := ends
  rw [reaches_sequenceOf, List.reverse_cons, List.map_append] at through
  have front : items.reverse.map Prod.snd =
      .anchor .start :: ((leading segments).map Regex.Node.char ++ later.reverse.map Prod.snd) := by
    simp [← starts, ← map_literalItems]
  have back : items.reverse.map Prod.snd = earlier.reverse.map Prod.snd ++ (trailing segments).map Regex.Node.char := by
    simp [← ends, ← map_literalItems]
  have anchored := through
  rw [front] at anchored
  obtain ⟨first, inside, -⟩ := through_anchored.mp anchored
  obtain ⟨u, literally, -⟩ := through_append.mp inside
  obtain ⟨_, _, rest, at_, ⟨-, rfl⟩, -⟩ := (Takes.chars _ _ _).mp literally
  refine ⟨first, ⟨rest, at_.symm⟩, ?_⟩
  rw [back] at through
  obtain ⟨v, through, last⟩ := through_append.mp through
  obtain ⟨u, before, literally⟩ := through_append.mp through
  obtain ⟨_, _, rest, there, ⟨-, rfl⟩, rfl⟩ := (Takes.chars _ _ _).mp literally
  obtain ⟨passed, whole⟩ := before.suffix
  have ended : rest = [] ∨ rest = ['\n'] := by
    obtain ⟨holds, -⟩ := through_singleton.mp last
    simpa [Anchor.holds, Cursor.past] using holds
  refine ⟨passed ++ trailing segments, eq_or_eq_of_ends ?_ ended, passed, rfl⟩
  rw [← whole, there, List.append_assoc]

/-- A pattern whose fragments are firm matches only texts that start and end as the pattern does. -/
theorem frames_of_search [CharacterNames] {type? : Text → Option ParameterType} {segments : List Segment}
    (typed : ∀ name type, type? name = some type → Piece type.fragment 1)
    (firm : ∀ name, placeholder name ∈ segments → Firm (source type? (placeholder name))) {regex : Regex}
    (compiled : compile (patternSource type? segments) = .ok regex) {text : Text}
    (found : (regex.search text).isSome) : Frames segments text := by
  obtain ⟨items, root, starts, ends⟩ := root_of_compile typed firm compiled
  have framed (s t : Cursor) (through : regex.root.Reaches s t) : s.before = [] ∧ Frames segments s.rest := by
    rw [root] at through
    exact frames_of_reaches starts ends through
  obtain ⟨out, through⟩ := (search_isSome (fun s t through => (framed s t through).1) text).mp found
  exact (framed _ _ through).2

end Segment

/-! ### Types of a session -/

section Sessions

variable [CharacterNames]

theorem ParameterType.firm_of_builtIn {name : Text} {type : ParameterType} (known : builtIn? name = some type) :
    Firm type.fragment := by
  have member := List.mem_of_find?_eq_some known
  simp only [builtIn, List.mem_cons, List.not_mem_nil, or_false] at member
  have parentheses (pattern : Text) {groups : Nat} {root : Regex.Node}
      (compiled : compile pattern = .ok ⟨pattern, groups, root⟩) : Firm ('(' :: pattern ++ [')']) :=
    .parenthesized compiled
  rcases member with rfl | rfl | rfl | rfl | rfl
  · have compiled : compile "\"([^\"]*)\"" = .ok ⟨_, 1, _⟩ := rfl
    refine .of_compile compiled Nat.one_pos fun r read => ?_
    cases read
    exact ⟨rfl, rfl⟩
  · exact parentheses "-?\\d+" rfl
  · exact parentheses "-?\\d+\\.\\d+" rfl
  · exact parentheses "\\S+" rfl
  · exact parentheses ".*" rfl

namespace StepRegistry

variable {η : Type} {calls : List (RegistryCall η)}

/-- Whether every type is firm, or a call defines it with a regular expression that has a group of its own. -/
def Made (calls : List (RegistryCall η)) (r : StepRegistry η) : Prop :=
  ∀ name type, r.type? name = some type → Firm type.fragment ∨
    (.define name type.fragment type.transform ∈ calls ∧
      ∃ regex, Regex.compile type.fragment = .ok regex ∧ regex.groups = 1)

theorem made_empty : Made calls empty :=
  fun _ _ known => .inl (ParameterType.firm_of_builtIn (builtIn?_of_empty known))

theorem Made.effect {r next : StepRegistry η} {call : RegistryCall η} {answer : Except StepError (RegistryAnswer η)}
    (member : call ∈ calls) (did : RegistryCall.Effect r call answer next) (made : Made calls r) : Made calls next := by
  intro name type known
  obtain builtIn | before | ⟨pattern, regex, transform, rfl, compiled, few, rfl⟩ := type?_of_effect did known
  · exact .inl (ParameterType.firm_of_builtIn builtIn)
  · exact made name type before
  · by_cases grouped : regex.groups = 0
    · exact .inl (by rw [if_pos grouped]; exact .parenthesized compiled)
    · rw [if_neg grouped]
      exact .inr ⟨member, regex, compiled, by omega⟩

theorem made_after (calls : List (RegistryCall η)) : Made calls (empty.after calls) :=
  after_induction _ calls made_empty fun _ _ _ _ member => Made.effect member

/-- The fragments of placeholders are firm if their types are sealed. -/
theorem Made.firm_source {r : StepRegistry η} (made : Made calls r) {name : Text}
    (closed : ∀ type, r.type? name = some type → type.Sealed) :
    Firm (Segment.source r.type? (.placeholder name)) := by
  cases known : r.type? name with
  | none =>
    have compiled : Regex.compile ".*" = .ok ⟨".*", 0, _⟩ := rfl
    have firm : Firm untypedFragment := .parenthesized compiled
    simpa only [Segment.source, known] using firm
  | some type =>
    simp only [Segment.source, known]
    rcases made name type known with firm | ⟨-, regex, compiled, one⟩
    · exact firm
    · exact .of_compile compiled (by omega) (closed type known)

/-- A type that is not sealed was defined with a regular expression that has a group of its own. If the types of a
pattern's placeholders are sealed when the pattern is registered, its definition matches only texts that start with the
pattern's first literal and end with its last one, perhaps with a line feed behind it. -/
theorem added_frames (calls : List (RegistryCall η)) :
    (∀ name type, (empty.after calls).type? name = some type → ¬type.Sealed →
      .define name type.fragment type.transform ∈ calls ∧
        ∃ regex, Regex.compile type.fragment = .ok regex ∧ regex.groups = 1) ∧
    ∀ (call : RegistryCall η) role pattern options definition,
      call.asks? = some (role, .text pattern, options) →
      (call.program.on (empty.after calls)).1 = .ok (.added definition) →
      (∀ name, .placeholder name ∈ Segment.split pattern →
        ∀ type, (empty.after calls).type? name = some type → type.Sealed) →
      ∀ text, (definition.regex.search text).isSome → Segment.Frames (Segment.split pattern) text := by
  have made := made_after calls
  constructor
  · intro name type known loose
    exact (made name type known).resolve_left fun firm => loose firm.alone
  · intro call role pattern options definition asks answer closed text found
    have effect := call.effect (empty.after calls)
    rw [answer] at effect
    generalize (call.program.on (empty.after calls)).2 = next at effect
    cases effect with
    | added asked compiled eq =>
      cases asked.symm.trans asks
      subst eq
      exact Segment.frames_of_search (typed_after _ calls typed_empty)
        (fun name member => made.firm_source (closed name member)) (source_of_compile compiled).1 found

end StepRegistry

end Sessions

/-! ### Types with a group of their own -/

namespace StepRegistry

theorem sealed_ticketType : ticketType.Sealed := by
  intro r read
  cases read
  exact ⟨rfl, rfl⟩

/-- A registration of a pattern with a text at both ends. -/
def holdCall : RegistryCall Nat := .register (.text "given") (.text "hold \x7bticket\x7d!") ⟨0, none, none, []⟩

/-- A type with a group of its own and a mark in front of it leaves the ends of a pattern as they are. -/
theorem added_frames_ticket : ∃ definition,
    (holdCall.program.on (empty.after [.define "ticket" "#(\\d)" .int])).1 = .ok (.added definition) ∧
    (definition.regex.search "hold #3!").isSome ∧
    Segment.Frames (Segment.split "hold \x7bticket\x7d!") "hold #3!" := by
  obtain ⟨definition, added, found⟩ : ∃ definition,
      (holdCall.program.on (empty.after [.define "ticket" "#(\\d)" .int])).1 = .ok (.added definition) ∧
      (definition.regex.search "hold #3!").isSome := ⟨_, rfl, by decide +kernel⟩
  obtain ⟨-, frames⟩ := added_frames (η := Nat) [.define "ticket" "#(\\d)" .int]
  refine ⟨definition, added, found, frames holdCall _ _ _ definition rfl added ?_ _ found⟩
  intro name member type known
  have cut : Segment.split "hold \x7bticket\x7d!" = [.literal "hold ", .placeholder "ticket", .literal "!"] := by decide
  rw [cut] at member
  obtain rfl : name = "ticket".toList := by simpa using member
  cases known
  exact sealed_ticketType

/-- Calls that define a type of two words, the first one with a group. -/
def sizeCalls : List (RegistryCall Nat) := [.define "size" "(big)|small" .text]

/-- A registration of a pattern for a box. -/
def boxCall : RegistryCall Nat := .register (.text "given") (.text "a \x7bsize\x7d box") ⟨0, none, none, []⟩

/-- A bar in a type splits the whole pattern, which then matches texts that start with something else. -/
theorem split_type_matches_inside : ∃ definition,
    (boxCall.program.on (empty.after sizeCalls)).1 = .ok (.added definition) ∧
    definition.regex.pattern = "^a\\ (big)|small\\ box$".toList ∧
    (definition.regex.search "not a small box").isSome ∧
    ¬Segment.Frames (Segment.split "a \x7bsize\x7d box") "not a small box" := by
  refine ⟨_, rfl, rfl, by decide +kernel, fun frames => ?_⟩
  have front : "a ".toList <+: "not a small box".toList := frames.1
  exact absurd front (by decide)

end StepRegistry

end Gherkin
