import Gherkin.Proofs.Regex.Literal
import Gherkin.Proofs.Regex.Sequence
import Gherkin.Proofs.Step.Drift
import Gherkin.Proofs.Step.Segments

/-! # The meaning of patterns

A pattern is read as its segments: a literal stands for itself, and a placeholder for the texts of its type. The
regular expression of a pattern matches the texts that can be read so, perhaps with a line feed behind them, and its
groups hold the parts that the placeholders stand for (`Gherkin.StepRegistry.compile_means`).
-/

namespace Gherkin

/-! ### What placeholders stand for -/

/-- An optional minus and digits, at least one. -/
def IsInteger (t : Text) : Prop :=
  ∃ sign digits, t = sign ++ digits ∧ (sign = [] ∨ sign = ['-']) ∧ digits ≠ [] ∧ ∀ c ∈ digits, isDigit c = true

/-- An integer, a point, and digits, at least one. -/
def IsFloat (t : Text) : Prop :=
  ∃ whole fraction, t = whole ++ '.' :: fraction ∧ IsInteger whole ∧ fraction ≠ [] ∧ ∀ c ∈ fraction, isDigit c = true

/-- Characters that are no white space, at least one. -/
def IsWord (t : Text) : Prop := t ≠ [] ∧ ∀ c ∈ t, isBlank c = false

/-- Whether a text can stand for a placeholder of a name, and what part of it the placeholder captures. A name that is
not known stands for all texts on one line. -/
def Means (name part whole : Text) : Prop :=
  if name = "string" then whole = '"' :: part ++ ['"'] ∧ '"' ∉ part
  else if name = "int" then whole = part ∧ IsInteger part
  else if name = "float" then whole = part ∧ IsFloat part
  else if name = "word" then whole = part ∧ IsWord part
  else whole = part ∧ '\n' ∉ part

namespace Segment

/-- A text is made of the literals and of one text for each placeholder in turn, with the parts that are captured. -/
inductive Reading : List Segment → List Text → Text → Prop where
  | nil : Reading [] [] []
  | literal (t : Text) {rest : List Segment} {parts : List Text} {text : Text} :
      Reading rest parts text → Reading (literal t :: rest) parts (t ++ text)
  | placeholder {name part whole : Text} {rest : List Segment} {parts : List Text} {text : Text} :
      Means name part whole → Reading rest parts text →
      Reading (placeholder name :: rest) (part :: parts) (whole ++ text)

/-- A text, perhaps without a line feed at its end, is made of segments. -/
def Reads (segments : List Segment) (parts : List Text) (text : Text) : Prop :=
  ∃ body, (text = body ∨ text = body ++ ['\n']) ∧ Reading segments parts body

end Segment

namespace Regex

/-! ### Texts that stand for patterns anywhere -/

/-- The reader behind items of the whole pattern, with no group open. -/
def Reader.behind (items : List Item) (groups : Nat) (widths : List (Nat × Width)) (position : Nat) : Reader :=
  ⟨position, .item, ⟨⟨.whole, 0, [], none, [], items⟩, [], groups, widths, [], []⟩⟩

/-- The items of patterns, last ones first. -/
def itemsOf (nodes : List Node) : List Item := (nodes.map fun node => (.atom, node)).reverse

/-- Whether a text is read as patterns behind anything, and opens a number of groups behind others. -/
structure Writes [CharacterNames] (source : Text) (groups added : Nat) (nodes : List Node) : Prop where
  steps : ∀ items widths position rest, ∃ next widths',
    (Reader.behind items groups widths position).steps (tokens (source ++ rest)) =
      (Reader.behind (itemsOf nodes ++ items) (groups + added) widths' next).steps (tokens rest)
  sound : ∀ node ∈ nodes, node.fault? false = none

/-- Whether a text is read as patterns that take, and leave in their groups, what a condition allows. -/
def Stands [CharacterNames] (source : Text) (groups added : Nat) (allowed : Text → List (Nat × Text) → Prop) : Prop :=
  ∃ nodes, Writes source groups added nodes ∧ Takes nodes allowed

namespace Stands

variable [CharacterNames] {source more : Text} {groups added further : Nat}
  {allowed front back : Text → List (Nat × Text) → Prop}

theorem nil (groups : Nat) : Stands [] groups 0 (plainly fun taken => taken = []) :=
  ⟨[], ⟨fun _ widths position _ => ⟨position, widths, rfl⟩, nofun⟩, .nil⟩

theorem append (first : Stands source groups added front) (second : Stands more (groups + added) further back) :
    Stands (source ++ more) groups (added + further) fun taken held => ∃ before behind kept others,
      taken = before ++ behind ∧ held = others ++ kept ∧ front before kept ∧ back behind others := by
  obtain ⟨nodes, writes, takes⟩ := first
  obtain ⟨others, writesMore, takesMore⟩ := second
  refine ⟨nodes ++ others, ⟨fun items widths position rest => ?_, ?_⟩, takes.append takesMore⟩
  · obtain ⟨middle, widths, here⟩ := writes.steps items widths position (more ++ rest)
    obtain ⟨next, widths, there⟩ := writesMore.steps (itemsOf nodes ++ items) widths middle rest
    refine ⟨next, widths, ?_⟩
    rw [List.append_assoc, here, there, ← Nat.add_assoc]
    simp [itemsOf]
  · exact List.forall_mem_append.mpr ⟨writes.sound, writesMore.sound⟩

theorem congr {other : Text → List (Nat × Text) → Prop} (stands : Stands source groups added allowed)
    (same : ∀ taken held, allowed taken held ↔ other taken held) : Stands source groups added other := by
  obtain ⟨nodes, writes, takes⟩ := stands
  exact ⟨nodes, writes, takes.congr same⟩

/-- A text that is meant literally stands for itself. -/
theorem literal (t : Text) (groups : Nat) : Stands (escapeLiteral t) groups 0 (plainly fun taken => taken = t) := by
  refine ⟨t.map Node.char, ⟨fun items widths position rest => ?_, ?_⟩, .chars t⟩
  · obtain ⟨next, read⟩ := Reader.steps_literal (r := .behind items groups widths position) rfl rfl t
    refine ⟨next, widths, ?_⟩
    have items_eq : itemsOf (t.map Node.char) = literalItems t := by simp [itemsOf, literalItems, Function.comp_def]
    rw [tokens_escapeLiteral, Reader.steps_append, read, items_eq]
    rfl
  · intro node member
    obtain ⟨c, -, rfl⟩ := List.mem_map.mp member
    rfl

end Stands

/-! ### The fragments of the built-in types -/

section Fragments

/-- The pattern of digits, at least one. -/
def Node.digits : Node := .loop 1 none .greedy (.oneOf ⟨false, false⟩ false [.category .digit false])

/-- The pattern of an optional minus. -/
def Node.sign : Node := .loop 0 (some 1) .greedy (.char '-')

theorem takes_digits : Takes [.digits] (plainly fun taken => taken ≠ [] ∧ ∀ c ∈ taken, isDigit c = true) := by
  refine (Takes.loop (.oneOf _ _ _) 1 none).congr fun taken held => and_congr_right fun _ => ?_
  simp [classHolds, ClassItem.holds, Category.holds, Nat.one_le_iff_ne_zero]

theorem takes_sign : Takes [.sign] (plainly fun taken => taken = [] ∨ taken = ['-']) := by
  have single : Takes [.char '-'] (plainly fun taken => ∃ c, taken = [c] ∧ c = '-') :=
    (Takes.char '-').congr fun taken held => and_congr_right fun _ => by simp
  refine (Takes.loop single 0 (some 1)).congr fun taken held => and_congr_right fun _ => ?_
  rcases taken with - | ⟨c, - | ⟨d, rest⟩⟩ <;> simp

theorem takes_integer : Takes [.sign, .digits] (plainly IsInteger) := by
  refine (takes_sign.append takes_digits).congr fun taken held => ?_
  constructor
  · rintro ⟨sign, digits, _, _, rfl, rfl, ⟨rfl, signed⟩, rfl, digital⟩
    exact ⟨rfl, sign, digits, rfl, signed, digital⟩
  · rintro ⟨rfl, sign, digits, rfl, signed, digital⟩
    exact ⟨sign, digits, [], [], rfl, rfl, ⟨rfl, signed⟩, rfl, digital⟩

theorem takes_float : Takes [.sign, .digits, .char '.', .digits] (plainly IsFloat) := by
  refine ((takes_integer.append (.char '.')).append takes_digits).congr fun taken held => ?_
  constructor
  · rintro ⟨_, fraction, _, _, rfl, rfl, ⟨whole, _, _, _, rfl, rfl, ⟨rfl, integer⟩, rfl, rfl⟩, rfl, digital⟩
    exact ⟨rfl, whole, fraction, by simp, integer, digital⟩
  · rintro ⟨rfl, whole, fraction, rfl, integer, digital⟩
    exact ⟨whole ++ ['.'], fraction, [], [], by simp, rfl,
      ⟨whole, ['.'], [], [], rfl, rfl, ⟨rfl, integer⟩, rfl, rfl⟩, rfl, digital⟩

/-- The pattern of a character that is no white space. -/
def Node.visible : Node := .oneOf ⟨false, false⟩ false [.category .blank true]

/-- The pattern of a character that is no quotation mark. -/
def Node.unquoted : Node := .oneOf ⟨false, false⟩ true [.one '"'.toNat]

theorem takes_word : Takes [.loop 1 none .greedy .visible] (plainly IsWord) := by
  refine (Takes.loop (.oneOf _ _ _) 1 none).congr fun taken held => and_congr_right fun _ => ?_
  simp [IsWord, classHolds, ClassItem.holds, Category.holds, Nat.one_le_iff_ne_zero]

theorem takes_line : Takes [.loop 0 none .greedy (.any false)] (plainly fun taken => '\n' ∉ taken) := by
  refine (Takes.loop .any 0 none).congr fun taken held => and_congr_right fun _ => ?_
  simp [List.forall_mem_ne']

theorem takes_unquoted : Takes [.loop 0 none .greedy .unquoted] (plainly fun taken => '"' ∉ taken) := by
  have outside (c : Char) : classHolds ⟨false, false⟩ true [.one '"'.toNat] c = true ↔ c ≠ '"' := by
    rw [classHolds_self]
    simp
  refine (Takes.loop (.oneOf _ _ _) 0 none).congr fun taken held => and_congr_right fun _ => ?_
  simp only [outside, List.forall_mem_ne', Nat.zero_le, true_and]
  simp

/-- The group of a fragment keeps what its body takes. -/
theorem takes_kept {body : Node} {allowed : Text → Prop} (takes : Takes [body] (plainly allowed)) (number : Nat) :
    Takes [.group number body] fun taken held => allowed taken ∧ held = [(number, taken)] := by
  refine (takes.group number).congr fun taken held => ?_
  constructor
  · rintro ⟨_, ⟨rfl, allows⟩, rfl⟩
    exact ⟨allows, rfl⟩
  · rintro ⟨allows, rfl⟩
    exact ⟨[], ⟨rfl, allows⟩, rfl⟩

/-- Whether a text means a placeholder, and a group keeps the part of it that is captured. -/
def Captured (name : Text) (number : Nat) (taken : Text) (held : List (Nat × Text)) : Prop :=
  ∃ part, Means name part taken ∧ held = [(number, part)]

theorem takes_captured {name : Text} {number : Nat} {body : Node} {allowed : Text → Prop}
    (means : ∀ part whole, Means name part whole ↔ whole = part ∧ allowed part)
    (takes : Takes [body] (plainly allowed)) : Takes [.group number body] (Captured name number) := by
  refine (takes_kept takes number).congr fun taken held => ?_
  simp only [Captured, means]
  constructor
  · rintro ⟨allows, rfl⟩
    exact ⟨taken, ⟨rfl, allows⟩, rfl⟩
  · rintro ⟨_, ⟨rfl, allows⟩, rfl⟩
    exact ⟨allows, rfl⟩

theorem takes_string (number : Nat) : Takes
    [.char '"', .group number (.loop 0 none .greedy .unquoted), .char '"']
    (Captured "string" number) := by
  refine (((Takes.char '"').append (takes_kept takes_unquoted number)).append (.char '"')).congr fun taken held => ?_
  constructor
  · rintro ⟨_, _, _, _, rfl, rfl, ⟨_, part, _, _, rfl, rfl, ⟨rfl, rfl⟩, unquoted, rfl⟩, rfl, rfl⟩
    exact ⟨part, ⟨rfl, unquoted⟩, rfl⟩
  · rintro ⟨part, ⟨rfl, unquoted⟩, rfl⟩
    exact ⟨'"' :: part, ['"'], [(number, part)], [], rfl, rfl,
      ⟨['"'], part, [], [(number, part)], rfl, rfl, ⟨rfl, rfl⟩, unquoted, rfl⟩, rfl, rfl⟩

/-- What is read as a group stands for what a name means, if the body of the group takes that. -/
theorem stands_group [CharacterNames] {name source : Text} {groups : Nat} {body : Node} {allowed : Text → Prop}
    (steps : ∀ items widths position rest, ∃ next widths',
      (Reader.behind items groups widths position).steps (tokens (source ++ rest)) =
        (Reader.behind ((.atom, .group (groups + 1) body) :: items) (groups + 1) widths' next).steps (tokens rest))
    (sound : body.fault? false = none) (means : ∀ part whole, Means name part whole ↔ whole = part ∧ allowed part)
    (takes : Takes [body] (plainly allowed)) : Stands source groups 1 (Captured name (groups + 1)) := by
  refine ⟨[.group (groups + 1) body], ⟨steps, ?_⟩, takes_captured means takes⟩
  exact List.forall_mem_singleton.mpr sound

/-- The fragment of a type that is built in, or of a name without a type, stands for what the name means. -/
theorem stands_placeholder [CharacterNames] (name : Text) (groups : Nat) :
    Stands (Segment.source ParameterType.builtIn? (.placeholder name)) groups 1 (Captured name (groups + 1)) := by
  cases known : ParameterType.builtIn? name with
  | none =>
    have other (type : ParameterType) (member : type ∈ ParameterType.builtIn) : name ≠ type.name := by
      rintro rfl
      simpa using List.find?_eq_none.mp known type member
    simp only [ParameterType.builtIn, List.forall_mem_cons] at other
    have source : Segment.source ParameterType.builtIn? (.placeholder name) = "(.*)".toList := by
      simp only [Segment.source, known]
      rfl
    rw [source]
    refine stands_group (fun items widths position rest => ⟨_, _, rfl⟩) rfl (fun part whole => ?_) takes_line
    rw [Means, if_neg other.1, if_neg other.2.1, if_neg other.2.2.1, if_neg other.2.2.2.1]
  | some type =>
    have member := List.mem_of_find?_eq_some known
    obtain rfl : type.name = name := by simpa using List.find?_some known
    have source : Segment.source ParameterType.builtIn? (.placeholder type.name) = type.fragment := by
      simp only [Segment.source, known]
    rw [source]
    simp only [ParameterType.builtIn, List.mem_cons, List.not_mem_nil, or_false] at member
    rcases member with rfl | rfl | rfl | rfl | rfl
    · refine ⟨_, ⟨fun items widths position rest => ⟨_, _, rfl⟩, ?_⟩, takes_string _⟩
      simp only [List.forall_mem_cons, List.not_mem_nil, false_imp_iff, implies_true, and_true]
      exact ⟨rfl, rfl, rfl⟩
    · have sequenced : Takes [sequenceOf [(.repeated, .digits), (.repeated, .sign)]] _ := .sequence takes_integer
      exact stands_group (fun items widths position rest => ⟨_, _, rfl⟩) rfl (fun _ _ => Iff.rfl) sequenced
    · have sequenced : Takes [sequenceOf [(.repeated, .digits), (.atom, .char '.'), (.repeated, .digits),
          (.repeated, .sign)]] _ := .sequence takes_float
      exact stands_group (fun items widths position rest => ⟨_, _, rfl⟩) rfl (fun _ _ => Iff.rfl) sequenced
    · exact stands_group (fun items widths position rest => ⟨_, _, rfl⟩) rfl (fun _ _ => Iff.rfl) takes_word
    · exact stands_group (fun items widths position rest => ⟨_, _, rfl⟩) rfl (fun _ _ => Iff.rfl) takes_line

/-- What groups hold that were passed in turn, the last one first. -/
def numbered (groups : Nat) : List Text → List (Nat × Text)
  | [] => []
  | part :: parts => numbered (groups + 1) parts ++ [(groups + 1, part)]

/-- The source of segments stands for what the segments are read as. -/
theorem stands_segments [CharacterNames] (segments : List Segment) (groups : Nat) :
    Stands (segments.flatMap (Segment.source ParameterType.builtIn?)) groups (segments.filterMap Segment.name?).length
      fun taken held => ∃ parts, Segment.Reading segments parts taken ∧ held = numbered groups parts := by
  induction segments generalizing groups with
  | nil =>
    refine (Stands.nil groups).congr fun taken held => ?_
    constructor
    · rintro ⟨rfl, rfl⟩
      exact ⟨[], .nil, rfl⟩
    · rintro ⟨_, ⟨⟩, rfl⟩
      exact ⟨rfl, rfl⟩
  | cons segment rest ih =>
    cases segment with
    | literal t =>
      have joined := (Stands.literal t groups).append (ih groups)
      rw [Nat.zero_add] at joined
      refine joined.congr fun taken held => ?_
      constructor
      · rintro ⟨_, text, _, _, rfl, rfl, ⟨rfl, rfl⟩, parts, reading, rfl⟩
        exact ⟨parts, .literal _ reading, List.append_nil _⟩
      · rintro ⟨parts, reading, rfl⟩
        cases reading with
        | literal _ reading =>
          exact ⟨_, _, [], numbered groups parts, rfl, (List.append_nil _).symm, ⟨rfl, rfl⟩, parts, reading, rfl⟩
    | placeholder name =>
      have joined := (stands_placeholder name groups).append (ih (groups + 1))
      rw [Nat.add_comm] at joined
      refine joined.congr fun taken held => ?_
      constructor
      · rintro ⟨whole, text, _, _, rfl, rfl, ⟨part, means, rfl⟩, parts, reading, rfl⟩
        exact ⟨part :: parts, .placeholder means reading, rfl⟩
      · rintro ⟨_, reading, rfl⟩
        cases reading with
        | placeholder means reading => exact ⟨_, _, _, _, rfl, rfl, ⟨_, means, rfl⟩, _, reading, rfl⟩

end Fragments

/-! ### Anchored sources -/

/-- The items of a pattern between anchors, last ones first. -/
def anchored (nodes : List Node) : List Item :=
  (.anchor, .anchor .lastLine) :: (itemsOf nodes ++ [(.anchor, .anchor .start)])

theorem reaches_anchored {nodes : List Node} {s t : Cursor} : (sequenceOf (anchored nodes)).Reaches s t ↔
    s.before = [] ∧ Through nodes s t ∧ (t.rest = [] ∨ t.rest = ['\n']) := by
  have order : (anchored nodes).reverse.map Prod.snd = .anchor .start :: (nodes ++ [.anchor .lastLine]) := by
    simp [anchored, itemsOf, Function.comp_def]
  rw [reaches_sequenceOf, order, through_anchored]

/-- Between anchors, a source that stands for patterns is read as these patterns. -/
theorem Writes.compile [CharacterNames] {source : Text} {added : Nat} {nodes : List Node}
    (writes : Writes source 0 added nodes) (piece : Piece source added) : Regex.compile ('^' :: (source ++ ['$'])) =
      .ok ⟨'^' :: (source ++ ['$']), added, sequenceOf (anchored nodes)⟩ := by
  obtain ⟨position, widths, read⟩ := writes.steps [(.anchor, .anchor .start)] [] 1 ['$']
  rw [Nat.zero_add] at read
  have cut : tokens ('^' :: (source ++ ['$'])) = .plain '^' :: tokens (source ++ ['$']) := tokens_cons (by decide) _
  have steps : (Reader.start []).steps (tokens ('^' :: (source ++ ['$']))) =
      .ok (.behind (anchored nodes) added widths (position + 1)) := by
    rw [cut, Reader.steps_start_anchor]
    exact read
  have closed : .dangling ∉ tokens ('^' :: (source ++ ['$'])) := by
    rw [cut, List.mem_cons]
    exact not_or.mpr ⟨nofun, (piece.append .lastLine).closed⟩
  have sound : (sequenceOf (anchored nodes)).fault? false = none := by
    apply fault?_sequenceOf
    simp only [anchored, itemsOf, List.forall_mem_cons, List.forall_mem_append, List.mem_reverse, List.mem_map,
      forall_exists_index, and_imp, forall_apply_eq_imp_iff₂, List.not_mem_nil, false_imp_iff, implies_true, and_true]
    exact ⟨rfl, writes.sound, rfl⟩
  refine compileWith_of_steps closed steps (Reader.finish_item rfl ?_)
  have node : (Reader.behind (anchored nodes) added widths (position + 1)).build.frame.node =
    sequenceOf (anchored nodes) := rfl
  simp only [Build.fault?, node]
  simp [Reader.behind, Build.hasTwoModes, sound]

theorem lookup_numbered_of_le {groups number : Nat} (parts : List Text) (before : number ≤ groups) :
    (numbered groups parts).lookup number = none := by
  induction parts generalizing groups with
  | nil => rfl
  | cons part parts ih =>
    have other : (number == groups + 1) = false := beq_eq_false_iff_ne.mpr (by omega)
    rw [numbered, List.lookup_append, ih (Nat.le_succ_of_le before), List.lookup_cons, other]
    rfl

/-- Groups that are passed in turn keep the parts under their numbers. -/
theorem lookup_numbered (groups : Nat) (parts : List Text) (i : Nat) :
    (numbered groups parts).lookup (groups + 1 + i) = parts[i]? := by
  induction parts generalizing groups i with
  | nil => rfl
  | cons part parts ih =>
    rw [numbered, List.lookup_append]
    cases i with
    | zero =>
      rw [lookup_numbered_of_le parts (Nat.le_refl _)]
      simp
    | succ i =>
      have other : (groups + 1 + (i + 1) == groups + 1) = false := beq_eq_false_iff_ne.mpr (by omega)
      rw [show groups + 1 + (i + 1) = groups + 1 + 1 + i by omega, ih, List.getElem?_cons_succ,
        show groups + 1 + 1 + i = groups + 1 + (i + 1) by omega, List.lookup_cons, other]
      simp

theorem lookups_numbered (parts : List Text) :
    ((List.range parts.length).map fun i => (numbered 0 parts).lookup (i + 1)) = parts.map some := by
  refine List.ext_getElem (by simp) fun i within _ => ?_
  have held := lookup_numbered 0 parts i
  rw [Nat.zero_add, Nat.add_comm] at held
  simp only [List.length_map, List.length_range] at within
  simp [held, within]

end Regex

namespace Segment

theorem Reading.length {segments : List Segment} {parts : List Text} {text : Text}
    (reading : Reading segments parts text) : parts.length = (segments.filterMap name?).length := by
  induction reading with
  | nil => rfl
  | literal t _ ih => exact ih
  | placeholder _ _ ih => exact congrArg Nat.succ ih

/-- The types of the placeholders of a pattern are built in, or there are none. -/
theorem flatMap_source {type? : Text → Option ParameterType} {segments : List Segment}
    (known : ∀ name, placeholder name ∈ segments → type? name = ParameterType.builtIn? name) :
    segments.flatMap (source type?) = segments.flatMap (source ParameterType.builtIn?) := by
  refine List.flatMap_congr fun segment member => ?_
  cases segment with
  | literal t => rfl
  | placeholder name => simp only [source, known name member]

end Segment

namespace Regex

/-- Patterns that take the readings of segments, between anchors, find the readings of a text. -/
theorem search_means {nodes : List Node} {segments : List Segment} {source : Text}
    (takes : Takes nodes fun taken held =>
      ∃ parts, Segment.Reading segments parts taken ∧ held = numbered 0 parts)
    (text : Text) :
    let regex : Regex := ⟨source, (segments.filterMap Segment.name?).length, sequenceOf (anchored nodes)⟩
    ((regex.search text).isSome ↔ ∃ parts, Segment.Reads segments parts text) ∧
      ∀ groups, regex.search text = some groups →
        ∃ parts, Segment.Reads segments parts text ∧ groups = parts.map some := by
  intro regex
  have start (s t : Cursor) (through : regex.root.Reaches s t) : s.before = [] :=
    (reaches_anchored.mp through).1
  -- A way between the anchors is a reading of what stands in front of the end of the text.
  have reads (out : Cursor) : regex.root.Reaches ⟨[], text, []⟩ out ↔
      ∃ body rest parts, text = body ++ rest ∧ (rest = [] ∨ rest = ['\n']) ∧ Segment.Reading segments parts body ∧
        out = Cursor.past ⟨[], text, []⟩ body (numbered 0 parts) rest := by
    rw [reaches_anchored, takes]
    constructor
    · rintro ⟨-, ⟨body, _, rest, at_, ⟨parts, reading, rfl⟩, rfl⟩, ends⟩
      exact ⟨body, rest, parts, at_, ends, reading, rfl⟩
    · rintro ⟨body, rest, parts, at_, ends, reading, rfl⟩
      exact ⟨rfl, ⟨body, _, rest, at_, ⟨parts, reading, rfl⟩, rfl⟩, ends⟩
  constructor
  · rw [search_isSome start]
    constructor
    · rintro ⟨out, through⟩
      obtain ⟨body, rest, parts, at_, ends, reading, -⟩ := (reads out).mp through
      exact ⟨parts, body, eq_or_eq_of_ends at_ ends, reading⟩
    · rintro ⟨parts, body, whole | whole, reading⟩
      · exact ⟨_, (reads _).mpr ⟨body, [], parts, by simpa using whole, .inl rfl, reading, rfl⟩⟩
      · exact ⟨_, (reads _).mpr ⟨body, ['\n'], parts, whole, .inr rfl, reading, rfl⟩⟩
  · intro groups found
    obtain ⟨out, through, rfl⟩ := search_eq_some start found
    obtain ⟨body, rest, parts, at_, ends, reading, rfl⟩ := (reads out).mp through
    refine ⟨parts, ⟨body, eq_or_eq_of_ends at_ ends, reading⟩, ?_⟩
    rw [← lookups_numbered parts, reading.length]
    simp [Cursor.past, regex]

end Regex

namespace StepRegistry

variable {η : Type}

open Regex

/-- A name that is built in, or has no type, has the type that is built in. -/
theorem type?_eq_builtIn? {r : StepRegistry η} {name : Text}
    (known : (ParameterType.builtIn? name).isSome ∨ r.types.lookup name = none) :
    r.type? name = ParameterType.builtIn? name := by
  unfold type?
  cases found : ParameterType.builtIn? name with
  | some type => rfl
  | none =>
    rw [found] at known
    exact known.resolve_left (by simp)

section Compilation

variable [CharacterNames]

theorem compile_text {r : StepRegistry η} {pattern : Text} {regex : Regex}
    (compiled : Regex.compile (patternSource r.type? (Segment.split pattern)) = .ok regex) :
    r.compile (.text pattern) = .ok (regex, pattern, (Segment.split pattern).filterMap Segment.name?) := by
  unfold compile
  dsimp only
  rw [compiled]

/-- The pattern of a definition is cut at its placeholders. If these are of types that are built in, or of no type at
all, its regular expression matches a text exactly if the text, perhaps without a line feed at its end, can be read
as the pattern's segments, and the groups of a match hold what the placeholders capture in one such reading. -/
theorem compile_means (r : StepRegistry η) (pattern : Text)
    (known : ∀ name, .placeholder name ∈ Segment.split pattern →
      (ParameterType.builtIn? name).isSome ∨ r.types.lookup name = none) :
    Segment.Cuts pattern (Segment.split pattern) ∧
    ∃ regex, r.compile (.text pattern) = .ok (regex, pattern, (Segment.split pattern).filterMap Segment.name?) ∧
      ∀ text, ((regex.search text).isSome ↔ ∃ parts, Segment.Reads (Segment.split pattern) parts text) ∧
        ∀ groups, regex.search text = some groups →
          ∃ parts, Segment.Reads (Segment.split pattern) parts text ∧ groups = parts.map some := by
  refine ⟨Segment.split_cut pattern, ?_⟩
  obtain ⟨nodes, writes, takes⟩ := stands_segments (Segment.split pattern) 0
  have compiled := writes.compile
    (Segment.piece_flatMap (fun _ _ => ParameterType.piece_of_builtIn) (Segment.split pattern))
  have source : patternSource r.type? (Segment.split pattern) = '^' :: ((Segment.split pattern).flatMap
      (Segment.source ParameterType.builtIn?) ++ ['$']) := by
    rw [patternSource, Segment.flatMap_source fun name member => type?_eq_builtIn? (known name member)]
    rfl
  rw [← source] at compiled
  exact ⟨_, compile_text compiled, search_means takes⟩

end Compilation

/-- A pattern with a name that is not known and a number reads a name and a number out of a text. -/
theorem compile_means_two_placeholders : ∃ regex names parts,
    (empty : StepRegistry Unit).compile (.text "pay \x7bwhom\x7d \x7bint\x7d!") =
      .ok (regex, "pay \x7bwhom\x7d \x7bint\x7d!", names) ∧
    regex.search "pay Bob -12!" = some (parts.map some) ∧
    Segment.Reads (Segment.split "pay \x7bwhom\x7d \x7bint\x7d!") parts "pay Bob -12!" := by
  obtain ⟨-, regex, compiled, means⟩ :=
    compile_means (empty : StepRegistry Unit) "pay \x7bwhom\x7d \x7bint\x7d!" fun _ _ => .inr rfl
  have whom : Means "whom" "Bob" "Bob" := (show "Bob".toList = "Bob".toList ∧ '\n' ∉ "Bob".toList from by decide)
  have amount : IsInteger "-12" := ⟨['-'], ['1', '2'], rfl, .inr rfl, by decide, List.all_eq_true.mp rfl⟩
  have amounts : Means "int" "-12" "-12" := (show "-12".toList = "-12".toList ∧ IsInteger "-12" from ⟨rfl, amount⟩)
  have reading : Segment.Reading (Segment.split "pay \x7bwhom\x7d \x7bint\x7d!") ["Bob", "-12"] "pay Bob -12!" :=
    .literal "pay " (.placeholder whom (.literal " " (.placeholder amounts (.literal "!" .nil))))
  obtain ⟨groups, found⟩ := Option.isSome_iff_exists.mp ((means "pay Bob -12!").1.mpr ⟨_, _, .inl rfl, reading⟩)
  obtain ⟨parts, reads, rfl⟩ := (means "pay Bob -12!").2 groups found
  exact ⟨regex, _, parts, compiled, found, reads⟩

end StepRegistry

end Gherkin
