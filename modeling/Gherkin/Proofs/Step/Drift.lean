import Gherkin.Proofs.Regex.Literal
import Gherkin.Proofs.Regex.Sequence
import Gherkin.Proofs.Step.Registration

/-! # Redefined parameter types

A definition is matched with the regular expression that its placeholders had when it was registered, but
what a group captures is converted by the type that the placeholder has at the time of the match. So a type
that is defined later can be handed texts that its own regular expression does not capture. This module says
when that happens: exactly when a definition that was registered before captures such a text. -/

namespace Gherkin

open Regex

section Types

variable [CharacterNames]

/-- Whether the regular expression of a type can match some whole text so that its group is a given text. -/
def ParameterType.Captures (type : ParameterType) (t : Text) : Prop :=
  ∃ regex whole, Regex.compile type.fragment = .ok regex ∧ regex.fullMatch whole = some [some t]

/-- Whether a type captures all that the group of its regular expression matches, wherever that is and whatever stands
around it. In a pattern, the groups inside have other numbers, and what refers to a group may refer to another one. -/
def ParameterType.SelfContained (type : ParameterType) : Prop :=
  ∃ regex, Regex.compile type.fragment = .ok regex ∧
    ∀ (before : Nat) (body other : Regex.Node) (s t : Cursor), (1, body) ∈ regex.root.groupsIn →
      other.shape 0 = body.shape before → other.Reaches s t → type.Captures (s.passed t)

end Types

/-- Whether a call defines the type of a name. -/
def RegistryCall.Defines {η : Type} (name : Text) : RegistryCall η → Prop
  | define other _ _ => other = name
  | register .. | add .. | clear => False

variable {η : Type}

/-- Whether a match can find a text for a placeholder of a name. It is handed to the conversion of the type
that the name has then, unless the conversion of an earlier placeholder fails. -/
def StepRegistry.Finds (r : StepRegistry η) (name t : Text) : Prop :=
  ∃ (text : Text) (role : Role) (tags : Option (List Text)) (index : Nat) (definition : StepDefinition η)
    (groups : List (Option Text)) (i : Nat),
    r.select text role tags = some (index, definition, groups) ∧
      definition.names[i]? = some name ∧ groups[i]? = some (some t)

/-! ### Types that capture all that their group matches -/

section Contained

variable [CharacterNames] {name pattern : Text} {transform : Transform} {regex whole : Regex}

/-- Such a type captures the texts that the ways through its regular expression pass over. -/
theorem ParameterType.captures_iff (compiled : compile pattern = .ok regex) (no_groups : regex.groups = 0)
    (unanchored : regex.root.unanchored = true) (compiled_whole : compile ('(' :: pattern ++ [')']) = .ok whole)
    {t : Text} : Captures ⟨name, '(' :: pattern ++ [')'], transform⟩ t ↔
      ∃ s u, regex.root.Reaches s u ∧ s.passed u = t := by
  obtain ⟨one, root⟩ := root_of_plain compiled no_groups unanchored compiled_whole
  constructor
  · rintro ⟨found, text, read, matched⟩
    obtain rfl := Except.ok.inj (compiled_whole.symm.trans read)
    obtain ⟨body, s, u, member, through, passed⟩ := passed_of_fullMatch (i := 0) matched rfl
    rw [root, Regex.Node.groupsIn, groupsIn_of_compile compiled no_groups] at member
    cases List.mem_singleton.mp member
    exact ⟨s, u, through, passed⟩
  · rintro ⟨s, u, through, rfl⟩
    exact ⟨whole, _, compiled_whole, fullMatch_passed one root unanchored through⟩

/-- A plain regular expression without groups makes such a type. -/
theorem ParameterType.selfContained_parenthesized (compiled : compile pattern = .ok regex)
    (no_groups : regex.groups = 0) (unanchored : regex.root.unanchored = true)
    (compiled_whole : compile ('(' :: pattern ++ [')']) = .ok whole) (name : Text) (transform : Transform) :
    SelfContained ⟨name, '(' :: pattern ++ [')'], transform⟩ := by
  obtain ⟨-, root⟩ := root_of_plain compiled no_groups unanchored compiled_whole
  refine ⟨whole, compiled_whole, fun before body other s t member same through => ?_⟩
  rw [root, Regex.Node.groupsIn, groupsIn_of_compile compiled no_groups] at member
  cases List.mem_singleton.mp member
  obtain rfl := Regex.Node.eq_of_shape unanchored (groupsIn_of_compile compiled no_groups) same
  exact (captures_iff compiled no_groups unanchored compiled_whole).mpr ⟨s, t, through, rfl⟩

end Contained

/-! ### Types as pieces of patterns -/

theorem ParameterType.piece_of_builtIn [CharacterNames] {name : Text} {type : ParameterType}
    (known : builtIn? name = some type) : Piece type.fragment 1 := by
  have member := List.mem_of_find?_eq_some known
  simp only [builtIn, List.mem_cons, List.not_mem_nil, or_false] at member
  have compiles {fragment : Text} {root : Regex.Node} (compiled : compile fragment = .ok ⟨fragment, 1, root⟩) :
      Piece fragment 1 := .of_compile compiled
  rcases member with rfl | rfl | rfl | rfl | rfl <;> exact compiles rfl

/-- The segments in front of a placeholder. -/
theorem Segment.exists_of_name {segments : List Segment} {i : Nat} {name : Text}
    (at_ : (segments.filterMap name?)[i]? = some name) :
    ∃ before after, segments = before ++ .placeholder name :: after ∧ (before.filterMap name?).length = i := by
  induction segments generalizing i with
  | nil => cases at_
  | cons segment rest ih =>
    cases segment with
    | literal t =>
      obtain ⟨before, after, eq, count⟩ := ih at_
      exact ⟨.literal t :: before, after, by rw [eq, List.cons_append], count⟩
    | placeholder other =>
      cases i with
      | zero =>
        cases at_
        exact ⟨[], rest, rfl, rfl⟩
      | succ i =>
        obtain ⟨before, after, eq, count⟩ := ih at_
        exact ⟨.placeholder other :: before, after, by rw [eq, List.cons_append],
          congrArg Nat.succ count⟩

/-- What stands for a placeholder without a type brings one group. -/
theorem piece_untypedFragment [CharacterNames] : Piece untypedFragment 1 := by
  have compiled : compile untypedFragment = .ok ⟨untypedFragment, 1, _⟩ := rfl
  exact .of_compile compiled

/-- Each placeholder brings one group. -/
theorem Segment.piece_flatMap [CharacterNames] {type? : Text → Option ParameterType}
    (typed : ∀ name type, type? name = some type → Piece type.fragment 1) (segments : List Segment) :
    Piece (segments.flatMap (source type?)) (segments.filterMap name?).length := by
  induction segments with
  | nil => exact .nil
  | cons segment rest ih =>
    cases segment with
    | literal t =>
      have joined := (Piece.literal t).append ih
      rwa [Nat.zero_add] at joined
    | placeholder name =>
      have one : Piece (source type? (.placeholder name)) 1 := by
        unfold source
        dsimp only
        split
        · next type known => exact typed name type known
        · exact piece_untypedFragment
      have joined := one.append ih
      rwa [Nat.add_comm] at joined

theorem StepRegistry.builtIn?_of_empty {name : Text} {type : ParameterType}
    (known : (empty : StepRegistry η).type? name = some type) : ParameterType.builtIn? name = some type := by
  unfold type? at known
  split at known
  · next found =>
    cases known
    exact found
  · cases known

section Sessions

variable [CharacterNames]

namespace StepRegistry

/-- Whether every type has one group. -/
def Typed (r : StepRegistry η) : Prop := ∀ name type, r.type? name = some type → Piece type.fragment 1

/-- A type that is there after a call is built in, was there before, or is the one that the call defines. -/
theorem type?_of_effect {r next : StepRegistry η} {call : RegistryCall η}
    {answer : Except StepError (RegistryAnswer η)} (did : RegistryCall.Effect r call answer next) {name : Text}
    {type : ParameterType} (known : next.type? name = some type) :
    ParameterType.builtIn? name = some type ∨ r.type? name = some type ∨ ∃ pattern regex transform,
      call = .define name pattern transform ∧ Regex.compile pattern = .ok regex ∧ regex.groups ≤ 1 ∧
        type = ⟨name, if regex.groups = 0 then ['('] ++ pattern ++ [')'] else pattern, transform⟩ := by
  cases did with
  | refused | added => exact .inr (.inl known)
  | cleared => exact .inl (builtIn?_of_empty known)
  | @defined other pattern regex transform stored compiled few eq =>
    unfold type? at known ⊢
    cases custom : ParameterType.builtIn? name with
    | some builtIn =>
      rw [custom] at known
      exact .inl known
    | none =>
      rw [custom] at known
      right
      by_cases same : name = other
      · subst same
        cases (Entries.lookup_store r.types name stored).symm.trans known
        exact .inr ⟨pattern, regex, transform, rfl, compiled, few, eq⟩
      · exact .inl ((Entries.lookup_store_of_ne r.types same stored).symm.trans known)

theorem typed_empty : (empty : StepRegistry η).Typed :=
  fun _ _ known => ParameterType.piece_of_builtIn (builtIn?_of_empty known)

theorem typed_of_effect {r next : StepRegistry η} {call : RegistryCall η}
    {answer : Except StepError (RegistryAnswer η)} (did : RegistryCall.Effect r call answer next)
    (typed : r.Typed) : next.Typed := by
  intro name type known
  obtain builtIn | before | ⟨pattern, regex, transform, rfl, compiled, few, rfl⟩ := type?_of_effect did known
  · exact ParameterType.piece_of_builtIn builtIn
  · exact typed name type before
  · dsimp only
    split
    · next no_groups =>
      have piece := Piece.parenthesized compiled
      rwa [no_groups] at piece
    · next groups =>
      have one : regex.groups = 1 := by omega
      exact one ▸ Piece.of_compile compiled

/-- Every type that a session leaves behind has one group. -/
theorem typed_after (r : StepRegistry η) (calls : List (RegistryCall η)) (typed : r.Typed) :
    (r.after calls).Typed :=
  after_induction (motive := Typed) r calls typed fun _ _ _ _ _ => typed_of_effect

/-! ### Definitions and types -/

theorem source_of_compile {r : StepRegistry η} {t : Text} {regex : Regex} {readable : Text} {names : List Text}
    (compiled : r.compile (.text t) = .ok (regex, readable, names)) :
    Regex.compile (patternSource r.type? (Segment.split t)) = .ok regex ∧
      names = (Segment.split t).filterMap Segment.name? := by
  unfold StepRegistry.compile at compiled
  dsimp only at compiled
  split at compiled
  · next read =>
    cases compiled
    exact ⟨read, rfl⟩
  · cases compiled

/-- What a registration compiles is a regular expression without placeholders, or the source of segments. -/
theorem names_of_compile {r : StepRegistry η} {pattern : Pattern} {regex : Regex} {readable : Text}
    {names : List Text} (compiled : r.compile pattern = .ok (regex, readable, names)) :
    names = [] ∨ ∃ segments, Regex.compile (patternSource r.type? segments) = .ok regex ∧
      names = segments.filterMap Segment.name? := by
  cases pattern with
  | other kindName => cases compiled
  | regex given =>
    cases compiled
    exact .inl rfl
  | text t => exact .inr ⟨_, source_of_compile compiled⟩

end StepRegistry

/-- Whether a definition has no placeholders, or was compiled while a name had a given type. -/
def StepDefinition.CompiledWith (d : StepDefinition η) (name : Text) (type : ParameterType) : Prop :=
  d.names = [] ∨ ∃ (type? : Text → Option ParameterType) (segments : List Segment), type? name = some type ∧
    (∀ name type, type? name = some type → Piece type.fragment 1) ∧
    Regex.compile (patternSource type? segments) = .ok d.regex ∧ d.names = segments.filterMap Segment.name?

/-- What a definition captures for a placeholder, the type captures with which the definition was compiled. -/
theorem StepDefinition.CompiledWith.captures {d : StepDefinition η} {name : Text} {type : ParameterType}
    (compiled : d.CompiledWith name type) (contained : type.SelfContained) {text : Text}
    {groups : List (Option Text)} {i : Nat} {t : Text} (found : d.regex.search text = some groups)
    (named : d.names[i]? = some name) (captured : groups[i]? = some (some t)) : type.Captures t := by
  obtain ⟨regex, compiles, captures⟩ := contained
  rcases compiled with none_there | ⟨type?, segments, known, typed, all, names⟩
  · rw [none_there] at named
    cases named
  · rw [names] at named
    obtain ⟨before, after, rfl, rfl⟩ := Segment.exists_of_name named
    have source : patternSource type? (before ++ .placeholder name :: after) =
        '^' :: (before.flatMap (Segment.source type?) ++ type.fragment ++
          (after.flatMap (Segment.source type?) ++ ['$'])) := by
      simp [patternSource, Segment.source, known]
    have front := Segment.piece_flatMap typed before
    have back := (Segment.piece_flatMap typed after).append Piece.lastLine
    rw [source] at all
    obtain ⟨-, body, s, u, member, through, rfl⟩ := passed_of_search found captured
    obtain ⟨own, there, same⟩ := exists_own_of_anchored front compiles (typed name type known) back all member
      Nat.one_pos (Nat.le_refl 1)
    exact captures _ own body s u there same through

namespace StepRegistry

/-- A definition of a type that succeeds puts it in the place of the type that the name had. -/
theorem after_define {r next : StepRegistry η} {name pattern : Text} {transform : Transform}
    {type : ParameterType} (defined : r.defineType name pattern transform = .ok (next, type)) :
    type.name = name ∧ r.after [.define name pattern transform] = { r with types := r.types.store name type } := by
  have after : r.after [.define name pattern transform] = next := by
    simp [RegistryCall.program, InPlace.on_define, InPlace.updated, defined]
  obtain ⟨_, _, _, rfl, rfl⟩ := defineType_eq_ok defined
  exact ⟨rfl, after⟩

/-- What holds from the definition of a type on: as long as the type is there, the definitions from before it
are in front, and the others were compiled with it. -/
structure Since (old : List (StepDefinition η)) (type : ParameterType) (r : StepRegistry η) : Prop where
  typed : r.Typed
  compiled : ∀ known, r.type? type.name = some known → known = type ∧ ∃ added,
    r.definitions = old ++ added ∧ ∀ d ∈ added, d.CompiledWith type.name type

/-- What holds from the definition of a type on, every call keeps that does not define the type again. -/
theorem Since.effect {old : List (StepDefinition η)} {type : ParameterType} {r next : StepRegistry η}
    {call : RegistryCall η} {answer : Except StepError (RegistryAnswer η)}
    (custom : ParameterType.builtIn? type.name = none) (other : ¬call.Defines type.name)
    (did : RegistryCall.Effect r call answer next) (since : Since old type r) : Since old type next := by
  refine ⟨typed_of_effect did since.typed, ?_⟩
  cases did with
  | refused => exact since.compiled
  | cleared =>
    intro known none_there
    rw [type?, custom] at none_there
    cases none_there
  | @defined name _ _ _ stored =>
    intro known found
    refine since.compiled known ?_
    rw [type?, custom] at found ⊢
    exact (Entries.lookup_store_of_ne r.types (Ne.symm other) stored).symm.trans found
  | @added call role pattern options regex readable names definition _ compiled eq _ =>
    intro known found
    obtain ⟨rfl, added, definitions, with_⟩ := since.compiled known found
    refine ⟨rfl, added ++ [definition], by simp [definitions], fun d member => ?_⟩
    rcases List.mem_append.mp member with member | member
    · exact with_ d member
    · obtain rfl := List.mem_singleton.mp member
      subst eq
      rcases names_of_compile compiled with none_there | ⟨segments, read, names⟩
      · exact .inl none_there
      · exact .inr ⟨r.type?, segments, found, since.typed, read, names⟩

theorem since_after {calls more : List (RegistryCall η)} {next : StepRegistry η} {name pattern : Text}
    {transform : Transform} {type : ParameterType} (custom : ParameterType.builtIn? name = none)
    (defined : (empty.after calls).defineType name pattern transform = .ok (next, type))
    (others : ∀ call ∈ more, ¬call.Defines name) :
    Since (empty.after calls).definitions type
      (empty.after (calls ++ .define name pattern transform :: more)) := by
  obtain ⟨rfl, stored⟩ := after_define defined
  have start : Since (empty.after calls).definitions type
      ((empty.after calls).after [.define type.name pattern transform]) := by
    refine ⟨typed_after _ _ (typed_after _ _ typed_empty), fun known found => ?_⟩
    rw [stored] at found ⊢
    rw [type?, custom] at found
    cases (Entries.lookup_store ..).symm.trans found
    exact ⟨rfl, [], (List.append_nil _).symm, by simp⟩
  have split : calls ++ .define type.name pattern transform :: more =
      calls ++ [.define type.name pattern transform] ++ more := by simp
  rw [split, after_append, after_append]
  exact after_induction _ more start fun _ _ _ call member did => Since.effect custom (others call member) did

/-- A parameter type that a session defines, and that captures by itself what its group matches anywhere,
captures all texts that matches find for its placeholders from then on, as long as it is not defined again,
exactly if it captures those that were found for them before. -/
theorem define_keeps_captures_iff (calls : List (RegistryCall η)) {next : StepRegistry η} {name pattern : Text}
    {transform : Transform} {type : ParameterType} (custom : ParameterType.builtIn? name = none)
    (defined : (empty.after calls).defineType name pattern transform = .ok (next, type))
    (contained : type.SelfContained) :
    (∀ more t known, (∀ call ∈ more, ¬call.Defines name) →
      (empty.after (calls ++ .define name pattern transform :: more)).Finds name t →
      (empty.after (calls ++ .define name pattern transform :: more)).type? name = some known →
      known.Captures t) ↔
    ∀ t, (empty.after calls).Finds name t → type.Captures t := by
  constructor
  · intro safe t found
    have stored := (after_define defined).2
    rw [← after_append] at stored
    refine safe [] t _ (by simp) ?_ ?_
    · rw [stored]
      exact found
    · rw [stored, type?, custom]
      exact Entries.lookup_store ..
  · rintro keeps more t known others ⟨text, role, tags, index, d, groups, i, selected, named, captured⟩ found
    obtain rfl : type.name = name := (after_define defined).1
    obtain ⟨rfl, added, definitions, compiled⟩ := (since_after custom defined others).compiled known found
    rw [select, definitions, selectFrom_append] at selected
    rcases Option.or_eq_some_iff.mp selected with before | ⟨-, behind⟩
    · exact keeps t ⟨text, role, tags, index, d, groups, i, before, named, captured⟩
    · obtain ⟨member, searched⟩ := mem_of_selectFrom behind
      exact (compiled d member).captures contained searched named captured

end StepRegistry

end Sessions

/-! ### Types for digits -/

namespace StepRegistry

/-- A text is found where the definition that is selected has it in the group of the placeholder. -/
theorem finds_of_select {r : StepRegistry η} {name t : Text} (text : Text) (role : Role)
    (tags : Option (List Text)) (i : Nat)
    (selects : ((r.select text role tags).any fun found =>
      found.2.1.names[i]? == some name && found.2.2[i]? == some (some t)) = true) : r.Finds name t := by
  cases selected : r.select text role tags with
  | none => simp [selected] at selects
  | some found =>
    simp only [selected, Option.any_some, Bool.and_eq_true, beq_iff_eq] at selects
    exact ⟨text, role, tags, found.1, found.2.1, found.2.2, i, selected, selects.1, selects.2⟩

/-- Digits, as many as there are. -/
def countType : ParameterType := ⟨"count", "(\\d+)", .int⟩

/-- A digit behind a mark. -/
def ticketType : ParameterType := ⟨"ticket", "#(\\d)", .int⟩

theorem define_countType (r : StepRegistry η) : r.defineType "count" "\\d+" .int =
    .ok ({ r with types := r.types.store "count" countType }, countType) := rfl

theorem define_ticketType (r : StepRegistry η) : r.defineType "ticket" "#(\\d)" .int =
    .ok ({ r with types := r.types.store "ticket" ticketType }, ticketType) := rfl

/-- The pattern of a decimal digit. -/
def digit : Regex.Node := .oneOf ⟨false, false⟩ false [.category .digit false]

theorem compile_digits : Regex.compile "\\d+" = .ok ⟨"\\d+", 0, .loop 1 none .greedy digit⟩ := rfl

theorem compile_countType :
    Regex.compile countType.fragment = .ok ⟨"(\\d+)", 1, .group 1 (.loop 1 none .greedy digit)⟩ := rfl

theorem selfContained_countType : countType.SelfContained :=
  ParameterType.selfContained_parenthesized compile_digits rfl rfl compile_countType "count" .int

/-- The group of this type takes one digit, and the mark can stand in front of every digit. -/
theorem selfContained_ticketType : ticketType.SelfContained := by
  have compiled : Regex.compile ticketType.fragment = .ok ⟨"#(\\d)", 1, .seq (.char '#') (.group 1 digit)⟩ := rfl
  refine ⟨_, compiled, fun before body other s t member same through => ?_⟩
  obtain rfl : body = digit := by
    simpa [Regex.Node.groupsIn, Regex.Node.char, Regex.Node.code, digit] using member
  obtain rfl : other = digit := Regex.Node.eq_of_shape rfl rfl same
  obtain ⟨c, rest, at_, held, rfl⟩ := through
  have passed : s.passed (s.advance c rest) = [c] := by simp [Cursor.passed, at_, Cursor.advance]
  rw [passed]
  refine ⟨_, ['#', c], compiled, ?_⟩
  have mark : classHolds ⟨false, false⟩ false [.one '#'.toNat] '#' = true := by decide
  simp only [fullMatch, Regex.Node.run, Regex.Node.char, Regex.Node.code, digit, mark]
  simp [Cursor.advance, Cursor.capture, held]

/-- A type for digits captures no letters. -/
theorem not_captures_letters : ¬countType.Captures "abc" := by
  intro captures
  obtain ⟨s, u, through, passed⟩ :=
    (ParameterType.captures_iff compile_digits rfl rfl compile_countType).mp captures
  have digit := classHolds_of_passed through 'a' (by simp [passed])
  exact absurd digit (by decide)

/-- A registration with a placeholder for a count. -/
def countCall : RegistryCall Nat :=
  .register (.text "Given") (.text "I have \x7bcount\x7d") ⟨0, none, none, []⟩

/-- A registration with a placeholder for a ticket. -/
def ticketCall : RegistryCall Nat :=
  .register (.text "Given") (.text "I hold \x7bticket\x7d") ⟨1, none, none, []⟩

/-- Calls that define a type for words and register a pattern with it. -/
def wordCalls : List (RegistryCall Nat) := [.define "count" "\\w+" .text, countCall]

/-- A type that is defined before the patterns that use it is handed texts that it captures. A type for digits
that is defined again after a type for words is not. -/
theorem define_keeps_captures_iff_digits :
    ((empty.after [.define "ticket" "#(\\d)" .int, ticketCall]).Finds "ticket" "3" ∧
      ∃ type, (empty.after [.define "ticket" "#(\\d)" .int, ticketCall]).type? "ticket" = some type ∧
        type.Captures "3") ∧
    ∃ more t type, (empty.after (wordCalls ++ .define "count" "\\d+" .int :: more)).Finds "count" t ∧
      (empty.after (wordCalls ++ .define "count" "\\d+" .int :: more)).type? "count" = some type ∧
      ¬type.Captures t := by
  constructor
  · have finds : (empty.after [.define "ticket" "#(\\d)" .int, ticketCall]).Finds "ticket" "3" :=
      finds_of_select "I hold #3" .any none 0 (by decide +kernel)
    have keeps_iff :=
      define_keeps_captures_iff (η := Nat) [] (by decide) (define_ticketType _) selfContained_ticketType
    have keeps := keeps_iff.mpr (by
      rintro t ⟨_, _, _, _, _, _, _, selected, _⟩
      cases selected)
    obtain ⟨type, known⟩ : ∃ type,
        (empty.after [.define "ticket" "#(\\d)" .int, ticketCall]).type? "ticket" = some type :=
      Option.isSome_iff_exists.mp (by decide +kernel)
    exact ⟨finds, type, known, keeps [ticketCall] "3" type (by simp [ticketCall, RegistryCall.Defines]) finds known⟩
  · have keeps_iff := define_keeps_captures_iff wordCalls (by decide) (define_countType _) selfContained_countType
    have drifts := keeps_iff.not.mpr fun keeps => not_captures_letters
      (keeps "abc" (finds_of_select "I have abc" .any none 0 (by decide +kernel)))
    push Not at drifts
    obtain ⟨more, t, type, _, found, known, missed⟩ := drifts
    exact ⟨more, t, type, found, known, missed⟩

/-- Calls that define a type for words, register a pattern with it, and define the type again for digits. -/
def narrowingCalls : List (RegistryCall Nat) := wordCalls ++ [.define "count" "\\d+" .int]

set_option maxRecDepth 4000 in
/-- The conversion to integers is handed letters, which the regular expression of its type does not capture. -/
theorem narrowed_type_is_handed_letters :
    (empty.after narrowingCalls).match? "I have abc" .any none =
      .error (.raised "ValueError" "invalid literal for int() with base 10: 'abc'") ∧
    (empty.after narrowingCalls).Finds "count" "abc" ∧
    ∃ type, (empty.after narrowingCalls).type? "count" = some type ∧ ¬type.Captures "abc" :=
  ⟨rfl, finds_of_select "I have abc" .any none 0 (by decide +kernel), _, rfl, not_captures_letters⟩

end StepRegistry

end Gherkin
