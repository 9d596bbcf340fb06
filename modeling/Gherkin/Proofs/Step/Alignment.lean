import Mathlib.Data.List.Induction
import Gherkin.Proofs.Regex.Spans
import Gherkin.Proofs.Step.Drift

/-! # Arguments and placeholders

The regular expression of a pattern text has one group for each placeholder, and the group lies in the fragment that
stands for the placeholder. So whatever types a session defines and whatever else it does, a match hands over one
argument for each placeholder, in their order, converted by the type of the placeholder's own name; the groups of a
regular expression that was registered as it is are handed over as they are
(`Gherkin.StepRegistry.arguments_follow_placeholders`).
-/

namespace Gherkin

open Regex (CharacterNames)

variable {η : Type}

/-! ### Placeholders and groups -/

/-- The source of a pattern up to some of its segments, with the anchor. -/
def frontSource (type? : Text → Option ParameterType) (before : List Segment) : Text :=
  ['^'] ++ before.flatMap (Segment.source type?)

/-- Whether a regular expression was read from the source of segments and has one group for each placeholder, each of
which lies in the fragment of its placeholder. -/
structure Aligned [CharacterNames] (type? : Text → Option ParameterType) (segments : List Segment) (regex : Regex) :
    Prop where
  source : regex.pattern = frontSource type? segments ++ ['$']
  groups : regex.groups = (segments.filterMap Segment.name?).length
  within : ∀ before name after, segments = before ++ .placeholder name :: after →
    Regex.GroupWithin regex.pattern ((before.filterMap Segment.name?).length + 1) (frontSource type? before).length
      (frontSource type? (before ++ [.placeholder name])).length

theorem frontSource_append (type? : Text → Option ParameterType) (before after : List Segment) :
    frontSource type? (before ++ after) = frontSource type? before ++ after.flatMap (Segment.source type?) := by
  simp [frontSource]

/-- If every type has one group, a pattern is read as a regular expression that is aligned with its segments. -/
theorem aligned_of_compile [CharacterNames] {type? : Text → Option ParameterType} {segments : List Segment}
    {regex : Regex} (typed : ∀ name type, type? name = some type → Regex.Piece type.fragment 1)
    (compiled : Regex.compile (patternSource type? segments) = .ok regex) : Aligned type? segments regex := by
  have pattern : regex.pattern = patternSource type? segments := by
    obtain ⟨-, _, _, _, _, rfl⟩ := Regex.compileWith_eq_ok compiled
    rfl
  have piece (part : List Segment) := Segment.piece_flatMap typed part
  have groups : regex.groups = (segments.filterMap Segment.name?).length :=
    Regex.groups_of_anchored ((piece segments).append .lastLine) compiled
  refine ⟨pattern, groups, fun before name after split => ?_⟩
  subst split
  have whole : patternSource type? (before ++ .placeholder name :: after) =
      '^' :: (before.flatMap (Segment.source type?) ++ Segment.source type? (.placeholder name) ++
        (after.flatMap (Segment.source type?) ++ ['$'])) := by
    simp [patternSource]
  have one : Regex.Piece (Segment.source type? (.placeholder name)) 1 := by
    simpa [Segment.name?] using piece [.placeholder name]
  rw [whole] at compiled
  rw [pattern, whole, frontSource_append, List.flatMap_singleton]
  exact Regex.groupWithin_of_piece (piece before) one ((piece after).append .lastLine) compiled

/-! ### Arguments -/

/-- What is handed over for a group that is not converted. -/
def unconverted : Option Text → Value
  | none => .null
  | some raw => .text raw

namespace StepRegistry

/-- What is handed over for the group of a placeholder: nothing for a group that took no part, the text itself if no
type has the placeholder's name, and what the type of that name makes of the text otherwise. -/
inductive HandsOver (r : StepRegistry η) (name : Text) : Option Text → Value → Prop
  | absent : HandsOver r name none .null
  | unchanged {raw : Text} (untyped : r.type? name = none) : HandsOver r name (some raw) (.text raw)
  | converted {raw : Text} {type : ParameterType} {value : Value} (typed : r.type? name = some type)
      (result : type.transform raw = .ok value) : HandsOver r name (some raw) value

/-- Whether groups are handed over placeholder by placeholder: there is one group for each, one argument is handed over
for each, in order, and a failure is that of the type of some placeholder on the text of its group. -/
structure ConvertsEach (r : StepRegistry η) (names : List Text) (groups : List (Option Text))
    (outcome : Except Failure (List Value)) : Prop where
  count : groups.length = names.length
  arguments : ∀ values, outcome = .ok values →
    values.length = names.length ∧
      List.Forall₂ (fun placed value => r.HandsOver placed.1 placed.2 value) (names.zip groups) values
  failure : ∀ e, outcome = .error e → ∃ name raw type, (name, some raw) ∈ names.zip groups ∧
    r.type? name = some type ∧ type.transform raw = .error e

theorem argument_eq_ok {r : StepRegistry η} {name : Text} {group : Option Text} {value : Value}
    (done : r.argument (some name) group = .ok value) : r.HandsOver name group value := by
  unfold argument at done
  split at done
  · cases done
    exact .absent
  · split at done
    · next type known => exact .converted known done
    · next unknown =>
      cases done
      exact .unchanged unknown

theorem argument_eq_error {r : StepRegistry η} {name : Text} {group : Option Text} {e : Failure}
    (failed : r.argument (some name) group = .error e) :
    ∃ raw type, group = some raw ∧ r.type? name = some type ∧ type.transform raw = .error e := by
  unfold argument at failed
  split at failed
  · cases failed
  · next raw =>
    split at failed
    · next type known => exact ⟨raw, type, rfl, known, failed⟩
    · cases failed

/-- As many groups as placeholders are handed over placeholder by placeholder. -/
theorem convertsEach_arguments (r : StepRegistry η) {names : List Text} {groups : List (Option Text)}
    (count : groups.length = names.length) : r.ConvertsEach names groups (r.arguments names groups) := by
  induction groups generalizing names with
  | nil =>
    obtain rfl := List.length_eq_zero_iff.mp count.symm
    exact ⟨rfl, by rintro _ ⟨⟩; exact ⟨rfl, .nil⟩, by rintro _ ⟨⟩⟩
  | cons group rest ih =>
    cases names with
    | nil => cases count
    | cons name names =>
      have later := ih (Nat.succ.inj count)
      refine ⟨count, fun values done => ?_, fun e failed => ?_⟩
      · unfold arguments at done
        dsimp only [List.head?_cons, List.tail_cons] at done
        split at done
        · cases done
        · next value first =>
          split at done
          · cases done
          · next others handed =>
            cases done
            obtain ⟨length, each⟩ := later.arguments others handed
            exact ⟨congrArg Nat.succ length, .cons (argument_eq_ok first) each⟩
      · unfold arguments at failed
        dsimp only [List.head?_cons, List.tail_cons] at failed
        split at failed
        · next other first =>
          cases failed
          obtain ⟨raw, type, rfl, known, raised⟩ := argument_eq_error first
          exact ⟨name, raw, type, List.mem_cons_self, known, raised⟩
        · split at failed
          · next other handed =>
            cases failed
            obtain ⟨name', raw, type, member, known, raised⟩ := later.failure _ handed
            exact ⟨name', raw, type, List.mem_cons_of_mem _ member, known, raised⟩
          · cases failed

/-- Without placeholders, groups are handed over as they are. -/
theorem arguments_nil (r : StepRegistry η) (groups : List (Option Text)) :
    r.arguments [] groups = .ok (groups.map unconverted) := by
  induction groups with
  | nil => rfl
  | cons group rest ih =>
    have first : r.argument none group = .ok (unconverted group) := by cases group <;> rfl
    rw [arguments, List.head?_nil, List.tail_nil, first, ih]
    rfl

theorem length_of_search {regex : Regex} {text : Text} {groups : List (Option Text)}
    (found : regex.search text = some groups) : groups.length = regex.groups := by
  unfold Regex.search at found
  obtain ⟨_, _, rfl⟩ := Option.map_eq_some_iff.mp found
  simp

/-- A definition that is selected is in the registry, and its regular expression finds the groups. -/
theorem select_eq_some {r : StepRegistry η} {text : Text} {role : Role} {tags : Option (List Text)} {index : Nat}
    {d : StepDefinition η} {groups : List (Option Text)}
    (selected : r.select text role tags = some (index, d, groups)) :
    d ∈ r.definitions ∧ d.regex.search text = some groups :=
  mem_of_selectFrom selected

theorem match?_of_select {r : StepRegistry η} {text : Text} {role : Role} {tags : Option (List Text)} {index : Nat}
    {d : StepDefinition η} {groups : List (Option Text)}
    (selected : r.select text role tags = some (index, d, groups)) :
    r.match? text role tags = (r.arguments d.names groups).map fun values => some ⟨index, d, values⟩ := by
  rw [match?, selected]
  dsimp only
  cases r.arguments d.names groups <;> rfl

/-! ### Sessions -/

section Sessions

variable [CharacterNames]

/-- A definition that is in a registry was added by a call of the session, for a text or a regular expression. -/
theorem exists_call_of_mem {calls : List (RegistryCall η)} {d : StepDefinition η}
    (member : d ∈ (empty.after calls).definitions) : ∃ first call later pattern options,
      calls = first ++ call :: later ∧ call.asks? = some (d.role, pattern, options) ∧
      (call.program.on (empty.after first)).1 = .ok (.added d) ∧
      (pattern = .text d.pattern ∨ pattern = .regex d.regex) := by
  induction calls using List.reverseRecOn with
  | nil => cases member
  | append_singleton calls call ih =>
    have before (member : d ∈ (empty.after calls).definitions) : ∃ first other later pattern options,
        calls ++ [call] = first ++ other :: later ∧ other.asks? = some (d.role, pattern, options) ∧
        (other.program.on (empty.after first)).1 = .ok (.added d) ∧
        (pattern = .text d.pattern ∨ pattern = .regex d.regex) := by
      obtain ⟨first, other, later, pattern, options, rfl, asks, added⟩ := ih member
      exact ⟨first, other, later ++ [call], pattern, options, by simp, asks, added⟩
    rw [after_append] at member
    have last : d ∈ (call.program.on (empty.after calls)).2.definitions := member
    have effect := call.effect (empty.after calls)
    generalize answered : call.program.on (empty.after calls) = outcome at effect last
    obtain ⟨answer, next⟩ := outcome
    cases effect with
    | refused | defined => exact before last
    | cleared => cases last
    | @added _ role pattern options _ _ _ new asks compiled eq _ =>
      rcases List.mem_append.mp last with held | new
      · exact before held
      · obtain rfl := List.mem_singleton.mp new
        subst eq
        exact ⟨calls, call, [], pattern, options, rfl, asks, by rw [answered], pattern_of_compile compiled⟩

/-- A call that adds a definition compiles the pattern that it asks for, and puts the definition behind the others. -/
theorem eq_of_added {r : StepRegistry η} {call : RegistryCall η} {role : Role} {pattern : Pattern}
    {options : StepOptions η} {d : StepDefinition η} (asks : call.asks? = some (role, pattern, options))
    (added : (call.program.on r).1 = .ok (.added d)) : r.compile pattern = .ok (d.regex, d.pattern, d.names) ∧
      (call.program.on r).2.definitions = r.definitions ++ [d] := by
  have effect := call.effect r
  rw [added] at effect
  generalize (call.program.on r).2 = next at effect
  cases effect with
  | added asked compiled eq _ =>
    cases asks.symm.trans asked
    subst eq
    exact ⟨compiled, rfl⟩

/-- Every definition of a registry was added by a call, for a text or a regular expression. For a text, its regular
expression has one group for each placeholder, which lies in the fragment that stood for the placeholder at the call,
and in every registry of the session behind the call a match hands over one argument for each placeholder, in order, by
the type that the registry has for the placeholder's name. For a regular expression, it is that one, and a match hands
over the groups as they are. -/
theorem arguments_follow_placeholders :
    (∀ (calls : List (RegistryCall η)), ∀ d ∈ (empty.after calls).definitions, ∃ first call later pattern options,
      calls = first ++ call :: later ∧ call.asks? = some (d.role, pattern, options) ∧
      (call.program.on (empty.after first)).1 = .ok (.added d) ∧
      (pattern = .text d.pattern ∨ pattern = .regex d.regex)) ∧
    ∀ (first later : List (RegistryCall η)) (call : RegistryCall η) (asked : Role) (pattern : Pattern)
      (options : StepOptions η) (d : StepDefinition η),
      call.asks? = some (asked, pattern, options) → (call.program.on (empty.after first)).1 = .ok (.added d) →
      (∀ t, pattern = .text t →
        Aligned (empty.after first).type? (Segment.split t) d.regex ∧
        d.names = (Segment.split t).filterMap Segment.name? ∧
        ∀ text role tags index groups,
          (empty.after (first ++ call :: later)).select text role tags = some (index, d, groups) →
          ∃ outcome, (empty.after (first ++ call :: later)).match? text role tags =
              outcome.map (fun values => some ⟨index, d, values⟩) ∧
            (empty.after (first ++ call :: later)).ConvertsEach d.names groups outcome) ∧
      (∀ regex, pattern = .regex regex → d.regex = regex ∧ d.names = [] ∧
        ∀ text role tags index groups,
          (empty.after (first ++ call :: later)).select text role tags = some (index, d, groups) →
          (empty.after (first ++ call :: later)).match? text role tags =
            .ok (some ⟨index, d, groups.map unconverted⟩)) := by
  refine ⟨fun calls d member => exists_call_of_mem member, ?_⟩
  intro first later call asked pattern options d asks added
  have compiled := (eq_of_added asks added).1
  constructor
  · rintro t rfl
    obtain ⟨read, names⟩ := source_of_compile compiled
    have aligned := aligned_of_compile (typed_after empty first typed_empty) read
    refine ⟨aligned, names, fun text role tags index groups selected => ?_⟩
    have count : groups.length = d.names.length := by
      rw [length_of_search (select_eq_some selected).2, aligned.groups, names]
    exact ⟨_, match?_of_select selected, convertsEach_arguments _ count⟩
  · rintro regex rfl
    obtain ⟨rfl, _, none_there⟩ : regex = d.regex ∧ regex.pattern = d.pattern ∧ [] = d.names := by
      simpa [StepRegistry.compile] using compiled
    refine ⟨rfl, none_there.symm, fun text role tags index groups selected => ?_⟩
    rw [match?_of_select selected, ← none_there, arguments_nil]
    rfl

end Sessions

/-- Calls that define a type whose own group stands between conditions on what is around it, and one without a group but
with parentheses. -/
def mixedTypes : List (RegistryCall Nat) :=
  [.define "letter" "(?<=\\()(?P<c>\\w)(?=-)-x" .upper, .define "pair" "\\d(?:\\d|x)" .int]

/-- A pattern with placeholders of both types and of none. -/
def mixedPattern : Text := "take (\x7bletter\x7d) and \x7bpair\x7d for \x7bwhom\x7d"

/-- A registration of that pattern. -/
def mixedCall : RegistryCall Nat := .add .any (.text mixedPattern) ⟨0, none, none, []⟩

/-- One argument is handed over for each placeholder, whatever parentheses its type has. -/
theorem arguments_follow_placeholders_mixed :
    ∃ d outcome, (mixedCall.program.on (empty.after mixedTypes)).1 = .ok (.added d) ∧
      Aligned (empty.after mixedTypes).type? (Segment.split mixedPattern) d.regex ∧
      (empty.after (mixedTypes ++ [mixedCall])).match? "take (b-x) and 42 for Ann" .any none =
        outcome.map (fun values => some ⟨0, d, values⟩) ∧
      (empty.after (mixedTypes ++ [mixedCall])).ConvertsEach d.names [some "b", some "42", some "Ann"] outcome := by
  have adds : (mixedCall.program.on (empty.after mixedTypes)).1.toOption.any RegistryAnswer.adds = true := by
    decide +kernel
  have fits : ((empty.after (mixedTypes ++ [mixedCall])).select "take (b-x) and 42 for Ann" .any none).any
      (fun found => found.1 == 0 && found.2.2 == [some "b".toList, some "42".toList, some "Ann".toList]) = true := by
    decide +kernel
  cases answered : (mixedCall.program.on (empty.after mixedTypes)).1 with
  | error e => simp [answered, Except.toOption] at adds
  | ok answer =>
    cases answer with
    | defined | cleared => simp [answered, Except.toOption, RegistryAnswer.adds] at adds
    | added d =>
      have first : (empty.after mixedTypes).definitions = [] := rfl
      have only : (empty.after (mixedTypes ++ [mixedCall])).definitions = [d] := by
        rw [after_append]
        exact (eq_of_added rfl answered).2.trans (by rw [first]; rfl)
      obtain ⟨⟨index, other, groups⟩, selected, found⟩ : ∃ found, (empty.after (mixedTypes ++ [mixedCall])).select
          "take (b-x) and 42 for Ann" .any none = some found ∧ (found.1 == 0 &&
            found.2.2 == [some "b".toList, some "42".toList, some "Ann".toList]) = true := by
        simpa [Option.any_eq_true] using fits
      simp only [Bool.and_eq_true, beq_iff_eq] at found
      obtain ⟨rfl, rfl⟩ := found
      obtain rfl : other = d := by simpa [only] using (select_eq_some selected).1
      have follow := arguments_follow_placeholders.2 mixedTypes [] mixedCall _ _ _ other rfl answered
      obtain ⟨aligned, _, hands⟩ := follow.1 mixedPattern rfl
      obtain ⟨outcome, matched, converts⟩ := hands _ _ _ _ _ selected
      exact ⟨other, outcome, rfl, aligned, matched, converts⟩

end StepRegistry

end Gherkin
