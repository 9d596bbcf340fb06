import Gherkin.Proofs.Report.JUnit
import Gherkin.Proofs.Report.Xml

/-! # Reports for build servers as XML

A report is written as an XML document: every element is closed under its name, and the texts of the run stand in it
with their markup escaped. But escaping does not touch characters that XML does not allow at all, such as those that
switch colours on a terminal. So a report can be read exactly if the texts that it shows are free of them
(`Gherkin.JUnit.render_readable_iff`).
-/

namespace Gherkin.JUnit

open Markup Xml

/-! ### Numbers -/

theorem clean_ite {p : Prop} [Decidable p] {s t : Text} (yes : Clean s) (no : Clean t) : Clean (if p then s else t) := by
  by_cases holds : p
  · rwa [if_pos holds]
  · rwa [if_neg holds]

/-- A decimal is laid out with digits, a point, signs and the letter of the power of ten. -/
theorem clean_layout (d : Shortest.Decimal) : Clean (Shortest.layout d) := by
  have digits : Clean (Text.ofNat d.digits) := clean_ofNat _
  have front (n : Nat) : Clean ((Text.ofNat d.digits).take n) := fun c member => digits c (List.mem_of_mem_take member)
  have back (n : Nat) : Clean ((Text.ofNat d.digits).drop n) := fun c member => digits c (List.mem_of_mem_drop member)
  have zeros (n : Nat) : Clean (List.replicate n '0') := by
    intro c member
    rw [List.eq_of_mem_replicate member]
    decide
  have point : Clean ("." : Text) := by decide
  unfold Shortest.layout
  apply clean_ite (by decide)
  apply clean_ite
  · apply clean_ite
    · exact clean_append.mpr ⟨clean_append.mpr ⟨digits, zeros _⟩, by decide⟩
    · apply clean_ite
      · exact clean_append.mpr ⟨clean_append.mpr ⟨front _, point⟩, back _⟩
      · exact clean_append.mpr ⟨clean_append.mpr ⟨by decide, zeros _⟩, digits⟩
  · have mantissa (short : Prop) [Decidable short] : Clean (if short then Text.ofNat d.digits else
        (Text.ofNat d.digits).take 1 ++ "." ++ (Text.ofNat d.digits).drop 1) :=
      clean_ite digits (clean_append.mpr ⟨clean_append.mpr ⟨front 1, point⟩, back 1⟩)
    have sign (negative : Prop) [Decidable negative] : Clean (if negative then "-" else "+" : String) := by
      by_cases below : negative
      · rw [if_pos below]
        decide
      · rw [if_neg below]
        decide
    simp only [clean_append, clean_ofNat, mantissa, sign, zeros, and_true, true_and]
    decide

@[simp]
theorem clean_shortest (x : Float) : Clean (Shortest.text x) := by
  unfold Shortest.text
  cases Binary.ofFloat x with
  | notANumber => decide
  | infinite negative => cases negative <;> decide
  | finite negative mantissa exponent =>
    refine clean_append.mpr ⟨?_, clean_layout _⟩
    cases negative <;> decide

/-! ### Escaped texts -/

@[simp]
theorem clean_newline (indent : Nat) : Clean (newline indent) := by
  intro c member
  simp only [newline, Text.spaces, List.mem_cons, List.mem_replicate] at member
  obtain rfl | ⟨_, rfl⟩ := member <;> decide

/-- What stands for the five characters are references that readers of the format know. -/
theorem isReference_of_mem_entities {t : Text} (listed : t ∈ entities) : IsReference t := by
  have named {name : Text} (known : name ∈ ["amp".toList, "lt".toList, "gt".toList, "apos".toList, "quot".toList]) :
      IsReference ("&".toList ++ name ++ ";".toList) := .entity known
  have numbered (c : Char) (allowed : Allowed c) : IsReference ("&#".toList ++ Text.ofNat c.toNat ++ ";".toList) :=
    .character allowed
  simp only [entities, List.mem_cons, List.not_mem_nil, or_false] at listed
  obtain rfl | rfl | rfl | rfl | rfl := listed
  · exact named (by decide : "amp".toList ∈ _)
  · exact named (by decide : "lt".toList ∈ _)
  · exact named (by decide : "gt".toList ∈ _)
  · exact numbered '"' (by decide)
  · exact numbered '\'' (by decide)

/-- Escaping neither hides nor adds a character that is not allowed. -/
theorem clean_entity (c : Char) : Clean (entity c) ↔ Allowed c := by
  by_cases special : c ∈ ['&', '<', '>', '"', '\'']
  · simp only [List.mem_cons, List.not_mem_nil, or_false] at special
    obtain rfl | rfl | rfl | rfl | rfl := special <;> decide
  · simp only [List.mem_cons, List.not_mem_nil, or_false, not_or] at special
    have itself : entity c = [c] := by simp only [entity, special, if_false]
    rw [itself]
    exact List.forall_mem_singleton

/-- Escaping changes nothing about whether a text is clean. -/
@[simp]
theorem clean_escape (t : Text) : Clean (escape t) ↔ Clean t := by
  rw [escape, clean_flatMap]
  exact forall₂_congr fun c _ => clean_entity c

/-- An escaped text is data, wherever it stands. -/
theorem data_escape {reserved : List Char} (known : reserved ⊆ ['<', '>', '"', '&']) {t : Text} (clean : Clean t) :
    Data reserved (escape t) := by
  induction t with
  | nil => exact .nil
  | cons c rest ih =>
    rw [Clean, List.forall_mem_cons] at clean
    rw [escape, List.flatMap_cons, ← escape]
    obtain listed | ⟨itself, plain⟩ := entity_cases c
    · exact .reference (isReference_of_mem_entities listed) (ih clean.2)
    · rw [itself]
      refine .char clean.1 (fun member => ?_) (ih clean.2)
      have special := known member
      simp [plain] at special

/-! ### Elements -/

theorem data_newline (indent : Nat) : Data ['<', '&', '>'] (newline indent) := by
  apply Data.of_clean (clean_newline indent)
  intro c member
  simp only [newline, Text.spaces, List.mem_cons, List.mem_replicate] at member
  obtain rfl | ⟨_, rfl⟩ := member <;> decide

/-- White space around what stands in an element can stand there as well. -/
theorem content_between {t : Text} (before after : Nat) (inside : Content t) :
    Content (newline before ++ t ++ newline after) :=
  .append (.append (.data (data_newline before)) inside) (.data (data_newline after))

/-- Whether an element and its attributes have names, and no two attributes the same. -/
def WellNamed (tag : String) (names : List String) : Prop :=
  IsName tag.toList ∧ (∀ name ∈ names, IsName name.toList) ∧ (names.map String.toList).Nodup

instance (tag : String) (names : List String) : Decidable (WellNamed tag names) := inferInstanceAs (Decidable (_ ∧ _))

/-- Attributes are clean if their values are, for their names are. -/
theorem clean_fields {listed : List (String × Text)} (named : ∀ name ∈ listed.map Prod.fst, IsName name.toList) :
    Clean (fields listed) ↔ ∀ item ∈ listed, Clean item.2 := by
  have equals : Clean ("=\"" : Text) ∧ Clean ("\"" : Text) ∧ Clean [' '] := by decide
  rw [List.forall_mem_map] at named
  rw [fields, clean_flatMap]
  refine forall₂_congr fun item member => ?_
  have name : Clean item.1.toList := (named item member).clean
  simp only [field, clean_append, clean_escape, equals, name, and_true, true_and]

/-- Clean attributes whose names differ are attributes as the format wants them. -/
theorem attributes_fields {listed : List (String × Text)} (named : ∀ name ∈ listed.map Prod.fst, IsName name.toList)
    (once : ((listed.map Prod.fst).map String.toList).Nodup) (clean : ∀ item ∈ listed, Clean item.2) :
    Attributes ((listed.map Prod.fst).map String.toList) (fields listed) := by
  induction listed with
  | nil => exact .nil
  | cons item rest ih =>
    rw [List.map_cons, List.forall_mem_cons] at named
    rw [List.map_cons, List.map_cons, List.nodup_cons] at once
    rw [List.forall_mem_cons] at clean
    have value : Data ['<', '&', '"'] (escape item.2) := data_escape (by decide) clean.1
    have written := Attributes.cons named.1 once.1 value (ih named.2 once.2 clean.2)
    simpa [fields, field] using written

section Elements

variable {tag name : String} {value content : Text} {others : List (String × Text)}

/-- An element as its tags, its attributes and its content. -/
theorem element_eq :
    opening tag ++ inner name value others content ++ closing tag =
      "<".toList ++ tag.toList ++ fields ((name, value) :: others) ++ ">".toList ++ content ++
        "</".toList ++ tag.toList ++ ">".toList := by
  have rest := cons_inner name value others content
  have opened : opening tag ++ inner name value others content =
      '<' :: (tag.toList ++ (' ' :: inner name value others content)) := by
    simp [opening]
  rw [opened, rest]
  simp [closing]

variable (named : WellNamed tag (name :: others.map Prod.fst))
include named

/-- An element is clean if the values of its attributes and its content are. -/
theorem clean_element :
    Clean (opening tag ++ inner name value others content ++ closing tag) ↔
      (Clean value ∧ ∀ item ∈ others, Clean item.2) ∧ Clean content := by
  have attributes : Clean (fields ((name, value) :: others)) ↔ _ := clean_fields named.2.1
  have marks : Clean "<".toList ∧ Clean ">".toList ∧ Clean "</".toList := by decide
  rw [element_eq]
  simp only [clean_append, named.1.clean, marks, attributes, List.forall_mem_cons, and_true, true_and]

/-- A clean element whose content is as the format wants it is an element of the format. -/
theorem element_of_clean (clean : Clean (opening tag ++ inner name value others content ++ closing tag))
    (inside : Clean content → Content content) :
    Xml.Element (opening tag ++ inner name value others content ++ closing tag) := by
  obtain ⟨values, within⟩ := (clean_element named).mp clean
  rw [element_eq]
  exact .between named.1 (attributes_fields named.2.1 named.2.2 (List.forall_mem_cons.mpr values)) (inside within)

end Elements

/-! ### Steps and scenarios -/

/-- The texts of a failed step that a report shows. -/
def stepTexts (r : StepResult) : List Text := r.keyword :: r.text :: (r.error.map Failure.message).toList

/-- The texts that the failure of a scenario shows. -/
def failureTexts (r : ScenarioResult) : List Text :=
  (r.hookError.map Failure.message).toList ++ r.failedSteps.flatMap stepTexts

/-- The texts of a scenario that a report shows. -/
def caseTexts (r : ScenarioResult) : List Text := r.name :: if r.status = .failed then failureTexts r else []

/-- What is said of a failed step is clean if its texts are. -/
theorem clean_failedStep (r : StepResult) : Clean (failedStep r) ↔ ∀ t ∈ stepTexts r, Clean t := by
  have literals : Clean (" " : Text) ∧ Clean ("Error: " : Text) := by decide
  have message : Clean ((r.error.map Failure.message).getD []) ↔
      ∀ t ∈ (r.error.map Failure.message).toList, Clean t := by
    cases r.error <;> simp
  simp only [failedStep, stepTexts, clean_append, clean_escape, clean_newline, literals, message,
    List.forall_mem_cons, and_true, true_and, and_assoc]

theorem data_failedStep {r : StepResult} (clean : Clean (failedStep r)) : Data ['<', '&', '>'] (failedStep r) := by
  have escaped {t : Text} (clean : Clean t) : Data ['<', '&', '>'] (escape t) := data_escape (by decide) clean
  have blank (indent : Nat) : Data ['<', '&', '>'] (newline indent) := data_newline indent
  have literals : Data ['<', '&', '>'] (" " : Text) ∧ Data ['<', '&', '>'] ("Error: " : Text) :=
    ⟨.of_clean (by decide) (by simp), .of_clean (by decide) (by simp)⟩
  simp only [failedStep, clean_append, clean_escape] at clean
  obtain ⟨⟨⟨⟨⟨⟨⟨-, keyword⟩, -⟩, text⟩, -⟩, -⟩, message⟩, -⟩ := clean
  exact (((((((blank 16).append (escaped keyword)).append literals.1).append (escaped text)).append
    (blank 16)).append literals.2).append (escaped message)).append (blank 12)

theorem clean_between {t : Text} (before after : Nat) : Clean (newline before ++ t ++ newline after) ↔ Clean t := by
  simp

theorem clean_failureMessage {r : ScenarioResult} (clean : ∀ t ∈ failureTexts r, Clean t) :
    Clean (failureMessage r) := by
  unfold failureMessage
  cases hook : r.hookError with
  | some failure => exact clean _ (by simp [failureTexts, hook])
  | none =>
    cases found : r.failedSteps.findSome? StepResult.error with
    | none => decide
    | some failure =>
      obtain ⟨step, among, error⟩ := List.exists_of_findSome?_eq_some found
      apply clean
      apply List.mem_append_right
      exact List.mem_flatMap.mpr ⟨step, among, by simp [stepTexts, error]⟩

theorem wellNamed_failure : WellNamed "failure" ["message"] := by decide

theorem clean_failure (r : ScenarioResult) : Clean (failure r) ↔ ∀ t ∈ failureTexts r, Clean t := by
  have content : Clean (failureContent r) ↔ ∀ t ∈ r.failedSteps.flatMap stepTexts, Clean t := by
    simp only [failureContent, clean_between, clean_flatMap, clean_failedStep, List.forall_mem_flatMap]
  rw [failure, clean_element wellNamed_failure, content]
  -- the message is one of the texts, or a fixed one, and the hook's if there is one
  constructor
  · rintro ⟨⟨message, -⟩, steps⟩
    refine List.forall_mem_append.mpr ⟨fun t member => ?_, steps⟩
    rw [Option.mem_toList, Option.map_eq_some_iff] at member
    obtain ⟨failure, hook, rfl⟩ := member
    simpa only [failureMessage, hook] using message
  · intro clean
    exact ⟨⟨clean_failureMessage clean, List.forall_mem_nil _⟩, (List.forall_mem_append.mp clean).2⟩

theorem element_failure {r : ScenarioResult} (clean : Clean (failure r)) : Xml.Element (failure r) := by
  apply element_of_clean wellNamed_failure clean
  intro within
  rw [failureContent, clean_between, clean_flatMap] at within
  exact content_between 12 12 (.flatMap fun step member => .data (data_failedStep (within step member)))

theorem wellNamed_skipped : WellNamed "skipped" ["message"] := by decide

/-- A scenario that did not run is reported with its status, whatever texts it has. -/
theorem element_skipped (r : ScenarioResult) : Xml.Element (opening "skipped" ++ skippedInner r) := by
  have status : Clean r.status.name := by cases r.status <;> decide
  have clean : ∀ item ∈ [("message", r.status.name)], Clean item.2 := List.forall_mem_singleton.mpr status
  have attributes : Attributes _ (fields [("message", r.status.name)]) :=
    attributes_fields wellNamed_skipped.2.1 wellNamed_skipped.2.2 clean
  have single := Xml.Element.single wellNamed_skipped.1 attributes
  simpa [opening, skippedInner, fields, field] using single

/-- The verdict on a scenario is clean unless it failed with texts that are not. -/
theorem clean_verdict (r : ScenarioResult) :
    Clean (verdict r) ↔ (r.status = .failed → ∀ t ∈ failureTexts r, Clean t) := by
  rcases verdict_cases r with ⟨status, written⟩ | ⟨status, written⟩ | ⟨status, written⟩
  · rw [written, clean_between, clean_failure, forall_prop_of_true status]
  · rw [written, clean_between]
    refine iff_of_true (element_skipped r).clean fun failed => ?_
    simp [failed] at status
  · rw [written]
    refine iff_of_true clean_nil fun failed => ?_
    simp [failed] at status

theorem content_verdict {r : ScenarioResult} (clean : Clean (verdict r)) : Content (verdict r) := by
  rcases verdict_cases r with ⟨-, written⟩ | ⟨-, written⟩ | ⟨-, written⟩
  · rw [written, clean_between] at clean
    rw [written]
    exact content_between 12 8 (.element (element_failure clean))
  · rw [written]
    exact content_between 12 8 (.element (element_skipped r))
  · rw [written]
    exact .data .nil

@[simp]
theorem clean_replaceChar (t : Text) : Clean (Text.replaceChar ' ' ['_'] t) ↔ Clean t := by
  rw [Text.replaceChar, clean_flatMap]
  refine forall₂_congr fun c _ => ?_
  by_cases space : c = ' '
  · rw [if_pos space, space]
    decide
  · rw [if_neg space]
    exact List.forall_mem_singleton

theorem wellNamed_case : WellNamed "testcase" ["classname", "name", "time"] := by decide

/-- A test case is clean if the texts that it shows are. -/
theorem clean_testCase (featureName : Text) (r : ScenarioResult) :
    Clean (testCase featureName r) ↔ Clean featureName ∧ ∀ t ∈ caseTexts r, Clean t := by
  have failed : (∀ t ∈ if r.status = .failed then failureTexts r else [], Clean t) ↔
      (r.status = .failed → ∀ t ∈ failureTexts r, Clean t) := by
    by_cases status : r.status = .failed <;> simp [status]
  rw [testCase_eq, clean_between, caseInner, clean_element wellNamed_case, clean_between, clean_verdict]
  simp only [clean_replaceChar, clean_shortest, caseTexts, failed, List.forall_mem_cons, List.not_mem_nil,
    IsEmpty.forall_iff, implies_true, and_true, and_assoc]

theorem content_testCase {featureName : Text} {r : ScenarioResult} (clean : Clean (testCase featureName r)) :
    Content (testCase featureName r) := by
  rw [testCase_eq, clean_between] at clean
  rw [testCase_eq]
  refine content_between 8 4 (.element (element_of_clean wellNamed_case clean fun within => ?_))
  exact content_between 8 8 (content_verdict ((clean_between 8 8).mp within))

/-! ### Features and runs -/

/-- The texts of a feature that a report shows. -/
def suiteTexts (r : FeatureResult) : List Text := r.name :: r.scenarios.flatMap caseTexts

/-- The texts of a run that a report shows. -/
def texts (r : RunResult) : List Text := r.features.flatMap suiteTexts

theorem wellNamed_suite : WellNamed "testsuite" ["name", "tests", "failures", "time"] := by decide

theorem clean_testSuite (r : FeatureResult) : Clean (testSuite r) ↔ ∀ t ∈ suiteTexts r, Clean t := by
  rw [testSuite_eq, clean_between, suiteInner, clean_element wellNamed_suite, suiteContent, clean_between]
  simp only [clean_flatMap, clean_testCase, clean_shortest, clean_ofNat, suiteTexts, List.forall_mem_cons,
    List.forall_mem_flatMap, List.not_mem_nil, IsEmpty.forall_iff, implies_true, and_true]
  -- the name of the feature stands in the element of every scenario as well
  exact and_congr_right fun name => by simp only [name, true_and]

theorem content_testSuite {r : FeatureResult} (clean : Clean (testSuite r)) : Content (testSuite r) := by
  rw [testSuite_eq, clean_between] at clean
  rw [testSuite_eq]
  refine content_between 4 0 (.element (element_of_clean wellNamed_suite clean fun within => ?_))
  rw [suiteContent, clean_between, clean_flatMap] at within
  exact content_between 4 4 (.flatMap fun s member => content_testCase (within s member))

theorem wellNamed_run : WellNamed "testsuites" ["name", "time", "tests", "failures"] := by decide

/-- A report is clean if the texts that it shows are. -/
theorem clean_render (r : RunResult) : Clean (render r) ↔ ∀ t ∈ texts r, Clean t := by
  have start : Clean declaration ∧ Clean ("QA-BDD Test Results" : Text) := by decide
  rw [render_eq, clean_append, clean_append, runInner, clean_element wellNamed_run, runContent, clean_between]
  simp only [clean_flatMap, clean_testSuite, clean_shortest, clean_ofNat, clean_newline, texts, start,
    List.forall_mem_cons, List.forall_mem_flatMap, List.not_mem_nil, IsEmpty.forall_iff, implies_true, and_true,
    true_and]

/-- A clean report is a document of the format. -/
theorem document_render {r : RunResult} (clean : Clean (render r)) : Xml.Document (render r) := by
  have element := clean
  rw [render_eq, clean_append] at element
  have blank : ∀ c ∈ newline 0, c ∈ [' ', '\t', '\r', '\n'] := List.forall_mem_singleton.mpr (by decide)
  refine ⟨newline 0, _, render_eq r, blank, element_of_clean wellNamed_run element.2 fun within => ?_⟩
  rw [runContent, clean_between, clean_flatMap] at within
  exact content_between 0 0 (.flatMap fun f member => content_testSuite (within f member))

/-- A report can be read as XML exactly if it holds no character that XML does not allow, and that is so exactly if the
texts that it shows hold none: names of features and scenarios, and of scenarios that failed what a hook failed with,
the failed steps and what they failed with. -/
theorem render_readable_iff (r : RunResult) :
    (Xml.Document (render r) ↔ Clean (render r)) ∧ (Clean (render r) ↔ ∀ t ∈ texts r, Clean t) :=
  ⟨⟨Document.clean, document_render⟩, clean_render r⟩

/-- A feature with a step that failed with a message in red. -/
def colouredFeature : FeatureResult where
  name := "f"
  status := .failed
  scenarios := [
    { name := "s", status := .failed
      steps := [{ keyword := "Given", text := "a", status := .failed
                  error := some (.raised "AssertionError" "\x1b[31mno\x1b[0m") }] }]

/-- The colour stands in the report of a run with this feature, and XML does not allow it. -/
theorem render_coloured :
    let run : RunResult := { features := [colouredFeature], summary := summarize [colouredFeature] }
    ¬ Clean (render run) ∧ ¬ Xml.Document (render run) := by
  intro run
  have unclean : ¬ Clean (render run) := by
    rw [clean_render]
    decide
  exact ⟨unclean, mt Document.clean unclean⟩

end Gherkin.JUnit
