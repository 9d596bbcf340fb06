import Mathlib.Algebra.BigOperators.Group.List.Basic
import Gherkin.Proofs.Report.Markup
import Gherkin.Proofs.Run.Counts
import Gherkin.Report.Markup

/-! # The structure of reports for build servers

Whatever texts a run holds, its report has a test suite for each feature, a test case for each scenario, a failure for
each scenario that failed, and says of each that was skipped or is pending that it was skipped; and the numbers in its
attributes are the numbers of these elements (`Gherkin.JUnit.render_structure`). Every text of the run stands escaped
in the report, so only what the report itself writes opens or closes an element.
-/

namespace Gherkin.JUnit

open Markup

variable {β : Type}

/-! ### Elements as they are written -/

/-- Whether a text can be the name of an attribute. -/
def isName (name : String) : Bool := name.toList.all fun c => c != '<' && c != '>' && c != '"'

/-- Attributes one behind another. -/
def fields (attributes : List (String × Text)) : Text := attributes.flatMap fun (name, value) => field name value

/-- What stands in an element: its attributes, of which it has at least one, and its content. -/
def inner (name : String) (value : Text) (others : List (String × Text)) (content : Text) : Text :=
  name.toList ++ "=\"" ++ escape value ++ "\"" ++ fields others ++ ['>'] ++ content

/-- Behind its name, an element goes on with its attributes and, behind a bracket, its content. -/
theorem cons_inner (name : String) (value : Text) (others : List (String × Text)) (content : Text) :
    ' ' :: inner name value others content = fields ((name, value) :: others) ++ (['>'] ++ content) := by
  simp [inner, fields, field]

/-- In an attribute no bracket stands, for its value is escaped. -/
theorem notMem_field {c : Char} (special : c = '<' ∨ c = '>') {name : String} (named : isName name = true)
    (value : Text) : c ∉ field name value := by
  have absent : c ∉ name.toList := by
    intro member
    have plain := List.all_eq_true.mp named c member
    rcases special with rfl | rfl <;> simp at plain
  have escaped : c ∉ escape value := notMem_escape (special.imp id .inl) value
  rcases special with rfl | rfl <;> simp [field, absent, escaped]

theorem notMem_fields {c : Char} (special : c = '<' ∨ c = '>') {attributes : List (String × Text)}
    (named : ∀ name ∈ attributes.map Prod.fst, isName name = true) : c ∉ fields attributes := by
  rw [List.forall_mem_map] at named
  intro member
  obtain ⟨⟨name, value⟩, among, inside⟩ := List.mem_flatMap.mp member
  exact notMem_field special (named _ among) value inside

/-- Cut at quotation marks, attributes give their names and their escaped values in turn. -/
theorem splitAtChar_fields {attributes : List (String × Text)}
    (named : ∀ name ∈ attributes.map Prod.fst, isName name = true) :
    pairs (Text.splitAtChar '"' (fields attributes)) =
      attributes.map fun (name, value) => (' ' :: (name.toList ++ ['=']), escape value) := by
  induction attributes with
  | nil => rfl
  | cons item rest ih =>
    obtain ⟨name, value⟩ := item
    rw [List.map_cons, List.forall_mem_cons] at named
    have absent : '"' ∉ ' ' :: (name.toList ++ ['=']) := by
      have plain : '"' ∉ name.toList := by
        intro member
        simpa using List.all_eq_true.mp named.1 _ member
      simp [plain]
    have written : fields ((name, value) :: rest) =
        (' ' :: (name.toList ++ ['='])) ++ '"' :: (escape value ++ '"' :: fields rest) := by
      simp [fields, field]
    rw [written, Text.splitAtChar_append absent, Text.splitAtChar_append (notMem_escape (.inr (.inr rfl)) value), pairs,
      ih named.2, List.map_cons]

/-- The attributes of an element are read as they were written. -/
theorem valueOf_inner {name : String} {value : Text} {others : List (String × Text)} {content : Text}
    (named : ∀ written ∈ name :: others.map Prod.fst, isName written = true) (wanted : String) :
    valueOf wanted (inner name value others content) =
      ((((name, value) :: others).map fun (name, value) => (' ' :: (name.toList ++ ['=']), escape value)).lookup
        (' ' :: (wanted.toList ++ ['=']))).map decode := by
  have absent : '>' ∉ fields ((name, value) :: others) := notMem_fields (.inr rfl) named
  have split : pairs (Text.splitAtChar '"' (fields ((name, value) :: others))) = _ := splitAtChar_fields named
  rw [valueOf, cons_inner, upTo_append (avoids_of_notMem absent), split]

/-- Whether a mark cannot begin where elements with some names open or close. -/
def foreign (mark : Text) (tags : List String) : Bool :=
  tags.all fun tag => avoids mark (opening tag) && avoids mark (closing tag)

/-- A mark that has nothing to do with some tags is in none of them. -/
theorem avoids_of_foreign {mark : Text} {tags : List String} (apart : foreign mark tags = true) {tag : String}
    (member : tag ∈ tags) : avoids mark (opening tag) = true ∧ avoids mark (closing tag) = true :=
  Bool.and_eq_true_iff.mp (List.all_eq_true.mp apart tag member)

section Elements

variable {mark : Text} {read : Text → β} {tag name : String} {value content : Text} {others : List (String × Text)}
  {items : List β} (named : ∀ written ∈ name :: others.map Prod.fst, isName written = true)
include named

theorem avoids_inner (apart : avoids ('<' :: mark) content = true) :
    avoids ('<' :: mark) (inner name value others content) = true := by
  have absent : '<' ∉ fields ((name, value) :: others) := notMem_fields (.inl rfl) named
  have whole : avoids ('<' :: mark) (' ' :: inner name value others content) = true := by
    rw [cons_inner]
    exact avoids_append (avoids_of_notMem absent) (avoids_append (avoids_of_notMem (by decide)) apart)
  exact (Bool.and_eq_true_iff.mp whole).2

theorem yields_inner (inside : Yields ('<' :: mark) read content items) :
    Yields ('<' :: mark) read (inner name value others content) items := by
  have head : avoids ('<' :: mark) (inner name value others []) = true := avoids_inner named rfl
  have empty : Yields ('<' :: mark) read (inner name value others []) [] := .of_avoids head
  have yields := empty.append inside
  rwa [inner, List.append_nil] at yields

/-- An element holds no mark if neither its tag nor its content does. -/
theorem avoids_element (apart : foreign ('<' :: mark) [tag] = true) (inside : avoids ('<' :: mark) content = true) :
    avoids ('<' :: mark) (opening tag ++ inner name value others content ++ closing tag) = true := by
  obtain ⟨opens, closes⟩ := avoids_of_foreign apart (List.mem_singleton_self tag)
  exact avoids_append (avoids_append opens (avoids_inner named inside)) closes

/-- What marks give in an element of another tag, they give in its content. -/
theorem yields_element (apart : foreign ('<' :: mark) [tag] = true)
    (inside : Yields ('<' :: mark) read content items) :
    Yields ('<' :: mark) read (opening tag ++ inner name value others content ++ closing tag) items := by
  obtain ⟨opens, closes⟩ := avoids_of_foreign apart (List.mem_singleton_self tag)
  have within : Yields ('<' :: mark) read (inner name value others content) items := yields_inner named inside
  have yields := ((Yields.of_avoids opens).append within).append (.of_avoids closes)
  rwa [List.nil_append, List.append_nil] at yields

/-- An element is read where it opens. -/
theorem behind_element (single : '<' ∉ tag.toList) (closes : avoids (opening tag) (closing tag) = true)
    (plain : avoids (opening tag) content = true) (rest : Text) :
    behind (opening tag) (opening tag ++ inner name value others content ++ closing tag ++ rest) =
      (inner name value others content ++ (closing tag ++ rest)) :: behind (opening tag) rest := by
  have apart : '<' ∉ tag.toList ++ [' '] := by simp [single]
  have inside : avoids (opening tag) (inner name value others content) = true := avoids_inner named plain
  have head := behind_mark apart (inner name value others content ++ (closing tag ++ rest))
  rw [List.append_assoc, List.append_assoc]
  exact head.trans (congrArg _ ((behind_append inside _).trans (behind_append closes _)))

/-- An element whose content holds none of its tags is found once, with what stands in it. -/
theorem yields_elements (single : '<' ∉ tag.toList) (closes : avoids (opening tag) (closing tag) = true)
    (plain : avoids (opening tag) content = true) (unclosed : avoids (closing tag) content = true) :
    Yields (opening tag) (upTo (closing tag)) (opening tag ++ inner name value others content ++ closing tag)
      [inner name value others content] := by
  intro rest
  have inside : avoids (closing tag) (inner name value others content) = true := avoids_inner named unclosed
  rw [behind_element named single closes plain, List.map_cons, upTo_append inside]
  rfl

/-- The tag of an element whose content does not hold it is found once. -/
theorem yields_one (single : '<' ∉ tag.toList) (closes : avoids (opening tag) (closing tag) = true)
    (plain : avoids (opening tag) content = true) :
    Yields (opening tag) (fun _ => ()) (opening tag ++ inner name value others content ++ closing tag) [()] := by
  intro rest
  rw [behind_element named single closes plain]
  rfl

end Elements

theorem notMem_newline (indent : Nat) : '<' ∉ newline indent := by
  simp [newline, Text.spaces]

theorem avoids_between {mark t : Text} (before after : Nat) (inside : avoids ('<' :: mark) t = true) :
    avoids ('<' :: mark) (newline before ++ t ++ newline after) = true :=
  avoids_append (avoids_append (avoids_of_notMem (notMem_newline before)) inside)
    (avoids_of_notMem (notMem_newline after))

theorem yields_between {mark t : Text} {read : Text → β} {items : List β} (before after : Nat)
    (inside : Yields ('<' :: mark) read t items) :
    Yields ('<' :: mark) read (newline before ++ t ++ newline after) items := by
  have yields := ((Yields.of_avoids (avoids_of_notMem (notMem_newline before))).append inside).append
    (.of_avoids (avoids_of_notMem (notMem_newline after)))
  rwa [List.nil_append, List.append_nil] at yields

/-! ### Scenarios -/

/-- What the failure of a scenario holds. -/
def failureContent (r : ScenarioResult) : Text := newline 12 ++ r.failedSteps.flatMap failedStep ++ newline 12

/-- What stands in the element of a scenario that was skipped or is pending. -/
def skippedInner (r : ScenarioResult) : Text := (field "message" r.status.name).tail ++ ['/', '>']

/-- What a scenario holds that failed. -/
def failure (r : ScenarioResult) : Text :=
  opening "failure" ++ inner "message" (failureMessage r) [] (failureContent r) ++ closing "failure"

/-- What becomes of a scenario stands in its report by its status. -/
theorem verdict_cases (r : ScenarioResult) :
    (r.status = .failed ∧ verdict r = newline 12 ++ failure r ++ newline 8) ∨
    (r.status ∈ [.skipped, .pending] ∧
      verdict r = newline 12 ++ (opening "skipped" ++ skippedInner r) ++ newline 8) ∨
    (r.status ∈ [.passed, .undefined] ∧ verdict r = []) := by
  cases status : r.status with
  | failed =>
    refine .inl ⟨rfl, ?_⟩
    simp only [verdict, status, failure, inner, fields, field, failureContent, opening, closing]
    simp
  | skipped => exact .inr (.inl ⟨by decide, by simp [verdict, status, field, skippedInner, opening]⟩)
  | pending => exact .inr (.inl ⟨by decide, by simp [verdict, status, field, skippedInner, opening]⟩)
  | passed => exact .inr (.inr ⟨by decide, by simp only [verdict, status]⟩)
  | undefined => exact .inr (.inr ⟨by decide, by simp only [verdict, status]⟩)

theorem notMem_failureContent (r : ScenarioResult) : '<' ∉ failureContent r := by
  have escaped (t : Text) : '<' ∉ escape t := notMem_escape (.inl rfl) t
  have literal : '<' ∉ (" " : Text) ∧ '<' ∉ ("Error: " : Text) := by decide
  have steps : '<' ∉ r.failedSteps.flatMap failedStep := by
    intro member
    obtain ⟨step, -, inside⟩ := List.mem_flatMap.mp member
    simp only [failedStep, List.mem_append, notMem_newline, escaped, literal, or_self] at inside
  simp only [failureContent, List.mem_append, notMem_newline, steps, or_self, not_false_iff]

theorem notMem_skippedInner (r : ScenarioResult) : '<' ∉ skippedInner r := by
  have absent : '<' ∉ field "message" r.status.name := notMem_field (.inl rfl) (by decide) _
  intro member
  rcases List.mem_append.mp member with inside | ending
  · exact absent (List.mem_of_mem_tail inside)
  · exact absurd ending (by decide)

/-- A mark that is not of a failure or of something skipped cannot begin in what became of a scenario. -/
theorem avoids_verdict {mark : Text} (apart : foreign ('<' :: mark) ["failure", "skipped"] = true)
    (r : ScenarioResult) : avoids ('<' :: mark) (verdict r) = true := by
  have failureApart := avoids_of_foreign apart (List.mem_cons_self)
  have skippedApart := avoids_of_foreign apart (List.mem_cons_of_mem _ List.mem_cons_self)
  have failed : avoids ('<' :: mark) (failure r) = true :=
    avoids_element (by decide) (by simp [foreign, failureApart]) (avoids_of_notMem (notMem_failureContent r))
  have skipped : avoids ('<' :: mark) (opening "skipped" ++ skippedInner r) = true :=
    avoids_append skippedApart.1 (avoids_of_notMem (notMem_skippedInner r))
  rcases verdict_cases r with ⟨-, written⟩ | ⟨-, written⟩ | ⟨-, written⟩
  · rw [written]
    exact avoids_between 12 8 failed
  · rw [written]
    exact avoids_between 12 8 skipped
  · rw [written, avoids]

/-- Something once, if a scenario has one of some statuses. -/
def once (statuses : List Status) (r : ScenarioResult) : List Unit := if r.status ∈ statuses then [()] else []

theorem once_of_mem {statuses others : List Status} {r : ScenarioResult} (member : r.status ∈ others)
    (within : ∀ status ∈ others, status ∈ statuses) : once statuses r = [()] := by
  rw [once, if_pos (within _ member)]

theorem once_of_notMem {statuses others : List Status} {r : ScenarioResult} (member : r.status ∈ others)
    (apart : ∀ status ∈ others, status ∉ statuses) : once statuses r = [] := by
  rw [once, if_neg (apart _ member)]

/-- Counting scenarios one by one gives the number of those with such a status. -/
theorem length_flatMap_once (statuses : List Status) (scenarios : List ScenarioResult) :
    (scenarios.flatMap (once statuses)).length = scenarios.countP fun s => s.status ∈ statuses := by
  induction scenarios with
  | nil => rfl
  | cons s rest ih =>
    rw [List.flatMap_cons, List.length_append, ih, List.countP_cons, Nat.add_comm]
    by_cases member : s.status ∈ statuses <;> simp [once, member]

/-- The verdict on a scenario holds a failure exactly if it failed. -/
theorem yields_failure (r : ScenarioResult) :
    Yields (opening "failure") (fun _ => ()) (verdict r) (once [.failed] r) := by
  have failed : Yields (opening "failure") (fun _ => ()) (failure r) [()] :=
    yields_one (by decide) (by decide) (by decide) (avoids_of_notMem (notMem_failureContent r))
  have skipped : Yields (opening "failure") (fun _ => ()) (opening "skipped" ++ skippedInner r) [] :=
    .of_avoids (avoids_append (by decide) (avoids_of_notMem (notMem_skippedInner r)))
  rcases verdict_cases r with ⟨status, written⟩ | ⟨status, written⟩ | ⟨status, written⟩
  · rw [written, once_of_mem (List.mem_singleton.mpr status) (by decide)]
    exact yields_between 12 8 failed
  · rw [written, once_of_notMem status (by decide)]
    exact yields_between 12 8 skipped
  · rw [written, once_of_notMem status (by decide)]
    exact .of_avoids rfl

/-- The verdict on a scenario says that it was skipped exactly if it was skipped or is pending. -/
theorem yields_skipped (r : ScenarioResult) :
    Yields (opening "skipped") (fun _ => ()) (verdict r) (once [.skipped, .pending] r) := by
  have failed : Yields (opening "skipped") (fun _ => ()) (failure r) [] :=
    yields_element (by decide) (by decide) (.of_avoids (avoids_of_notMem (notMem_failureContent r)))
  have skipped : Yields (opening "skipped") (fun _ => ()) (opening "skipped" ++ skippedInner r) [()] := by
    intro rest
    have absent : '<' ∉ "skipped".toList ++ [' '] := by decide
    have head := behind_mark absent (skippedInner r ++ rest)
    rw [List.append_assoc]
    refine (congrArg (List.map _) (head.trans (congrArg _ (behind_append ?_ rest)))).trans rfl
    exact avoids_of_notMem (notMem_skippedInner r)
  rcases verdict_cases r with ⟨status, written⟩ | ⟨status, written⟩ | ⟨status, written⟩
  · rw [written, once_of_notMem (List.mem_singleton.mpr status) (by decide)]
    exact yields_between 12 8 failed
  · rw [written, once_of_mem status (by decide)]
    exact yields_between 12 8 skipped
  · rw [written, once_of_notMem status (by decide)]
    exact .of_avoids rfl

/-- What stands in the element of a scenario. -/
def caseInner (featureName : Text) (r : ScenarioResult) : Text :=
  inner "classname" (Text.replaceChar ' ' ['_'] featureName) [("name", r.name), ("time", Shortest.text r.duration)]
    (newline 8 ++ verdict r ++ newline 8)

theorem isName_case : ∀ written ∈ ["classname", "name", "time"], isName written = true := by decide

theorem testCase_eq (featureName : Text) (r : ScenarioResult) :
    testCase featureName r =
      newline 8 ++ (opening "testcase" ++ caseInner featureName r ++ closing "testcase") ++ newline 4 := by
  simp [testCase, caseInner, inner, fields, field, opening, closing]

/-- The name of a scenario can be read back from its test case. -/
theorem valueOf_caseInner (featureName : Text) (r : ScenarioResult) :
    valueOf "name" (caseInner featureName r) = some r.name := by
  rw [caseInner, valueOf_inner isName_case]
  exact congrArg some (decode_escape r.name)

theorem avoids_testCase {mark : Text} (apart : foreign ('<' :: mark) ["testcase", "failure", "skipped"] = true)
    (featureName : Text) (r : ScenarioResult) : avoids ('<' :: mark) (testCase featureName r) = true := by
  simp only [foreign, List.all_cons, Bool.and_eq_true] at apart
  have inside : avoids ('<' :: mark) (verdict r) = true := avoids_verdict (by simpa [foreign] using apart.2) r
  rw [testCase_eq]
  exact avoids_between 8 4 (avoids_element isName_case (by simpa [foreign] using apart.1) (avoids_between 8 8 inside))

/-- A scenario is one element, and its name is read from it. -/
theorem yields_testCase (featureName : Text) (r : ScenarioResult) :
    Yields (opening "testcase") (upTo (closing "testcase")) (testCase featureName r) [caseInner featureName r] := by
  rw [testCase_eq]
  apply yields_between 8 4
  apply yields_elements isName_case (by decide) (by decide)
  · exact avoids_between 8 8 (avoids_verdict (by decide) r)
  · exact avoids_between 8 8 (avoids_verdict (by decide) r)

/-- What is read of what became of a scenario is what is read of its element. -/
theorem yields_testCase_of_verdict {mark : Text} {read : Text → β} {items : List β}
    (apart : foreign ('<' :: mark) ["testcase"] = true) (featureName : Text) {r : ScenarioResult}
    (inside : Yields ('<' :: mark) read (verdict r) items) :
    Yields ('<' :: mark) read (testCase featureName r) items := by
  rw [testCase_eq]
  exact yields_between 8 4 (yields_element isName_case apart (yields_between 8 8 inside))

/-! ### Features -/

/-- What the element of a feature holds behind its attributes. -/
def suiteContent (r : FeatureResult) : Text := newline 4 ++ r.scenarios.flatMap (testCase r.name) ++ newline 4

/-- What stands in the element of a feature. -/
def suiteInner (r : FeatureResult) : Text :=
  inner "name" r.name
    [("tests", Text.ofNat r.scenarios.length),
      ("failures", Text.ofNat (r.scenarios.filter fun s => s.status == .failed).length),
      ("time", Shortest.text r.duration)]
    (suiteContent r)

theorem isName_suite : ∀ written ∈ ["name", "tests", "failures", "time"], isName written = true := by decide

theorem testSuite_eq (r : FeatureResult) :
    testSuite r = newline 4 ++ (opening "testsuite" ++ suiteInner r ++ closing "testsuite") ++ newline 0 := by
  simp [testSuite, suiteInner, suiteContent, inner, fields, field, opening, closing]

theorem avoids_suiteContent {mark : Text} (apart : foreign ('<' :: mark) ["testcase", "failure", "skipped"] = true)
    (r : FeatureResult) : avoids ('<' :: mark) (suiteContent r) = true :=
  avoids_between 4 4 (avoids_flatMap fun s _ => avoids_testCase apart r.name s)

theorem yields_suiteContent {mark : Text} {read : Text → β} {items : ScenarioResult → List β} {r : FeatureResult}
    (each : ∀ s, Yields ('<' :: mark) read (testCase r.name s) (items s)) :
    Yields ('<' :: mark) read (suiteContent r) (r.scenarios.flatMap items) :=
  yields_between 4 4 (.flatMap fun s _ => each s)

/-- A test suite is found once, with what stands in it. -/
theorem yields_testSuite (r : FeatureResult) :
    Yields (opening "testsuite") (upTo (closing "testsuite")) (testSuite r) [suiteInner r] := by
  rw [testSuite_eq]
  apply yields_between 4 0
  apply yields_elements isName_suite (by decide) (by decide)
  · exact avoids_suiteContent (by decide) r
  · exact avoids_suiteContent (by decide) r

theorem avoids_testSuite {mark : Text}
    (apart : foreign ('<' :: mark) ["testsuite"] = true)
    (within : foreign ('<' :: mark) ["testcase", "failure", "skipped"] = true) (r : FeatureResult) :
    avoids ('<' :: mark) (testSuite r) = true := by
  rw [testSuite_eq]
  exact avoids_between 4 0 (avoids_element isName_suite apart (avoids_suiteContent within r))

theorem yields_testSuite_of_content {mark : Text} {read : Text → β} {items : List β} {r : FeatureResult}
    (apart : foreign ('<' :: mark) ["testsuite"] = true) (inside : Yields ('<' :: mark) read (suiteContent r) items) :
    Yields ('<' :: mark) read (testSuite r) items := by
  rw [testSuite_eq]
  exact yields_between 4 0 (yields_element isName_suite apart inside)

/-- Whether the numbers of tests and failures that an element states are the numbers of those in it. -/
def Tallies (element : Text) : Prop :=
  valueOf "tests" element = some (Text.ofNat (occurrences "<testcase " element)) ∧
    valueOf "failures" element = some (Text.ofNat (occurrences "<failure " element))

/-- A test suite holds one test case for each scenario. -/
theorem yields_cases (r : FeatureResult) :
    Yields (opening "testcase") (upTo (closing "testcase")) (suiteContent r) (r.scenarios.map (caseInner r.name)) := by
  rw [List.map_eq_flatMap]
  exact yields_suiteContent (yields_testCase r.name)

theorem yields_failures (r : FeatureResult) :
    Yields (opening "failure") (fun _ => ()) (suiteContent r) (r.scenarios.flatMap (once [.failed])) :=
  yields_suiteContent fun s => yields_testCase_of_verdict (by decide) r.name (yields_failure s)

theorem yields_skips (r : FeatureResult) :
    Yields (opening "skipped") (fun _ => ()) (suiteContent r) (r.scenarios.flatMap (once [.skipped, .pending])) :=
  yields_suiteContent fun s => yields_testCase_of_verdict (by decide) r.name (yields_skipped s)

theorem yields_suiteInner {mark : Text} {read : Text → β} {items : List β} {r : FeatureResult}
    (inside : Yields ('<' :: mark) read (suiteContent r) items) : Yields ('<' :: mark) read (suiteInner r) items :=
  yields_inner isName_suite inside

/-- The attributes of a feature state its name and what is in it. -/
theorem suiteInner_states (r : FeatureResult) :
    valueOf "name" (suiteInner r) = some r.name ∧ occurrences "<testcase " (suiteInner r) = r.scenarios.length ∧
      Tallies (suiteInner r) := by
  have tests : occurrences "<testcase " (suiteInner r) = _ := (yields_suiteInner (yields_cases r)).occurrences_eq
  have failures : occurrences "<failure " (suiteInner r) = _ := (yields_suiteInner (yields_failures r)).occurrences_eq
  rw [List.length_map] at tests
  rw [length_flatMap_once, List.countP_eq_length_filter] at failures
  have stated (wanted : String) : valueOf wanted (suiteInner r) = _ := valueOf_inner isName_suite wanted
  refine ⟨(stated "name").trans (congrArg some (decode_escape _)), tests, ?_, ?_⟩
  · rw [tests]
    exact (stated "tests").trans (congrArg some (decode_escape _))
  · have failed :
        (r.scenarios.filter fun s => s.status == .failed).length = occurrences "<failure " (suiteInner r) := by
      rw [failures]
      simp [beq_eq_decide]
    rw [← failed]
    exact (stated "failures").trans (congrArg some (decode_escape _))

/-! ### Runs -/

/-- The counts of a run are the number of its scenarios and of those that failed. -/
theorem summarize_scenarios (features : List FeatureResult) :
    (summarize features).scenarios.total = (features.flatMap FeatureResult.scenarios).length ∧
      (summarize features).scenarios.failed =
        (features.flatMap FeatureResult.scenarios).countP fun s => s.status ∈ [Status.failed] := by
  have counts := counts_scenarios features
  have failed := counts.under .failed
  rw [List.countP_map] at failed
  exact ⟨counts.total.trans (List.length_map _), failed⟩

/-- What a report holds behind the attributes of the run. -/
def runContent (r : RunResult) : Text := newline 0 ++ r.features.flatMap testSuite ++ newline 0

/-- What stands in the element of a run. -/
def runInner (r : RunResult) : Text :=
  inner "name" "QA-BDD Test Results"
    [("time", Shortest.text r.duration), ("tests", Text.ofNat r.summary.scenarios.total),
      ("failures", Text.ofNat r.summary.scenarios.failed)]
    (runContent r)

/-- What a report begins with. -/
def declaration : Text := "<?xml version=\"1.0\" encoding=\"UTF-8\"?>"

theorem isName_run : ∀ written ∈ ["name", "time", "tests", "failures"], isName written = true := by decide

theorem render_eq (r : RunResult) :
    render r = declaration ++ newline 0 ++ (opening "testsuites" ++ runInner r ++ closing "testsuites") := by
  unfold render runInner runContent inner declaration
  simp only [fields, field, opening, closing, List.append_assoc, List.flatMap_cons, List.flatMap_nil,
    List.append_nil, List.cons_append, List.nil_append]
  rfl

/-- What marks give in a report is what they give in its test suites in turn. -/
theorem yields_runContent {mark : Text} {read : Text → β} {items : FeatureResult → List β} {r : RunResult}
    (each : ∀ f, Yields ('<' :: mark) read (testSuite f) (items f)) :
    Yields ('<' :: mark) read (runContent r) (r.features.flatMap items) :=
  yields_between 0 0 (.flatMap fun f _ => each f)

theorem yields_runInner {mark : Text} {read : Text → β} {items : List β} {r : RunResult}
    (inside : Yields ('<' :: mark) read (runContent r) items) : Yields ('<' :: mark) read (runInner r) items :=
  yields_inner isName_run inside

/-- What marks of other tags give in a report, they give in its test suites. -/
theorem yields_render {mark : Text} {read : Text → β} {items : List β} {r : RunResult}
    (declared : avoids ('<' :: mark) declaration = true) (apart : foreign ('<' :: mark) ["testsuites"] = true)
    (inside : Yields ('<' :: mark) read (runContent r) items) : Yields ('<' :: mark) read (render r) items := by
  rw [render_eq]
  exact (Yields.of_avoids (avoids_append declared (avoids_of_notMem (notMem_newline 0)))).append
    (yields_element isName_run apart inside)

/-- A report is one element behind its declaration. -/
theorem yields_report (r : RunResult) :
    Yields (opening "testsuites") (upTo (closing "testsuites")) (render r) [runInner r] := by
  have suites {mark : Text} (apart : foreign ('<' :: mark) ["testsuite"] = true)
      (within : foreign ('<' :: mark) ["testcase", "failure", "skipped"] = true) :
      avoids ('<' :: mark) (runContent r) = true :=
    avoids_between 0 0 (avoids_flatMap fun f _ => avoids_testSuite apart within f)
  have declared : avoids (opening "testsuites") (declaration ++ newline 0) = true := by decide
  have element : Yields (opening "testsuites") (upTo (closing "testsuites"))
      (opening "testsuites" ++ runInner r ++ closing "testsuites") [runInner r] :=
    yields_elements isName_run (by decide) (by decide) (suites (by decide) (by decide)) (suites (by decide) (by decide))
  rw [render_eq]
  exact (Yields.of_avoids declared).append element

/-- A report holds one test case for each scenario of each feature. -/
theorem runContent_cases (r : RunResult) :
    Yields (opening "testcase") (upTo (closing "testcase")) (runContent r)
      (r.features.flatMap fun f => f.scenarios.map (caseInner f.name)) :=
  yields_runContent fun f => yields_testSuite_of_content (by decide) (yields_cases f)

theorem runContent_failures (r : RunResult) :
    Yields (opening "failure") (fun _ => ()) (runContent r)
      ((r.features.flatMap FeatureResult.scenarios).flatMap (once [.failed])) := by
  rw [List.flatMap_assoc]
  exact yields_runContent fun f => yields_testSuite_of_content (by decide) (yields_failures f)

theorem runContent_skips (r : RunResult) :
    Yields (opening "skipped") (fun _ => ()) (runContent r)
      ((r.features.flatMap FeatureResult.scenarios).flatMap (once [.skipped, .pending])) := by
  rw [List.flatMap_assoc]
  exact yields_runContent fun f => yields_testSuite_of_content (by decide) (yields_skips f)

theorem length_cases (features : List FeatureResult) :
    (features.flatMap fun f => f.scenarios.map (caseInner f.name)).length =
      (features.flatMap FeatureResult.scenarios).length := by
  simp [List.length_flatMap]

/-- The attributes of a run state what is in it. -/
theorem runInner_tallies {r : RunResult} (summarized : r.summary = summarize r.features) : Tallies (runInner r) := by
  have tests : occurrences "<testcase " (runInner r) = _ := (yields_runInner (runContent_cases r)).occurrences_eq
  have failures : occurrences "<failure " (runInner r) = _ := (yields_runInner (runContent_failures r)).occurrences_eq
  obtain ⟨total, failed⟩ := summarize_scenarios r.features
  rw [length_cases, ← total, ← summarized] at tests
  rw [length_flatMap_once, ← failed, ← summarized] at failures
  have stated (wanted : String) : valueOf wanted (runInner r) = _ := valueOf_inner isName_run wanted
  constructor
  · rw [tests]
    exact (stated "tests").trans (congrArg some (decode_escape _))
  · rw [failures]
    exact (stated "failures").trans (congrArg some (decode_escape _))

/-- Whatever texts a run holds, its report has an element for each feature, for each scenario, and for each scenario
that failed, was skipped or is pending, and no other; these are in the order of the run and have the names of what they
are for; and each feature, and the whole report, state how many tests and failures are in them. -/
theorem render_structure (r : RunResult) (summarized : r.summary = summarize r.features) :
    let scenarios := r.features.flatMap FeatureResult.scenarios
    occurrences "<testsuite " (render r) = r.features.length ∧
    occurrences "<testcase " (render r) = scenarios.length ∧
    occurrences "<failure " (render r) = (scenarios.countP fun s => s.status ∈ [Status.failed]) ∧
    occurrences "<skipped " (render r) = (scenarios.countP fun s => s.status ∈ [Status.skipped, .pending]) ∧
    (elements "testcase" (render r)).map (valueOf "name") = scenarios.map (fun s => some s.name) ∧
    List.Forall₂ (fun feature suite => valueOf "name" suite = some feature.name ∧
        occurrences "<testcase " suite = feature.scenarios.length ∧ Tallies suite)
      r.features (elements "testsuite" (render r)) ∧
    ∃ whole, elements "testsuites" (render r) = [whole] ∧ Tallies whole := by
  have suites : Yields (opening "testsuite") (upTo (closing "testsuite")) (render r) (r.features.map suiteInner) := by
    rw [List.map_eq_flatMap]
    exact yields_render (by decide) (by decide) (yields_runContent yields_testSuite)
  have cases : Yields (opening "testcase") (upTo (closing "testcase")) (render r) _ :=
    yields_render (by decide) (by decide) (runContent_cases r)
  have failures := (yields_render (by decide) (by decide) (runContent_failures r)).occurrences_eq
  have skips := (yields_render (by decide) (by decide) (runContent_skips r)).occurrences_eq
  refine ⟨?_, ?_, ?_, ?_, ?_, ?_, runInner r, (yields_report r).alone, runInner_tallies summarized⟩
  · exact suites.occurrences_eq.trans (List.length_map suiteInner)
  · exact cases.occurrences_eq.trans (length_cases r.features)
  · exact failures.trans (length_flatMap_once _ _)
  · exact skips.trans (length_flatMap_once _ _)
  · rw [elements, cases.alone, List.map_flatMap, List.map_flatMap]
    simp only [List.map_map, Function.comp_def, valueOf_caseInner]
  · rw [elements, suites.alone, List.forall₂_map_right_iff, List.forall₂_same]
    exact fun feature _ => suiteInner_states feature

/-- A feature whose texts look like the end of one test case and the beginning of another. -/
def forgedFeature : FeatureResult where
  name := "f\" tests=\"7\"><testcase name=\"forged"
  status := .failed
  scenarios := [
    { name := "s</testcase><testcase name=\"forged\">", status := .failed
      steps := [{ keyword := "Given", text := "<failure message=\"\">", status := .failed
                  error := some (.raised "AssertionError" "</testsuite><testsuite name=\"\">") }] },
    { name := "&lt;skipped message=''/>", status := .pending }]

/-- The report of a run with such a feature. -/
theorem render_structure_forged :
    let run : RunResult := { features := [forgedFeature], summary := summarize [forgedFeature] }
    run.summary = summarize run.features ∧
    occurrences "<testsuite " (render run) = 1 ∧ occurrences "<testcase " (render run) = 2 ∧
    occurrences "<failure " (render run) = 1 ∧ occurrences "<skipped " (render run) = 1 ∧
    (elements "testcase" (render run)).map (valueOf "name") = forgedFeature.scenarios.map (fun s => some s.name) := by
  obtain ⟨suites, cases, failures, skips, names, -⟩ :=
    render_structure { features := [forgedFeature], summary := summarize [forgedFeature] } rfl
  exact ⟨rfl, suites, cases, failures, skips, names⟩

end Gherkin.JUnit
