import Gherkin.Decimal.Writing
import Gherkin.Run.Summary

/-! # Reports in markup

A run is shown as a page for browsers, with the counts of scenarios and below them each feature with its scenarios and
steps, and as a file for build servers, with a test suite for each feature and a test case for each scenario. Inside
markup the five characters that have a meaning there are written as entities, so whatever a text holds, it can neither
open nor close anything. -/

namespace Gherkin.Markup

/-- A character as it stands in markup. -/
def entity (c : Char) : Text :=
  if c = '&' then "&amp;"
  else if c = '<' then "&lt;"
  else if c = '>' then "&gt;"
  else if c = '"' then "&#34;"
  else if c = '\'' then "&#39;"
  else [c]

/-- A text as it stands in markup. -/
def escape (t : Text) : Text := t.flatMap entity

/-- A line break and the indentation of the next line. -/
def newline (indent : Nat) : Text := '\n' :: Text.spaces indent

/-- A text between two others, if it is there. -/
def optional (before after : Text) : Option Text → Text
  | some t => before ++ escape t ++ after
  | none => []

end Gherkin.Markup

/-! ### For browsers -/

namespace Gherkin.Html

open Markup (escape newline optional)

/-- The style of the page, line by line. -/
def style : List String := [
  "    <style>",
  "        body \x7b font-family: Arial, sans-serif; margin: 20px; background-color: #f5f5f5; \x7d",
  "        .header \x7b background-color: #333; color: white; padding: 20px; border-radius: 5px; margin-bottom: 20px; \x7d",
  "        .summary \x7b display: flex; gap: 20px; margin-bottom: 30px; \x7d",
  "        .summary-card \x7b background: white; padding: 20px; border-radius: 5px; flex: 1; text-align: center; \x7d",
  "        .summary-card .number \x7b font-size: 36px; font-weight: bold; \x7d",
  "        .passed \x7b color: #28a745; \x7d",
  "        .failed \x7b color: #dc3545; \x7d",
  "        .skipped \x7b color: #ffc107; \x7d",
  "        .pending, .undefined \x7b color: #17a2b8; \x7d",
  "        .feature \x7b background: white; margin-bottom: 20px; border-radius: 5px; overflow: hidden; \x7d",
  "        .feature-header \x7b background: #f8f9fa; padding: 15px 20px; border-bottom: 1px solid #dee2e6; \x7d",
  "        .scenario \x7b padding: 15px 20px; border-bottom: 1px solid #eee; \x7d",
  "        .scenario-name \x7b font-weight: bold; \x7d",
  "        .step \x7b margin-left: 20px; padding: 5px 0; font-family: monospace; font-size: 14px; \x7d",
  "        .error \x7b background-color: #f8d7da; color: #721c24; padding: 10px; margin: 10px 0 10px 20px;",
  "                 border-radius: 3px; font-size: 12px; white-space: pre-wrap; \x7d",
  "        .tag \x7b background-color: #e9ecef; padding: 2px 6px; border-radius: 3px; font-size: 11px; \x7d",
  "        .duration \x7b color: #6c757d; font-size: 12px; \x7d",
  "    </style>"]

/-- A number of seconds with three places. -/
def seconds (x : Float) : Text := Fixed.text 3 x

/-- The share of scenarios that passed in percent, with one place. -/
def passRate (c : StatusCounts) : Text :=
  if c.total = 0 then "0" else Fixed.text 1 (Float.ofNat c.passed / Float.ofNat c.total * 100.0)

/-- A number with a title. -/
def card (title : String) (kind : String) (number : Text) : Text :=
  newline 8 ++ "<div class=\"summary-card\"><h3>" ++ title.toList ++ "</h3><div class=\"number" ++ kind.toList ++
    "\">" ++ number ++ "</div></div>"

/-- The head of the page. -/
def head (timestamp : Text) : Text :=
  "<!DOCTYPE html>" ++ newline 0 ++ "<html>" ++ newline 0 ++ "<head>" ++ newline 4 ++
    "<meta charset=\"UTF-8\">" ++ newline 4 ++ "<title>Test Execution Report - " ++ escape timestamp ++
    "</title>" ++ newline 0 ++ Text.joinWith (newline 0) (style.map String.toList) ++ newline 0 ++ "</head>"

/-- When the run was, how long it took, and what failed around it. -/
def overview (timestamp : Text) (r : RunResult) : Text :=
  newline 4 ++ "<div class=\"header\">" ++ newline 8 ++ "<h1>Test Execution Report</h1>" ++ newline 8 ++
    "<p>Generated: " ++ escape timestamp ++ "</p>" ++ newline 8 ++ "<p>Duration: " ++ seconds r.duration ++
    "s</p>" ++ newline 8 ++
    optional "<p class=\"failed\">Hook error: " "</p>" (r.hookError.map Failure.message) ++ newline 4 ++ "</div>"

/-- The counts of scenarios. -/
def summary (c : StatusCounts) : Text :=
  newline 4 ++ "<div class=\"summary\">" ++ card "Scenarios" "" (Text.ofNat c.total) ++
    card "Passed" " passed" (Text.ofNat c.passed) ++ card "Failed" " failed" (Text.ofNat c.failed) ++
    card "Pending" " pending" (Text.ofNat c.pending) ++ card "Pass Rate" "" (passRate c ++ ['%']) ++
    newline 4 ++ "</div>"

/-- What something failed with. -/
def error (failure : Option Failure) : Text :=
  optional "<div class=\"error\">" "</div>" (failure.map Failure.message)

/-- A message that a step logged. -/
def logLine (message : Text) : Text := "<div class=\"step duration\">" ++ escape message ++ "</div>"

/-- A tag of a scenario. -/
def tagLabel (tag : Text) : Text := "<span class=\"tag\">" ++ escape tag ++ "</span> "

/-- A step with its failure and what it logged. -/
def step (r : StepResult) : Text :=
  newline 12 ++ "<div class=\"step " ++ r.status.name ++ "\">" ++ escape r.keyword ++ " " ++ escape r.text ++
    " (" ++ r.status.name ++ ")</div>" ++ newline 12 ++ error r.error ++ newline 12 ++
    r.logs.flatMap logLine ++ newline 12

/-- A scenario with its tags and steps. -/
def scenario (r : ScenarioResult) : Text :=
  newline 8 ++ "<div class=\"scenario\">" ++ newline 12 ++ "<div class=\"scenario-name " ++ r.status.name ++
    "\">" ++ escape r.name ++ " [" ++ r.status.name.map Char.toUpper ++ "]</div>" ++ newline 12 ++
    r.tags.flatMap tagLabel ++ newline 12 ++
    error r.hookError ++ newline 12 ++ r.steps.flatMap step ++ newline 8 ++ "</div>" ++ newline 8

/-- A feature with its scenarios. -/
def feature (r : FeatureResult) : Text :=
  newline 4 ++ "<div class=\"feature\">" ++ newline 8 ++ "<div class=\"feature-header " ++ r.status.name ++
    "\">" ++ newline 12 ++ "<h2>" ++ escape r.name ++ "</h2>" ++ newline 12 ++ "<div class=\"duration\">" ++
    escape (r.uri.getD []) ++ " (" ++ seconds r.duration ++ "s)</div>" ++ newline 12 ++ error r.hookError ++
    newline 8 ++ "</div>" ++ newline 8 ++ r.scenarios.flatMap scenario ++ newline 4 ++ "</div>" ++ newline 4

/-- The report of a run. -/
def render (timestamp : Text) (r : RunResult) : Text :=
  head timestamp ++ newline 0 ++ "<body>" ++ overview timestamp r ++ newline 0 ++ summary r.summary.scenarios ++
    newline 0 ++ newline 4 ++ r.features.flatMap feature ++ newline 0 ++ "</body>" ++ newline 0 ++ "</html>"

end Gherkin.Html

/-! ### For build servers -/

namespace Gherkin.JUnit

open Markup (escape newline)

/-- An attribute of an element: its name, and its value in quotes. -/
def field (name : String) (value : Text) : Text :=
  [' '] ++ name.toList ++ "=\"" ++ escape value ++ "\""

/-- What a failed scenario is reported to have failed with: its hook, or else its first failed step. -/
def failureMessage (r : ScenarioResult) : Text :=
  match r.hookError with
  | some failure => failure.message
  | none => match r.failedSteps.findSome? StepResult.error with
    | some failure => failure.message
    | none => "Test failed"

/-- A failed step. -/
def failedStep (r : StepResult) : Text :=
  newline 16 ++ escape r.keyword ++ " " ++ escape r.text ++ newline 16 ++ "Error: " ++
    escape ((r.error.map Failure.message).getD []) ++ newline 12

/-- What became of a scenario that did not pass. -/
def verdict (r : ScenarioResult) : Text :=
  match r.status with
  | .failed =>
      newline 12 ++ "<failure" ++ field "message" (failureMessage r) ++ ">" ++ newline 12 ++
        r.failedSteps.flatMap failedStep ++ newline 12 ++ "</failure>" ++ newline 8
  | .skipped | .pending =>
      newline 12 ++ "<skipped" ++ field "message" r.status.name ++ "/>" ++ newline 8
  | .passed | .undefined => []

/-- A scenario of a feature. -/
def testCase (featureName : Text) (r : ScenarioResult) : Text :=
  newline 8 ++ "<testcase" ++ field "classname" (Text.replaceChar ' ' ['_'] featureName) ++
    field "name" r.name ++ field "time" (Shortest.text r.duration) ++ ">" ++ newline 8 ++ verdict r ++
    newline 8 ++ "</testcase>" ++ newline 4

/-- A feature. -/
def testSuite (r : FeatureResult) : Text :=
  newline 4 ++ "<testsuite" ++ field "name" r.name ++
    field "tests" (Text.ofNat r.scenarios.length) ++
    field "failures" (Text.ofNat (r.scenarios.filter fun s => s.status == .failed).length) ++
    field "time" (Shortest.text r.duration) ++ ">" ++ newline 4 ++
    r.scenarios.flatMap (testCase r.name) ++ newline 4 ++ "</testsuite>" ++ newline 0

/-- The report of a run. -/
def render (r : RunResult) : Text :=
  "<?xml version=\"1.0\" encoding=\"UTF-8\"?>" ++ newline 0 ++ "<testsuites" ++
    field "name" "QA-BDD Test Results" ++ field "time" (Shortest.text r.duration) ++
    field "tests" (Text.ofNat r.summary.scenarios.total) ++
    field "failures" (Text.ofNat r.summary.scenarios.failed) ++ ">" ++ newline 0 ++
    r.features.flatMap testSuite ++ newline 0 ++ "</testsuites>"

end Gherkin.JUnit
