import Gherkin.Failure
import Gherkin.TagExpr.Filter

/-! # Settings of a run

The settings may come from a file, so they are values of any kind until they have been checked. -/

namespace Gherkin

/-- The settings of a run: the seconds that steps and hooks may take, which scenarios run, whether the
run goes on after a failed scenario or step, the pause between steps, whether a handler that is late is
stopped, and how many suggestions an undefined step gets. -/
structure RunConfig where
  stepTimeout : Value := .float 30.0
  hookTimeout : Value := .float 30.0
  tagFilter : Value := .null
  failFast : Value := .bool false
  keepGoing : Value := .bool false
  slowMo : Value := .int 0
  cancelOnTimeout : Value := .bool false
  suggestionLimit : Value := .int 3

namespace RunConfig

/-- Reads settings from the entries of a mapping; entries that are no settings are passed over. -/
def ofEntries (entries : Entries Text Value) : RunConfig :=
  let setting (key : String) (default : Value) : Value := (entries.lookup key.toList).getD default
  { stepTimeout := setting "step_timeout" (.float 30.0)
    hookTimeout := setting "hook_timeout" (.float 30.0)
    tagFilter := setting "tag_filter" .null
    failFast := setting "fail_fast" (.bool false)
    keepGoing := setting "keep_going" (.bool false)
    slowMo := setting "slow_mo" (.int 0)
    cancelOnTimeout := setting "cancel_on_timeout" (.bool false)
    suggestionLimit := setting "suggestion_limit" (.int 3) }

/-- The settings under their names. -/
def toEntries (c : RunConfig) : Entries Text Value := [
  ("step_timeout", c.stepTimeout), ("hook_timeout", c.hookTimeout), ("tag_filter", c.tagFilter),
  ("fail_fast", c.failFast), ("keep_going", c.keepGoing), ("slow_mo", c.slowMo),
  ("cancel_on_timeout", c.cancelOnTimeout), ("suggestion_limit", c.suggestionLimit)]

theorem ofEntries_toEntries (c : RunConfig) : ofEntries c.toEntries = c := rfl

/-- The settings as messages show them. -/
def shown (c : RunConfig) : Text :=
  "ExecutorConfig(" ++
    Text.joinWith ", " (c.toEntries.map fun (name, value) => name ++ ['='] ++ value.shown) ++ ")"

/-- Why settings are refused: a setting is no number, or is negative; the tag filter is no text, or is
no tag expression. -/
inductive Error where
  | notNumber (value : Value)
  | invalid (config : RunConfig)
  | filterNotText (value : Value)
  | badFilter (error : TagExpr.Error)

/-- The wording of an error. -/
def Error.message : Error → Text
  | notNumber value => "'<' not supported between instances of '" ++ value.kindName ++ "' and 'int'"
  | invalid config => "Invalid executor configuration: " ++ config.shown
  | filterNotText value => "'" ++ value.kindName ++ "' object has no attribute 'strip'"
  | badFilter error => error.message

/-- The numbers among the settings, in the order in which they are checked; an absent time limit is
none of them. -/
def numbers (c : RunConfig) : List Value :=
  let present (v : Value) : List Value := match v with
    | .null => []
    | v => [v]
  present c.stepTimeout ++ present c.hookTimeout ++ [c.slowMo, c.suggestionLimit]

/-- Checks that values are numbers and not negative. -/
def checkNumbers (c : RunConfig) : List Value → Except Error Unit
  | [] => .ok ()
  | v :: rest =>
      if !v.isNumber then .error (.notNumber v)
      else if Value.less v (.int 0) then .error (.invalid c)
      else c.checkNumbers rest

/-- The failure of a pause that lasts a whole number of seconds beyond the floating point numbers. -/
def endlessPause : Failure := .raised "OverflowError" "int too large to convert to float"

/-- The least natural number that no floating point number is near to: it lies half way between the largest of them
and the power of two above. -/
def endlessSeconds : Nat := Nat.pow 2 1024 - Nat.pow 2 970

/-- Why the pause after a step that passed cannot be taken, if it cannot. Time is not modelled: every other pause
ends at once, also one of infinitely many seconds, which the check of settings lets pass and which would never
end. -/
def pauseFailure (c : RunConfig) : Option Failure :=
  match c.slowMo with
  | .int seconds => if endlessSeconds ≤ seconds then some endlessPause else none
  | _ => none

/-- The tag filter of the settings. -/
def filter (c : RunConfig) : Except Error (Option TagFilter) :=
  if !c.tagFilter.isTrue then .ok none
  else match c.tagFilter with
    | .text t => match TagFilter.ofText t with
      | .ok filter => .ok (some filter)
      | .error e => .error (.badFilter e)
    | v => .error (.filterNotText v)

/-- Checks settings and reads their tag filter. -/
def check (c : RunConfig) : Except Error (Option TagFilter) :=
  match c.checkNumbers c.numbers with
  | .error e => .error e
  | .ok () => c.filter

end RunConfig

end Gherkin
