import Gherkin.Hook.Basic
import Gherkin.TagExpr.Filter

/-! # Registries of hooks

Hooks are kept in the order of registration. Those that apply at a place run by ascending priority, and
hooks of one priority in the order of registration. -/

namespace Gherkin

/-- A registered hook. The filter is the tag filter that was read from the given text; an empty text
filters nothing. -/
structure HookDefinition (θ : Type) where
  scope : HookScope
  hook : θ
  tagFilter : Option Text
  filter : Option TagFilter
  name : Option Text
  priority : Value
  timeout : Value

namespace HookDefinition

variable {θ : Type}

/-- The name of a hook for readers. -/
def displayName (h : HookDefinition θ) : Text :=
  match h.name with
  | some (c :: name) => c :: name
  | _ => h.scope.name ++ " hook"

/-- Whether a hook applies at a place with some tags. A hook with a filter applies to tagged places only. -/
def appliesTo (h : HookDefinition θ) (tags : List Text) : Bool :=
  match h.filter with
  | none => true
  | some filter => !tags.isEmpty && filter.holds tags

end HookDefinition

/-- What is handed over where a hook belongs. -/
inductive HookTarget (θ : Type) where
  | hook (h : θ)
  | other (v : Value)

/-- Why a hook is refused. -/
inductive HookError where
  | unknownScope (scope : Value)
  | noHook (tagFilter : Text)
  | notCallable (scope : HookScope) (target : Value)
  | badFilter (error : TagExpr.Error)

/-- The wording of an error. -/
def HookError.message : HookError → Text
  | unknownScope scope => "Unknown hook scope: " ++ scope.shown
  | noHook tagFilter => "Hook registered with tag filter \"" ++ tagFilter ++ "\" but no function provided"
  | notCallable scope target => "Hook for " ++ scope.name ++ " is not callable: " ++ target.shown
  | badFilter error => error.message

/-- What is registered with a hook. -/
structure HookOptions where
  name : Option Text := none
  priority : Value := .int 1000
  timeout : Value := .null

/-- The registered hooks. -/
structure HookRegistry (θ : Type) where
  hooks : List (HookDefinition θ)

namespace HookRegistry

variable {θ : Type}

/-- The registry without hooks. -/
def empty : HookRegistry θ := ⟨[]⟩

/-- The tag filter of a text; an absent or empty text filters nothing. -/
def filterOf : Option Text → Except TagExpr.Error (Option TagFilter)
  | some (c :: t) => (TagFilter.ofText (c :: t)).map some
  | _ => .ok none

/-- Adds a hook with a tag filter. -/
def add (r : HookRegistry θ) (scope : HookScope) (tagFilter : Option Text) (hook : θ) (options : HookOptions) :
    Except HookError (HookRegistry θ × HookDefinition θ) :=
  match filterOf tagFilter with
  | .error e => .error (.badFilter e)
  | .ok filter =>
      let definition : HookDefinition θ :=
        ⟨scope, hook, tagFilter, filter, options.name, options.priority, options.timeout⟩
      .ok (⟨r.hooks ++ [definition]⟩, definition)

/-- The tag filter and the target of a hook that is given by two arguments: if the first is a text, it is
a filter and the second is the target, and otherwise the first is the target. -/
def targetOf (first second : HookTarget θ) : Except HookError (Option Text × HookTarget θ) :=
  match first, second with
  | .other (.text tagFilter), .other .null => .error (.noHook tagFilter)
  | .other (.text tagFilter), target => .ok (some tagFilter, target)
  | target, _ => .ok (none, target)

/-- Registers a hook for a scope given by its name. -/
def register (r : HookRegistry θ) (scope : Value) (first second : HookTarget θ) (options : HookOptions) :
    Except HookError (HookRegistry θ × HookDefinition θ) :=
  match HookScope.ofValue? scope with
  | none => .error (.unknownScope scope)
  | some scope =>
      match targetOf first second with
      | .error e => .error e
      | .ok (_, .other v) => .error (.notCallable scope v)
      | .ok (tagFilter, .hook hook) => r.add scope tagFilter hook options

/-- Whether one hook may run in front of another. -/
def runsBefore (a b : HookDefinition θ) : Bool := !Value.less b.priority a.priority

/-- The hooks of a scope that apply at a place with some tags, in the order in which they run. -/
def select (r : HookRegistry θ) (scope : HookScope) (tags : List Text) : List (HookDefinition θ) :=
  (r.hooks.filter fun h => h.scope == scope && h.appliesTo tags).mergeSort runsBefore

end HookRegistry

end Gherkin
