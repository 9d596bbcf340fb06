import Gherkin.Entries
import Gherkin.Step.Pattern
import Gherkin.Step.Role
import Gherkin.Text.Distance

/-! # Registries of step definitions

Definitions are kept in the order of registration, and the first one that fits a step counts. A pattern
can be registered once for each role. -/

namespace Gherkin

open Regex (CharacterNames)

/-- A step definition with a handler. -/
structure StepDefinition (η : Type) where
  role : Role
  pattern : Text
  regex : Regex
  names : List Text
  handler : η
  tagScope : Option Text
  location : Option Text
  description : Text

/-- Why a definition or a parameter type is refused. -/
inductive StepError where
  | unknownRole (role : Value)
  | badPattern (kindName : Text)
  | badRegex (error : Regex.Error)
  | badTypeRegex (name : Text) (error : Regex.Error)
  | tooManyGroups (name : Text) (count : Nat)
  | duplicate (role : Role) (pattern : Text) (location : Option Text) (existing : Text)
      (existingLocation : Option Text)

namespace StepError

/-- The wording of an error. -/
def message : StepError → Text
  | unknownRole role => "Unknown step role: " ++ role.shown
  | badPattern kindName => "Step pattern must be a string or compiled regex, got " ++ kindName
  | badRegex error => error.message
  | badTypeRegex name error => "Invalid regex for parameter type '" ++ name ++ "': " ++ error.message
  | tooManyGroups name count =>
      "Parameter type '" ++ name ++ "' must have at most one capture group, got " ++ Text.ofNat count
  | duplicate role pattern location existing existingLocation =>
      "Duplicate step definition: " ++ role.name ++ " \"" ++ pattern ++ "\"" ++ place location ++
        ". Already registered as \"" ++ existing ++ "\"" ++ place existingLocation
where
  /-- Where a definition stands, if it is known. -/
  place : Option Text → Text
    | some (c :: rest) => " at " ++ c :: rest
    | _ => []

end StepError

/-- The registered definitions, and the parameter types that were defined beside the built-in ones. -/
structure StepRegistry (η : Type) where
  definitions : List (StepDefinition η)
  types : Entries Text ParameterType

/-- What is registered with a pattern. -/
structure StepOptions (η : Type) where
  handler : η
  tagScope : Option Text
  location : Option Text
  description : Text

namespace StepRegistry

variable {η : Type} [CharacterNames]

/-- The registry without definitions. -/
def empty : StepRegistry η := ⟨[], []⟩

/-- The type of a placeholder; the built-in types come first. -/
def type? (r : StepRegistry η) (name : Text) : Option ParameterType :=
  match ParameterType.builtIn? name with
  | some type => some type
  | none => r.types.lookup name

/-- The regular expression of a pattern, its text for readers, and the names of its placeholders. -/
def compile (r : StepRegistry η) : Pattern → Except StepError (Regex × Text × List Text)
  | .regex regex => .ok (regex, regex.pattern, [])
  | .other kindName => .error (.badPattern kindName)
  | .text t =>
      let segments := Segment.split t
      match Regex.compile (patternSource r.type? segments) with
      | .ok regex => .ok (regex, t, segments.filterMap Segment.name?)
      | .error e => .error (.badRegex e)

/-- A location that says something. -/
def knownLocation : Option Text → Option Text
  | some [] => none
  | location => location

/-- Adds a definition for a role. -/
def add (r : StepRegistry η) (role : Role) (pattern : Pattern) (options : StepOptions η) :
    Except StepError (StepRegistry η × StepDefinition η) :=
  match r.compile pattern with
  | .error e => .error e
  | .ok (regex, readable, names) =>
      let location := knownLocation options.location
      match r.definitions.find? fun d => d.regex.pattern == regex.pattern && d.role == role with
      | some existing => .error (.duplicate role readable location existing.pattern existing.location)
      | none =>
          let definition : StepDefinition η :=
            ⟨role, readable, regex, names, options.handler, options.tagScope, location, options.description⟩
          .ok ({ r with definitions := r.definitions ++ [definition] }, definition)

/-- Adds a definition for a role given by its name. -/
def register (r : StepRegistry η) (role : Value) (pattern : Pattern) (options : StepOptions η) :
    Except StepError (StepRegistry η × StepDefinition η) :=
  match Role.ofValue? role with
  | some role => r.add role pattern options
  | none => .error (.unknownRole role)

/-- Defines a parameter type. A regular expression without a group becomes one group. Only complaints about its form
are said to be about the type. -/
def defineType (r : StepRegistry η) (name pattern : Text) (transform : Transform) :
    Except StepError (StepRegistry η × ParameterType) :=
  match Regex.compile pattern with
  | .error e => .error (if e.cause.isSyntax then .badTypeRegex name e else .badRegex e)
  | .ok regex =>
      if 1 < regex.groups then .error (.tooManyGroups name regex.groups)
      else
        let fragment := if regex.groups = 0 then ['('] ++ pattern ++ [')'] else pattern
        let type : ParameterType := ⟨name, fragment, transform⟩
        .ok ({ r with types := r.types.store name type }, type)

/-- Whether a definition may serve a request for a role and, if they are given, for tags. -/
def admits (definition : StepDefinition η) (role : Role) (tags : Option (List Text)) : Bool :=
  definition.role.serves role &&
    match definition.tagScope, tags with
    | some (c :: scope), some tags => tags.contains (c :: scope)
    | _, _ => true

/-- The first definition that fits a text, its place in the registry, and what its groups capture. -/
def selectFrom (text : Text) (role : Role) (tags : Option (List Text)) :
    Nat → List (StepDefinition η) → Option (Nat × StepDefinition η × List (Option Text))
  | _, [] => none
  | index, definition :: rest =>
      match if admits definition role tags then definition.regex.search text else none with
      | some groups => some (index, definition, groups)
      | none => selectFrom text role tags (index + 1) rest

/-- The first definition that fits a text, its place in the registry, and what its groups capture. -/
def select (r : StepRegistry η) (text : Text) (role : Role) (tags : Option (List Text)) :
    Option (Nat × StepDefinition η × List (Option Text)) :=
  selectFrom text role tags 0 r.definitions

/-- Converts what a group captured by the type of its placeholder. -/
def argument (r : StepRegistry η) (name : Option Text) : Option Text → Except Failure Value
  | none => .ok .null
  | some raw => match name.bind r.type? with
    | some type => type.transform raw
    | none => .ok (.text raw)

/-- Converts what the groups captured, in order; groups past the last placeholder stay texts. -/
def arguments (r : StepRegistry η) : List Text → List (Option Text) → Except Failure (List Value)
  | _, [] => .ok []
  | names, raw :: rest =>
      match r.argument names.head? raw with
      | .error e => .error e
      | .ok value => match r.arguments names.tail rest with
        | .error e => .error e
        | .ok values => .ok (value :: values)

/-- A definition that fits a text, with the arguments for its handler. -/
structure Match (η : Type) where
  index : Nat
  definition : StepDefinition η
  arguments : List Value

/-- The first definition that fits a text, with its arguments. A conversion may fail. -/
def match? (r : StepRegistry η) (text : Text) (role : Role) (tags : Option (List Text)) :
    Except Failure (Option (Match η)) :=
  match r.select text role tags with
  | none => .ok none
  | some (index, definition, groups) => match r.arguments definition.names groups with
    | .ok arguments => .ok (some ⟨index, definition, arguments⟩)
    | .error e => .error e

/-- The definitions by the distance of their patterns from a text, nearest first. -/
def ranked (r : StepRegistry η) (text : Text) : List (StepDefinition η) :=
  let key (d : StepDefinition η) : Nat := editDistance (Text.lower text) (Text.lower d.pattern)
  ((r.definitions.map fun d => (key d, d)).mergeSort fun a b => a.1 ≤ b.1).map Prod.snd

/-- The first items of a list; a negative count leaves out as many at the end, and no count takes all. -/
def firstItems {α : Type} (count : Option Int) (items : List α) : List α :=
  match count with
  | none => items
  | some count =>
      if count < 0 then items.take (items.length - (-count).toNat) else items.take count.toNat

/-- The definitions nearest to a text. -/
def suggest (r : StepRegistry η) (text : Text) (limit : Option Int) : List (StepDefinition η) :=
  firstItems limit (r.ranked text)

/-- The texts that no definition fits. -/
def unmatched (r : StepRegistry η) : List Text → Except Failure (List Text)
  | [] => .ok []
  | text :: rest =>
      match r.match? text .any none with
      | .error e => .error e
      | .ok found => match r.unmatched rest with
        | .error e => .error e
        | .ok others => .ok (if found.isSome then others else text :: others)

end StepRegistry

end Gherkin
