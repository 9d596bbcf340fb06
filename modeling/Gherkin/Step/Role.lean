import Gherkin.Document.Basic
import Gherkin.Text.Blank
import Gherkin.Text.Case
import Gherkin.Value.Shown

/-! # Roles of step definitions

A definition is registered for one of the three roles a step can have, or for all of them. -/

namespace Gherkin

/-- The role under which a step definition is registered. -/
inductive Role where
  | context
  | action
  | outcome
  | any
  deriving DecidableEq, Repr

namespace Role

/-- All roles. -/
def all : List Role := [context, action, outcome, any]

/-- The name of a role. -/
def name : Role → Text
  | context => "Given"
  | action => "When"
  | outcome => "Then"
  | any => "Any"

/-- The role that a value names, in any letter case and with white space around it. -/
def ofValue? (v : Value) : Option Role :=
  all.find? fun role => Text.lower role.name == Text.lower (Text.trim v.plain)

theorem ofValue?_name (r : Role) : ofValue? (.text r.name) = some r := by cases r <;> rfl

/-- The role of a step type. -/
def ofType : StepType → Role
  | .context => context
  | .action => action
  | .outcome => outcome
  | .conjunction | .unknown => any

/-- Whether a definition of one role serves a request for another. -/
def serves (definition requested : Role) : Bool :=
  definition == any || requested == any || definition == requested

end Role

end Gherkin
