import Gherkin.Failure

/-! # Deadlines

A handler that gives up control may be given a number of seconds. No number of seconds, and one that is
not positive, means that it may take as long as it likes. -/

namespace Gherkin

/-- The seconds that a handler may take, and how a timeout is reported. -/
structure Deadline where
  seconds : Value
  awaited : Awaited
  description : Text

namespace Deadline

/-- The failure of a handler that was too late. -/
def failure (d : Deadline) : Failure := .timeout d.awaited d.description d.seconds

/-- The failure of a deadline that is no number of seconds. -/
def invalid (d : Deadline) : Failure :=
  .raised "TypeError" ("'<=' not supported between instances of '" ++ d.seconds.kindName ++ "' and 'int'")

/-- Whether a handler that takes forever is stopped waiting for; a deadline that is no number cannot say. -/
def isBinding (d : Deadline) : Except Failure Bool :=
  match d.seconds with
  | .null => .ok false
  | seconds =>
      if seconds.isNumber then .ok (Value.less (.int 0) seconds) else .error d.invalid

end Deadline

/-- How long a handler takes: it never gives up control, it gives up control but is done before any
deadline, or it is not done before the deadline. -/
inductive Pace where
  | atOnce
  | prompt
  | slow
  deriving DecidableEq, Repr

/-- When a handler is done: while it is waited for, after it was given up, or never because it was
stopped. -/
inductive Finish where
  | inTime
  | afterwards
  | never
  deriving DecidableEq, Repr

/-- What a handler under a deadline comes to. One that is late is given up, and stopped if that is
asked for. -/
def Deadline.finish (d : Deadline) (pace : Pace) (stopsLate : Bool) : Except Failure Finish :=
  match pace with
  | .atOnce => .ok .inTime
  | _ => d.isBinding.map fun binding =>
      if binding && pace == .slow then (if stopsLate then .never else .afterwards) else .inTime

end Gherkin
