import Gherkin.Value.Shown

/-! # Failures

What can go wrong while a step, a hook or the conversion of an argument runs. A failure has the name of
its kind and a message; results and reports show both. -/

namespace Gherkin

/-- What a deadline is set for. -/
inductive Awaited where
  | step
  | hook
  | execution
  deriving DecidableEq, Repr

/-- Why something did not succeed: an error that was raised, a deadline that passed, a step that is not
written yet, or a step that nothing matches. -/
inductive Failure where
  | raised (kind message : Text)
  | timeout (awaited : Awaited) (description : Text) (seconds : Value)
  | pending
  | undefined (keyword text : Text) (suggestions : List Text)

namespace Failure

/-- The message of a step that is not written yet. -/
def pendingMessage : Text := "PENDING"

/-- The name of the kind of a failure. -/
def kind : Failure → Text
  | raised kind _ => kind
  | timeout .step _ _ => "StepTimeoutError"
  | timeout .hook _ _ => "HookTimeoutError"
  | timeout .execution _ _ => "ExecutionTimeoutError"
  | pending => "PendingStepError"
  | undefined .. => "UndefinedStepError"

/-- The message of a failure. -/
def message : Failure → Text
  | raised _ message => message
  | timeout _ description seconds => description ++ " timed out after " ++ seconds.plain ++ "s"
  | pending => pendingMessage
  | undefined keyword text suggestions =>
      let hint : Text :=
        if suggestions.isEmpty then []
        else "\n\nDid you mean:\n" ++ Text.joinWith ['\n'] (suggestions.map fun s => "  - " ++ s)
      "Undefined step: \"" ++ keyword ++ " " ++ text ++ "\"" ++ hint

/-- Whether a failure marks a step as not written yet: any failure with that message does. -/
def isPending (f : Failure) : Bool := f.message == pendingMessage

end Failure

end Gherkin
