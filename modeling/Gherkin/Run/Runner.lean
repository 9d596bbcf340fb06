import Gherkin.Document.Parser
import Gherkin.Run.Engine
import Gherkin.Run.Host

/-! # Runners

A runner holds what every run of documents needs: checked settings, the step definitions and hooks, and
the way in which feature files are read. -/

namespace Gherkin

/-- Whether a runner can be used. -/
inductive RunnerStatus where
  | notInitialized
  | ready
  | running
  | error
  deriving DecidableEq, Repr

/-- The name of a status. -/
def RunnerStatus.name : RunnerStatus → Text
  | notInitialized => "not_initialized"
  | ready => "ready"
  | running => "running"
  | error => "error"

/-- The status of a name. -/
def RunnerStatus.ofName? (t : Text) : Option RunnerStatus :=
  [notInitialized, ready, running, error].find? fun s => s.name == t

theorem RunnerStatus.ofName?_name (s : RunnerStatus) : ofName? s.name = some s := by cases s <;> rfl

/-- What runs documents. -/
structure Runner (η θ : Type) where
  config : RunConfig
  filter : Option TagFilter
  steps : StepRegistry η
  hooks : HookRegistry θ
  parser : Parser
  status : RunnerStatus

namespace Runner

variable {η θ ω σ : Type}

/-- A runner with some settings, if they pass their check. -/
def create (config : RunConfig) (steps : StepRegistry η) (hooks : HookRegistry θ) (parser : Parser) :
    Except RunConfig.Error (Runner η θ) :=
  match config.check with
  | .ok filter => .ok ⟨config, filter, steps, hooks, parser, .ready⟩
  | .error e => .error e

/-- The engine of a runner on a host. -/
def engine (r : Runner η θ) (host : Host η θ ω σ) : Engine η ω σ :=
  ⟨r.config, r.filter, r.steps, host.effects r.hooks r.config⟩

/-- Runs documents. The runner is ready again when the run is over, however it ended. -/
def run (r : Runner η θ) (host : Host η θ ω σ) (documents : List Document) :
    StateM σ (Except Failure RunResult × Runner η θ) := do
  let result ← ((r.engine host).run documents).run
  pure (result, { r with status := .ready })

/-- What is known about runners in general: name, version, purpose, author, and the libraries needed. -/
structure Info where
  name : Text
  version : Text
  description : Text
  author : Text
  dependencies : List Text
  optionalDependencies : List Text

/-- The description of a runner. -/
def info : Info where
  name := "Test Executor"
  version := "0.1.0"
  description := "Runs Gherkin feature documents against registered step definitions"
  author := "QA-BDD Team"
  dependencies := ["pyyaml", "jinja2"]
  optionalDependencies := []

end Runner

end Gherkin
