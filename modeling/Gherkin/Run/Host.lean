import Gherkin.Hook.Registry
import Gherkin.Run.Config
import Gherkin.Run.Effects

/-! # Hosts

A host can make a world, call a single handler or hook, and tell a listener. From a host and a registry
of hooks come the operations of a run: the hooks of a place run one after another until one fails. -/

namespace Gherkin

variable {η θ ω σ : Type}

/-- What calls handlers and hooks and tells listeners. -/
structure Host (η θ ω σ : Type) where
  createWorld : StateM σ (Except Failure (Option ω))
  setsOutlet : ω → Outlet → Bool := fun _ _ => true
  callHandler : η → Option ω → List Argument → Deadline → StateM σ (Call ω)
  callHook : θ → HookContext → Option ω → Deadline → StateM σ (Call ω)
  notify : Event → StateM σ (Option Failure)

/-- The deadline of a hook: its own, or else a default. -/
def HookDefinition.deadline (h : HookDefinition θ) (default : Value) : Deadline :=
  let seconds := match h.timeout with
    | .null => default
    | own => own
  ⟨seconds, .hook, h.displayName⟩

/-- Runs hooks in turn up to the first that fails. -/
def Host.runHooks (host : Host η θ ω σ) (default : Value) (context : HookContext) :
    List (HookDefinition θ) → Option ω → StateM σ (Call ω)
  | [], world => pure (.idle world)
  | h :: rest, world => do
      let first ← host.callHook h.hook context world (h.deadline default)
      match first.failure with
      | some _ => pure first
      | none =>
          let others ← host.runHooks default context rest first.world
          pure { others with outputs := first.outputs ++ others.outputs }

/-- The operations of a run with some hooks and settings. -/
def Host.effects (host : Host η θ ω σ) (hooks : HookRegistry θ) (config : RunConfig) : Effects η ω σ where
  createWorld := host.createWorld
  setsOutlet := host.setsOutlet
  runHooks scope context world :=
    host.runHooks config.hookTimeout context (hooks.select scope context.tags) world
  callHandler := host.callHandler
  notify := host.notify

end Gherkin
