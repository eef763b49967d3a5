import Watchcat.Settings.Config
import Watchcat.State.Runtime
import Mathlib.Data.Finset.Basic

/-!
# The engine's data

The engine owns the runtime state and a copy of the settings and targets it was
last given. Providers live outside; the engine knows which it has built.
-/

namespace Watchcat

open Watchcat.Core

/-- `RecoveryPermitState`: what all engines and the daemon share. -/
structure RecoveryPermit where
  running : Bool := false
  targetKeys : List String := []
  generation : Nat := 0
  deriving DecidableEq, Repr

/-- `RecoveryPermit::allows`. -/
def RecoveryPermit.allows (p : RecoveryPermit) (target : WatchTarget) (generation : Nat) : Bool :=
  p.running && p.generation == generation && p.targetKeys.contains target.key

/-- `RecoveryPermit::update`. -/
def RecoveryPermit.of (running : Bool) (targets : List WatchTarget) (generation : Nat) :
    RecoveryPermit where
  running := running
  targetKeys := targets.map WatchTarget.key
  generation := generation

/-- `WatchEngine`; the event log is its retention. -/
structure WatchEngine where
  settings : Settings
  providers : Finset String
  targets : List WatchTarget
  state : RuntimeState
  eventLog : Nat
  unresolvedTargets : Finset String
  dryRun : Bool

namespace WatchEngine

/-- `WatchEngine::new_with_permit`; the permit is shared, not stored. -/
def new (settings : Settings) (providers : Finset String) (targets : List WatchTarget)
    (state : RuntimeState) (eventLog : Nat) (dryRun : Bool) : WatchEngine where
  settings := settings
  providers := providers
  targets := targets
  state := state
  eventLog := eventLog
  unresolvedTargets := ∅
  dryRun := dryRun

/-- Update the runtime state. -/
def withState (e : WatchEngine) (f : RuntimeState → RuntimeState) : WatchEngine :=
  { e with state := f e.state }

/-- `replace_targets`: a target that is gone is no longer unresolved. -/
def replaceTargets (e : WatchEngine) (targets : List WatchTarget) : WatchEngine :=
  { e with
    targets := targets
    unresolvedTargets := e.unresolvedTargets.filter fun key =>
      key ∈ targets.map WatchTarget.key }

/-- `unresolved_target_keys`. -/
def unresolvedTargetKeys (e : WatchEngine) : Finset String :=
  e.unresolvedTargets ∪ e.state.pendingTargetKeys.toFinset

/-- `pending_provider_names`. -/
def pendingProviderNames (e : WatchEngine) : Finset String :=
  (e.state.pendingRecoveries.values.map PendingRecovery.provider).toFinset

@[simp] theorem withState_state (e : WatchEngine) (f : RuntimeState → RuntimeState) :
    (e.withState f).state = f e.state := rfl

@[simp] theorem withState_settings (e : WatchEngine) (f : RuntimeState → RuntimeState) :
    (e.withState f).settings = e.settings := rfl

@[simp] theorem withState_targets (e : WatchEngine) (f : RuntimeState → RuntimeState) :
    (e.withState f).targets = e.targets := rfl

@[simp] theorem withState_providers (e : WatchEngine) (f : RuntimeState → RuntimeState) :
    (e.withState f).providers = e.providers := rfl

@[simp] theorem withState_dryRun (e : WatchEngine) (f : RuntimeState → RuntimeState) :
    (e.withState f).dryRun = e.dryRun := rfl

@[simp] theorem replaceTargets_state (e : WatchEngine) (ts : List WatchTarget) :
    (e.replaceTargets ts).state = e.state := rfl

end WatchEngine

end Watchcat
