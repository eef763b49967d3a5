import Watchcat.Daemon.Control
import Watchcat.Engine.Manual

/-!
# The engine's part of a reconcile cycle

The engine asks every provider for its recent sessions, protects what it is
unsure of, drops the stale targets and runs one recovery pass on the others.
-/

namespace Watchcat

open Watchcat.Core Method

/-- The engine with what discovery has found so far. -/
structure Discovery where
  engine : WatchEngine
  sessions : List Session := []
  lifecycleProtected : Finset String := ∅

/-- A session that is never expired by discovery. -/
def Session.isUncertain (s : Session) : Bool := s.state = .active || s.updatedAt.isNone

namespace Discovery

/-- A provider has answered. -/
def found (d : Discovery) (sessions : List Session) : Discovery :=
  { d with
    sessions := d.sessions ++ sessions
    lifecycleProtected := d.lifecycleProtected ∪
      ((sessions.filter Session.isUncertain).map Session.key).toFinset }

/-- A provider could not be asked: its targets are protected. -/
def unavailable (d : Discovery) (targets : List WatchTarget) (provider : String) : Discovery :=
  { d with
    lifecycleProtected := d.lifecycleProtected ∪
      ((targets.filter fun t => t.provider == provider).map WatchTarget.key).toFinset }

end Discovery

/-- `WatchEngine::recent_sessions`. -/
def recentSessions (provider : String) (cutoff : Int) : Method WatchEngine (List Session) := do
  if provider ∉ (← Act.get).providers then
    Act.fail (.message ("provider is unavailable: " ++ provider))
  else Act.ofExcept (← perform (.recentSessions provider cutoff))

/-- One round of the discovery loop. -/
def discoverProvider (targets : List WatchTarget) (cutoff : Option Int) (provider : String) :
    Method Discovery Unit := do
  match ← attempted (Act.zoom Discovery.engine (fun e d => { d with engine := e }) (do
      ensureProvider provider
      recentSessions provider (← orPanic cutoff))) with
  | .ok sessions => Act.modify fun d => d.found sessions
  | .error _ => Act.modify fun d => d.unavailable targets provider

/-- The instant before which a cycle takes a session for stale, where it is one. -/
def ReconcilePlan.cutoff (plan : ReconcilePlan) : Option Int :=
  gregorian.secondsBefore plan.now plan.settings.lifecycle.staleAfterSeconds

/-- The providers that a cycle asks. -/
def ReconcilePlan.providers (plan : ReconcilePlan) (pending : Finset String) : Finset String :=
  (plan.targets.map WatchTarget.provider).toFinset ∪ pending ∪
    (if plan.settings.providers.codex.enabled then {"codex"} else ∅) ∪
    (if plan.settings.providers.claude.enabled then {"claude"} else ∅)

/-- The activity of the last entry with the key. -/
def activityOf (sessions : List Session) (key : String) : Option Int :=
  (sessions.reverse.find? fun s => s.key == key).bind Session.updatedAt

/-- The targets that a pass may send to. -/
def ReconcilePlan.liveTargets (plan : ReconcilePlan) (sessions : List Session)
    (lifecycleProtected : Finset String) : Option (List WatchTarget) :=
  plan.cutoff.map fun cutoff => plan.targets.filter fun t => t.key ∈ lifecycleProtected ||
    cutoff ≤ t.inactivitySince (activityOf sessions t.key)

/-- The discovery loop of `reconcile_engine`, on an engine. -/
def discoverSessions (plan : ReconcilePlan) (order : List String) :
    Method WatchEngine Discovery :=
  Act.zoom (fun e => (⟨e, [], ∅⟩ : Discovery)) (fun d _ => d.engine) (do
    Act.forEach (discoverProvider plan.targets plan.cutoff) order
    Act.get)

/-- `reconcile_engine`. -/
def reconcileEngine (plan : ReconcilePlan) : Method WatchEngine ReconcileOutcome := do
  replaceSettings plan.settings
  let names := (plan.providers (← Act.get).pendingProviderNames).sort (· ≤ ·)
  let order ← perform (.providerOrder names)
  let discovery ← discoverSessions plan order.1
  -- Never send recovery to an expired target while waiting for membership commit.
  replaceWatchTargets
    (← orPanic (plan.liveTargets discovery.sessions discovery.lifecycleProtected))
  let events ← onPass (runOnceAuthorized plan.now plan.revision)
  return ⟨events, discovery.sessions, discovery.lifecycleProtected⟩

end Watchcat
