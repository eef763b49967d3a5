import Watchcat.Service.Calls

/-!
# Automatic recovery passes

One pass of the engine: prune the state, observe the pending recoveries, then
look at each target and resume its failed turn where everything allows it. A
pass works on the engine and on the events it has produced so far.
-/

namespace Watchcat

open Watchcat.Core Method

/-! ## Pure parts -/

/-- `PENDING_RECOVERY_MAX_AGE`. -/
def pendingRecoveryMaxAge : Int := days 7

/-- `ORPHAN_PENDING_RECOVERY_MAX_AGE`. -/
def orphanPendingRecoveryMaxAge : Int := days 1

/-- `PENDING_RECOVERY_MAX_OBSERVATION_FAILURES`. -/
def pendingRecoveryMaxObservationFailures : Nat := 20

/-- `retry_delay_seconds`. -/
def retryDelaySeconds (policy : ResolvedPolicy) (attempts : Nat) (retryAfter : Option Nat) : Nat :=
  let configured := match policy.backoff.getD .exponential with
    | .fixed => policy.initialDelaySeconds
    | .exponential =>
      min (saturatingMul policy.initialDelaySeconds (saturatingPow 2 (min attempts u32Max)))
        policy.maxDelaySeconds
  max configured (retryAfter.getD 0)

/-- `render_prompt`: the placeholders are replaced one after another. -/
def renderPrompt (template : String) (failure : Failure) (attempt maxAttempts : Nat) : String :=
  let text := replaceText template "{provider}" failure.provider
  let text := replaceText text "{model}" (failure.model.getD "unknown")
  let text := replaceText text "{condition}" failure.condition
  let text := replaceText text "{provider_code}" failure.providerCode
  let text := replaceText text "{attempt}" (toString attempt)
  replaceText text "{max_attempts}" (toString maxAttempts)

/-- `event`. -/
def event (timestamp : Int) (kind : String) (target : WatchTarget) (message : String)
    (failure : Option Failure) : EngineEvent where
  timestamp := timestamp
  kind := kind
  target := target.key
  message := message
  condition := failure.map Failure.condition
  failure := failure

/-- An event about a retry, with its condition, attempt and limit. -/
def retryEvent (timestamp : Int) (kind : String) (target : WatchTarget) (message : String)
    (failure : Failure) (policy : ResolvedPolicy) (attempt : Nat) (prompt : Option String) :
    EngineEvent :=
  { event timestamp kind target message (some failure) with
    condition := some policy.condition
    attempt := some attempt
    maxAttempts := some policy.maxAttempts
    prompt := prompt }

/-- The event of a sent recovery. -/
def sentEvent (timestamp : Int) (target : WatchTarget) (failure : Failure)
    (policy : ResolvedPolicy) (attempt : Nat) (prompt : String) (receipt : ResumeReceipt) :
    EngineEvent :=
  { retryEvent timestamp "retry.sent" target
      ("started turn " ++ receipt.turnId ++ " after " ++ failure.condition) failure policy attempt
      (some prompt) with
    receipt := some receipt }

/-- The event of a recovery whose acknowledgement was lost. -/
def unconfirmedEvent (timestamp : Int) (target : WatchTarget) (failure : Failure)
    (policy : ResolvedPolicy) (attempt : Nat) (prompt : String) : EngineEvent :=
  retryEvent timestamp "retry.unconfirmed" target
    "recovery may have started, but the provider acknowledgement was lost" failure policy attempt
    (some prompt)

/-- An event about a recovery turn under observation. -/
def pendingEvent (timestamp : Int) (kind : String) (pending : PendingRecovery)
    (message : String) : EngineEvent where
  timestamp := timestamp
  kind := kind
  target := pending.provider ++ ":" ++ pending.sessionId
  message := message

/-! ## The state of a pass -/

/-- The engine with the events of the pass and how many of them are in the log. -/
structure Pass where
  engine : WatchEngine
  events : List EngineEvent := []
  persistedEvents : Nat := 0

namespace Pass

/-- The runtime state of the engine. -/
def state (p : Pass) : RuntimeState := p.engine.state

/-- Update the runtime state. -/
def withState (p : Pass) (f : RuntimeState → RuntimeState) : Pass :=
  { p with engine := p.engine.withState f }

/-- Add an event. -/
def push (p : Pass) (e : EngineEvent) : Pass := { p with events := p.events ++ [e] }

/-- Note whether the latest turn of a target has failed. -/
def markUnresolved (p : Pass) (target : WatchTarget) : Pass :=
  { p with engine := { p.engine with
      unresolvedTargets := insert target.key p.engine.unresolvedTargets } }

/-- The target's latest turn has not failed: without a pending recovery its attempts go. -/
def markResolved (p : Pass) (target : WatchTarget) : Pass :=
  { p with engine := { p.engine with
      unresolvedTargets := p.engine.unresolvedTargets.erase target.key
      state := if p.engine.state.hasPendingFor target then p.engine.state
        else p.engine.state.clearAttempts target } }

/-- `pending_recovery_expired`. -/
def pendingRecoveryExpired (p : Pass) (pending : PendingRecovery) (observationFailures : Nat)
    (now : Int) : Bool :=
  let age := now - pending.startedAt
  pendingRecoveryMaxAge ≤ age || (orphanPendingRecoveryMaxAge ≤ age &&
    pendingRecoveryMaxObservationFailures ≤ observationFailures &&
    !p.engine.targets.any fun target =>
      target.provider == pending.provider && target.sessionId == pending.sessionId)

/-- `abandon_pending_recovery`. -/
def abandonPending (p : Pass) (pending : PendingRecovery) (now : Int) : Pass :=
  match p.state.abandonRecovery pending.failureKey with
  | (none, _) => p
  | (some _, s) => (p.withState fun _ => s).push (pendingEvent now "recovery.unconfirmed" pending
      ("stopped observing recovery turn " ++ pending.recoveryTurnId ++
        " after its outcome remained unavailable"))

/-- An observation that told nothing: count it and give up where it is time to. -/
def missedObservation (p : Pass) (pending : PendingRecovery) (now : Int) : Pass :=
  let recorded := p.state.recordRecoveryObservationFailure pending.failureKey now
  let p := p.withState fun _ => recorded.2
  if p.pendingRecoveryExpired pending (recorded.1.getD 0) now then p.abandonPending pending now
  else p

/-- The recovery turn has ended. -/
def finishPending (p : Pass) (pending : PendingRecovery) (success : Bool) (now : Int) : Pass :=
  match p.state.finishRecovery pending.failureKey success now with
  | (none, _) => p
  | (some _, s) => (p.withState fun _ => s).push
      (if success then pendingEvent now "recovery.completed" pending
        ("recovery turn " ++ pending.recoveryTurnId ++ " completed")
      else pendingEvent now "recovery.failed" pending
        ("recovery turn " ++ pending.recoveryTurnId ++ " failed"))

/-- What the answer about a recovery turn does to the pass. -/
def observed (p : Pass) (pending : PendingRecovery) (now : Int) :
    Except Error TurnOutcome → Pass
  | .error _ => p.missedObservation pending now
  | .ok .completed => p.finishPending pending true now
  | .ok .failed => p.finishPending pending false now
  | .ok .inProgress =>
    if pendingRecoveryMaxAge ≤ now - pending.startedAt then p.abandonPending pending now else p
  | .ok .unknown => p.missedObservation pending now

end Pass

/-! ## The pass -/

/-- One round of `reconcile_pending_recoveries`. -/
def observePending (now : Int) (pending : PendingRecovery) : Method Pass Unit := do
  if pending.provider ∈ (← Act.get).engine.providers then
    let outcome ← perform (.turnOutcome pending.provider pending.sessionId pending.recoveryTurnId)
    Act.modify fun p => p.observed pending now outcome

/-- `reconcile_pending_recoveries`. -/
def reconcilePendingRecoveries (now : Int) : Method Pass Unit := do
  let order ← perform (.pendingOrder (← Act.get).state.pendingRecoveries.values)
  Act.forEach (observePending now) order.1

/-- `self.state.save()`. -/
def saveState : Method Pass Unit := do
  Act.ofExcept (← perform (.writeState (← Act.get).state))

/-- Append the events that are not in the log yet; a failing append is only logged. -/
def flushEvents : Method Pass Unit := do
  let p ← Act.get
  let fresh := p.events.drop p.persistedEvents
  if !fresh.isEmpty then
    let _ ← perform (.appendLog p.engine.eventLog fresh)

/-- The event of a resume given up because the session is no longer authorized. -/
def cancelledEvent (now : Int) (target : WatchTarget) (failure : Failure) : EngineEvent :=
  event now "retry.cancelled" target
    "session authorization changed before resume; no message sent" (some failure)

/-- What is known about a failure that is due: its policy and the attempts before. -/
structure Due where
  target : WatchTarget
  failure : Failure
  policy : ResolvedPolicy
  attempts : Nat
  prompt : String

/-- The answer of `resume` leaves open that the turn was started. -/
def mayHaveStarted : Except Error ResumeReceipt → Bool
  | .ok _ => true
  | .error e => e.acknowledgementIsUnknown

/-- What the answer of `resume` does to the state. -/
def Due.settle (d : Due) (now : Int) (automatic : Bool) (answer : Except Error ResumeReceipt)
    (s : RuntimeState) : RuntimeState :=
  match answer with
  | .ok receipt =>
    (s.beginRecovery d.failure receipt.turnId now automatic).markHandled d.failure .resumed now
  | .error e => if e.acknowledgementIsUnknown then s.markHandled d.failure .unconfirmed now else s

/-- The event about the answer of `resume`. -/
def Due.settleEvent (d : Due) (now : Int) (answer : Except Error ResumeReceipt) : EngineEvent :=
  match answer with
  | .ok receipt => sentEvent now d.target d.failure d.policy (d.attempts + 1) d.prompt receipt
  | .error e =>
    if e.acknowledgementIsUnknown then
      unconfirmedEvent now d.target d.failure d.policy (d.attempts + 1) d.prompt
    else retryEvent now "retry.failed" d.target e.display d.failure d.policy (d.attempts + 1)
      (some d.prompt)

/-- Send a due recovery; the send boundary is held. -/
def sendRecovery (now : Int) (d : Due) : Method Pass Unit := do
  Act.modify fun p => p.withState fun s => s.recordAttempt d.target now
  saveState
  let answer ← perform (.resume d.target.provider d.target.sessionId d.prompt d.failure.key)
  Act.modify fun p => p.withState (d.settle now true answer)
  -- A plain error leaves the state as it was saved; a failing second save is only logged.
  if mayHaveStarted answer then
    let _ ← perform (.writeState (← Act.get).state)
  Act.modify fun p => p.push (d.settleEvent now answer)
  flushEvents
  Act.modify fun p => { p with persistedEvents := p.events.length }

/-- The last checks of a due recovery and its sending inside the send boundary. -/
def resumeTarget (now : Int) (generation : Nat) (d : Due) : Method Pass Unit := do
  if !(← perform (.permitAllows d.target generation)) then
    Act.modify fun p => p.push (cancelledEvent now d.target d.failure)
  else
    let latest ← Act.ofExcept
      (← perform (.latestFailure d.target.provider d.target.sessionId))
    if !(← perform (.permitAllows d.target generation)) then
      Act.modify fun p => p.push (cancelledEvent now d.target d.failure)
    else if latest.map Failure.turnId ≠ some d.failure.turnId then
      Act.modify fun p => p.push (event now "retry.cancelled" d.target
        "session changed before resume; no message sent" (some d.failure))
    else
      perform .enterSendBoundary
      Act.closing (do
        if !(← perform (.permitAllows d.target generation)) then
          Act.modify fun p => p.push (cancelledEvent now d.target d.failure)
        else sendRecovery now d) fun _ => Prog.request Call.leaveSendBoundary

/-- The attempts of a target against its policy, the delay and the sending. -/
def retryFailure (now : Int) (generation : Nat) (target : WatchTarget) (failure : Failure)
    (policy : ResolvedPolicy) : Method Pass Unit := do
  let firstSeen ← Act.update fun p =>
    let r := p.state.firstSeen failure now
    (r.1, p.withState fun _ => r.2)
  let window := (← Act.get).engine.settings.engine.attemptWindowSeconds
  let _ ← orPanic (gregorian.secondsBefore now window)
  let attempts ← Act.update fun p =>
    let r := p.state.recentAttempts target now window
    (r.1, p.withState fun _ => r.2)
  if policy.maxAttempts ≤ attempts then
    Act.modify fun p => p.push (retryEvent now "retry.exhausted" target
      ("retry limit reached (" ++ toString attempts ++ "/" ++ toString policy.maxAttempts ++ ")")
      failure policy attempts none)
  else
    let delay := retryDelaySeconds policy attempts failure.retryAfterSeconds
    let delayFrom := ((← Act.get).state.latestAttempt target).getD firstSeen
    let readyAt ← orPanic (gregorian.secondsAfter delayFrom (min delay i64Max : Nat))
    if now < readyAt then
      Act.modify fun p => p.push (retryEvent now "retry.waiting" target
        (failure.condition ++ " matched retry policy; next attempt after " ++
          displayTime readyAt) failure policy (attempts + 1) none)
    else
      let prompt := renderPrompt policy.prompt failure (attempts + 1) policy.maxAttempts
      if (← Act.get).engine.dryRun then
        Act.modify fun p => p.push (retryEvent now "retry.dry_run" target
          ("would resume after " ++ failure.condition) failure policy (attempts + 1) (some prompt))
      else resumeTarget now generation ⟨target, failure, policy, attempts, prompt⟩

/-- What is done about the failed latest turn of a target. -/
def handleFailure (now : Int) (generation : Nat) (target : WatchTarget) (failure : Failure) :
    Method Pass Unit := do
  let p ← Act.get
  let policy := p.engine.settings.policy failure.condition
  let handled := p.state.handledAction failure
  if handled = some .resumed || handled = some .unconfirmed ||
      (policy.action = .skip && handled = some .skipped) then
    return ()
  else if policy.action = .skip then
    Act.modify fun p => (p.withState fun s => s.markHandled failure .skipped now).push
      { event now "failure.skipped" target (failure.condition ++ " matched skip policy")
          (some failure) with
        condition := some policy.condition }
  else retryFailure now generation target failure policy

/-- The loop body of `run_once_authorized`. -/
def passTarget (now : Int) (generation : Nat) (target : WatchTarget) : Method Pass Unit := do
  if !(← perform (.permitAllows target generation)) then return ()
  else if target.provider ∉ (← Act.get).engine.providers then
    Act.modify fun p => p.push (event now "provider.error" target
      ("provider is unavailable: " ++ target.provider) none)
  else match ← perform (.latestFailure target.provider target.sessionId) with
    | .error error =>
      Act.modify (fun p => p.push (event now "provider.error" target error.display none))
    | .ok none => Act.modify fun p => p.markResolved target
    | .ok (some failure) => do
      Act.modify fun p => p.markUnresolved target
      handleFailure now generation target failure

/-- `run_once_authorized`, on a pass without events. -/
def runOnceAuthorized (now : Int) (generation : Nat) : Method Pass (List EngineEvent) := do
  Act.modify fun p => p.withState fun s => s.prune now
  reconcilePendingRecoveries now
  Act.forEach (passTarget now generation) (← Act.get).engine.targets
  let _ ← perform (.writeState (← Act.get).state)
  flushEvents
  return (← Act.get).events

/-- `reconcile_pending_only`, on a pass without events. -/
def reconcilePendingOnly (now : Int) : Method Pass (List EngineEvent) := do
  Act.modify fun p => p.withState fun s => s.prune now
  reconcilePendingRecoveries now
  let _ ← perform (.writeState (← Act.get).state)
  flushEvents
  return (← Act.get).events

/-- Run a pass on an engine. -/
def onPass {α : Type} (m : Method Pass α) : Method WatchEngine α :=
  Act.zoom (fun e => ⟨e, [], 0⟩) (fun p _ => p.engine) m

end Watchcat
