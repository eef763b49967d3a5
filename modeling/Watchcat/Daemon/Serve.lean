import Watchcat.Daemon.Reconcile
import Watchcat.Daemon.Retries

/-!
# The tasks of the service

What `serve` runs: the reconcile loop, one task for each client connection, one
for each accepted manual retry, and the shutdown. A guard is a pair of lock
calls around what runs while it is held.
-/

namespace Watchcat

open Watchcat.Core Method

variable {σ α : Type}

/-! ## Guards -/

/-- Run a method on the daemon behind its lock. -/
def inDaemon (section_ : DaemonSection) (answer : Except Error α → Option RpcResponse)
    (m : Method WatchcatDaemon α) : Method σ α := fun s =>
  .call (.lockDaemon section_) fun d => (m d).bind fun r =>
    .call (.unlockDaemon r.2 section_ (answer r.1)) fun _ => .pure (r.1, s)

/-- Run a method on the engine behind its lock. -/
def inEngine (m : Method WatchEngine α) : Method σ α := fun s =>
  .call .lockEngine fun e => (m e).bind fun r =>
    .call (.unlockEngine r.2) fun _ => .pure (r.1, s)

/-- Run a method on the registry behind its lock, named by what it did. -/
def inRegistry (section_ : Except Error α → RegistrySection)
    (m : Method RetryOperationRegistry α) : Method σ α := fun s =>
  .call .lockRegistry fun reg => (m reg).bind fun r =>
    .call (.unlockRegistry r.2 (section_ r.1)) fun _ => .pure (r.1, s)

/-- Read the daemon. -/
def readDaemon : Method σ WatchcatDaemon := inDaemon .read (fun _ => none) Act.get

/-! ## The reconcile loop -/

/-- The commit of a cycle; the engine is held. -/
def commitOutcome (revisionBefore : Nat) (plan : ReconcilePlan) (outcome : ReconcileOutcome) :
    Method WatchEngine Unit := do
  let engine ← Act.get
  let engine ← inDaemon .commit (fun _ => none) (do
    let committed ← attempted (commitReconcile engine plan outcome)
    let revision := (← Act.get).revision
    if !outcome.events.isEmpty then perform (.notify ⟨"engine.events", revision⟩)
    if revision ≠ revisionBefore then perform (.notify ⟨"state.changed", revision⟩)
    return committed.toOption.getD engine)
  Act.modify fun _ => engine

/-- One iteration of the reconcile loop. -/
def reconcileIteration : Task Unit := do
  let prepared ← inDaemon .prepare (fun _ => none) (do
    let before := (← Act.get).revision
    return (before, ← Act.attempt prepareReconcile))
  match prepared.2 with
  | .error _ => return ()
  | .ok plan =>
    let result ← Act.attempt (inEngine (do
      let outcome ← reconcileEngine plan
      commitOutcome prepared.1 plan outcome))
    -- A panic ends the loop's task here, with its guards released.
    if result = .error .panicked then perform .reconcilePanicked else Act.ofExcept result

/-! ## Manual retries -/

/-- What a retry task does with the engine. -/
def runRetry (job : RetryJob) : Method WatchEngine ResumeReceipt := do
  if ← perform .isShuttingDown then
    Act.fail (.message "manual retry was cancelled because Watchcat is shutting down")
  else
    inRegistry (fun _ => .running job.operationId) (setRunning job.operationId)
    replaceSettings job.settings
    replaceWatchTargets (← listTargets)
    ensureProvider job.session.provider
    let now ← perform .now
    retryNow job.session.provider job.session.sessionId now false job.generation

/-- The end of a retry task. -/
def finishRetry (job : RetryJob) (result : Except Error ResumeReceipt) : Task Unit :=
  -- The guard of the registry is held while the change is announced.
  inRegistry (fun _ => .finish job.operationId) (do
    match ← finish job.operationId result with
    | some _ => perform (.notify ⟨"retry.operation_changed", job.revision⟩)
    | none => return ())

/-- The task of a manual retry. -/
def retryTask (job : RetryJob) : Task Unit := do
  let result ← Act.attempt (do
    if ← perform .isShuttingDown then
      Act.fail (.message "manual retry was cancelled because Watchcat is shutting down")
    else inEngine (runRetry job))
  -- A panic ends the task here as well; the task set only logs it.
  if result = .error .panicked then perform (.retryPanicked job.operationId)
  else finishRetry job result

/-- Write a response. -/
def respond (response : RpcResponse) : Method σ Unit := do
  Act.ofExcept (← perform (.writeResponse response))

/-- `sessions.retry_status`. -/
def serveRetryStatus (request : RpcRequest) : Task Unit := do
  if request.version ≠ protocolVersion then
    Act.fail (.message "client protocol is not supported")
  else match (request.params.get "operation_id").bind Value.asStr with
    | none => Act.fail (.message "operation_id is required")
    | some id => do
      let revision := (← readDaemon).revision
      let operation ← inRegistry (fun r => .lookup (r.toOption.bind fun o => o)) (do
        return (← Act.get).operations.lookup id)
      match operation with
      | some o => respond (.success request.id revision (.operation o))
      | none => respond (.failure request.id revision "operation_not_found"
          "manual retry operation is no longer available")

/-- The first look at a manual retry: a known request is answered while the guard is held. -/
def answerKnownRetry (request : RpcRequest) (retry : RetryRequest) (revision : Nat) :
    Task Bool :=
  inRegistry (fun _ => .lookup none) (do
    match ← findRequest retry.session retry.requestKey with
    | some operation => do
      respond (.success request.id revision (.operation operation))
      return true
    | none => return false)

/-- The checks before a manual retry is accepted. -/
def prepareRetry (request : RpcRequest) : Task (Nat × Settings) := do
  match request.expectedRevision with
  | none => Act.fail (.message "expected_revision is required for manual retry")
  | some generation =>
    if ← perform .isShuttingDown then Act.fail (.message "Watchcat is shutting down")
    else
      let settings ← inDaemon .read (fun _ => none) (do
        checkRevision request
        return (← Act.get).settings)
      return (generation, settings)

/-- Accept a manual retry; a refusal is answered while the guard is held. -/
def acceptRetry (request : RpcRequest) (retry : RetryRequest) (revision : Nat) :
    Task (Option (RetryOperation × Bool)) :=
  inRegistry (fun r => .accept (r.toOption.bind fun a => a)) (do
    match ← Act.attempt (accept retry.session retry.requestKey) with
    | .ok accepted => return some accepted
    | .error e => do
      respond (.failure request.id revision "retry_not_accepted" e.display)
      return none)

/-- The end of an acceptance whose response could not be written. -/
def withdrawRetry (operationId : String) : Task Unit := do
  let _ : Except Error Unit ← Act.attempt
    (inRegistry (fun _ => .rollback operationId) (rollback operationId))

/-- `sessions.retry_now`. -/
def serveRetryNow (request : RpcRequest) : Task Unit := do
  let revision := (← readDaemon).revision
  if request.version ≠ protocolVersion then
    Act.fail (.message "client protocol is not supported")
  else
    let retry ← Act.ofExcept (decodeRetryRequest request.params)
    if ← answerKnownRetry request retry revision then return ()
    else match ← Act.attempt (prepareRetry request) with
      | .error e => respond (.failure request.id revision "retry_not_accepted" e.displayChain)
      | .ok (generation, settings) => match ← acceptRetry request retry revision with
        | none => return ()
        | some (operation, shouldStart) =>
          match ← Act.attempt (respond (.success request.id revision (.operation operation))) with
          | .error e => do
            if shouldStart then withdrawRetry operation.operationId
            Act.fail e
          | .ok _ =>
            if shouldStart then do
              perform .lockTasks
              perform (.spawnRetry
                ⟨operation.operationId, retry.session, settings, generation, revision⟩)
              perform .unlockTasks
            else return ()

/-! ## Provider requests -/

/-- `requires_provider`. -/
def requiresProvider (method : String) (params : Value) : Bool :=
  ["sessions.search", "sessions.logs", "sessions.send", "sessions.interrupt"].contains method ||
    (method == "sessions.add" &&
      ((params.get "validate").bind Value.asBool).getD true)

/-- `request_provider`. -/
def requestProvider (request : RpcRequest) : String :=
  ((request.params.get "provider").bind Value.asStr).getD "codex"

/-- `provider_log_limit`. -/
def providerLogLimit (query : ActivityQuery) : Nat :=
  if query.reliabilityOnly then min (saturatingMul query.limit 10) 2000 else query.limit

/-- Ask a provider of the engine. -/
def askProvider {α : Type} (provider : String) (m : Method WatchEngine α) :
    Method WatchEngine α := do
  if provider ∉ (← Act.get).providers then
    Act.fail (.message ("provider is unavailable: " ++ provider))
  else m

/-- `dispatch_provider`. -/
def dispatchProvider (request : RpcRequest) : Method WatchEngine RpcResult := do
  if request.version ≠ protocolVersion then
    Act.fail (.message ("client protocol " ++ toString request.version ++
      " is not supported; expected " ++ toString protocolVersion ++ ","))
  else match request.method with
    | "sessions.search" => do
      let query ← Act.ofExcept (decodeSessionQuery request.params)
      ensureProvider query.provider
      let watched := (← listTargets).map WatchTarget.key
      let page ← askProvider query.provider (do
        Act.ofExcept (← perform (.searchSessions query.provider query.query query.cursor
          (min (max query.limit 1) 500))))
      return .page (page.sessions.map fun s => watched.contains s.key) page
    | "sessions.logs" => do
      let query ← Act.ofExcept (decodeActivityQuery request.params)
      Act.ofExcept query.validate
      ensureProvider query.session.provider
      let _ ← perform (.sessionLogs query.session.provider query.session.sessionId
        (providerLogLimit query))
      return .logs
    | "sessions.send" => do
      let message ← Act.ofExcept (decodeSessionMessage request.params)
      ensureProvider message.session.provider
      if isBlank message.message then Act.fail (.message "message cannot be empty")
      else return .message (← askProvider message.session.provider (do
        Act.ofExcept (← perform (.sendMessage message.session.provider message.session.sessionId
          (trimText message.message)))))
    | "sessions.interrupt" => do
      let session ← Act.ofExcept (decodeSessionRef request.params)
      ensureProvider session.provider
      return .interrupted (← askProvider session.provider (do
        Act.ofExcept (← perform (.interrupt session.provider session.sessionId))))
    | "sessions.add" => do
      let add ← Act.ofExcept (decodeSessionAdd request.params)
      ensureProvider add.session.provider
      askProvider add.session.provider (do
        Act.ofExcept (← perform (.validateSession add.session.provider add.session.sessionId)))
      return .validated
    | method => Act.fail (.message ("unknown provider RPC method: " ++ method))

/-- `RuntimeState::load`. -/
def loadRuntimeState : Method σ RuntimeState := do
  let state := (← Act.ofExcept (← perform .readState)).getD .initial
  if state.version ≠ 3 then
    Act.fail (.message ("unsupported runtime state version " ++ toString state.version ++
      "; this release requires version 3"))
  else return state

/-- `build_interactive_engine`. -/
def buildInteractiveEngine (settings : Settings) (eventLog : Nat) (provider : String) :
    Method σ WatchEngine := do
  buildProvider settings.providers provider
  Act.ofExcept (← perform (.startProvider provider))
  let state ← loadRuntimeState
  return .new settings {provider} [] state eventLog false

/-- A provider request on an engine of its own. -/
def askInteractive (request : RpcRequest) (settings : Settings) (eventLog : Nat) :
    Task RpcResult := do
  let interactive ← buildInteractiveEngine settings eventLog (requestProvider request)
  let answered ← Act.within interactive (do
    let result ← Act.attempt (dispatchProvider request)
    closeEngine
    return result)
  Act.ofExcept answered.1

/-! ## Other requests -/

/-- A control request behind the daemon's lock. -/
def serveControl (request : RpcRequest) : Task RpcResponse :=
  inDaemon (.control request) Except.toOption (handleControl request)

/-- The parameters with one member replaced. -/
def Value.withMember (name : String) (v : Value) : Value → Value
  | .obj fields =>
    if fields.any fun field => field.1 == name then
      .obj (fields.map fun field => if field.1 == name then (name, v) else field)
    else .obj (fields ++ [(name, v)])
  | .null => .obj [(name, v)]
  | params => params

/-- A request for a provider; a validated addition becomes a control request. -/
def serveProvider (request : RpcRequest) : Task RpcResponse := do
  let d ← readDaemon
  match ← Act.attempt (askInteractive request d.settings d.eventLog) with
  | .ok result =>
    if request.method = "sessions.add" then
      serveControl { request with params := request.params.withMember "validate" (.bool false) }
    else return .success request.id d.revision result
  | .error e => return .failure request.id d.revision "request_failed" e.displayChain

/-- `requires_recovery_boundary`. -/
def requiresRecoveryBoundary (method : String) : Bool :=
  ["sessions.remove", "config.policies.set", "config.policies.reset"].contains method

/-- A control request that waits until no recovery is being sent. -/
def serveBoundary (request : RpcRequest) : Task RpcResponse := do
  let _ ← readDaemon
  perform .enterSendBoundary
  Act.closing (serveControl request) fun _ => Prog.request Call.leaveSendBoundary

/-- `is_mutation`. -/
def isMutation (method : String) : Bool :=
  ["sessions.send", "sessions.interrupt", "sessions.retry_now", "sessions.add",
    "sessions.remove", "config.policies.set", "config.policies.reset", "config.set_lifecycle",
    "config.dialogs.set"].contains method

/-- Every request but the retry and subscription ones. -/
def serveRequest (request : RpcRequest) : Task Unit := do
  let response ←
    if requiresProvider request.method request.params then serveProvider request
    else if requiresRecoveryBoundary request.method then serveBoundary request
    else serveControl request
  respond response
  if response.error.isNone && isMutation request.method then
    perform (.notify ⟨"state.changed", response.revision⟩)

/-- Write a notification to the stream of the subscriber. -/
def publish (notification : RpcNotification) : Task Unit := do
  Act.ofExcept (← perform (.writeNotification notification))

/-- Tell the subscriber the revision there is. -/
def publishRevision (event : String) : Task Unit := do
  let revision := (← readDaemon).revision
  publish ⟨event, revision⟩

/-- The stream of an event subscription, for as many rounds as the client stays. -/
def streamEvents : Nat → Task Unit
  | 0 => return ()
  | rounds + 1 => do
    match ← perform .nextEvent with
    | .closed => return ()
    | .readFailed e => Act.fail e
    | .unexpected => Act.fail (.message "event subscriber sent unexpected data")
    | .received notification => do
      publish notification
      streamEvents rounds
    | .lagged => do
      publishRevision "state.resync_required"
      streamEvents rounds
    | .heartbeat => do
      publishRevision "service.heartbeat"
      streamEvents rounds

/-- `MAX_EVENT_SUBSCRIPTIONS`. -/
def maxEventSubscriptions : Nat := 4

/-- `events.subscribe`. -/
def serveSubscribe (rounds : Nat) (request : RpcRequest) : Task Unit := do
  if request.version ≠ protocolVersion then
    Act.fail (.message "client protocol is not supported")
  else
    let revision := (← readDaemon).revision
    -- The slot is taken and the receiver made, or there is no slot.
    if !(← perform .subscribe) then
      respond (.failure request.id revision "too_many_subscribers"
        ("Watchcat supports at most " ++ toString maxEventSubscriptions ++
          " local event subscribers"))
    else
      respond (.success request.id revision .subscribed)
      streamEvents rounds

/-- The task of a client connection. -/
def serveConnection (rounds : Nat) : Task Unit := do
  let request ← Act.ofExcept (← perform .readRequest)
  if request.method = "events.subscribe" then serveSubscribe rounds request
  else if request.method = "sessions.retry_status" then serveRetryStatus request
  else if request.method = "sessions.retry_now" then serveRetryNow request
  else serveRequest request

/-! ## Start and shutdown -/

/-- `WatchcatDaemon::load`. -/
def loadDaemon : Task WatchcatDaemon := do
  let modified ← perform .configModified
  let settings ← loadSettings
  let targets ← listTargets
  let state ← loadRuntimeState
  let now ← perform .now
  let control ← loadControlState
  perform (.permitUpdate true targets control.revision)
  return {
    eventLog := settings.engine.logRetention
    controlState := control
    configModified := modified
    settings := settings
    attentionTargetKeys := state.pendingTargetKeys.toFinset.sort (· ≤ ·)
    metrics := state.metricsSince (monthStart now) }

/-- `build_engine`. -/
def buildEngine (d : WatchcatDaemon) (dryRun : Bool) : Task WatchEngine := do
  let targets ← listTargets
  let state ← loadRuntimeState
  return .new d.settings ∅ targets state d.eventLog dryRun

/-- The start of `serve`. -/
def startService (dryRun : Bool) :
    Task (WatchcatDaemon × WatchEngine × RetryOperationRegistry) := do
  let d ← loadDaemon
  let engine ← buildEngine d dryRun
  let registry ← Act.within {} loadOperations
  return (d, engine, registry.2)

/-- The end of `serve`. -/
def shutdown : Task Unit := do
  perform .setShuttingDown
  let found ← inDaemon .read (fun _ => none) (do
    let targets : Except Error _ ← Act.attempt listTargets
    return (targets.toOption.getD [], saturatingAdd (← Act.get).revision 1))
  perform (.permitUpdate false found.1 found.2)
  perform .abortReconcile
  perform .lockTasks
  perform .abortRetries
  perform .joinRetries
  inEngine closeEngine

end Watchcat
