import Watchcat.Daemon.Stores

/-!
# The daemon behind its lock

Control requests, the reload of an edited configuration, and the two ends of a
reconcile cycle. Every method runs inside one critical section of the daemon
lock; the permit it updates is shared with the engines.
-/

namespace Watchcat

open Watchcat.Core Method

/-! ## Revisions and the permit -/

/-- `update_recovery_permit`. -/
def updateRecoveryPermit (targets : List WatchTarget) : Method WatchcatDaemon Unit := do
  perform (.permitUpdate true targets (← Act.get).revision)

/-- `bump_revision`. -/
def bumpRevision : Method WatchcatDaemon Unit := do
  let targets ← listTargets
  let _ ← Act.zoom WatchcatDaemon.controlState (fun c d => { d with controlState := c })
    nextRevision
  updateRecoveryPermit targets

/-- `check_revision`. -/
def checkRevision (request : RpcRequest) : Method WatchcatDaemon Unit := do
  let revision := (← Act.get).revision
  match request.expectedRevision with
  | none => return ()
  | some expected =>
    if expected ≠ revision then
      Act.fail (.message ("revision conflict: client has " ++ toString expected ++
        ", server has " ++ toString revision))
    else return ()

/-! ## Reconciling -/

/-- `reload_external_config`; an invalid configuration keeps the last good one. -/
def reloadExternalConfig : Method WatchcatDaemon Unit := do
  let modified ← perform .configModified
  if modified = (← Act.get).configModified then return ()
  else match ← Act.attempt loadSettings with
    | .ok settings => do
      bumpRevision
      perform (.configureDialogs settings.dialogs)
      Act.modify fun d => { d with settings := settings, configModified := modified }
    | .error _ => Act.modify fun d => { d with configModified := modified }

/-- `prepare_reconcile`. -/
def prepareReconcile : Method WatchcatDaemon ReconcilePlan := do
  reloadExternalConfig
  let targets ← listTargets
  updateRecoveryPermit targets
  let now ← perform .now
  let d ← Act.get
  return ⟨now, d.revision, targets, d.settings⟩

/-- What the overview shows after a committed cycle. -/
def WatchcatDaemon.observe (d : WatchcatDaemon) (engine : WatchEngine)
    (targets : List WatchTarget) (now : Int) : WatchcatDaemon :=
  { d with
    attentionTargetKeys := (engine.unresolvedTargetKeys.filter fun key =>
      key ∈ targets.map WatchTarget.key).sort (· ≤ ·)
    metrics := engine.state.metricsSince (monthStart now) }

/-- `commit_reconcile`: the engine is handed back with its targets replaced. -/
def commitReconcile (engine : WatchEngine) (plan : ReconcilePlan) (outcome : ReconcileOutcome) :
    Method WatchcatDaemon WatchEngine := do
  -- A manual removal or a configuration edit during discovery invalidates the whole result.
  if (← Act.get).revision ≠ plan.revision then return engine
  else if (← perform .permitGeneration) ≠ plan.revision then return engine
  else
    let targets ← reconcileTargets outcome.sessions plan.now
      (← Act.get).settings.lifecycle.staleAfterSeconds outcome.lifecycleProtected
    updateRecoveryPermit targets
    if targets ≠ plan.targets then bumpRevision
    updateRecoveryPermit targets
    let engine := engine.replaceTargets targets
    Act.modify fun d => d.observe engine targets plan.now
    return engine

/-! ## Control requests -/

/-- `snapshot`. -/
def snapshot : Method WatchcatDaemon Snapshot := do
  let targets ← listTargets
  let now ← perform .now
  let d ← Act.get
  return {
    generatedAt := now
    revision := d.revision
    watched := targets.length
    attention := d.attentionTargetKeys.length
    attentionTargetKeys := d.attentionTargetKeys
    automaticRecoveries := d.metrics.automaticRecoveries
    handsFreePercent := d.metrics.handsFreePercent }

/-- `sessions.list`. -/
def listSessions (params : Value) : Method WatchcatDaemon RpcResult := do
  let query ← Act.ofExcept (decodeManagedSessionQuery params)
  if query.limit = 0 then Act.fail (.message "session limit must be positive")
  else
    let targets ← listTargets
    let kept := targets.filter fun t => query.provider.all fun p => p == t.provider
    let newest := kept.insertionSort fun a b =>
      b.lastActivityAt.getD b.addedAt ≤ a.lastActivityAt.getD a.addedAt
    return .targets (newest.take query.limit)

/-- `sessions.add`. -/
def addSession (request : RpcRequest) : Method WatchcatDaemon RpcResult := do
  checkRevision request
  let add ← Act.ofExcept (decodeSessionAdd request.params)
  if add.validate then
    Act.fail (.message "validated sessions.add must use the provider worker")
  else
    let now ← perform .now
    let target : WatchTarget := {
      source := .manual
      provider := add.session.provider
      sessionId := add.session.sessionId
      label := add.label
      title := none
      addedAt := now
      lastActivityAt := none }
    bumpRevision
    let added ← addTarget target
    updateRecoveryPermit (← listTargets)
    return .added added target

/-- `sessions.remove`. -/
def removeSession (request : RpcRequest) : Method WatchcatDaemon RpcResult := do
  checkRevision request
  let session ← Act.ofExcept (decodeSessionRef request.params)
  bumpRevision
  let removed ← removeTarget session.key
  updateRecoveryPermit (← listTargets)
  return .removed removed

/-- The fields that an update of a policy sets over those it had. -/
def PolicyOverride.merge (entry update : PolicyOverride) : PolicyOverride :=
  if update.action = some .skip then update
  else {
    action := update.action.or entry.action
    backoff := update.backoff.or entry.backoff
    initialDelaySeconds := update.initialDelaySeconds.or entry.initialDelaySeconds
    maxDelaySeconds := update.maxDelaySeconds.or entry.maxDelaySeconds
    maxAttempts := update.maxAttempts.or entry.maxAttempts
    prompt := update.prompt.or entry.prompt }

/-- The end of every settings update: bump, write, take over. -/
def storeSettings (settings : Settings) (configure : Bool) : Method WatchcatDaemon Unit := do
  bumpRevision
  saveSettings settings
  if configure then perform (.configureDialogs settings.dialogs)
  let modified ← perform .configModified
  Act.modify fun d => { d with settings := settings, configModified := modified }

/-- `config.policies.set`. -/
def setPolicy (request : RpcRequest) : Method WatchcatDaemon RpcResult := do
  checkRevision request
  let update ← Act.ofExcept (decodePolicyUpdate request.params)
  if !isKnown update.condition then
    Act.fail (.message ("unknown policy condition: " ++ update.condition))
  else
    let settings := (← Act.get).settings
    let entry := (settings.policies.lookup update.condition).getD {}
    storeSettings { settings with
      policies := settings.policies.insert update.condition (entry.merge update.policy) } false
    return .updated

/-- `config.policies.reset`. -/
def resetPolicies (request : RpcRequest) : Method WatchcatDaemon RpcResult := do
  checkRevision request
  let settings := (← Act.get).settings
  match (request.params.get "condition").bind Value.asStr with
  | some condition =>
    if !isKnown condition then
      Act.fail (.message ("unknown policy condition: " ++ condition))
    else storeSettings { settings with policies := settings.policies.erase condition } false
  | none => storeSettings { settings with policies := .empty } false
  return .reset

/-- `config.dialogs.set`. -/
def setDialogs (request : RpcRequest) : Method WatchcatDaemon RpcResult := do
  checkRevision request
  let dialogs ← Act.ofExcept (decodeDialogSettings request.params)
  let settings : Settings := { (← Act.get).settings with dialogs := dialogs }
  Act.ofExcept settings.validate
  storeSettings settings true
  return .updated

/-- `config.set_lifecycle`. -/
def setLifecycle (request : RpcRequest) : Method WatchcatDaemon RpcResult := do
  checkRevision request
  let lifecycle ← Act.ofExcept (decodeLifecycleSettings request.params)
  let settings : Settings := { (← Act.get).settings with lifecycle := lifecycle }
  Act.ofExcept settings.validate
  storeSettings settings false
  return .updated

/-- `dispatch_control`. -/
def dispatchControl (request : RpcRequest) : Method WatchcatDaemon RpcResult :=
  match request.method with
  | "service.ping" => return .ping
  | "snapshot.get" => do return .snapshot (← snapshot)
  | "sessions.list" => listSessions request.params
  | "sessions.add" => addSession request
  | "sessions.remove" => removeSession request
  | "config.policies.list" => do return .policies (← Act.get).settings.resolvedPolicies
  | "config.policies.set" => setPolicy request
  | "config.policies.reset" => resetPolicies request
  | "config.dialogs.set" => setDialogs request
  | "config.get" => do return .settings (← Act.get).settings
  | "config.set_lifecycle" => setLifecycle request
  | method => Act.fail (.message ("unknown RPC method: " ++ method))

/-- `handle_control`. -/
def handleControl (request : RpcRequest) : Method WatchcatDaemon RpcResponse := do
  if request.version ≠ protocolVersion then
    return .failure request.id (← Act.get).revision "protocol_mismatch"
      ("client protocol " ++ toString request.version ++ " is not supported; expected " ++
        toString protocolVersion)
  else match ← Act.attempt (dispatchControl request) with
    | .ok result => return .success request.id (← Act.get).revision result
    | .error e =>
      return .failure request.id (← Act.get).revision "request_failed" e.displayChain

end Watchcat
