import Watchcat.Daemon.Serve
import Watchcat.Engine.Uses

/-!
# The calls of the daemon and of its tasks

Which calls can be reached behind the daemon's lock, and by the tasks that have
nothing to do with manual retries.
-/

namespace Watchcat

open Watchcat.Core Method

variable {σ α : Type}

/-- The calls that are made behind the daemon's lock. -/
def Call.ofDaemon : Call → Bool
  | .now | .configModified | .readConfig | .writeConfig _ | .readWatchlist => true
  | .writeWatchlist _ | .writeControlState _ | .configureDialogs _ | .permitUpdate _ _ _ => true
  | .permitGeneration => true
  | _ => false

/-- The method makes calls of the daemon only. -/
abbrev OfDaemon {σ α : Type} (m : Method σ α) : Prop := m.Uses fun op => op.ofDaemon = true

/-! ## Stores -/

/-- Calls that only read the watchlist. -/
theorem uses_loadWatchlist {A : Call → Prop} (h : A .readWatchlist) :
    (loadWatchlist : Method σ WatchlistDocument).Uses A := by
  refine .andThen (Act.uses_perform h) fun r => .andThen (Act.uses_ofExcept r) fun _ => ?_
  exact Act.uses_ite (Act.uses_fail _) (Act.uses_ret _)

theorem uses_listTargets {A : Call → Prop} (h : A .readWatchlist) :
    (listTargets : Method σ (List WatchTarget)).Uses A :=
  (uses_loadWatchlist h).andThen fun _ => Act.uses_ret _

theorem ofDaemon_loadWatchlist : OfDaemon (loadWatchlist : Method σ WatchlistDocument) :=
  uses_loadWatchlist rfl

theorem ofDaemon_listTargets : OfDaemon (listTargets : Method σ (List WatchTarget)) :=
  uses_listTargets rfl

theorem ofDaemon_addTarget (target : WatchTarget) :
    OfDaemon (addTarget target : Method σ Bool) := by
  refine ofDaemon_loadWatchlist.andThen fun _ => ?_
  refine .andThen (Act.uses_perform rfl) fun r => .andThen (Act.uses_ofExcept r) fun _ => ?_
  exact Act.uses_ret _

theorem ofDaemon_removeTarget (key : String) : OfDaemon (removeTarget key : Method σ Bool) := by
  refine ofDaemon_loadWatchlist.andThen fun _ => ?_
  refine .andThen (Act.uses_perform rfl) fun r => .andThen (Act.uses_ofExcept r) fun _ => ?_
  exact Act.uses_ret _

theorem ofDaemon_reconcileTargets (sessions : List Session) (now staleAfterSeconds : Int)
    (protectedKeys : Finset String) :
    OfDaemon (reconcileTargets sessions now staleAfterSeconds protectedKeys :
      Method σ (List WatchTarget)) := by
  refine ofDaemon_loadWatchlist.andThen fun _ => .andThen (Act.uses_ofExcept _) fun _ => ?_
  refine Act.uses_ite ?_ (Act.uses_ret _)
  refine .andThen (Act.uses_perform rfl) fun r => .andThen (Act.uses_ofExcept r) fun _ => ?_
  exact Act.uses_ret _

theorem ofDaemon_nextRevision : OfDaemon nextRevision := by
  refine .andThen Act.uses_get fun _ => .andThen (Act.uses_modify _) fun _ => ?_
  refine .andThen Act.uses_get fun _ => .andThen (Act.uses_perform rfl) fun r => ?_
  split
  · exact .andThen (Act.uses_modify _) fun _ => Act.uses_fail _
  · exact .andThen Act.uses_get fun _ => Act.uses_ret _

theorem ofDaemon_loadSettings : OfDaemon (loadSettings : Method σ Settings) := by
  refine .andThen (Act.uses_perform rfl) fun r => .andThen (Act.uses_ofExcept r) fun found => ?_
  split
  · exact Act.uses_ret _
  · exact .andThen (Act.uses_ofExcept _) fun _ => Act.uses_ret _

theorem ofDaemon_saveSettings (settings : Settings) :
    OfDaemon (saveSettings settings : Method σ Unit) :=
  .andThen (Act.uses_ofExcept _) fun _ => .andThen (Act.uses_perform rfl) Act.uses_ofExcept

/-! ## The daemon behind its lock -/

theorem ofDaemon_updateRecoveryPermit (targets : List WatchTarget) :
    OfDaemon (updateRecoveryPermit targets) :=
  .andThen Act.uses_get fun _ => Act.uses_perform rfl

theorem ofDaemon_bumpRevision : OfDaemon bumpRevision :=
  ofDaemon_listTargets.andThen fun targets => (ofDaemon_nextRevision.zoom).andThen fun _ =>
    ofDaemon_updateRecoveryPermit targets

theorem ofDaemon_checkRevision (request : RpcRequest) : OfDaemon (checkRevision request) := by
  refine .andThen Act.uses_get fun d => ?_
  cases request.expectedRevision with
  | none => exact Act.uses_ret _
  | some expected => exact Act.uses_ite (Act.uses_fail _) (Act.uses_ret _)

theorem ofDaemon_reloadExternalConfig : OfDaemon reloadExternalConfig := by
  refine .andThen (Act.uses_perform rfl) fun modified => .andThen Act.uses_get fun d => ?_
  refine Act.uses_ite (Act.uses_ret _) (.andThen ofDaemon_loadSettings.attempt fun loaded => ?_)
  split
  · refine ofDaemon_bumpRevision.andThen fun _ => .andThen (Act.uses_perform rfl) fun _ => ?_
    exact Act.uses_modify _
  · exact Act.uses_modify _

theorem ofDaemon_prepareReconcile : OfDaemon prepareReconcile := by
  refine ofDaemon_reloadExternalConfig.andThen fun _ => ofDaemon_listTargets.andThen fun _ => ?_
  refine (ofDaemon_updateRecoveryPermit _).andThen fun _ => ?_
  exact .andThen (Act.uses_perform rfl) fun _ => .andThen Act.uses_get fun _ => Act.uses_ret _

theorem ofDaemon_commitReconcile (engine : WatchEngine) (plan : ReconcilePlan)
    (outcome : ReconcileOutcome) : OfDaemon (commitReconcile engine plan outcome) := by
  refine .andThen Act.uses_get fun d => Act.uses_ite (Act.uses_ret _) ?_
  refine .andThen (Act.uses_perform rfl) fun generation => Act.uses_ite (Act.uses_ret _) ?_
  refine .andThen Act.uses_get fun _ => (ofDaemon_reconcileTargets _ _ _ _).andThen
    fun targets => ?_
  refine (ofDaemon_updateRecoveryPermit targets).andThen fun _ => ?_
  have hend : OfDaemon (do
      updateRecoveryPermit targets
      let engine := engine.replaceTargets targets
      Act.modify fun d => d.observe engine targets plan.now
      return engine) :=
    (ofDaemon_updateRecoveryPermit targets).andThen fun _ =>
      .andThen (Act.uses_modify _) fun _ => Act.uses_ret _
  exact Act.uses_ite (ofDaemon_bumpRevision.andThen fun _ => hend) hend

/-! ## Control requests -/

theorem ofDaemon_snapshot : OfDaemon snapshot :=
  ofDaemon_listTargets.andThen fun _ => .andThen (Act.uses_perform rfl) fun _ =>
    .andThen Act.uses_get fun _ => Act.uses_ret _

theorem ofDaemon_listSessions (params : Value) : OfDaemon (listSessions params) := by
  refine .andThen (Act.uses_ofExcept _) fun query => Act.uses_ite (Act.uses_fail _) ?_
  exact ofDaemon_listTargets.andThen fun _ => Act.uses_ret _

theorem ofDaemon_addSession (request : RpcRequest) : OfDaemon (addSession request) := by
  refine (ofDaemon_checkRevision request).andThen fun _ =>
    .andThen (Act.uses_ofExcept _) fun add => ?_
  refine Act.uses_ite (Act.uses_fail _) (.andThen (Act.uses_perform rfl) fun now => ?_)
  refine ofDaemon_bumpRevision.andThen fun _ => (ofDaemon_addTarget _).andThen fun _ => ?_
  exact ofDaemon_listTargets.andThen fun _ => (ofDaemon_updateRecoveryPermit _).andThen fun _ =>
    Act.uses_ret _

theorem ofDaemon_removeSession (request : RpcRequest) : OfDaemon (removeSession request) := by
  refine (ofDaemon_checkRevision request).andThen fun _ =>
    .andThen (Act.uses_ofExcept _) fun _ => ?_
  refine ofDaemon_bumpRevision.andThen fun _ => (ofDaemon_removeTarget _).andThen fun _ => ?_
  exact ofDaemon_listTargets.andThen fun _ => (ofDaemon_updateRecoveryPermit _).andThen fun _ =>
    Act.uses_ret _

theorem ofDaemon_storeSettings (settings : Settings) (configure : Bool) :
    OfDaemon (storeSettings settings configure) := by
  refine ofDaemon_bumpRevision.andThen fun _ => (ofDaemon_saveSettings settings).andThen fun _ => ?_
  have hend : OfDaemon (do
      let modified ← perform .configModified
      Act.modify fun d => { d with settings := settings, configModified := modified }
      : Method WatchcatDaemon Unit) :=
    .andThen (Act.uses_perform rfl) fun _ => Act.uses_modify _
  exact Act.uses_ite (.andThen (Act.uses_perform rfl) fun _ => hend) hend

theorem ofDaemon_setPolicy (request : RpcRequest) : OfDaemon (setPolicy request) := by
  refine (ofDaemon_checkRevision request).andThen fun _ =>
    .andThen (Act.uses_ofExcept _) fun _ => ?_
  refine Act.uses_ite (Act.uses_fail _) (.andThen Act.uses_get fun _ => ?_)
  exact (ofDaemon_storeSettings _ _).andThen fun _ => Act.uses_ret _

theorem ofDaemon_resetPolicies (request : RpcRequest) : OfDaemon (resetPolicies request) := by
  refine (ofDaemon_checkRevision request).andThen fun _ => .andThen Act.uses_get fun d => ?_
  have hstored : ∀ settings : Settings, OfDaemon (do
      storeSettings settings false
      return RpcResult.reset) :=
    fun settings => (ofDaemon_storeSettings settings false).andThen fun _ => Act.uses_ret _
  split
  · exact Act.uses_ite (.andThen (Act.uses_fail _) fun _ => Act.uses_ret _) (hstored _)
  · exact hstored _

theorem ofDaemon_setDialogs (request : RpcRequest) : OfDaemon (setDialogs request) := by
  refine (ofDaemon_checkRevision request).andThen fun _ =>
    .andThen (Act.uses_ofExcept _) fun _ => ?_
  refine .andThen Act.uses_get fun _ => .andThen (Act.uses_ofExcept _) fun _ => ?_
  exact (ofDaemon_storeSettings _ _).andThen fun _ => Act.uses_ret _

theorem ofDaemon_setLifecycle (request : RpcRequest) : OfDaemon (setLifecycle request) := by
  refine (ofDaemon_checkRevision request).andThen fun _ =>
    .andThen (Act.uses_ofExcept _) fun _ => ?_
  refine .andThen Act.uses_get fun _ => .andThen (Act.uses_ofExcept _) fun _ => ?_
  exact (ofDaemon_storeSettings _ _).andThen fun _ => Act.uses_ret _

theorem ofDaemon_dispatchControl (request : RpcRequest) : OfDaemon (dispatchControl request) := by
  unfold dispatchControl
  split
  · exact Act.uses_ret _
  · exact ofDaemon_snapshot.andThen fun _ => Act.uses_ret _
  · exact ofDaemon_listSessions _
  · exact ofDaemon_addSession request
  · exact ofDaemon_removeSession request
  · exact .andThen Act.uses_get fun _ => Act.uses_ret _
  · exact ofDaemon_setPolicy request
  · exact ofDaemon_resetPolicies request
  · exact ofDaemon_setDialogs request
  · exact .andThen Act.uses_get fun _ => Act.uses_ret _
  · exact ofDaemon_setLifecycle request
  · exact Act.uses_fail _

theorem ofDaemon_handleControl (request : RpcRequest) : OfDaemon (handleControl request) := by
  refine Act.uses_ite (.andThen Act.uses_get fun _ => Act.uses_ret _) ?_
  refine .andThen (ofDaemon_dispatchControl request).attempt fun answered => ?_
  split
  · exact .andThen Act.uses_get fun _ => Act.uses_ret _
  · exact .andThen Act.uses_get fun _ => Act.uses_ret _

/-! ## Tasks -/

section Tasks

variable {A : Call → Prop}

theorem uses_inDaemon {section_ : DaemonSection} {answer : Except Error α → Option RpcResponse}
    {m : Method WatchcatDaemon α} (hlock : A (.lockDaemon section_))
    (hunlock : ∀ d response, A (.unlockDaemon d section_ response)) (hm : m.Uses A) :
    (inDaemon section_ answer m : Method σ α).Uses A :=
  fun _ => ⟨hlock, fun d => (hm d).bind fun _ => ⟨hunlock _ _, fun _ => trivial⟩⟩

theorem uses_inEngine {m : Method WatchEngine α} (hlock : A .lockEngine)
    (hunlock : ∀ e, A (.unlockEngine e)) (hm : m.Uses A) : (inEngine m : Method σ α).Uses A :=
  fun _ => ⟨hlock, fun e => (hm e).bind fun _ => ⟨hunlock _, fun _ => trivial⟩⟩

theorem uses_respond {response : RpcResponse} (h : A (.writeResponse response)) :
    (respond response : Method σ Unit).Uses A :=
  .andThen (Act.uses_perform h) Act.uses_ofExcept

end Tasks

theorem ofUpkeep_recentSessions (provider : String) (cutoff : Int) :
    OfUpkeep (recentSessions provider cutoff) := by
  refine .andThen Act.uses_get fun e => Act.uses_ite (Act.uses_fail _) ?_
  exact .andThen (Act.uses_perform ⟨rfl, rfl⟩) Act.uses_ofExcept

theorem ofUpkeep_discoverProvider (targets : List WatchTarget) (cutoff : Option Int)
    (provider : String) : OfUpkeep (discoverProvider targets cutoff provider) := by
  have hask : OfUpkeep (do
      ensureProvider provider
      recentSessions provider (← orPanic cutoff)) :=
    (ofUpkeep_ensureProvider provider).andThen fun _ =>
      .andThen (Act.uses_ofExcept _) (ofUpkeep_recentSessions provider)
  refine .andThen hask.zoom.attemptUnless fun found => ?_
  split
  · exact Act.uses_modify _
  · exact Act.uses_modify _

theorem ofUpkeep_discoverSessions (plan : ReconcilePlan) (order : List String) :
    OfUpkeep (discoverSessions plan order) :=
  Act.Uses.zoom (.andThen (.forEach (ofUpkeep_discoverProvider plan.targets plan.cutoff) order)
    fun _ => Act.uses_get)

theorem ofEngine_reconcileEngine (plan : ReconcilePlan) : OfEngine (reconcileEngine plan) := by
  refine (ofUpkeep_replaceSettings _).ofEngine.andThen fun _ => .andThen Act.uses_get fun e => ?_
  refine .andThen (Act.uses_perform rfl) fun order => ?_
  have hdiscover := ofUpkeep_discoverSessions plan order.1
  refine hdiscover.ofEngine.andThen fun discovery => .andThen (Act.uses_ofExcept _) fun _ => ?_
  refine (ofUpkeep_replaceWatchTargets _).ofEngine.andThen fun _ => ?_
  refine .andThen (ofEngine_runOnceAuthorized plan.now plan.revision).zoom fun events => ?_
  exact Act.uses_ret _

/-- The calls about the registry of manual retries and their tasks. -/
def Call.ofRetries : Call → Bool
  | .lockRegistry | .unlockRegistry _ _ | .spawnRetry _ | .retryPanicked _ => true
  | _ => false

/-- The method has nothing to do with manual retries. -/
abbrev Apart {σ α : Type} (m : Method σ α) : Prop := m.Uses fun op => op.ofRetries = false

theorem OfEngine.apart {m : Method σ α} (h : OfEngine m) : Apart m :=
  h.mono fun op hop => by cases op <;> first | rfl | cases hop

theorem OfDaemon.apart {m : Method σ α} (h : OfDaemon m) : Apart m :=
  h.mono fun op hop => by cases op <;> first | rfl | cases hop

theorem apart_inDaemon {section_ : DaemonSection} {answer : Except Error α → Option RpcResponse}
    {m : Method WatchcatDaemon α} (hm : Apart m) :
    Apart (inDaemon section_ answer m : Method σ α) :=
  uses_inDaemon rfl (fun _ _ => rfl) hm

theorem apart_inEngine {m : Method WatchEngine α} (hm : Apart m) :
    Apart (inEngine m : Method σ α) :=
  uses_inEngine rfl (fun _ => rfl) hm

theorem apart_respond (response : RpcResponse) : Apart (respond response : Method σ Unit) :=
  uses_respond rfl

theorem apart_readDaemon : Apart (readDaemon : Method σ WatchcatDaemon) :=
  apart_inDaemon Act.uses_get

theorem apart_commitOutcome (before : Nat) (plan : ReconcilePlan) (outcome : ReconcileOutcome) :
    Apart (commitOutcome before plan outcome) := by
  refine .andThen Act.uses_get fun engine => .andThen (apart_inDaemon ?_) fun _ =>
    Act.uses_modify _
  refine .andThen (ofDaemon_commitReconcile engine plan outcome).apart.attemptUnless
    fun committed => ?_
  refine .andThen Act.uses_get fun d => ?_
  have hend : Apart (do
      if d.revision ≠ before then perform (.notify ⟨"state.changed", d.revision⟩)
      return (committed.toOption.getD engine) : Method WatchcatDaemon WatchEngine) :=
    Act.uses_ite (.andThen (Act.uses_perform rfl) fun _ => Act.uses_ret _) (Act.uses_ret _)
  exact Act.uses_ite (.andThen (Act.uses_perform rfl) fun _ => hend) hend

theorem apart_reconcileIteration : Apart reconcileIteration := by
  have hprepare : Apart (do
      let before := (← Act.get).revision
      return (before, ← Act.attempt prepareReconcile)
      : Method WatchcatDaemon (Nat × Except Error ReconcilePlan)) :=
    .andThen Act.uses_get fun d =>
      .andThen ofDaemon_prepareReconcile.apart.attempt fun _ => Act.uses_ret _
  refine .andThen (apart_inDaemon hprepare) fun prepared => ?_
  split
  · exact Act.uses_ret _
  · refine .andThen (.attempt (apart_inEngine ?_)) fun result => ?_
    · exact .andThen (ofEngine_reconcileEngine _).apart fun outcome =>
        apart_commitOutcome _ _ outcome
    · exact Act.uses_ite (Act.uses_perform rfl) (Act.uses_ofExcept _)

theorem apart_shutdown : Apart shutdown := by
  have htargets : Apart (do
      let targets : Except Error _ ← Act.attempt listTargets
      return (targets.toOption.getD [], saturatingAdd (← Act.get).revision 1)
      : Method WatchcatDaemon (List WatchTarget × Nat)) :=
    .andThen (ofDaemon_listTargets (σ := WatchcatDaemon)).apart.attempt fun _ =>
      .andThen Act.uses_get fun _ => Act.uses_ret _
  refine .andThen (Act.uses_perform rfl) fun _ => .andThen (apart_inDaemon htargets) fun _ => ?_
  refine .andThen (Act.uses_perform rfl) fun _ => .andThen (Act.uses_perform rfl) fun _ => ?_
  refine .andThen (Act.uses_perform rfl) fun _ => .andThen (Act.uses_perform rfl) fun _ => ?_
  refine .andThen (Act.uses_perform rfl) fun _ => ?_
  exact apart_inEngine ofUpkeep_closeEngine.ofEngine.apart

/-! ## The registry of manual retries -/

/-- The calls that the methods of the registry make. -/
def Call.ofRegistry : Call → Bool
  | .now | .newUuid | .operationOrder _ | .writeOperations _ => true
  | _ => false

/-- The method makes calls of the registry only. -/
abbrev OfRegistry {σ α : Type} (m : Method σ α) : Prop := m.Uses fun op => op.ofRegistry = true

theorem OfRegistry.apart {m : Method σ α} (h : OfRegistry m) : Apart m :=
  h.mono fun op hop => by cases op <;> first | rfl | cases hop

theorem ofRegistry_saveOperations : OfRegistry saveOperations :=
  .andThen Act.uses_get fun _ => .andThen (Act.uses_perform rfl) fun _ =>
    .andThen (Act.uses_perform rfl) Act.uses_ofExcept

theorem ofRegistry_saveOrRestore (previous : RetryOperationRegistry) :
    OfRegistry (saveOrRestore previous) := by
  refine .andThen ofRegistry_saveOperations.attempt fun saved => ?_
  split
  · exact Act.uses_ret _
  · exact .andThen (Act.uses_modify _) fun _ => Act.uses_fail _

theorem ofRegistry_accept (session : SessionRef) (requestKey : String) :
    OfRegistry (accept session requestKey) := by
  refine .andThen Act.uses_get fun _ => .andThen (Act.uses_perform rfl) fun order => ?_
  refine .andThen (Act.uses_ofExcept _) fun answer => ?_
  split
  · exact Act.uses_ret _
  · refine .andThen Act.uses_get fun previous => .andThen (Act.uses_modify _) fun _ => ?_
    refine .andThen (Act.uses_perform rfl) fun id => .andThen (Act.uses_perform rfl) fun now => ?_
    exact .andThen (Act.uses_modify _) fun _ =>
      (ofRegistry_saveOrRestore previous).andThen fun _ => Act.uses_ret _

theorem ofRegistry_findRequest (session : SessionRef) (requestKey : String) :
    OfRegistry (findRequest session requestKey) :=
  .andThen Act.uses_get fun _ => .andThen (Act.uses_perform rfl) fun _ => Act.uses_ofExcept _

theorem ofRegistry_setRunning (id : String) : OfRegistry (setRunning id) := by
  refine .andThen Act.uses_get fun previous => ?_
  refine Act.uses_ite ?_ (ofRegistry_saveOrRestore previous)
  exact .andThen (Act.uses_perform rfl) fun now => .andThen (Act.uses_modify _) fun _ =>
    ofRegistry_saveOrRestore previous

theorem ofRegistry_finish (id : String) (result : Except Error ResumeReceipt) :
    OfRegistry (finish id result) := by
  refine .andThen Act.uses_get fun previous => ?_
  split
  · exact Act.uses_ret _
  · exact .andThen (Act.uses_perform rfl) fun now => .andThen (Act.uses_modify _) fun _ =>
      (ofRegistry_saveOrRestore previous).andThen fun _ => Act.uses_ret _

theorem ofRegistry_rollback (id : String) : OfRegistry (rollback id) :=
  .andThen Act.uses_get fun previous => .andThen (Act.uses_modify _) fun _ =>
    ofRegistry_saveOrRestore previous

/-! ## Provider requests -/

/-- The calls that a provider request makes on an engine of its own. -/
def Call.ofRequest : Call → Bool
  | .searchSessions _ _ _ _ | .sessionLogs _ _ _ | .validateSession _ _ => true
  | .sendMessage _ _ _ | .interrupt _ _ | .readState => true
  | op => op.ofEngine

/-- The method makes calls of a provider request only. -/
abbrev OfRequest {σ α : Type} (m : Method σ α) : Prop := m.Uses fun op => op.ofRequest = true

/-- The method makes calls of a provider request only, and none of the send boundary. -/
abbrev OfInquiry {σ α : Type} (m : Method σ α) : Prop :=
  m.Uses fun op => op.ofRequest = true ∧ op.ofBoundary = false

theorem OfInquiry.ofRequest {m : Method σ α} (h : OfInquiry m) : OfRequest m :=
  h.mono fun _ hop => hop.1

theorem OfUpkeep.ofInquiry {m : Method σ α} (h : OfUpkeep m) : OfInquiry m :=
  h.mono fun op hop => by
    obtain ⟨hengine, hboundary⟩ := hop
    refine ⟨?_, hboundary⟩
    cases op <;> first | rfl | cases hengine

theorem OfRequest.apart {m : Method σ α} (h : OfRequest m) : Apart m :=
  h.mono fun op hop => by cases op <;> first | rfl | cases hop

theorem ofInquiry_askProvider {provider : String} {m : Method WatchEngine α} (hm : OfInquiry m) :
    OfInquiry (askProvider provider m) :=
  .andThen Act.uses_get fun _ => Act.uses_ite (Act.uses_fail _) hm

theorem ofInquiry_dispatchProvider (request : RpcRequest) :
    OfInquiry (dispatchProvider request) := by
  have hensure := fun provider => (ofUpkeep_ensureProvider provider).ofInquiry
  have hlist : OfInquiry (listTargets : Method WatchEngine (List WatchTarget)) :=
    uses_listTargets ⟨rfl, rfl⟩
  refine Act.uses_ite (Act.uses_fail _) ?_
  split
  · refine .andThen (Act.uses_ofExcept _) fun query => (hensure _).andThen fun _ => ?_
    refine hlist.andThen fun _ => .andThen (ofInquiry_askProvider ?_) fun _ => Act.uses_ret _
    exact .andThen (Act.uses_perform ⟨rfl, rfl⟩) Act.uses_ofExcept
  · refine .andThen (Act.uses_ofExcept _) fun query => .andThen (Act.uses_ofExcept _) fun _ => ?_
    refine (hensure _).andThen fun _ =>
      .andThen (Act.uses_perform ⟨rfl, rfl⟩) fun _ => Act.uses_ret _
  · refine .andThen (Act.uses_ofExcept _) fun message => (hensure _).andThen fun _ => ?_
    refine Act.uses_ite (Act.uses_fail _)
      (.andThen (ofInquiry_askProvider ?_) fun _ => Act.uses_ret _)
    exact .andThen (Act.uses_perform ⟨rfl, rfl⟩) Act.uses_ofExcept
  · refine .andThen (Act.uses_ofExcept _) fun session => (hensure _).andThen fun _ => ?_
    refine .andThen (ofInquiry_askProvider ?_) fun _ => Act.uses_ret _
    exact .andThen (Act.uses_perform ⟨rfl, rfl⟩) Act.uses_ofExcept
  · refine .andThen (Act.uses_ofExcept _) fun add => (hensure _).andThen fun _ => ?_
    refine .andThen (ofInquiry_askProvider ?_) fun _ => Act.uses_ret _
    exact .andThen (Act.uses_perform ⟨rfl, rfl⟩) Act.uses_ofExcept
  · exact Act.uses_fail _

theorem ofInquiry_askInteractive (request : RpcRequest) (settings : Settings) (eventLog : Nat) :
    OfInquiry (askInteractive request settings eventLog) := by
  have hstate : OfInquiry (loadRuntimeState : Task RuntimeState) := by
    refine .andThen (Act.uses_perform ⟨rfl, rfl⟩) fun r =>
      .andThen (Act.uses_ofExcept r) fun _ => ?_
    exact Act.uses_ite (Act.uses_fail _) (Act.uses_ret _)
  have hbuild : OfInquiry (buildInteractiveEngine settings eventLog (requestProvider request)
      : Task WatchEngine) := by
    refine (ofUpkeep_buildProvider _ _).ofInquiry.andThen fun _ => ?_
    refine .andThen (Act.uses_perform ⟨rfl, rfl⟩) fun r =>
      .andThen (Act.uses_ofExcept r) fun _ => ?_
    exact hstate.andThen fun _ => Act.uses_ret _
  refine hbuild.andThen fun interactive => .andThen (.within ?_) fun answered =>
    Act.uses_ofExcept _
  exact .andThen (ofInquiry_dispatchProvider request).attempt fun _ =>
    ofUpkeep_closeEngine.ofInquiry.andThen fun _ => Act.uses_ret _

/-! ## Other requests -/

theorem apart_serveControl (request : RpcRequest) : Apart (serveControl request) :=
  apart_inDaemon (ofDaemon_handleControl request).apart

theorem apart_serveProvider (request : RpcRequest) : Apart (serveProvider request) := by
  refine apart_readDaemon.andThen fun d => ?_
  refine .andThen (ofInquiry_askInteractive request _ _).ofRequest.apart.attempt fun answered => ?_
  split
  · exact Act.uses_ite (apart_serveControl _) (Act.uses_ret _)
  · exact Act.uses_ret _

theorem apart_serveRequest (request : RpcRequest) : Apart (serveRequest request) := by
  have hboundary : Apart (serveBoundary request) := by
    refine apart_readDaemon.andThen fun _ => .andThen (Act.uses_perform rfl) fun _ => ?_
    exact (apart_serveControl request).closing fun _ => ⟨rfl, fun _ => trivial⟩
  have hend : ∀ response : RpcResponse, Apart (do
      respond response
      if response.error.isNone && isMutation request.method then
        perform (.notify ⟨"state.changed", response.revision⟩) : Task Unit) :=
    fun response => (apart_respond response).andThen fun _ =>
      Act.uses_ite (Act.uses_perform rfl) (Act.uses_ret _)
  refine Act.uses_ite ((apart_serveProvider request).andThen hend) ?_
  exact Act.uses_ite (hboundary.andThen hend) ((apart_serveControl request).andThen hend)

theorem apart_publish (notification : RpcNotification) : Apart (publish notification) :=
  Act.Uses.andThen (Act.uses_perform rfl) fun _ => Act.uses_ofExcept _

theorem apart_publishRevision (event : String) : Apart (publishRevision event) :=
  apart_readDaemon.andThen fun _ => apart_publish _

theorem apart_streamEvents (rounds : Nat) : Apart (streamEvents rounds) := by
  induction rounds with
  | zero => exact Act.uses_ret _
  | succ rounds ih =>
    refine Act.Uses.andThen (Act.uses_perform rfl) fun event => ?_
    cases event with
    | closed => exact Act.uses_ret _
    | readFailed | unexpected => exact Act.uses_fail _
    | received notification => exact (apart_publish notification).andThen fun _ => ih
    | lagged | heartbeat => exact (apart_publishRevision _).andThen fun _ => ih

theorem apart_serveSubscribe (rounds : Nat) (request : RpcRequest) :
    Apart (serveSubscribe rounds request) := by
  refine Act.uses_ite (Act.uses_fail _) (apart_readDaemon.andThen fun _ => ?_)
  refine Act.Uses.andThen (Act.uses_perform rfl) fun slot => ?_
  refine Act.uses_ite (apart_respond _) ?_
  exact (apart_respond _).andThen fun _ => apart_streamEvents rounds

end Watchcat
