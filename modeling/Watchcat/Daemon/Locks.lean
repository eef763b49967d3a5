import Watchcat.Core.LockOrder
import Watchcat.Daemon.System
import Watchcat.Daemon.Uses

/-!
# The locks of the tasks

The tasks of the service share five locks. Each task takes them upwards: the set
of retry tasks, the engine, then the registry or the send boundary, and last the
daemon, behind which no provider is asked. The shutdown joins the retry tasks
while it holds their set.
-/

namespace Watchcat

open Watchcat.Core Method

/-! ## The order -/

/-- The locks that the tasks share. -/
inductive Lock
  | tasks
  | engine
  | registry
  | boundary
  | daemon
  deriving DecidableEq, Repr

/-- The lock that the call takes. -/
def Call.takes : Call → Option Lock
  | .lockTasks => some .tasks
  | .lockEngine => some .engine
  | .lockRegistry => some .registry
  | .enterSendBoundary => some .boundary
  | .lockDaemon _ => some .daemon
  | _ => none

/-- The lock that the call leaves. -/
def Call.leaves : Call → Option Lock
  | .unlockTasks => some .tasks
  | .unlockEngine _ => some .engine
  | .unlockRegistry _ _ => some .registry
  | .leaveSendBoundary => some .boundary
  | .unlockDaemon _ _ _ => some .daemon
  | _ => none

/-- The call asks a provider. -/
def Call.asksProvider : Call → Bool
  | .newProvider _ | .startProvider _ | .closeProvider _ | .recentSessions _ _ => true
  | .searchSessions _ _ _ _ | .validateSession _ _ | .sessionLogs _ _ _ => true
  | .latestFailure _ _ | .turnOutcome _ _ _ | .resume _ _ _ _ => true
  | .sendMessage _ _ _ | .interrupt _ _ => true
  | _ => false

/-- The task that holds the lock. -/
def World.holder (w : World) : Lock → Option Tid
  | .tasks => w.tasksLock
  | .engine => w.engineLock
  | .registry => w.registryLock
  | .boundary => w.boundary
  | .daemon => w.daemonLock

/-- The order of the locks. The shutdown joins the retry tasks between the first two, and keeps the
set of retry tasks to its end. -/
def lockOrder : LockOrder Call Tid Lock where
  takes := Call.takes
  leaves := Call.leaves
  joins
    | .joinRetries => some 1
    | _ => none
  rank
    | .tasks => 0
    | .engine => 2
    | .registry | .boundary => 3
    | .daemon => 4
  floor
    | .main | .handler _ => 0
    | .reconcile => 1
    | .retry _ => 2
  final t := if t = .main then {.tasks} else ∅
  barred l op := l = .daemon ∧ op.asksProvider = true

/-- The task that holds the locks takes others in order and holds these in the end. -/
abbrev Ordered {σ α : Type} (t : Tid) (locks : Finset Lock) (m : Method σ α) : Prop :=
  lockOrder.Orderly t locks m

/-- The call has nothing to do with locks. -/
def Call.ofLocks (op : Call) : Bool :=
  op.takes.isSome || op.leaves.isSome || (lockOrder.joins op).isSome

variable {σ α : Type} {t : Tid} {locks : Finset Lock}

theorem quiet_call {op : Call} (hop : op.ofLocks = false)
    (hasks : .daemon ∈ locks → op.asksProvider = false) : lockOrder.Quiet locks op := by
  rw [Call.ofLocks, Bool.or_eq_false_iff, Bool.or_eq_false_iff] at hop
  obtain ⟨⟨htakes, hleaves⟩, hjoins⟩ := hop
  refine ⟨Option.isSome_eq_false_iff.mp htakes |> Option.isNone_iff_eq_none.mp,
    Option.isSome_eq_false_iff.mp hleaves |> Option.isNone_iff_eq_none.mp,
    Option.isSome_eq_false_iff.mp hjoins |> Option.isNone_iff_eq_none.mp, ?_⟩
  rintro l hl ⟨rfl, hop⟩
  rw [hasks hl] at hop
  cases hop

theorem ordered_perform {op : Call} (hop : op.ofLocks = false)
    (hasks : .daemon ∈ locks → op.asksProvider = false) :
    Ordered t locks (perform op : Method σ (Reply op)) :=
  LockOrder.orderly_uses (Act.uses_perform (quiet_call hop hasks))

/-! ## Methods without locks -/

theorem OfDaemon.ordered {m : Method σ α} (h : OfDaemon m) : Ordered t locks m :=
  LockOrder.orderly_uses (h.mono fun op hop => by
    refine quiet_call ?_ fun _ => ?_ <;> cases op <;> first | rfl | cases hop)

theorem OfRegistry.ordered {m : Method σ α} (h : OfRegistry m) : Ordered t locks m :=
  LockOrder.orderly_uses (h.mono fun op hop => by
    refine quiet_call ?_ fun _ => ?_ <;> cases op <;> first | rfl | cases hop)

theorem OfInquiry.ordered {m : Method σ α} (h : OfInquiry m) (hd : .daemon ∉ locks) :
    Ordered t locks m :=
  LockOrder.orderly_uses (h.mono fun op hop => by
    obtain ⟨hrequest, hboundary⟩ := hop
    refine quiet_call ?_ fun hmem => absurd hmem hd
    cases op with
    | enterSendBoundary | leaveSendBoundary => cases hboundary
    | _ => first | rfl | cases hrequest)

theorem OfUpkeep.ordered {m : Method σ α} (h : OfUpkeep m) (hd : .daemon ∉ locks) :
    Ordered t locks m :=
  h.ofInquiry.ordered hd

/-! ## Sections -/

/-- No call about a lock asks a provider. -/
theorem not_barred {op : Call} (hop : op.ofLocks = true) : ∀ l ∈ locks, ¬lockOrder.barred l op := by
  rintro l _ ⟨_, hasks⟩
  cases op with
  | enterSendBoundary | leaveSendBoundary | lockDaemon | unlockDaemon | lockEngine | unlockEngine
    | lockRegistry | unlockRegistry | lockTasks | unlockTasks | joinRetries => cases hasks
  | _ => cases hop

theorem ordered_inDaemon {section_ : DaemonSection}
    {answer : Except Error α → Option RpcResponse} {m : Method WatchcatDaemon α}
    (ha : lockOrder.Above t locks .daemon) (hm : Ordered t (insert .daemon locks) m) :
    Ordered t locks (inDaemon section_ answer m : Method σ α) := by
  rintro _ s rfl
  exact LockOrder.follows_section ⟨rfl, not_barred rfl⟩ ha
    (fun _ => ⟨rfl, rfl, rfl, not_barred rfl⟩) fun d => hm _ d rfl

theorem ordered_inEngine {m : Method WatchEngine α} (ha : lockOrder.Above t locks .engine)
    (hm : Ordered t (insert .engine locks) m) : Ordered t locks (inEngine m : Method σ α) := by
  rintro _ s rfl
  exact LockOrder.follows_section ⟨rfl, not_barred rfl⟩ ha
    (fun _ => ⟨rfl, rfl, rfl, not_barred rfl⟩) fun e => hm _ e rfl

theorem ordered_inRegistry {section_ : Except Error α → RegistrySection}
    {m : Method RetryOperationRegistry α} (ha : lockOrder.Above t locks .registry)
    (hm : Ordered t (insert .registry locks) m) :
    Ordered t locks (inRegistry section_ m : Method σ α) := by
  rintro _ s rfl
  exact LockOrder.follows_section ⟨rfl, not_barred rfl⟩ ha
    (fun _ => ⟨rfl, rfl, rfl, not_barred rfl⟩) fun reg => hm _ reg rfl

theorem ordered_inBoundary {m : Method σ α} (ha : lockOrder.Above t locks .boundary)
    (hm : Ordered t (insert .boundary locks) m) :
    Ordered t locks (do
      perform .enterSendBoundary
      Act.closing m fun _ => Prog.request Call.leaveSendBoundary) :=
  LockOrder.orderly_closing (fun _ => rfl) ⟨rfl, not_barred rfl⟩ ha
    ⟨rfl, rfl, rfl, not_barred rfl⟩ hm

/-! ## The engine -/

section Engine

theorem noDaemon (ha : lockOrder.Above t locks .boundary) : Lock.daemon ∉ locks :=
  fun hd => absurd (ha.rank _ hd) (by decide)

theorem noDaemon_boundary (ha : lockOrder.Above t locks .boundary) :
    Lock.daemon ∉ insert Lock.boundary locks := fun hd => by
  rcases Finset.mem_insert.mp hd with h | h
  · cases h
  · exact noDaemon ha h

variable (ha : lockOrder.Above t locks .boundary)

include ha

theorem ordered_ask {op : Call} (hop : op.ofLocks = false) :
    Ordered t locks (perform op : Method σ (Reply op)) :=
  ordered_perform hop fun hd => absurd hd (noDaemon ha)

theorem ordered_resumeTarget (now : Int) (generation : Nat) (d : Due) :
    Ordered t locks (resumeTarget now generation d) := by
  refine .andThen (ordered_ask ha rfl) fun _ => Act.keeps_ite (Act.keeps_modify _) ?_
  refine .andThen (ordered_ask ha rfl) fun r => .andThen (Act.keeps_ofExcept r) fun _ => ?_
  refine .andThen (ordered_ask ha rfl) fun _ => Act.keeps_ite (Act.keeps_modify _) ?_
  refine Act.keeps_ite (Act.keeps_modify _) (ordered_inBoundary ha ?_)
  have hd := noDaemon_boundary ha
  refine .andThen (ordered_perform rfl fun _ => rfl) fun _ => Act.keeps_ite (Act.keeps_modify _) ?_
  exact (ofUpkeep_sendRecovery now d).ordered hd

theorem ordered_retryFailure (now : Int) (generation : Nat) (target : WatchTarget)
    (failure : Failure) (policy : ResolvedPolicy) :
    Ordered t locks (retryFailure now generation target failure policy) := by
  refine .andThen (Act.keeps_update _) fun _ => .andThen Act.keeps_get fun _ => ?_
  refine .andThen (Act.keeps_ofExcept _) fun _ => .andThen (Act.keeps_update _) fun _ => ?_
  refine Act.keeps_ite (Act.keeps_modify _) (.andThen Act.keeps_get fun _ => ?_)
  refine .andThen (Act.keeps_ofExcept _) fun _ => ?_
  refine Act.keeps_ite (Act.keeps_modify _) (.andThen Act.keeps_get fun _ => ?_)
  exact Act.keeps_ite (Act.keeps_modify _) (ordered_resumeTarget ha now generation _)

theorem ordered_handleFailure (now : Int) (generation : Nat) (target : WatchTarget)
    (failure : Failure) : Ordered t locks (handleFailure now generation target failure) := by
  refine .andThen Act.keeps_get fun p => Act.keeps_ite (Act.keeps_ret ()) ?_
  exact Act.keeps_ite (Act.keeps_modify _) (ordered_retryFailure ha now generation target failure _)

theorem ordered_passTarget (now : Int) (generation : Nat) (target : WatchTarget) :
    Ordered t locks (passTarget now generation target) := by
  refine .andThen (ordered_ask ha rfl) fun _ => Act.keeps_ite (Act.keeps_ret ()) ?_
  refine .andThen Act.keeps_get fun p => Act.keeps_ite (Act.keeps_modify _) ?_
  refine .andThen (ordered_ask ha rfl) fun latest => ?_
  split
  · exact Act.keeps_modify _
  · exact Act.keeps_modify _
  · exact .andThen (Act.keeps_modify _) fun _ => ordered_handleFailure ha now generation target _

theorem ordered_runOnceAuthorized (now : Int) (generation : Nat) :
    Ordered t locks (runOnceAuthorized now generation) := by
  have hd := noDaemon ha
  refine .andThen (Act.keeps_modify _) fun _ =>
    .andThen ((ofUpkeep_reconcilePendingRecoveries now).ordered hd) fun _ =>
      .andThen Act.keeps_get fun p => ?_
  refine .andThen (.forEach (ordered_passTarget ha now generation) _) fun _ =>
    .andThen Act.keeps_get fun _ => .andThen (ordered_ask ha rfl) fun _ => ?_
  exact .andThen (ofUpkeep_flushEvents.ordered hd) fun _ => .andThen Act.keeps_get fun _ =>
    Act.keeps_ret _

theorem ordered_reconcileEngine (plan : ReconcilePlan) :
    Ordered t locks (reconcileEngine plan) := by
  have hd := noDaemon ha
  refine .andThen ((ofUpkeep_replaceSettings _).ordered hd) fun _ =>
    .andThen Act.keeps_get fun e => ?_
  refine .andThen (ordered_ask ha rfl) fun order => ?_
  refine .andThen ((ofUpkeep_discoverSessions plan order.1).ordered hd) fun discovery => ?_
  refine .andThen (Act.keeps_ofExcept _) fun _ => ?_
  refine .andThen ((ofUpkeep_replaceWatchTargets _).ordered hd) fun _ => ?_
  exact .andThen (ordered_runOnceAuthorized ha _ _).zoom fun events => Act.keeps_ret _

theorem ordered_retryFailureNow (now : Int) (automatic : Bool) (generation : Nat)
    (target : WatchTarget) (failure : Failure) :
    Ordered t locks (retryFailureNow now automatic generation target failure) := by
  refine .andThen Act.keeps_get fun e => Act.keeps_ite (Act.keeps_fail _) ?_
  refine .andThen Act.keeps_get fun _ => .andThen (Act.keeps_ofExcept _) fun _ => ?_
  refine .andThen (Act.keeps_update _) fun _ => Act.keeps_ite (Act.keeps_fail _) ?_
  refine ordered_inBoundary ha (.andThen (ordered_perform rfl fun _ => rfl) fun _ => ?_)
  exact Act.keeps_ite (Act.keeps_fail _)
    ((ofUpkeep_sendManualRetry now automatic _).ordered (noDaemon_boundary ha))

theorem ordered_retryNow (provider sessionId : String) (now : Int) (automatic : Bool)
    (generation : Nat) :
    Ordered t locks (retryNow provider sessionId now automatic generation) := by
  refine .andThen Act.keeps_get fun e => ?_
  split
  · exact Act.keeps_fail _
  · refine .andThen (ordered_ask ha rfl) fun _ => Act.keeps_ite (Act.keeps_fail _) ?_
    refine Act.keeps_ite (Act.keeps_fail _) (.andThen (ordered_ask ha rfl) fun r => ?_)
    refine .andThen (Act.keeps_ofExcept r) fun latest => ?_
    split
    · exact Act.keeps_fail _
    · exact .andThen (Act.keeps_modify _) fun _ =>
        ordered_retryFailureNow ha now automatic generation _ _

end Engine

/-! ## The tasks -/

theorem floor_le (t : Tid) : lockOrder.floor t ≤ 2 := by
  cases t with
  | main | handler => exact Nat.zero_le 2
  | reconcile => exact Nat.le_succ 1
  | retry => exact le_refl 2

/-- The daemon is above all other locks. -/
theorem above_daemon (h : Lock.daemon ∉ locks) : lockOrder.Above t locks .daemon := by
  refine ⟨(floor_le t).trans (by decide), fun k hk => ?_⟩
  cases k with
  | daemon => exact absurd hk h
  | _ => decide

theorem ordered_readDaemon (h : Lock.daemon ∉ locks) :
    Ordered t locks (readDaemon : Method σ WatchcatDaemon) :=
  ordered_inDaemon (above_daemon h) Act.keeps_get

theorem ordered_respond (response : RpcResponse) :
    Ordered t locks (respond response : Method σ Unit) :=
  .andThen (ordered_perform rfl fun _ => rfl) fun _ => Act.keeps_ofExcept _

theorem ordered_commitOutcome (h : Lock.daemon ∉ locks) (before : Nat) (plan : ReconcilePlan)
    (outcome : ReconcileOutcome) : Ordered t locks (commitOutcome before plan outcome) := by
  refine .andThen Act.keeps_get fun engine => .andThen (ordered_inDaemon (above_daemon h) ?_)
    fun _ => Act.keeps_modify _
  refine .andThen (ofDaemon_commitReconcile engine plan outcome).ordered.attemptUnless
    fun committed => ?_
  have hnotify : ∀ n, Ordered t (insert .daemon locks) (perform (.notify n)
      : Method WatchcatDaemon Unit) := fun _ => ordered_perform rfl fun _ => rfl
  refine .andThen Act.keeps_get fun d => ?_
  have hend : Ordered t (insert .daemon locks) (do
      if d.revision ≠ before then perform (.notify ⟨"state.changed", d.revision⟩)
      return (committed.toOption.getD engine) : Method WatchcatDaemon WatchEngine) :=
    Act.keeps_ite (.andThen (hnotify _) fun _ => Act.keeps_ret _) (Act.keeps_ret _)
  exact Act.keeps_ite (.andThen (hnotify _) fun _ => hend) hend

theorem ordered_reconcileIteration : Ordered .reconcile ∅ reconcileIteration := by
  have hnone : Lock.daemon ∉ (∅ : Finset Lock) := Finset.notMem_empty _
  refine .andThen (ordered_inDaemon (above_daemon hnone) ?_) fun prepared => ?_
  · exact .andThen Act.keeps_get fun d =>
      .andThen ofDaemon_prepareReconcile.ordered.attempt fun _ => Act.keeps_ret _
  · split
    · exact Act.keeps_ret _
    · refine .andThen (.attempt (ordered_inEngine ⟨by decide, by decide⟩ ?_)) fun result => ?_
      · exact .andThen (ordered_reconcileEngine ⟨by decide, by decide⟩ _) fun outcome =>
          ordered_commitOutcome (by decide) _ _ outcome
      · exact Act.keeps_ite (ordered_perform rfl fun _ => rfl) (Act.keeps_ofExcept _)

theorem ordered_runRetry (n : Nat) (job : RetryJob) :
    Ordered (.retry n) {.engine} (runRetry job) := by
  have hd : Lock.daemon ∉ ({.engine} : Finset Lock) := by decide
  have hfloor : lockOrder.floor (.retry n) ≤ 3 := (floor_le _).trans (by decide)
  have hbusy : ∀ {α : Type} {m : Method WatchEngine α}, OfUpkeep m →
      Ordered (.retry n) {.engine} m := fun h => h.ordered hd
  have hlist : Ordered (.retry n) {.engine} (listTargets : Method WatchEngine (List WatchTarget)) :=
    OfDaemon.ordered ofDaemon_listTargets
  refine .andThen (ordered_perform rfl fun _ => rfl) fun _ => Act.keeps_ite (Act.keeps_fail _) ?_
  refine .andThen (ordered_inRegistry ⟨hfloor, by decide⟩ (ofRegistry_setRunning _).ordered)
    fun _ => ?_
  refine .andThen (hbusy (ofUpkeep_replaceSettings _)) fun _ => .andThen hlist fun targets => ?_
  refine .andThen (hbusy (ofUpkeep_replaceWatchTargets targets)) fun _ => ?_
  refine .andThen (hbusy (ofUpkeep_ensureProvider _)) fun _ => ?_
  refine .andThen (ordered_perform rfl fun _ => rfl) fun now => ?_
  exact ordered_retryNow ⟨hfloor, by decide⟩ _ _ now false _

theorem ordered_finishRetry (n : Nat) (job : RetryJob) (result : Except Error ResumeReceipt) :
    Ordered (.retry n) ∅ (finishRetry job result) := by
  refine ordered_inRegistry ⟨(floor_le (.retry n)).trans (by decide), by decide⟩ ?_
  refine .andThen (ofRegistry_finish _ _).ordered fun found => ?_
  split
  · exact ordered_perform rfl fun _ => rfl
  · exact Act.keeps_ret _

theorem ordered_retryTask (n : Nat) (job : RetryJob) : Ordered (.retry n) ∅ (retryTask job) := by
  refine .andThen (.attempt (.andThen (ordered_perform rfl fun _ => rfl) fun _ => ?_))
    fun result =>
      Act.keeps_ite (ordered_perform rfl fun _ => rfl) (ordered_finishRetry n job result)
  exact Act.keeps_ite (Act.keeps_fail _)
    (ordered_inEngine ⟨floor_le (.retry n), by decide⟩ (ordered_runRetry n job))

section Handlers

variable (n : Nat)

/-- A handler may take any lock where it holds none. -/
theorem above_handler (l : Lock) : lockOrder.Above (.handler n) ∅ l :=
  ⟨Nat.zero_le _, fun k hk => absurd hk (Finset.notMem_empty k)⟩

theorem ordered_handler_readDaemon :
    Ordered (.handler n) ∅ (readDaemon : Method σ WatchcatDaemon) :=
  ordered_readDaemon (Finset.notMem_empty _)

theorem ordered_serveRetryStatus (request : RpcRequest) :
    Ordered (.handler n) ∅ (serveRetryStatus request) := by
  refine Act.keeps_ite (Act.keeps_fail _) ?_
  split
  · exact Act.keeps_fail _
  · refine .andThen (ordered_handler_readDaemon n) fun d => .andThen ?_ fun operation => ?_
    · refine ordered_inRegistry (above_handler n .registry) ?_
      exact .andThen Act.keeps_get fun _ => Act.keeps_ret _
    · split
      · exact ordered_respond _
      · exact ordered_respond _

theorem ordered_prepareRetry (request : RpcRequest) :
    Ordered (.handler n) ∅ (prepareRetry request) := by
  unfold prepareRetry
  split
  · exact Act.keeps_fail _
  · refine .andThen (ordered_perform rfl fun _ => rfl) fun _ => Act.keeps_ite (Act.keeps_fail _) ?_
    refine .andThen (ordered_inDaemon (above_handler n .daemon) ?_) fun _ => Act.keeps_ret _
    exact .andThen (ofDaemon_checkRevision request).ordered fun _ =>
      .andThen Act.keeps_get fun _ => Act.keeps_ret _

theorem ordered_answerKnownRetry (request : RpcRequest) (retry : RetryRequest) (revision : Nat) :
    Ordered (.handler n) ∅ (answerKnownRetry request retry revision) := by
  refine ordered_inRegistry (above_handler n .registry) ?_
  refine .andThen (ofRegistry_findRequest _ _).ordered fun found => ?_
  split
  · exact .andThen (ordered_respond _) fun _ => Act.keeps_ret _
  · exact Act.keeps_ret _

theorem ordered_acceptRetry (request : RpcRequest) (retry : RetryRequest) (revision : Nat) :
    Ordered (.handler n) ∅ (acceptRetry request retry revision) := by
  refine ordered_inRegistry (above_handler n .registry) ?_
  refine .andThen (ofRegistry_accept _ _).ordered.attempt fun accepted => ?_
  split
  · exact Act.keeps_ret _
  · exact .andThen (ordered_respond _) fun _ => Act.keeps_ret _

theorem ordered_withdrawRetry (id : String) : Ordered (.handler n) ∅ (withdrawRetry id) :=
  .andThen (Act.Keeps.attempt (ordered_inRegistry (above_handler n .registry)
    (ofRegistry_rollback id).ordered)) fun _ => Act.keeps_ret _

/-- The task of an accepted retry is spawned while the set is held. -/
theorem ordered_spawnRetry (job : RetryJob) : Ordered (.handler n) ∅ (do
    perform .lockTasks
    perform (.spawnRetry job)
    perform .unlockTasks : Task Unit) := by
  rintro _ s rfl
  have htakes : lockOrder.Takes ∅ .lockTasks .tasks := ⟨rfl, not_barred rfl⟩
  have hleaves : lockOrder.Leaves ∅ .unlockTasks .tasks := ⟨rfl, rfl, rfl, not_barred rfl⟩
  refine ⟨htakes.allowed (above_handler n .tasks), fun _ => ?_⟩
  exact ⟨(quiet_call rfl fun _ => rfl).allowed, fun _ => ⟨hleaves.allowed, fun _ => rfl⟩⟩

theorem ordered_serveRetryNow (request : RpcRequest) :
    Ordered (.handler n) ∅ (serveRetryNow request) := by
  refine .andThen (ordered_handler_readDaemon n) fun d => Act.keeps_ite (Act.keeps_fail _) ?_
  refine .andThen (Act.keeps_ofExcept _) fun retry =>
    .andThen (ordered_answerKnownRetry n request retry _) fun known => ?_
  refine Act.keeps_ite (Act.keeps_ret _) (.andThen (ordered_prepareRetry n request).attempt ?_)
  intro prepared
  split
  · exact ordered_respond _
  · refine .andThen (ordered_acceptRetry n request retry _) fun accepted => ?_
    split
    · exact Act.keeps_ret _
    · refine .andThen (ordered_respond _).attempt fun written => ?_
      split
      · exact Act.keeps_ite (.andThen (ordered_withdrawRetry n _) fun _ => Act.keeps_fail _)
          (Act.keeps_fail _)
      · exact Act.keeps_ite (ordered_spawnRetry n _) (Act.keeps_ret _)

theorem ordered_serveControl (h : Lock.daemon ∉ locks) (request : RpcRequest) :
    Ordered t locks (serveControl request) :=
  ordered_inDaemon (above_daemon h) (ofDaemon_handleControl request).ordered

theorem ordered_serveProvider (request : RpcRequest) :
    Ordered (.handler n) ∅ (serveProvider request) := by
  have hnone : Lock.daemon ∉ (∅ : Finset Lock) := Finset.notMem_empty _
  refine .andThen (ordered_handler_readDaemon n) fun d => ?_
  refine .andThen ((ofInquiry_askInteractive request _ _).ordered hnone).attempt fun answered => ?_
  split
  · exact Act.keeps_ite (ordered_serveControl hnone _) (Act.keeps_ret _)
  · exact Act.keeps_ret _

theorem ordered_serveBoundary (request : RpcRequest) :
    Ordered (.handler n) ∅ (serveBoundary request) :=
  .andThen (ordered_handler_readDaemon n) fun _ =>
    ordered_inBoundary (above_handler n .boundary) (ordered_serveControl (by decide) request)

theorem ordered_serveRequest (request : RpcRequest) :
    Ordered (.handler n) ∅ (serveRequest request) := by
  have hend : ∀ response : RpcResponse, Ordered (.handler n) ∅ (do
      respond response
      if response.error.isNone && isMutation request.method then
        perform (.notify ⟨"state.changed", response.revision⟩) : Task Unit) :=
    fun response => .andThen (ordered_respond response) fun _ =>
      Act.keeps_ite (ordered_perform rfl fun _ => rfl) (Act.keeps_ret _)
  have hcontrol := ordered_serveControl (t := .handler n) (Finset.notMem_empty _) request
  refine Act.keeps_ite (.andThen (ordered_serveProvider n request) hend) ?_
  exact Act.keeps_ite (.andThen (ordered_serveBoundary n request) hend) (.andThen hcontrol hend)

theorem ordered_streamEvents (rounds : Nat) : Ordered (.handler n) ∅ (streamEvents rounds) := by
  have hpublish : ∀ notification, Ordered (.handler n) ∅ (publish notification) := fun _ =>
    .andThen (ordered_perform rfl fun _ => rfl) fun _ => Act.keeps_ofExcept _
  have hrevision : ∀ event, Ordered (.handler n) ∅ (publishRevision event) := fun _ =>
    .andThen (ordered_handler_readDaemon n) fun _ => hpublish _
  induction rounds with
  | zero => exact Act.keeps_ret _
  | succ rounds ih =>
    refine .andThen (ordered_perform rfl fun _ => rfl) fun event => ?_
    cases event with
    | closed => exact Act.keeps_ret _
    | readFailed | unexpected => exact Act.keeps_fail _
    | received notification => exact .andThen (hpublish _) fun _ => ih
    | lagged | heartbeat => exact .andThen (hrevision _) fun _ => ih

theorem ordered_serveSubscribe (rounds : Nat) (request : RpcRequest) :
    Ordered (.handler n) ∅ (serveSubscribe rounds request) := by
  refine Act.keeps_ite (Act.keeps_fail _) (.andThen (ordered_handler_readDaemon n) fun d => ?_)
  refine .andThen (ordered_perform rfl fun _ => rfl) fun slot => ?_
  exact Act.keeps_ite (ordered_respond _)
    (.andThen (ordered_respond _) fun _ => ordered_streamEvents n rounds)

/-- A handler holds one lock at a time, or the send boundary and then the daemon. -/
theorem ordered_serveConnection (rounds : Nat) :
    Ordered (.handler n) ∅ (serveConnection rounds) := by
  refine .andThen (ordered_perform rfl fun _ => rfl) fun r =>
    .andThen (Act.keeps_ofExcept r) fun request => ?_
  refine Act.keeps_ite (ordered_serveSubscribe n rounds request) ?_
  refine Act.keeps_ite (ordered_serveRetryStatus n request) ?_
  exact Act.keeps_ite (ordered_serveRetryNow n request) (ordered_serveRequest n request)

end Handlers

/-- The shutdown ends with the set of retry tasks. -/
theorem follows_shutdown {s : Unit} : shutdown.Follows lockOrder.monitor ⟨.main, ∅⟩ s
    fun g _ _ => lockOrder.Ended g := by
  have hnone : lockOrder.Ended ⟨.main, ∅⟩ := Finset.empty_subset _
  have hset : lockOrder.Ended ⟨.main, {.tasks}⟩ := Finset.Subset.refl _
  have hquiet : ∀ {locks : Finset Lock} {op : Call}, op.ofLocks = false →
      op.asksProvider = false → Ordered .main locks (perform op : Task (Reply op)) :=
    fun hop hasks => ordered_perform hop fun _ => hasks
  refine LockOrder.follows_after (hquiet rfl rfl) (fun _ _ => ?_) fun _ _ => hnone
  refine LockOrder.follows_after (ordered_inDaemon (above_daemon (Finset.notMem_empty _)) ?_)
    (fun found _ => ?_) fun _ _ => hnone
  · exact .andThen ofDaemon_listTargets.ordered.attempt fun _ =>
      .andThen Act.keeps_get fun _ => Act.keeps_ret _
  refine LockOrder.follows_after (hquiet rfl rfl) (fun _ _ => ?_) fun _ _ => hnone
  refine LockOrder.follows_after (hquiet rfl rfl) (fun _ s => ?_) fun _ _ => hnone
  have htakes : lockOrder.Takes ∅ .lockTasks .tasks := ⟨rfl, not_barred rfl⟩
  have habove : lockOrder.Above .main ∅ .tasks := ⟨Nat.zero_le _, by decide⟩
  refine Act.follows_andThen.mpr (Act.follows_perform.mpr ⟨htakes.allowed habove, fun _ => ?_⟩)
  change Act.Follows lockOrder.monitor _ ⟨.main, {.tasks}⟩ s _
  refine LockOrder.follows_after (hquiet rfl rfl) (fun _ s => ?_) fun _ _ => hset
  -- the set is below the end of its tasks
  refine Act.follows_andThen.mpr (Act.follows_perform.mpr ⟨⟨?_, not_barred rfl⟩, fun _ => ?_⟩)
  · rintro _ ⟨⟩
    exact ⟨Nat.zero_le 1, by decide⟩
  · have hclose : Ordered .main {.tasks} (inEngine closeEngine : Task Unit) :=
      ordered_inEngine ⟨Nat.zero_le _, by decide⟩ (ofUpkeep_closeEngine.ordered (by decide))
    exact (hclose _ s rfl).mono fun g _ _ hg => hg ▸ hset

end Watchcat
