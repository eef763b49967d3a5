import Watchcat.Engine.Types
import Watchcat.State.RetryRegistry
import Watchcat.State.Watchlist

/-!
# The daemon's data

The daemon behind its lock, the plan and outcome of a reconcile cycle, and the
answers and notifications of the local protocol.
-/

namespace Watchcat

/-- The control state file. -/
structure ControlState where
  version : Nat
  revision : Nat
  deriving DecidableEq, Repr

/-- `WatchcatDaemon`, without its paths; the permit is shared, not stored, and the event
log is its retention. -/
structure WatchcatDaemon where
  eventLog : Nat
  controlState : ControlState
  configModified : Option Int
  settings : Settings
  attentionTargetKeys : List String
  metrics : RecoveryMetrics

/-- `WatchcatDaemon::revision`. -/
def WatchcatDaemon.revision (d : WatchcatDaemon) : Nat := d.controlState.revision

/-- `ReconcilePlan`. -/
structure ReconcilePlan where
  now : Int
  revision : Nat
  targets : List WatchTarget
  settings : Settings

/-- `ReconcileOutcome`. -/
structure ReconcileOutcome where
  events : List EngineEvent
  sessions : List Session
  lifecycleProtected : Finset String

/-- A page of a session search. -/
structure SessionSearchPage where
  sessions : List Session
  nextCursor : Option String
  deriving DecidableEq, Repr

/-- `MessageReceipt`; a message is either started as a turn or steered into one. -/
structure MessageReceipt where
  provider : String
  sessionId : String
  turnId : String
  steered : Bool
  transport : MessageTransport
  deriving DecidableEq, Repr

/-- `InterruptReceipt`. -/
structure InterruptReceipt where
  provider : String
  sessionId : String
  turnId : String
  transport : MessageTransport
  deriving DecidableEq, Repr

/-- The record a successful response carries. -/
inductive RpcResult
  | ping
  | snapshot (s : Snapshot)
  | targets (ts : List WatchTarget)
  | added (added : Bool) (target : WatchTarget)
  | removed (removed : Bool)
  | policies (ps : List ResolvedPolicy)
  | updated
  | reset
  | settings (s : Settings)
  | subscribed
  | operation (o : RetryOperation)
  | page (watched : List Bool) (p : SessionSearchPage)
  | logs
  | message (r : MessageReceipt)
  | interrupted (r : InterruptReceipt)
  | validated

/-- `RpcError`. -/
structure RpcError where
  code : String
  message : String
  deriving DecidableEq, Repr

/-- `RpcResponse`. -/
structure RpcResponse where
  version : Nat
  id : String
  revision : Nat
  result : Option RpcResult
  error : Option RpcError

/-- A response with a result. -/
def RpcResponse.success (id : String) (revision : Nat) (r : RpcResult) : RpcResponse :=
  ⟨protocolVersion, id, revision, some r, none⟩

/-- A response with an error. -/
def RpcResponse.failure (id : String) (revision : Nat) (code message : String) : RpcResponse :=
  ⟨protocolVersion, id, revision, none, some ⟨code, message⟩⟩

/-- `RpcNotification`, without the data of the event. -/
structure RpcNotification where
  event : String
  revision : Nat
  deriving DecidableEq, Repr

/-- What wakes the stream of a subscriber. -/
inductive StreamEvent
  /-- The client has gone, or nobody is left who could notify. -/
  | closed
  | readFailed (e : Error)
  /-- The client has sent something. -/
  | unexpected
  | received (notification : RpcNotification)
  /-- Notifications were dropped before they could be sent on. -/
  | lagged
  | heartbeat

/-- What the task of a manual retry was spawned with. -/
structure RetryJob where
  operationId : String
  session : SessionRef
  settings : Settings
  generation : Nat
  revision : Nat

/-- What a critical section of the daemon lock is for. -/
inductive DaemonSection
  | prepare
  | commit
  | control (request : RpcRequest)
  | read

/-- What a critical section of the registry lock did. -/
inductive RegistrySection
  | lookup (answer : Option RetryOperation)
  | accept (answer : Option (RetryOperation × Bool))
  | rollback (id : String)
  | running (id : String)
  | finish (id : String)

end Watchcat
