import Watchcat.Core.Imperative
import Watchcat.Daemon.Types

/-!
# The calls of the service

Everything the service does that is not a computation on its own values: the
clock, the providers, the files, the shared permit, the locks, its tasks and its
clients. A call that can fail is answered by a result. The iteration order of a
hash map is a call too, answered by an arrangement of its entries. A lock call
names its critical section, so that a run shows which section it enters and
leaves.
-/

namespace Watchcat

open Watchcat.Core

/-- A call of the service. -/
inductive Call
  -- clock and randomness
  | now
  | newUuid
  -- iteration orders of hash maps
  | pendingOrder (entries : List PendingRecovery)
  | providerOrder (names : List String)
  | operationOrder (entries : List RetryOperation)
  -- providers
  | newProvider (provider : String)
  | startProvider (provider : String)
  | closeProvider (provider : String)
  | recentSessions (provider : String) (cutoff : Int)
  | searchSessions (provider query : String) (cursor : Option String) (limit : Nat)
  | validateSession (provider sessionId : String)
  | sessionLogs (provider sessionId : String) (limit : Nat)
  | latestFailure (provider sessionId : String)
  | turnOutcome (provider sessionId turnId : String)
  | resume (provider sessionId prompt idempotencyKey : String)
  | sendMessage (provider sessionId message : String)
  | interrupt (provider sessionId : String)
  -- files
  | configModified
  | readConfig
  | writeConfig (settings : Settings)
  | readWatchlist
  | writeWatchlist (document : WatchlistDocument)
  | readState
  | writeState (state : RuntimeState)
  | readControlState
  | writeControlState (state : ControlState)
  | readOperations
  | writeOperations (document : RetryOperationDocument)
  | appendLog (retention : Nat) (events : List EngineEvent)
  | configureDialogs (dialogs : DialogSettings)
  -- the recovery permit
  | permitUpdate (running : Bool) (targets : List WatchTarget) (generation : Nat)
  | permitAllows (target : WatchTarget) (generation : Nat)
  | permitGeneration
  | enterSendBoundary
  | leaveSendBoundary
  -- locks
  | lockDaemon (section_ : DaemonSection)
  | unlockDaemon (daemon : WatchcatDaemon) (section_ : DaemonSection) (answer : Option RpcResponse)
  | lockEngine
  | unlockEngine (engine : WatchEngine)
  | lockRegistry
  | unlockRegistry (registry : RetryOperationRegistry) (section_ : RegistrySection)
  | lockTasks
  | unlockTasks
  -- tasks and shutdown
  | spawnRetry (job : RetryJob)
  | retryPanicked (operationId : String)
  | reconcilePanicked
  | isShuttingDown
  | setShuttingDown
  | abortReconcile
  | abortRetries
  | joinRetries
  -- clients
  | readRequest
  | writeResponse (response : RpcResponse)
  | notify (notification : RpcNotification)
  -- subscribers
  | subscribe
  | nextEvent
  | writeNotification (notification : RpcNotification)

/-- The arrangements of the entries of a hash map. -/
def Arrangement {α : Type} (entries : List α) : Type := {order : List α // order.Perm entries}

/-- The answer of a call. -/
@[reducible] def Reply : Call → Type
  | .now => Int
  | .newUuid => String
  | .pendingOrder entries => Arrangement entries
  | .providerOrder names => Arrangement names
  | .operationOrder entries => Arrangement entries
  | .newProvider _ => Except Error Unit
  | .startProvider _ => Except Error Unit
  | .closeProvider _ => Except Error Unit
  | .recentSessions _ _ => Except Error (List Session)
  | .searchSessions _ _ _ _ => Except Error SessionSearchPage
  | .validateSession _ _ => Except Error Unit
  | .sessionLogs _ _ _ => Except Error Unit
  | .latestFailure _ _ => Except Error (Option Failure)
  | .turnOutcome _ _ _ => Except Error TurnOutcome
  | .resume _ _ _ _ => Except Error ResumeReceipt
  | .sendMessage _ _ _ => Except Error MessageReceipt
  | .interrupt _ _ => Except Error InterruptReceipt
  | .configModified => Option Int
  | .readConfig => Except Error (Option Settings)
  | .writeConfig _ => Except Error Unit
  | .readWatchlist => Except Error (Option WatchlistDocument)
  | .writeWatchlist _ => Except Error Unit
  | .readState => Except Error (Option RuntimeState)
  | .writeState _ => Except Error Unit
  | .readControlState => Except Error (Option ControlState)
  | .writeControlState _ => Except Error Unit
  | .readOperations => Except Error (Option RetryOperationDocument)
  | .writeOperations _ => Except Error Unit
  | .appendLog _ _ => Except Error Unit
  | .permitAllows _ _ => Bool
  | .permitGeneration => Nat
  | .lockDaemon _ => WatchcatDaemon
  | .lockEngine => WatchEngine
  | .lockRegistry => RetryOperationRegistry
  | .isShuttingDown => Bool
  | .readRequest => Except Error RpcRequest
  | .writeResponse _ => Except Error Unit
  | .subscribe => Bool
  | .nextEvent => StreamEvent
  | .writeNotification _ => Except Error Unit
  | _ => Unit

/-- A method of the service on a state. -/
abbrev Method (σ α : Type) : Type := Act Reply σ Error α

/-- A task of the service: a method without a state of its own. -/
abbrev Task (α : Type) : Type := Method Unit α

namespace Method

variable {σ : Type}

/-- Perform a call. -/
def perform (op : Call) : Method σ (Reply op) := Act.perform op

variable {α : Type}

/-- Go on with a value, or panic where there is none. -/
def orPanic (found : Option α) : Method σ α :=
  Act.ofExcept (found.elim (.error .panicked) .ok)

/-- What follows sees the value, or the panic. -/
theorem follows_orPanic {S : Type} {M : Monitor Reply S} {g : S} {s : σ} {found : Option α}
    {Q : S → Except Error α → σ → Prop} :
    (orPanic found : Method σ α).Follows M g s Q ↔
      (found = none → Q g (.error .panicked) s) ∧ ∀ a, found = some a → Q g (.ok a) s := by
  rw [orPanic, Act.follows_ofExcept]
  cases found with
  | none => simp
  | some a => simp

/-- The result that the source matches on: a panic goes past the match. -/
def attempted (m : Method σ α) : Method σ (Except Error α) :=
  Act.attemptUnless Error.isPanic m

end Method

end Watchcat
