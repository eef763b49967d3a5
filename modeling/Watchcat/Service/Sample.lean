import Watchcat.Service.Calls

/-!
# A sample session

One watched session and a service whose calls all succeed, for runs on fixed
inputs.
-/

namespace Watchcat

open Watchcat.Core

/-- A session added by hand. -/
def sampleTarget : WatchTarget where
  source := .manual
  provider := "codex"
  sessionId := "s"
  label := none
  title := none
  addedAt := 0
  lastActivityAt := none

/-- A turn of the session that failed on a lost connection. -/
def sampleFailure (turnId : String) : Failure where
  provider := "codex"
  sessionId := "s"
  turnId := turnId
  condition := "network.connection_failed"
  providerCode := ""
  message := ""
  retryAfterSeconds := none
  model := none

/-- The acknowledgement of a recovery turn. -/
def sampleReceipt (turnId : String) : ResumeReceipt := ⟨"codex", "s", turnId, .appServer⟩

/-- An engine that watches the session. -/
def sampleEngine (settings : Settings) : WatchEngine :=
  .new settings {"codex"} [sampleTarget] .initial 10000 false

/-- A daemon at a revision. -/
def sampleDaemon (revision : Nat) : WatchcatDaemon where
  eventLog := 10000
  controlState := ⟨2, revision⟩
  configModified := none
  settings := {}
  attentionTargetKeys := []
  metrics := ⟨0, 0, 0, 100⟩

/-- The time, the identifier drawn, the file of operations, and what a provider says about the
session. -/
structure SampleProvider where
  time : Int := 0
  uuid : String := ""
  operations : Option RetryOperationDocument := none
  latest : Option Failure := none
  outcome : TurnOutcome := .inProgress
  resumed : Except Error ResumeReceipt := .error (.message "busy")

/-- Every call succeeds; the provider answers as scripted. -/
def SampleProvider.answer (provider : SampleProvider) : (op : Call) → Reply op
  | .now => provider.time
  | .newUuid => provider.uuid
  | .pendingOrder entries => (⟨entries, .refl _⟩ : Arrangement entries)
  | .providerOrder names => (⟨names, .refl _⟩ : Arrangement names)
  | .operationOrder entries => (⟨entries, .refl _⟩ : Arrangement entries)
  | .newProvider _ | .startProvider _ | .closeProvider _ | .validateSession _ _ => .ok ()
  | .sessionLogs _ _ _ => .ok ()
  | .recentSessions _ _ => .ok []
  | .searchSessions _ _ _ _ => .ok ⟨[], none⟩
  | .latestFailure _ _ => .ok provider.latest
  | .turnOutcome _ _ _ => .ok provider.outcome
  | .resume _ _ _ _ => provider.resumed
  | .sendMessage _ _ _ => .error (.message "busy")
  | .interrupt _ _ => .error (.message "busy")
  | .configModified => none
  | .readConfig => .ok none
  | .readWatchlist => .ok none
  | .readState => .ok none
  | .readControlState => .ok none
  | .readOperations => .ok provider.operations
  | .writeConfig _ | .writeWatchlist _ | .writeState _ | .writeControlState _ => .ok ()
  | .writeOperations _ | .appendLog _ _ | .writeResponse _ => .ok ()
  | .permitAllows _ _ => true
  | .permitGeneration => (0 : Nat)
  | .lockDaemon _ => sampleDaemon 0
  | .lockEngine => sampleEngine {}
  | .lockRegistry => {}
  | .isShuttingDown => false
  | .readRequest => .error (.message "closed")
  | .subscribe => true
  | .nextEvent => .closed
  | .writeNotification _ => .ok ()
  | .configureDialogs _ | .permitUpdate _ _ _ | .enterSendBoundary | .leaveSendBoundary
  | .unlockDaemon _ _ _ | .unlockEngine _ | .unlockRegistry _ _ | .lockTasks | .unlockTasks
  | .spawnRetry _ | .retryPanicked _ | .reconcilePanicked | .setShuttingDown | .abortReconcile
  | .abortRetries | .joinRetries | .notify _ => ()

end Watchcat
