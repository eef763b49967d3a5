import Watchcat.Core.Table
import Watchcat.OsPermissions.Scan

/-!
# The dialog monitor

The monitor keeps the processes it observes and those it could not subscribe to.
It runs on the main run loop, one callback after the other: a queued scan or
reconciliation, a notice of the workspace, the timer of a retry, a change of the
rules.
-/

namespace Watchcat

open Watchcat.Core Desktop

/-- `PendingProcess`: a process that could not be subscribed to, and whether a timer is set to try
it again. -/
structure PendingProcess where
  app : App
  attempts : Nat
  timer : Bool
  deriving DecidableEq, Repr

/-- `Monitor`; the permit is shared, not stored. -/
structure DesktopMonitor where
  failed : Table Int PendingProcess := Table.empty
  initialized : Bool := false
  processes : Table Int Process := Table.empty
  dryRun : Bool

/-- `reset_failed`. -/
def resetFailed {β : Type} (failed : Table Int β) (pid : Option Int) (reset : Bool) : Table Int β :=
  if reset then Table.empty
  else match pid with
    | some pid => failed.erase pid
    | none => failed

variable {σ ε : Type}

/-- The keys of the entries that pass a test, which is made of each in turn. -/
def passing {β : Type} (test : Int → β → Desktop σ ε Bool) :
    List ((_ : Int) × β) → Desktop σ ε (List Int)
  | [] => return []
  | entry :: entries => do
    let keep ← test entry.1 entry.2
    let keys ← passing test entries
    return if keep then entry.1 :: keys else keys

/-- A window that is still expected to close when its process is detached. -/
def abandonDialog (pid : Int) (app : App) (dialog : Dialog) : Desktop σ ε Unit := do
  if dialog.awaitingClose then
    let _ ← record "click.unconfirmed" (some pid) (← appName app) dialog.lastRule dialog.lastButton
      "host exited or rule removed before close was confirmed"

/-- A process that is not observed any more is detached. -/
def keepProcess (rules : DialogSettings) (pid : Int) (process : Process) :
    Desktop σ ε Bool := do
  if ← isObserved rules process.app then return true
  else
    let _ ← record "process.detached" (some pid) (← appName process.app) none none
      "process exited or no enabled rule applies"
    Act.forEach (abandonDialog pid process.app) process.dialogs
    return false

/-- A process is subscribed to anew and keeps what is known about its windows. -/
def reconnectProcess (process : Process) : Desktop σ ε Process := do
  match ← Act.attempt (newProcess process.app) with
  | .error _ => return process
  | .ok replacement =>
    Act.forEach (fun dialog => watchDialog dialog.element replacement.app.pid) process.dialogs
    return { replacement with dialogs := process.dialogs }

/-- The timer of `attach`: an application that may still be starting is tried again. -/
def retryTimer (pid : Int) (attempts : Nat) (e : AxError) : Desktop σ ε Bool :=
  if attempts < 4 ∧ (e = .cannotComplete ∨ e = .invalidUIElement) then
    perform (.retryLater pid attempts)
  else return false

namespace DesktopMonitor

/-- `Monitor::attach`. -/
def attach (app : App) (previousAttempts : Nat) : Desktop DesktopMonitor ε Unit := do
  match ← Act.attempt (newProcess app) with
  | .ok process =>
    Act.modify fun m => { m with failed := m.failed.erase app.pid }
    let _ ← record "process.observed" (some app.pid) (← appName app) none none
      ("subscribed: " ++ ", ".intercalate process.subscriptions ++ "; initial window check")
    Act.modify fun m => { m with processes := m.processes.insert app.pid process }
    perform (.queueScan app.pid)
  | .error e =>
    let attempts := previousAttempts + 1
    let timer ← retryTimer app.pid attempts e
    let _ ← record (if timer then "process.retry" else "process.unavailable") (some app.pid)
      (← appName app) none none
      ("AX subscription attempt " ++ toString attempts ++ "/4: " ++ e.debug)
    Act.modify fun m => { m with failed := m.failed.insert app.pid ⟨app, attempts, timer⟩ }

/-- Accessibility is not granted: everything is dropped, and the status says so. -/
def requirePermission : Desktop DesktopMonitor ε Unit := do
  Act.modify fun m => { m with processes := Table.empty, failed := Table.empty }
  let previous := (← perform .readStatus).state
  let executable ← perform .executable
  updateStatus fun status => { status with
    state := "accessibility_required"
    listeningProcesses := 0
    unavailableProcesses := 0
    lastResult := executable.map fun path =>
      "Enable Accessibility for " ++ path ++ " and restart the service" }
  if previous ≠ "accessibility_required" then
    let _ ← record "monitor.permission_required" none "watchcatd" none none
      "Grant Accessibility to watchcatd and restart"

/-- The observed applications that are not known yet are attached; the result says whether the
permit lasted. -/
def attachApplications (rules : DialogSettings) : List App → Desktop DesktopMonitor ε Bool
  | [] => return true
  | app :: apps => do
    if !(← perform .readPermit) then return false
    else
      let m ← Act.get
      if (m.processes.lookup app.pid).isSome || (m.failed.lookup app.pid).isSome then
        attachApplications rules apps
      else if ← isObserved rules app then
        let _ ← record "process.discovered" (some app.pid) (← appName app) none none
          (if (← Act.get).initialized then
            "new process from application-list event; installing window observer"
          else "initial application snapshot; installing window observer")
        attach app 0
        attachApplications rules apps
      else attachApplications rules apps

/-- The end of a reconciliation: the status, and a scan of every process. -/
def settleReconcile : Desktop DesktopMonitor ε Unit := do
  Act.modify fun m => { m with initialized := true }
  let m ← Act.get
  updateStatus fun status => { status with
    listeningProcesses := m.processes.size
    unavailableProcesses := m.failed.size
    state := if m.failed.size ≠ 0 then "partial"
      else if m.dryRun then "dry_run"
      else if m.processes.size = 0 then "waiting_for_system_ui"
      else "listening" }
  Act.forEach (fun pid => perform (.queueScan pid)) m.processes.keys

/-- `Monitor::reconcile`. -/
def reconcile : Desktop DesktopMonitor ε Unit := do
  if !(← perform .trusted) then requirePermission
  else
    let rules := (← perform .readRules).getD {}
    let kept ← passing (keepProcess rules) (← Act.get).processes.entries
    Act.modify fun m => { m with processes := m.processes.retainKeys kept.contains }
    let pending ← passing (fun _ pending => isObserved rules pending.app)
      (← Act.get).failed.entries
    Act.modify fun m => { m with failed := m.failed.retainKeys pending.contains }
    if ← attachApplications rules (← perform .runningApplications) then settleReconcile

/-- `Monitor::reconnect`. -/
def reconnect : Desktop DesktopMonitor ε Unit := do
  Act.forEach (fun entry => do
    let process ← reconnectProcess entry.2
    Act.modify fun m => { m with processes := m.processes.upsert entry.1 process })
    (← Act.get).processes.entries

/-- Store what a callback has made of a process. -/
def setProcess (pid : Int) (process : Process) : Desktop DesktopMonitor ε Unit :=
  Act.modify fun m => { m with processes := m.processes.upsert pid process }

/-- `Monitor::scan`. -/
def scan [Lowercase] (pid : Int) : Desktop DesktopMonitor ε Unit := do
  if !(← perform .trusted) then reconcile
  else
    let m ← Act.get
    match m.processes.lookup pid with
    | none => return ()
    | some process =>
      if ← perform (.isTerminated process.app) then return ()
      else match ← Act.within process (Act.attempt (scanProcess m.dryRun)) with
        | (.ok _, process) => setProcess pid { process with lastError := none }
        | (.error e, process) =>
          if process.lastError ≠ some e then
            let _ ← record "process.read_failed" (some pid) (← appName process.app) none none
              ("AXWindows: " ++ e.debug)
          setProcess pid { process with lastError := some e }
          updateStatus fun status => { status with
            state := "partial"
            lastResult := some ("Cannot read system dialog: " ++ e.debug) }

/-! ## Callbacks -/

/-- The callback of `queue_scan`. -/
def queued [Lowercase] (pid : Int) : Desktop DesktopMonitor ε Unit := do
  if ← perform .readPermit then
    if pid = 0 then reconcile else scan pid

/-- The callback of a notice of the workspace, which may name a process and may ask to reconnect. -/
def notified (pid : Option Int) (reset : Bool) : Desktop DesktopMonitor ε Unit := do
  Act.modify fun m => { m with failed := resetFailed m.failed pid reset }
  if reset then reconnect
  perform (.queueScan 0)

/-- A process that could not be subscribed to is tried again. -/
def retryPending (pid : Int) (pending : PendingProcess) : Desktop DesktopMonitor ε Unit := do
  Act.modify fun m => { m with failed := m.failed.erase pid }
  if !(← perform (.isTerminated pending.app)) then
    if ← perform .readPermit then attach pending.app pending.attempts

/-- The callback of the timer of a retry. -/
def retried (pid : Int) : Desktop DesktopMonitor ε Unit := do
  match (← Act.get).failed.lookup pid with
  | none => perform (.queueScan 0)
  | some pending => do
    retryPending pid pending
    perform (.queueScan 0)

/-- The callback of `configuration_changed`. -/
def configured : Desktop DesktopMonitor ε Unit := do
  Act.modify fun m => { m with
    failed := Table.empty
    processes := m.processes.filterMap fun process => some { process with
      dialogs := process.dialogs.map fun dialog => { dialog with lastObservation := none } } }
  perform (.queueScan 0)

end DesktopMonitor

end Watchcat
