import Mathlib.Logic.Relation
import Watchcat.Core.Interleaving
import Watchcat.Daemon.Serve

/-!
# The service as a system of tasks

The tasks of one process over what they share: the values behind locks, the
permit, the send boundary and the files. A call of a task is enabled where the
lock it needs is free, and reads and writes what the source shares. Providers,
clients, clocks and failing files may answer anything.
-/

namespace Watchcat

open Watchcat.Core Method

/-- The tasks of the service. -/
inductive Tid
  | main
  | reconcile
  | handler (n : Nat)
  | retry (n : Nat)
  deriving DecidableEq, Repr

/-- What has happened to the configuration file. -/
inductive ConfigEvent
  /-- It was written from outside. -/
  | edited
  /-- It was replaced by the daemon. -/
  | stored (settings : Settings) (replaced : Except Error (Option Settings))
  /-- Its modification time was read. -/
  | stamped
  /-- It was read otherwise than as it was. -/
  | misread (content : Except Error (Option Settings))

/-- The configuration file: what it parses to and when it was written. Its history and the
modification times it has had are only spoken about. -/
structure ConfigFile where
  content : Except Error (Option Settings) := .ok none
  modified : Option Int := none
  stamps : List Int := []
  history : List ConfigEvent := []

namespace ConfigFile

/-- The file written with the given content at the given time. -/
def written (f : ConfigFile) (content : Except Error (Option Settings)) (modified : Int)
    (event : ConfigEvent) : ConfigFile where
  content := content
  modified := some modified
  stamps := f.stamps ++ [modified]
  history := f.history ++ [event]

/-- The file with one more event in its history. -/
def noted (f : ConfigFile) (event : ConfigEvent) : ConfigFile :=
  { f with history := f.history ++ [event] }

/-- The file is written from outside, with any content. -/
def Edit (f f' : ConfigFile) : Prop := ∃ content modified, f' = f.written content modified .edited

/-- The daemon replaces the file, or fails to. -/
def Store (f f' : ConfigFile) (settings : Settings) (r : Except Error Unit) : Prop :=
  match r with
  | .ok _ => ∃ modified, f' =
      f.written (.ok (some settings)) modified (.stored settings f.content)
  | .error _ => f' = f

/-- The file is read: as it is, or not at all, and then it may look absent. -/
def Read (f f' : ConfigFile) (r : Except Error (Option Settings)) : Prop :=
  r = f.content ∧ f' = f ∨ (r = .ok none ∨ ∃ e, r = .error e) ∧ f' = f.noted (.misread f.content)

/-- The modification time is read; a failure looks like absence. -/
def Stamp (f f' : ConfigFile) (r : Option Int) : Prop :=
  (r = f.modified ∨ r = none) ∧ f' = f.noted .stamped

end ConfigFile

/-- What the tasks share, and the files. -/
structure World where
  -- behind locks
  daemon : WatchcatDaemon
  engine : WatchEngine
  registry : RetryOperationRegistry
  daemonLock : Option Tid := none
  engineLock : Option Tid := none
  registryLock : Option Tid := none
  tasksLock : Option Tid := none
  -- the permit and its send boundary
  permit : RecoveryPermit := {}
  boundary : Option Tid := none
  -- the window rules in force
  dialogs : Option DialogSettings := none
  -- the process
  running : Bool := false
  accepting : Bool := false
  shuttingDown : Bool := false
  reconcileAborted : Bool := false
  retriesAborted : Bool := false
  queued : List RetryJob := []
  -- the files
  config : ConfigFile := {}
  watchlist : Option WatchlistDocument := none
  controlState : Option ControlState := none
  operations : Option RetryOperationDocument := none

namespace World

/-- The watchlist as the store reads it. -/
def document (w : World) : WatchlistDocument := w.watchlist.getD {}

/-- A file read: its content, or any error. -/
def Reads {α : Type} (content : α) (r : Except Error α) : Prop := ∀ a, r = .ok a → a = content

/-- A file write: the new content, or any error and the old one. -/
def Writes (w w' : World) (written : World) (r : Except Error Unit) : Prop :=
  match r with
  | .ok _ => w' = written
  | .error _ => w' = w

/-- How a call of a task is answered. -/
def act (t : Tid) (w : World) : (op : Call) → Reply op → World → Prop
  -- files
  | .configModified, r, w' => ∃ config, w.config.Stamp config r ∧ w' = { w with config := config }
  | .readConfig, r, w' => ∃ config, w.config.Read config r ∧ w' = { w with config := config }
  | .writeConfig settings, r, w' =>
    ∃ config, w.config.Store config settings r ∧ w' = { w with config := config }
  | .readWatchlist, r, w' => Reads w.watchlist r ∧ w' = w
  | .writeWatchlist document, r, w' => w.Writes w' { w with watchlist := some document } r
  | .readControlState, r, w' => Reads w.controlState r ∧ w' = w
  | .writeControlState state, r, w' => w.Writes w' { w with controlState := some state } r
  | .readOperations, r, w' => Reads w.operations r ∧ w' = w
  | .writeOperations document, r, w' => w.Writes w' { w with operations := some document } r
  | .configureDialogs dialogs, _, w' => w' = { w with dialogs := some dialogs }
  -- the permit and its send boundary
  | .permitUpdate running targets generation, _, w' =>
    w' = { w with permit := .of running targets generation }
  | .permitAllows target generation, r, w' => r = w.permit.allows target generation ∧ w' = w
  | .permitGeneration, r, w' => r = w.permit.generation ∧ w' = w
  | .enterSendBoundary, _, w' => w.boundary = none ∧ w' = { w with boundary := some t }
  | .leaveSendBoundary, _, w' => w.boundary = some t ∧ w' = { w with boundary := none }
  -- locks
  | .lockDaemon _, r, w' =>
    w.daemonLock = none ∧ r = w.daemon ∧ w' = { w with daemonLock := some t }
  | .unlockDaemon daemon _ _, _, w' =>
    w.daemonLock = some t ∧ w' = { w with daemon := daemon, daemonLock := none }
  | .lockEngine, r, w' =>
    w.engineLock = none ∧ r = w.engine ∧ w' = { w with engineLock := some t }
  | .unlockEngine engine, _, w' =>
    w.engineLock = some t ∧ w' = { w with engine := engine, engineLock := none }
  | .lockRegistry, r, w' =>
    w.registryLock = none ∧ r = w.registry ∧ w' = { w with registryLock := some t }
  | .unlockRegistry registry _, _, w' =>
    w.registryLock = some t ∧ w' = { w with registry := registry, registryLock := none }
  | .lockTasks, _, w' => w.tasksLock = none ∧ w' = { w with tasksLock := some t }
  | .unlockTasks, _, w' => w.tasksLock = some t ∧ w' = { w with tasksLock := none }
  -- tasks and shutdown
  | .spawnRetry job, _, w' => w' = { w with queued := w.queued ++ [job] }
  | .isShuttingDown, r, w' => r = w.shuttingDown ∧ w' = w
  | .setShuttingDown, _, w' => w' = { w with shuttingDown := true }
  | .abortReconcile, _, w' => w' = { w with reconcileAborted := true }
  | .abortRetries, _, w' => w' = { w with retriesAborted := true }
  -- the clock, the providers and the clients answer anything
  | _, _, w' => w' = w

/-- A task begins. -/
def begins (w : World) : Tid → Prog Reply Unit → World → Prop
  | .main, p, w' => w.running ∧ w.accepting ∧ p = (shutdown ()).bind (fun _ => .pure ()) ∧
      w' = { w with accepting := false }
  | .reconcile, p, w' => w.running ∧ !w.reconcileAborted ∧
      p = (reconcileIteration ()).bind (fun _ => .pure ()) ∧ w' = w
  | .handler _, p, w' => w.running ∧ w.accepting ∧ w' = w ∧
      ∃ rounds, p = (serveConnection rounds ()).bind fun _ => .pure ()
  | .retry _, p, w' => w.running ∧ !w.retriesAborted ∧ ∃ earlier job later,
      w.queued = earlier ++ job :: later ∧ p = (retryTask job ()).bind (fun _ => .pure ()) ∧
      w' = { w with queued := earlier ++ later }

/-- What a dropped task leaves behind: its guards are released. -/
def released (w : World) (t : Tid) (engine : WatchEngine) : World :=
  { w with
    engine := if w.engineLock = some t then engine else w.engine
    engineLock := if w.engineLock = some t then none else w.engineLock
    boundary := if w.boundary = some t then none else w.boundary }

/-- An aborted task is dropped at a point where it waits; the other locks it never holds there. -/
def drops (w : World) (t : Tid) (w' : World) : Prop :=
  (match t with
    | .reconcile => w.reconcileAborted = true
    | .retry _ => w.retriesAborted = true
    | _ => False) ∧
  w.daemonLock ≠ some t ∧ w.registryLock ≠ some t ∧ ∃ engine, w' = w.released t engine

/-- The configuration file is edited by hand. -/
def edited (w w' : World) : Prop :=
  ∃ config, w.config.Edit config ∧ w' = { w with config := config }

/-- What is left of the world when its process has ended: the files. -/
def ended (w : World) : World where
  daemon := w.daemon
  engine := w.engine
  registry := w.registry
  config := w.config
  watchlist := w.watchlist
  controlState := w.controlState
  operations := w.operations

/-- The calls of a thread, with no other thread and no hand at the configuration file. -/
def bare : System Reply Tid World where
  act := act
  begins := fun _ _ _ _ => False
  drops := fun _ _ _ => False
  changes := fun _ _ => False
  restarts := fun _ _ => False

/-- The configuration file is edited by hand, any number of times. -/
def Edits : World → World → Prop := Relation.ReflTransGen edited

/-- The calls of a thread, with edits of the configuration file before each. -/
def noisy : System Reply Tid World where
  act := fun t w op r w' => ∃ mid, w.Edits mid ∧ act t mid op r w'
  begins := fun _ _ _ _ => False
  drops := fun _ _ _ => False
  changes := edited
  restarts := fun _ _ => False

/-- The process ends at any moment and is started again; a start that fails leaves no task. -/
def restarts (w w' : World) : Prop :=
  ∃ dryRun calls started mid,
    bare.Alone .main w.ended (startService dryRun ()) calls (started, ()) mid ∧
    match started with
    | .ok (daemon, engine, registry) => w' = { mid with
        daemon := daemon
        engine := engine
        registry := registry
        running := true
        accepting := true }
    | .error _ => w' = mid

end World

/-- The service. -/
def service : System Reply Tid World where
  act := World.act
  begins := World.begins
  drops := World.drops
  changes := World.edited
  restarts := World.restarts

/-- Before the first start nothing runs and there is no file. -/
def World.initial : World where
  daemon := ⟨0, ⟨2, 0⟩, none, {}, [], ⟨0, 0, 0, 100⟩⟩
  engine := .new {} ∅ [] .initial 0 false
  registry := {}

/-- The state in which every run begins. -/
def initial : Core.Config Reply Tid World := ⟨World.initial, fun _ => none⟩

end Watchcat
