import Watchcat.Core.Schedule
import Watchcat.Daemon.Sample

/-!
# Playing the service

The calls of the tasks of one process, answered as a script says: locks are given
where they are free, files and clients answer or fail. A run of several tasks over
the shared world is then computed from its script.
-/

namespace Watchcat

open Watchcat.Core

/-- What a call of a task meets. -/
inductive Cue
  | plain
  | failing
  | asked (request : RpcRequest)

/-- What the files meet. -/
def Cue.turn : Cue → Turn
  | .failing => .failing
  | _ => .plain

namespace World

/-- The answer of a call of a task and the world it leaves. -/
def attend (w : World) (cue : Cue) (t : Tid) : (op : Call) → Reply op × World
  | .readRequest => match cue with
    | .asked request => (.ok request, w)
    | _ => (.error unavailable, w)
  | .writeResponse _ => w.writing cue.turn w
  | .readOperations => (reading cue.turn w.operations, w)
  | .writeOperations document => w.writing cue.turn { w with operations := some document }
  | .permitAllows target generation => (w.permit.allows target generation, w)
  | .enterSendBoundary => ((), { w with boundary := some t })
  | .leaveSendBoundary => ((), { w with boundary := none })
  | .lockDaemon _ => (w.daemon, { w with daemonLock := some t })
  | .unlockDaemon daemon _ _ => ((), { w with daemon := daemon, daemonLock := none })
  | .lockEngine => (w.engine, { w with engineLock := some t })
  | .unlockEngine engine => ((), { w with engine := engine, engineLock := none })
  | .lockRegistry => (w.registry, { w with registryLock := some t })
  | .unlockRegistry registry _ => ((), { w with registry := registry, registryLock := none })
  | .lockTasks => ((), { w with tasksLock := some t })
  | .unlockTasks => ((), { w with tasksLock := none })
  | .spawnRetry job => ((), { w with queued := w.queued ++ [job] })
  | .isShuttingDown => (w.shuttingDown, w)
  | .setShuttingDown => ((), { w with shuttingDown := true })
  | .abortReconcile => ((), { w with reconcileAborted := true })
  | .abortRetries => ((), { w with retriesAborted := true })
  | op => w.answer cue.turn op

/-- Whether the call can be answered: locks are free, guards are given back by who has them. -/
def attends (w : World) (t : Tid) : Call → Bool
  | .enterSendBoundary => w.boundary.isNone
  | .leaveSendBoundary => w.boundary == some t
  | .lockDaemon _ => w.daemonLock.isNone
  | .unlockDaemon _ _ _ => w.daemonLock == some t
  | .lockEngine => w.engineLock.isNone
  | .unlockEngine _ => w.engineLock == some t
  | .lockRegistry => w.registryLock.isNone
  | .unlockRegistry _ _ => w.registryLock == some t
  | .lockTasks => w.tasksLock.isNone
  | .unlockTasks => w.tasksLock == some t
  | _ => true

theorem act_attend (t : Tid) (w : World) (cue : Cue) (op : Call) (h : w.attends t op = true) :
    act t w op (w.attend cue t op).1 (w.attend cue t op).2 := by
  cases op with
  | readRequest => cases cue <;> rfl
  | writeResponse => cases cue <;> rfl
  | readOperations => exact ⟨reads_reading _ _, rfl⟩
  | writeOperations => exact writes_writing _ _ _
  | enterSendBoundary | lockTasks => exact ⟨Option.isNone_iff_eq_none.mp h, rfl⟩
  | lockDaemon | lockEngine | lockRegistry => exact ⟨Option.isNone_iff_eq_none.mp h, rfl, rfl⟩
  | leaveSendBoundary | unlockDaemon | unlockEngine | unlockRegistry | unlockTasks =>
    exact ⟨beq_iff_eq.mp h, rfl⟩
  | permitAllows | isShuttingDown => exact ⟨rfl, rfl⟩
  | spawnRetry | setShuttingDown | abortReconcile | abortRetries => rfl
  | readConfig | writeConfig | configModified | readWatchlist | readControlState | writeWatchlist
  | writeControlState | permitGeneration | configureDialogs | permitUpdate =>
    exact act_answer t w cue.turn _ rfl
  | _ => rfl

/-- One process with no other around it. -/
def bareHost : Host bare Cue where
  answer cue w op t := w.attend cue t op
  enabled _ w op t := w.attends t op
  sound cue w op t h := act_attend t w cue op h

end World

/-- The tasks of the service. -/
def serviceHost : Host service Cue where
  answer cue w op t := w.attend cue t op
  enabled _ w op t := w.attends t op
  sound cue w op t h := World.act_attend t w cue op h

/-- The world of a first start. -/
def World.opened : World :=
  match World.bareHost.alone .main .plain [] World.initial.ended (startService false ()) with
  | some ((.ok (daemon, engine, registry), ()), mid) =>
    { mid with
      daemon := daemon
      engine := engine
      registry := registry
      running := true
      accepting := true }
  | some ((.error _, ()), mid) => mid
  | none => World.initial

/-- The service has started. -/
theorem opened_run : service.Run initial [.restarts] ⟨World.opened, fun _ => none⟩ := by
  have hopened : ∃ started mid, World.bareHost.alone .main .plain [] World.initial.ended
      (startService false ()) = some (started, mid) := ⟨_, _, rfl⟩
  obtain ⟨⟨started, ⟨⟩⟩, mid, hstarted⟩ := hopened
  obtain ⟨calls, halone⟩ := World.bareHost.alone_sound hstarted
  have hworld : World.restarts World.initial World.opened := by
    refine ⟨false, calls, started, mid, halone, ?_⟩
    unfold World.opened
    rw [hstarted]
    cases started <;> rfl
  exact .snoc (.nil initial) (.restarts hworld)

/-- A client connects. -/
def withHandler (n rounds : Nat) (c : Core.Config Reply Tid World) : Core.Config Reply Tid World :=
  ⟨c.world, Function.update c.pool (.handler n) (some ((serveConnection rounds ()).bind fun _ =>
    .pure ()))⟩

theorem withHandler_run {tr : List (Label Reply Tid)} {c : Core.Config Reply Tid World}
    (h : service.Run initial tr c) (n rounds : Nat) (hrunning : c.world.running = true)
    (haccepting : c.world.accepting = true)
    (hfree : c.pool (.handler n) = none) :
    service.Run initial (tr ++ [.begins (.handler n)]) (withHandler n rounds c) :=
  .snoc h (.begins (.inl hfree) ⟨hrunning, haccepting, rfl, rounds, rfl⟩)

end Watchcat
