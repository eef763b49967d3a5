import Watchcat.Daemon.Locks
import Watchcat.Daemon.Playing

/-!
# No circle of waiting tasks

In every state of a run each lock is held by a task that follows the order of the
locks. So the tasks never wait for each other in a circle, and the one that holds
the daemon waits for nobody.
-/

namespace Watchcat

open Watchcat.Core Method System

/-! ## Who holds the locks in a run -/

variable {w w' : World} {t : Tid}

theorem holderAfter_quiet {op : Call} (hop : op.ofLocks = false) (holder : Lock → Option Tid) :
    lockOrder.holderAfter t op holder = holder := by
  have hquiet : lockOrder.Quiet ∅ op := quiet_call hop fun h => absurd h (Finset.notMem_empty _)
  funext l
  rw [LockOrder.holderAfter, hquiet.1, hquiet.2.1]
  simp

/-- A call gives the locks to its task, or frees them, as its name says. -/
theorem act_holder {op : Call} {r : Reply op} (ha : World.act t w op r w') :
    w'.holder = lockOrder.holderAfter t op w.holder ∧ w'.accepting = w.accepting := by
  cases op with
  | lockDaemon | lockEngine | lockRegistry =>
    obtain ⟨_, _, rfl⟩ := ha
    refine ⟨?_, rfl⟩
    funext l
    cases l <;> rfl
  | unlockDaemon | unlockEngine | unlockRegistry | lockTasks | unlockTasks | enterSendBoundary
    | leaveSendBoundary =>
    obtain ⟨_, rfl⟩ := ha
    refine ⟨?_, rfl⟩
    funext l
    cases l <;> rfl
  | writeWatchlist | writeControlState | writeOperations =>
    rw [holderAfter_quiet rfl]
    cases r <;> (obtain rfl := ha; exact ⟨rfl, rfl⟩)
  | joinRetries =>
    obtain rfl := ha
    exact ⟨rfl, rfl⟩
  | _ =>
    rw [holderAfter_quiet rfl]
    first
    | (obtain rfl := ha; exact ⟨rfl, rfl⟩)
    | (obtain ⟨_, rfl⟩ := ha; exact ⟨rfl, rfl⟩)
    | (obtain ⟨_, _, rfl⟩ := ha; exact ⟨rfl, rfl⟩)

/-- Nothing is locked while the service starts. -/
theorem startService_unlocked (dryRun : Bool) :
    (startService dryRun).Uses fun op => op.ofLocks = false := by
  have hdaemon : ∀ {σ α : Type} {m : Method σ α}, OfDaemon m →
      m.Uses fun op => op.ofLocks = false :=
    fun h => h.mono fun op hop => by cases op <;> first | rfl | cases hop
  have hregistry : ∀ {σ α : Type} {m : Method σ α}, OfRegistry m →
      m.Uses fun op => op.ofLocks = false :=
    fun h => h.mono fun op hop => by cases op <;> first | rfl | cases hop
  have hstate : (loadRuntimeState : Task RuntimeState).Uses fun op => op.ofLocks = false := by
    refine .andThen (Act.uses_perform rfl) fun r => .andThen (Act.uses_ofExcept r) fun _ => ?_
    exact Act.uses_ite (Act.uses_fail _) (Act.uses_ret _)
  have hcontrol : (loadControlState : Task ControlState).Uses fun op => op.ofLocks = false := by
    refine .andThen (Act.uses_perform rfl) fun r => .andThen (Act.uses_ofExcept r) fun _ => ?_
    exact Act.uses_ite (Act.uses_fail _)
      (.andThen (hdaemon ofDaemon_nextRevision).within fun _ => Act.uses_ret _)
  have hload : loadDaemon.Uses fun op => op.ofLocks = false := by
    refine .andThen (Act.uses_perform rfl) fun _ => .andThen (hdaemon ofDaemon_loadSettings)
      fun _ => ?_
    refine .andThen (hdaemon ofDaemon_listTargets) fun _ => .andThen hstate fun _ => ?_
    refine .andThen (Act.uses_perform rfl) fun _ => .andThen hcontrol fun _ => ?_
    exact .andThen (Act.uses_perform rfl) fun _ => Act.uses_ret _
  have hoperations : loadOperations.Uses fun op => op.ofLocks = false := by
    refine .andThen (Act.uses_perform rfl) fun r => .andThen (Act.uses_ofExcept r) fun found => ?_
    have hsave := hregistry ofRegistry_saveOperations
    have hload : ∀ o, (loadOperation o).Uses fun op => op.ofLocks = false := fun o =>
      Act.uses_ite (.andThen (Act.uses_perform rfl) fun _ => Act.uses_modify _) (Act.uses_modify _)
    split
    · exact hsave
    · have hrest := fun operations => (Act.Uses.forEach hload operations).andThen fun _ => hsave
      exact Act.uses_ite (.andThen (Act.uses_fail _) fun _ => hrest _) (hrest _)
  refine .andThen hload fun d => .andThen ?_ fun engine => .andThen hoperations.within fun _ =>
    Act.uses_ret _
  exact .andThen (hdaemon ofDaemon_listTargets) fun _ => .andThen hstate fun _ => Act.uses_ret _

theorem alone_holder {α : Type} {p : Prog Reply α} {calls : List (Prog.Event Reply)} {a : α}
    (h : World.bare.Alone t w p calls a w') (hp : p.Calls fun op => op.ofLocks = false) :
    w'.holder = w.holder := by
  induction h with
  | pure => rfl
  | call ha _ ih =>
    rw [ih (hp.2 _), (act_holder ha).1, holderAfter_quiet hp.1]

/-- A restart frees all locks. -/
theorem restarts_holder (h : World.restarts w w') (l : Lock) : w'.holder l = none := by
  obtain ⟨dryRun, calls, started, mid, hstart, hstarted⟩ := h
  have hmid := alone_holder hstart (startService_unlocked dryRun ())
  have hnone : mid.holder l = none := by
    rw [hmid]
    cases l <;> rfl
  cases started with
  | ok _ =>
    obtain rfl := hstarted
    cases l <;> exact hnone
  | error _ =>
    obtain rfl := hstarted
    exact hnone

/-- Every task that begins follows the order of the locks. -/
theorem begins_ordered {p : Prog Reply Unit} (hb : World.begins w t p w') :
    (p.Follows lockOrder.monitor ⟨t, ∅⟩ fun s _ => lockOrder.Ended s) ∧ w'.holder = w.holder := by
  have htask : ∀ {m : Task Unit}, m.Follows lockOrder.monitor ⟨t, ∅⟩ ()
      (fun s _ _ => lockOrder.Ended s) →
      ((m ()).bind fun _ => .pure ()).Follows lockOrder.monitor ⟨t, ∅⟩
        fun s _ => lockOrder.Ended s := fun h => Prog.follows_bind.mpr h
  have hends : ∀ {m : Task Unit}, Ordered t ∅ m → m.Follows lockOrder.monitor ⟨t, ∅⟩ ()
      (fun s _ _ => lockOrder.Ended s) :=
    fun h => (h _ () rfl).mono fun s _ _ hs => hs ▸ Finset.empty_subset _
  cases t with
  | main =>
    obtain ⟨_, _, rfl, rfl⟩ := hb
    refine ⟨htask follows_shutdown, ?_⟩
    funext l
    cases l <;> rfl
  | reconcile =>
    obtain ⟨_, _, rfl, rfl⟩ := hb
    exact ⟨htask (hends ordered_reconcileIteration), rfl⟩
  | handler n =>
    obtain ⟨_, _, rfl, rounds, rfl⟩ := hb
    exact ⟨htask (hends (ordered_serveConnection n rounds)), rfl⟩
  | retry n =>
    obtain ⟨_, _, _, job, _, _, rfl, rfl⟩ := hb
    refine ⟨htask (hends (ordered_retryTask n job)), ?_⟩
    funext l
    cases l <;> rfl

/-- A dropped task holds neither the engine nor the send boundary any longer. -/
theorem released_holder {engine : WatchEngine} {l : Lock} {u : Tid}
    (hu : (w.released t engine).holder l = some u) :
    w.holder l = some u ∧ ((l == .engine || l == .boundary) = true → u ≠ t) := by
  have hfreed : ∀ {o : Option Tid}, (if o = some t then none else o) = some u →
      o = some u ∧ u ≠ t := fun ho => by
    split at ho
    · cases ho
    · rename_i hne
      exact ⟨ho, fun h => hne (h ▸ ho)⟩
  cases l with
  | tasks | registry | daemon => exact ⟨hu, nofun⟩
  | engine | boundary => exact ⟨(hfreed hu).1, fun _ => (hfreed hu).2⟩

/-- The locks are held by the tasks that are known to hold them, and the shutdown begins once. -/
structure Locked (w : World) (g : Tid → Option (Holding Tid Lock)) : Prop where
  held : lockOrder.Held w.holder g
  once : w.accepting = true → g .main = none

/-- Every step of the service keeps the locks with their tasks. -/
theorem locked_invariant :
    Invariant service lockOrder.monitor lockOrder.Ended fun _ w g => Locked w g where
  call {tr w w' g t s op r} hi hs hm ha := by
    obtain ⟨hholder, haccepting⟩ := act_holder ha
    refine ⟨hi.held.call hs hm fun l => congrFun hholder l, fun h => ?_⟩
    have hmain := hi.once (haccepting ▸ h)
    rw [Function.update_of_ne, hmain]
    rintro rfl
    rw [hmain] at hs
    cases hs
  begins {tr w w' g t p} hi ht hb := by
    obtain ⟨hfollows, hholder⟩ := begins_ordered hb
    have hother : Tid.main ≠ t → g .main = none →
        Function.update g t (some ⟨t, ∅⟩) .main = none := fun hne hmain => by
      rw [Function.update_of_ne hne, hmain]
    refine ⟨⟨t, ∅⟩, hfollows, hi.held.reset (.inr rfl) fun l u hu => ?_, fun h => ?_⟩
    · rw [hholder] at hu
      refine ⟨hu, ?_⟩
      rintro rfl
      have hfinal := hi.held.ended ht hu
      cases u with
      | main =>
        obtain ⟨s, hs, _⟩ := hi.held.held l .main hu
        rw [hi.once hb.2.1] at hs
        cases hs
      | reconcile | handler | retry => exact absurd hfinal (Finset.notMem_empty l)
    · cases t with
      | main =>
        obtain ⟨_, _, rfl, rfl⟩ := hb
        cases h
      | reconcile =>
        obtain ⟨_, _, rfl, rfl⟩ := hb
        exact hother nofun (hi.once h)
      | handler n =>
        obtain ⟨_, _, rfl, _⟩ := hb
        exact hother nofun (hi.once h)
      | retry n =>
        obtain ⟨_, _, _, _, _, _, _, rfl⟩ := hb
        exact hother nofun (hi.once h)
  drops {tr w w' g t} hi hd := by
    obtain ⟨haborted, hdaemon, hregistry, engine, rfl⟩ := hd
    refine ⟨hi.held.reset (.inl rfl) fun l u hu => ?_, fun h => ?_⟩
    · -- its guards are released, and the set of retry tasks is below its floor
      have hfloor : w.tasksLock ≠ some t := fun htasks => by
        have hlow := hi.held.floor (show w.holder .tasks = some t from htasks)
        cases t with
        | main | handler => exact haborted
        | reconcile => exact absurd hlow (by decide)
        | retry n => exact absurd (show 2 ≤ 0 from hlow) (by decide)
      obtain ⟨hsame, hreleased⟩ := released_holder hu
      refine ⟨hsame, ?_⟩
      rintro rfl
      cases l with
      | tasks => exact hfloor hsame
      | registry => exact hregistry hsame
      | daemon => exact hdaemon hsame
      | engine | boundary => exact hreleased rfl rfl
    · cases t with
      | main | handler => exact haborted.elim
      | reconcile =>
        rw [Function.update_of_ne (show Tid.main ≠ .reconcile from nofun)]
        exact hi.once h
      | retry n =>
        rw [Function.update_of_ne (show Tid.main ≠ .retry n from nofun)]
        exact hi.once h
  changes {tr w w' g} hi hc := by
    obtain ⟨config, _, rfl⟩ := hc
    refine ⟨⟨hi.held.own, fun l u hu => hi.held.held l u ?_⟩, hi.once⟩
    cases l <;> exact hu
  restarts {tr w w' g} hi hr := by
    refine ⟨⟨fun t s hs => (nomatch hs), fun l t hl => ?_⟩, fun _ => rfl⟩
    rw [restarts_holder hr l] at hl
    cases hl

/-- The task stands at the call. -/
def StandsAt (c : Core.Config Reply Tid World) (t : Tid) (op : Call) : Prop :=
  ∃ next, c.pool t = some (.call op next)

/-- Some task waits for another one: for a lock that this one holds, or, at the shutdown, for the
end of a retry task. -/
def WaitsFor (c : Core.Config Reply Tid World) : Tid → Tid → Prop :=
  lockOrder.WaitsFor c.world.holder c.pool

/-- In every reachable state the task that holds the daemon waits neither for a provider nor for a
lock, and no tasks wait for each other in a circle. -/
theorem control_never_blocked {c : Core.Config Reply Tid World} {tr : List (Label Reply Tid)}
    (h : service.Run initial tr c) :
    (∀ t op, c.world.daemonLock = some t → StandsAt c t op →
      op.asksProvider = false ∧ op.takes = none) ∧
    ∀ t, ¬Relation.TransGen (WaitsFor c) t t := by
  have hinitial : Locked World.initial fun _ => none :=
    ⟨⟨fun _ _ hs => (nomatch hs), fun l _ hl => by cases l <;> cases hl⟩, fun _ => rfl⟩
  obtain ⟨g, htracked, hlocked⟩ := locked_invariant.run h (tracked_none _ _) hinitial
  refine ⟨fun t op hdaemon hat => ?_, fun t => LockOrder.waitsFor_acyclic htracked hlocked.held t⟩
  obtain ⟨next, hpool⟩ := hat
  obtain ⟨s, hs, hmem⟩ := hlocked.held.held .daemon t hdaemon
  obtain ⟨s', hs', hallowed, _⟩ := htracked.follows hpool
  rw [hs] at hs'
  obtain rfl := Option.some.inj hs'
  constructor
  · by_contra hasks
    exact hallowed.2 .daemon hmem ⟨rfl, by simpa using hasks⟩
  · by_contra htakes
    obtain ⟨l, hl⟩ := Option.ne_none_iff_exists'.mp htakes
    have hwaits : lockOrder.waits op = some (lockOrder.rank l) := by
      rw [LockOrder.waits, show lockOrder.takes op = some l from hl]
    have hbelow := (hallowed.1 _ hwaits).2 .daemon hmem
    revert hbelow
    cases l <;> decide

/-- Two clients connect to a first start. -/
def twoClients : Core.Config Reply Tid World :=
  withHandler 1 0 (withHandler 0 0 ⟨World.opened, fun _ => none⟩)

theorem twoClients_run : service.Run initial [.restarts, .begins (.handler 0), .begins (.handler 1)]
    twoClients :=
  withHandler_run (withHandler_run opened_run 0 0 rfl rfl rfl) 1 0 rfl rfl rfl

/-- The one asks for a snapshot and is behind the lock of the daemon; the other has just asked. -/
def snapshotScript : List (Tid × Cue) :=
  [(.handler 0, .asked (sampleRequest "snapshot.get" .null)), (.handler 0, .plain),
    (.handler 1, .asked (sampleRequest "snapshot.get" .null))]

/-- The second client waits for the first one, which waits for nobody. -/
theorem control_never_blocked_snapshots :
    WaitsFor (serviceHost.played snapshotScript twoClients).2 (.handler 1) (.handler 0) ∧
      (∀ op, StandsAt (serviceHost.played snapshotScript twoClients).2 (.handler 0) op →
        op.asksProvider = false ∧ op.takes = none) := by
  have hrun := twoClients_run.append (serviceHost.played_run snapshotScript twoClients)
  refine ⟨.lock rfl rfl rfl, fun op hat => ?_⟩
  exact (control_never_blocked hrun).1 (.handler 0) op rfl hat

end Watchcat
