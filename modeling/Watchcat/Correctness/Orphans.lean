import Watchcat.Daemon.Effects
import Watchcat.Daemon.Playing
import Watchcat.Daemon.RetryTasks

/-!
# Active operations have somebody who settles them

An active operation belongs to a task that has yet to be begun, or to one that
withdraws it, hands it over or ends it on every path it can still take. This holds
in every state of a run in which the ends of operations have been saved since the
process was started.
-/

namespace Watchcat

open Watchcat.Core Method RetryOperationRegistry

/-! ## Settling -/

/-- The call settles the operation for its caller: it ends or withdraws it, hands it to a task, or
reports the panic of its task. -/
def Call.settles (id : String) : Call → Bool
  | .spawnRetry job => job.operationId == id
  | .unlockRegistry _ (.finish ended) => ended == id
  | .unlockRegistry _ (.rollback withdrawn) => withdrawn == id
  | .retryPanicked panicked => panicked == id
  | _ => false

/-- Whether the operation has been settled. -/
def untilSettled (id : String) : Monitor Reply Bool where
  allowed _ _ := True
  next settled op _ := settled || op.settles id

/-- On every path that is left the program settles the operation. -/
def Owes (id : String) (p : Prog Reply Unit) : Prop :=
  p.Follows (untilSettled id) false fun settled _ => settled = true

/-- The operation waits for its task to begin, or a task that has not finished settles it. -/
def Core.Config.Attends (c : Config Reply Tid World) (id : String) : Prop :=
  (∃ job ∈ c.world.queued, job.operationId = id) ∨ ∃ t p, c.pool t = some p ∧ Owes id p

/-! ## Saves -/

/-- How the last save of a task has ended since it took the registry. -/
def savedBy (t : Tid) (tr : List (Label Reply Tid)) : Option (Except Error Unit) :=
  tr.foldl (fun saved l => match l with
    | .call u op r => if u = t then
        match (⟨op, r⟩ : Prog.Event Reply) with
        | ⟨.lockRegistry, _⟩ => none
        | ⟨.writeOperations _, written⟩ => some written
        | _ => saved
      else saved
    | _ => saved) none

/-- The step ends or withdraws an operation whose registry could not be saved, or drops the task
of an operation, or that task panics. -/
def Abandons (tr : List (Label Reply Tid)) : Label Reply Tid → Prop
  | .call t (.unlockRegistry _ (.finish _)) _ => ∃ e, savedBy t tr = some (.error e)
  | .call t (.unlockRegistry _ (.rollback _)) _ => ∃ e, savedBy t tr = some (.error e)
  | .drops (.retry _) => True
  | .call _ (.retryPanicked _) _ => True
  | _ => False

theorem savedBy_elsewhere {t : Tid} {tr : List (Label Reply Tid)} {l : Label Reply Tid}
    (h : ∀ op r, l ≠ .call t op r) : savedBy t (tr ++ [l]) = savedBy t tr := by
  rw [savedBy, List.foldl_append]
  cases l with
  | call u op r =>
    have hne : u ≠ t := by
      rintro rfl
      exact h op r rfl
    simp only [List.foldl_cons, List.foldl_nil, if_neg hne]
    rfl
  | _ => rfl

theorem savedBy_own {t : Tid} {tr : List (Label Reply Tid)} {op : Call} {r : Reply op}
    (h : op.ofRetries = false) : savedBy t (tr ++ [.call t op r]) =
      (lastSave [⟨op, r⟩]).or (savedBy t tr) := by
  rw [savedBy, List.foldl_append]
  simp only [List.foldl_cons, List.foldl_nil, if_true]
  cases op <;> first | rfl | cases h

theorem lastSave_append (tr : List (Prog.Event Reply)) (e : Prog.Event Reply) :
    lastSave (tr ++ [e]) = (lastSave [e]).or (lastSave tr) := by
  rw [lastSave, List.foldl_append]
  obtain ⟨op, r⟩ := e
  cases op <;> rfl

/-! ## Attendance -/

/-- The duties of the tasks, none of those that have nothing to do with manual retries. -/
def taskDuties : Monitor Reply (Option Duty) := retryDuties.orApart fun op => op.ofRetries = false

/-- Nothing is owed where a task has come to its end. -/
def Duty.Done (d : Duty) : Prop := d.owes = none ∧ d.held = none

/-- What the service keeps about the duties of its tasks. -/
structure Attended (tr : List (Label Reply Tid)) (w : World) (g : Tid → Option (Option Duty)) :
    Prop where
  held : ∀ t d r calls, g t = some (some d) → d.held = some (r, calls) →
    w.registryLock = some t ∧ w.registry = r ∧ savedBy t tr = lastSave calls
  active : w.running = true → ∀ id, w.registry.Active id →
    (∃ job ∈ w.queued, job.operationId = id) ∨ ∃ t d, g t = some (some d) ∧ d.owes = some id
  reconcile : ∀ s, g .reconcile = some s → s = none

theorem act_retries {t : Tid} {w w' : World} {op : Call} {r : Reply op}
    (h : op.ofRetries = false) (ha : World.act t w op r w') :
    w'.registry = w.registry ∧ w'.registryLock = w.registryLock ∧ w'.queued = w.queued ∧
      w'.running = w.running := by
  cases op with
  | lockRegistry | unlockRegistry | spawnRetry | retryPanicked => cases h
  | writeWatchlist | writeControlState | writeOperations =>
    cases r <;> (obtain rfl := ha; exact ⟨rfl, rfl, rfl, rfl⟩)
  | _ =>
    -- the call reads, or changes files, other locks, the permit and the process
    first
    | (obtain rfl := ha; exact ⟨rfl, rfl, rfl, rfl⟩)
    | (obtain ⟨_, rfl⟩ := ha; exact ⟨rfl, rfl, rfl, rfl⟩)
    | (obtain ⟨_, _, rfl⟩ := ha; exact ⟨rfl, rfl, rfl, rfl⟩)

/-- A task with a duty settles its operation on every path. -/
theorem owes_of_follows {p : Prog Reply Unit} {d : Duty} {id : String} (howes : d.owes = some id)
    (h : p.Follows taskDuties (some d) fun s _ => ∀ d, s = some d → d.Done) : Owes id p := by
  refine h.simulate (R := fun s settled =>
    (∃ d : Duty, s = some d ∧ d.owes = some id) ∧ settled = false ∨ settled = true)
    (.inl ⟨⟨d, rfl, howes⟩, rfl⟩) (fun _ _ _ _ _ => trivial) ?_ ?_
  · rintro s settled op r (⟨⟨d, rfl, howes⟩, rfl⟩ | rfl) hallowed
    · by_cases hop : op.ofRetries = false
      · refine (Bool.eq_false_or_eq_true (op.settles id)).symm.imp
          (fun hno => ⟨⟨_, rfl, ?_⟩, hno⟩) fun h => h
        have hsame : (retryDuties.next d op r).owes = d.owes := by rw [retryDuties_next hop]
        exact hsame.trans howes
      · cases op with
        | lockRegistry => exact .inl ⟨⟨_, rfl, howes⟩, rfl⟩
        | spawnRetry job =>
          have hjob : d.owes = some job.operationId := hallowed
          rw [howes] at hjob
          exact .inr (beq_iff_eq.mpr (Option.some.inj hjob).symm)
        | retryPanicked panicked =>
          have hown : d.owes = some panicked := hallowed
          rw [howes] at hown
          exact .inr (beq_iff_eq.mpr (Option.some.inj hown).symm)
        | unlockRegistry r' section_ =>
          obtain ⟨reg, calls, _, hround⟩ := hallowed
          rw [howes] at hround
          have hsame : ∀ {settled : String}, some id = some settled → (settled == id) = true :=
            fun h => beq_iff_eq.mpr (Option.some.inj h).symm
          cases hround with
          | looked _ | refused | known _ | begun _ _ => exact .inl ⟨⟨_, rfl, howes⟩, rfl⟩
          | opened hfree _ => cases hfree
          | ended h _ | withdrawn h _ => exact .inr (hsame h)
          | notEnded h _ | notWithdrawn h _ => exact .inr (hsame h)
        | _ => exact absurd rfl hop
    · exact .inr rfl
  · rintro s settled _ (⟨⟨d, rfl, howes⟩, _⟩ | rfl) hdone
    · rw [(hdone d rfl).1] at howes
      cases howes
    · rfl

variable {tr : List (Label Reply Tid)} {w w' : World} {g : Tid → Option (Option Duty)}

/-- A task whose duty changes is not the reconcile task. -/
theorem Attended.reconcile_update (h : Attended tr w g) {t : Tid} {d d' : Duty}
    (hd : g t = some (some d)) : ∀ s, Function.update g t (some (some d')) .reconcile = some s →
      s = none := by
  intro s hs
  by_cases ht : Tid.reconcile = t
  · subst ht
    cases h.reconcile _ hd
  · rw [Function.update_of_ne ht] at hs
    exact h.reconcile s hs

/-- Two tasks do not hold the registry at once. -/
theorem Attended.sole (h : Attended tr w g) {t : Tid} (hlock : w.registryLock ≠ some t)
    {d : Duty} (hd : g t = some (some d)) : d.held = none := by
  cases hheld : d.held with
  | none => rfl
  | some held => exact absurd (h.held t d held.1 held.2 hd hheld).1 hlock

/-- A call that has nothing to do with manual retries keeps the attendance. -/
theorem Attended.apart (h : Attended tr w g) {t : Tid} {d : Duty} {op : Call} {r : Reply op}
    (hd : g t = some (some d)) (hop : op.ofRetries = false) (ha : World.act t w op r w') :
    Attended (tr ++ [.call t op r]) w'
      (Function.update g t (some (some (retryDuties.next d op r)))) := by
  obtain ⟨hregistry, hlock, hqueued, hrunning⟩ := act_retries hop ha
  rw [retryDuties_next hop]
  refine ⟨fun u e reg calls he hheld => ?_, fun hrun id hactive => ?_, h.reconcile_update hd⟩
  · rw [hregistry, hlock]
    by_cases hu : u = t
    · subst hu
      rw [Function.update_self] at he
      cases he
      obtain ⟨⟨reg', calls'⟩, hbefore, heq⟩ := Option.map_eq_some_iff.mp hheld
      obtain ⟨rfl, rfl⟩ := Prod.mk.inj heq
      obtain ⟨h₁, h₂, h₃⟩ := h.held u d reg' calls' hd hbefore
      exact ⟨h₁, h₂, by rw [savedBy_own hop, lastSave_append, h₃]⟩
    · rw [Function.update_of_ne hu] at he
      obtain ⟨h₁, h₂, h₃⟩ := h.held u e reg calls he hheld
      refine ⟨h₁, h₂, ?_⟩
      rw [← h₃]
      refine savedBy_elsewhere fun op' r' heq => ?_
      cases heq
      exact hu rfl
  · rw [hregistry] at hactive
    rw [hrunning] at hrun
    rw [hqueued]
    refine (h.active hrun id hactive).imp_right fun ⟨u, e, he, howes⟩ => ?_
    by_cases hu : u = t
    · subst hu
      rw [hd] at he
      cases he
      exact ⟨u, _, Function.update_self _ _ _, howes⟩
    · exact ⟨u, e, (Function.update_of_ne hu _ _).trans he, howes⟩

/-- A call of a task without a duty keeps the attendance. -/
theorem Attended.aside (h : Attended tr w g) {t : Tid} {op : Call} {r : Reply op}
    (ht : g t = some none) (hop : op.ofRetries = false) (ha : World.act t w op r w') :
    Attended (tr ++ [.call t op r]) w' g := by
  obtain ⟨hregistry, hlock, hqueued, hrunning⟩ := act_retries hop ha
  refine ⟨fun u e reg calls he hheld => ?_, fun hrun id hactive => ?_, h.reconcile⟩
  · obtain ⟨h₁, h₂, h₃⟩ := h.held u e reg calls he hheld
    refine ⟨hlock.trans h₁, hregistry.trans h₂, ?_⟩
    rw [← h₃]
    refine savedBy_elsewhere fun op' r' heq => ?_
    cases heq
    rw [ht] at he
    cases he
  · rw [hregistry] at hactive
    rw [hrunning] at hrun
    rw [hqueued]
    exact h.active hrun id hactive

/-- The registry is taken. -/
theorem Attended.locked (h : Attended tr w g) {t : Tid} {d : Duty} (hd : g t = some (some d))
    {r : RetryOperationRegistry} (ha : World.act t w .lockRegistry r w') :
    Attended (tr ++ [.call t .lockRegistry r]) w'
      (Function.update g t (some (some (retryDuties.next d .lockRegistry r)))) := by
  obtain ⟨hfree, rfl, rfl⟩ := ha
  refine ⟨fun u e reg calls he hheld => ?_, fun hrun id hactive => ?_, h.reconcile_update hd⟩
  · by_cases hu : u = t
    · subst hu
      rw [Function.update_self] at he
      cases he
      cases hheld
      refine ⟨rfl, rfl, ?_⟩
      rw [savedBy, List.foldl_append]
      exact if_pos rfl
    · rw [Function.update_of_ne hu] at he
      have hnone := h.sole (t := u) (by rw [hfree]; exact nofun) he
      rw [hnone] at hheld
      cases hheld
  · refine (h.active hrun id hactive).imp_right fun ⟨u, e, he, howes⟩ => ?_
    by_cases hu : u = t
    · subst hu
      rw [hd] at he
      cases he
      exact ⟨u, _, Function.update_self _ _ _, howes⟩
    · exact ⟨u, e, (Function.update_of_ne hu _ _).trans he, howes⟩

/-- The registry is given back after a section that was saved where it settles an operation. -/
theorem Attended.unlocked (h : Attended tr w g) {t : Tid} {d : Duty} (hd : g t = some (some d))
    {r' : RetryOperationRegistry} {section_ : RegistrySection} {u : Unit}
    (hallowed : retryDuties.allowed d (.unlockRegistry r' section_))
    (hsaved : ¬ Abandons tr (.call t (.unlockRegistry r' section_) u))
    (ha : World.act t w (.unlockRegistry r' section_) u w') :
    Attended (tr ++ [.call t (.unlockRegistry r' section_) u]) w'
      (Function.update g t (some (some ⟨section_.owed d.owes, none⟩))) := by
  obtain ⟨reg, calls, hheld, hround⟩ := hallowed
  obtain ⟨hlock, rfl, hsave⟩ := h.held t d reg calls hd hheld
  obtain ⟨_, rfl⟩ := ha
  refine ⟨fun v e reg calls he hheld' => ?_, fun hrun id hactive => ?_, h.reconcile_update hd⟩
  · by_cases hv : v = t
    · subst hv
      rw [Function.update_self] at he
      cases he
      cases hheld'
    · rw [Function.update_of_ne hv] at he
      have hnone :=
        h.sole (t := v) (by rw [hlock]; exact fun heq => hv (Option.some.inj heq).symm) he
      rw [hnone] at hheld'
      cases hheld'
  · -- an operation of before stays attended, unless it is the one that this section settles
    have hkept : ∀ {owed : Option String}, w.registry.Active id →
        (d.owes = some id → owed = some id) →
        (∃ job ∈ w.queued, job.operationId = id) ∨ ∃ v e,
          Function.update g t (some (some (⟨owed, none⟩ : Duty))) v = some (some e) ∧
            e.owes = some id := by
      intro owed hbefore howed
      refine (h.active hrun id hbefore).imp_right fun ⟨v, e, he, howes⟩ => ?_
      by_cases hv : v = t
      · subst hv
        rw [hd] at he
        cases he
        exact ⟨v, _, Function.update_self _ _ _, howed howes⟩
      · exact ⟨v, e, (Function.update_of_ne hv _ _).trans he, howes⟩
    have hown : ∀ {owed : Option String}, owed = some id → ∃ v e,
        Function.update g t (some (some (⟨owed, none⟩ : Duty))) v = some (some e) ∧
          e.owes = some id :=
      fun howed => ⟨t, _, Function.update_self _ _ _, howed⟩
    cases hround with
    | looked _ | refused | known _ => exact hkept hactive fun howes => howes
    | opened hfree hopened =>
      rcases hopened id hactive with rfl | hbefore
      · exact .inr (hown rfl)
      · exact hkept hbefore fun howes => by rw [hfree] at howes; cases howes
    | begun howes hbegun =>
      rcases hbegun id hactive with rfl | hbefore
      · exact .inr (hown howes)
      · exact hkept hbefore fun howes => howes
    | ended howes hended | withdrawn howes hended =>
      obtain ⟨hne, hbefore⟩ := hended id hactive
      refine hkept hbefore fun h => ?_
      rw [howes] at h
      exact absurd (Option.some.inj h).symm hne
    | notEnded _ hlast | notWithdrawn _ hlast => exact absurd ⟨_, hsave.trans hlast⟩ hsaved

/-- An operation is handed to its task. -/
theorem Attended.spawned (h : Attended tr w g) {t : Tid} {d : Duty} (hd : g t = some (some d))
    {job : RetryJob} {u : Unit} (hallowed : d.owes = some job.operationId)
    (ha : World.act t w (.spawnRetry job) u w') :
    Attended (tr ++ [.call t (.spawnRetry job) u]) w'
      (Function.update g t (some (some { d with owes := none }))) := by
  obtain rfl := ha
  refine ⟨fun v e reg calls he hheld => ?_, fun hrun id hactive => ?_, h.reconcile_update hd⟩
  · by_cases hv : v = t
    · subst hv
      rw [Function.update_self] at he
      cases he
      obtain ⟨h₁, h₂, h₃⟩ := h.held v d reg calls hd hheld
      refine ⟨h₁, h₂, ?_⟩
      rw [← h₃, savedBy, List.foldl_append]
      exact if_pos rfl
    · rw [Function.update_of_ne hv] at he
      obtain ⟨h₁, h₂, h₃⟩ := h.held v e reg calls he hheld
      refine ⟨h₁, h₂, ?_⟩
      rw [← h₃]
      refine savedBy_elsewhere fun op' r' heq => ?_
      cases heq
      exact hv rfl
  · rcases h.active hrun id hactive with ⟨j, hj, hid⟩ | ⟨v, e, he, howes⟩
    · exact .inl ⟨j, List.mem_append.mpr (.inl hj), hid⟩
    · by_cases hv : v = t
      · subst hv
        rw [hd] at he
        cases he
        rw [hallowed] at howes
        refine .inl ⟨job, List.mem_append.mpr (.inr (List.mem_singleton.mpr rfl)), ?_⟩
        exact Option.some.inj howes
      · exact .inr ⟨v, e, (Function.update_of_ne hv _ _).trans he, howes⟩

/-- Every call keeps the attendance, unless it abandons an operation. -/
theorem Attended.called (h : Attended tr w g) {t : Tid} {s : Option Duty} {op : Call}
    {r : Reply op} (hs : g t = some s) (hallowed : taskDuties.allowed s op)
    (hsaved : ¬ Abandons tr (.call t op r)) (ha : World.act t w op r w') :
    Attended (tr ++ [.call t op r]) w'
      (Function.update g t (some (taskDuties.next s op r))) := by
  cases s with
  | none =>
    have hsame : Function.update g t (some (taskDuties.next none op r)) = g := by
      funext u
      by_cases hu : u = t
      · subst hu
        rw [Function.update_self, hs]
        rfl
      · rw [Function.update_of_ne hu]
    rw [hsame]
    exact h.aside hs hallowed ha
  | some d =>
    by_cases hop : op.ofRetries = false
    · exact h.apart hs hop ha
    · cases op with
      | lockRegistry => exact h.locked hs ha
      | unlockRegistry r' section_ => exact h.unlocked hs hallowed hsaved ha
      | spawnRetry job => exact h.spawned hs hallowed ha
      | retryPanicked id => exact absurd trivial hsaved
      | _ => exact absurd rfl hop

/-! ## Starts and ends of tasks -/

/-- A service that has started has no active operation. -/
theorem startService_settled {dryRun : Bool} {calls : List (Prog.Event Reply)}
    {started : Except Error (WatchcatDaemon × WatchEngine × RetryOperationRegistry)}
    (h : (startService dryRun).Returns () calls started ()) {d : WatchcatDaemon}
    {e : WatchEngine} {registry : RetryOperationRegistry}
    (hok : started = .ok (d, e, registry)) (id : String) : ¬ registry.Active id := by
  refine Act.Follows.of_history (Q := fun _ res _ => ∀ d e registry, res = .ok (d, e, registry) →
    ∀ id, ¬ registry.Active id) ?_ h d e registry hok id
  refine Act.follows_andThen.mpr (Act.follows_history.mpr fun tr d s _ => ?_)
  cases d with
  | error e => exact fun _ _ _ h => nomatch h
  | ok d =>
    refine Act.follows_andThen.mpr (Act.follows_history.mpr fun tr' e s _ => ?_)
    cases e with
    | error e => exact fun _ _ _ h => nomatch h
    | ok e =>
      refine Act.follows_andThen.mpr (Act.follows_within.mpr ?_)
      refine Act.follows_history.mpr fun load res registry hload => ?_
      cases res with
      | error e => exact fun _ _ _ h => nomatch h
      | ok _ =>
        rintro _ _ _ ⟨⟩ id ⟨o, ho, hactive⟩
        rw [(loadOperations_round hload).settled ho] at hactive
        cases hactive

theorem follows_task {m : Task Unit} {d : Duty}
    (h : m.Follows retryDuties d () fun d' _ _ => d'.Done) :
    ((m ()).bind fun _ => .pure ()).Follows taskDuties (some d) fun s _ =>
      ∀ d, s = some d → d.Done := by
  have hprog : ((m ()).bind fun _ => .pure ()).Follows retryDuties d fun d' _ => d'.Done :=
    Prog.follows_bind.mpr h
  refine hprog.orApart.mono ?_
  rintro _ _ ⟨d, rfl, hd⟩ _ ⟨⟩
  exact hd

theorem follows_aside {m : Task Unit} (h : Apart m) :
    ((m ()).bind fun _ => .pure ()).Follows taskDuties none fun s _ =>
      ∀ d, s = some d → d.Done := by
  refine (Prog.Calls.orApart ((h ()).bind fun _ => Prog.calls_pure)).mono ?_
  rintro _ _ rfl _ ⟨⟩

/-- What a task that begins is given: it holds nothing yet, and an operation that leaves the queue
is its own. -/
structure Begun (w : World) (t : Tid) (s : Option Duty) (w' : World) : Prop where
  held : ∀ d, s = some d → d.held = none
  reconcile : t = .reconcile → s = none
  registry : w'.registry = w.registry
  lock : w'.registryLock = w.registryLock
  running : w'.running = w.running
  queued : ∀ id, (∃ job ∈ w.queued, job.operationId = id) →
    (∃ job ∈ w'.queued, job.operationId = id) ∨ ∃ d, s = some d ∧ d.owes = some id

/-- Every task that begins does what it is given to do. -/
theorem begins_duty {t : Tid} {p : Prog Reply Unit} (hb : World.begins w t p w') :
    ∃ s, (p.Follows taskDuties s fun s' _ => ∀ d, s' = some d → d.Done) ∧ Begun w t s w' := by
  cases t with
  | main =>
    obtain ⟨_, _, rfl, rfl⟩ := hb
    exact ⟨none, follows_aside apart_shutdown, nofun, fun _ => rfl, rfl, rfl, rfl,
      fun _ hqueue => .inl hqueue⟩
  | reconcile =>
    obtain ⟨_, _, rfl, rfl⟩ := hb
    exact ⟨none, follows_aside apart_reconcileIteration, nofun, fun _ => rfl, rfl, rfl, rfl,
      fun _ hqueue => .inl hqueue⟩
  | handler n =>
    obtain ⟨_, _, rfl, rounds, rfl⟩ := hb
    refine ⟨some {}, follows_task (follows_serveConnection fun _ _ => ⟨rfl, rfl⟩), ?_⟩
    refine ⟨?_, nofun, rfl, rfl, rfl, fun _ hqueue => .inl hqueue⟩
    rintro _ ⟨⟩
    rfl
  | retry n =>
    obtain ⟨_, _, earlier, job, later, hqueued, rfl, rfl⟩ := hb
    refine ⟨some ⟨some job.operationId, none⟩,
      follows_task (follows_retryTask fun _ _ => ⟨rfl, rfl⟩), ?_⟩
    refine ⟨?_, nofun, rfl, rfl, rfl, fun id hqueue => ?_⟩
    · rintro _ ⟨⟩
      rfl
    · obtain ⟨j, hj, hid⟩ := hqueue
      rw [hqueued] at hj
      rcases List.mem_append.mp hj with hj | hj
      · exact .inl ⟨j, List.mem_append.mpr (.inl hj), hid⟩
      · rcases List.mem_cons.mp hj with rfl | hj
        · exact .inr ⟨_, rfl, congrArg some hid⟩
        · exact .inl ⟨j, List.mem_append.mpr (.inr hj), hid⟩

/-- A task that begins keeps the attendance. -/
theorem Attended.begins (h : Attended tr w g) {t : Tid} {s : Option Duty}
    (ht : ∀ s d, g t = some s → s = some d → d.Done) (hb : Begun w t s w') :
    Attended (tr ++ [.begins t]) w' (Function.update g t (some s)) := by
  refine ⟨fun u e reg calls he hheld => ?_, fun hrun id hactive => ?_, fun s' hs' => ?_⟩
  · by_cases hu : u = t
    · subst hu
      rw [Function.update_self] at he
      rw [hb.held e (Option.some.inj he)] at hheld
      cases hheld
    · rw [Function.update_of_ne hu] at he
      obtain ⟨h₁, h₂, h₃⟩ := h.held u e reg calls he hheld
      refine ⟨hb.lock.trans h₁, hb.registry.trans h₂, ?_⟩
      rw [← h₃]
      exact savedBy_elsewhere fun _ _ heq => nomatch heq
  · rw [hb.registry] at hactive
    rw [hb.running] at hrun
    rcases h.active hrun id hactive with hqueue | ⟨u, e, he, howes⟩
    · rcases hb.queued id hqueue with hqueue | ⟨d, rfl, howes⟩
      · exact .inl hqueue
      · exact .inr ⟨t, d, Function.update_self _ _ _, howes⟩
    · by_cases hu : u = t
      · subst hu
        rw [(ht _ e he rfl).1] at howes
        cases howes
      · exact .inr ⟨u, e, (Function.update_of_ne hu _ _).trans he, howes⟩
  · by_cases ht : Tid.reconcile = t
    · subst ht
      rw [Function.update_self] at hs'
      rw [← Option.some.inj hs']
      exact hb.reconcile rfl
    · rw [Function.update_of_ne ht] at hs'
      exact h.reconcile s' hs'

/-- A dropped task owes nothing where it is not the task of a retry. -/
theorem Attended.drops (h : Attended tr w g) {t : Tid} (hsaved : ¬ Abandons tr (.drops t))
    (hd : World.drops w t w') : Attended (tr ++ [.drops t]) w' (Function.update g t none) := by
  obtain ⟨hkind, _, _, engine, rfl⟩ := hd
  cases t with
  | main | handler n => exact hkind.elim
  | retry n => exact absurd trivial hsaved
  | reconcile =>
    refine ⟨fun u e reg calls he hheld => ?_, fun hrun id hactive => ?_, fun s hs => ?_⟩
    · by_cases hu : u = .reconcile
      · subst hu
        rw [Function.update_self] at he
        cases he
      · rw [Function.update_of_ne hu] at he
        obtain ⟨h₁, h₂, h₃⟩ := h.held u e reg calls he hheld
        refine ⟨h₁, h₂, ?_⟩
        rw [← h₃]
        exact savedBy_elsewhere fun _ _ heq => nomatch heq
    · refine (h.active hrun id hactive).imp_right fun ⟨u, e, he, howes⟩ => ?_
      have hu : u ≠ .reconcile := by
        rintro rfl
        cases h.reconcile _ he
      exact ⟨u, e, (Function.update_of_ne hu _ _).trans he, howes⟩
    · rw [Function.update_self] at hs
      cases hs

/-- After a restart there is nothing to attend to. -/
theorem Attended.restarts (hr : World.restarts w w') :
    Attended (tr ++ [.restarts]) w' fun _ => none := by
  obtain ⟨dryRun, calls, started, mid, hstart, hw'⟩ := hr
  refine ⟨nofun, fun hrun id hactive => ?_, nofun⟩
  cases started with
  | error e =>
    have hrunning : mid.running = w.ended.running := hstart.path.frame fun _ _ _ _ => act_running
    obtain rfl := hw'
    rw [hrunning] at hrun
    cases hrun
  | ok started =>
    obtain ⟨d, e, registry⟩ := started
    obtain rfl := hw'
    exact absurd hactive (startService_settled hstart.returns rfl id)

/-- The invariant of the service over runs that abandon no operation. -/
theorem attended_invariant : System.InvariantWhile service (fun tr l => ¬ Abandons tr l)
    taskDuties (fun s => ∀ d, s = some d → d.Done) Attended where
  call hi hsaved hs hm ha := hi.called hs hm hsaved ha
  begins hi _ ht hb := by
    obtain ⟨s, hs, hbegun⟩ := begins_duty hb
    exact ⟨s, hs, hi.begins (fun s d hs hd => ht s hs d hd) hbegun⟩
  drops hi hsaved hd := hi.drops hsaved hd
  changes hi _ hc := by
    obtain ⟨config, _, rfl⟩ := hc
    refine ⟨fun u e reg calls he hheld => ?_, hi.active, hi.reconcile⟩
    obtain ⟨h₁, h₂, h₃⟩ := hi.held u e reg calls he hheld
    refine ⟨h₁, h₂, ?_⟩
    rw [← h₃]
    exact savedBy_elsewhere fun _ _ heq => nomatch heq
  restarts _ _ hr := Attended.restarts hr

/-- The steps that cannot abandon an operation. -/
def keeps : Label Reply Tid → Bool
  | .call _ (.unlockRegistry _ (.finish _)) _ => false
  | .call _ (.unlockRegistry _ (.rollback _)) _ => false
  | .drops (.retry _) => false
  | .call _ (.retryPanicked _) _ => false
  | _ => true

theorem not_abandons_of_keeps {tr before after : List (Label Reply Tid)} {l : Label Reply Tid}
    (h : tr.all keeps = true) (heq : tr = before ++ l :: after) : ¬ Abandons before l := by
  subst heq
  have hl := List.all_eq_true.mp h l (List.mem_append_right _ List.mem_cons_self)
  unfold keeps at hl
  unfold Abandons
  split <;> simp_all

/-- A client asks for a manual retry of the sample session. -/
def retryNowRequest : RpcRequest :=
  { sampleRequest "sessions.retry_now" (.obj
      [("provider", .str "codex"), ("session_id", .str "s"), ("request_key", .str "k")]) with
    expectedRevision := some 1 }

/-- The calls of a handler until it has accepted the retry. -/
def acceptScript : List (Tid × Cue) :=
  (.handler 0, .asked retryNowRequest) :: List.replicate 15 (.handler 0, .plain)

/-- The response and then the save of the withdrawal fail. -/
def unsavedScript : List (Tid × Cue) :=
  acceptScript ++ [(.handler 0, .failing), (.handler 0, .plain), (.handler 0, .plain),
    (.handler 0, .failing), (.handler 0, .plain)]

/-- A first start and a client. -/
def connected : Config Reply Tid World := withHandler 0 0 ⟨World.opened, fun _ => none⟩

/-- The steps to it. -/
def connecting : List (Label Reply Tid) := [.restarts, .begins (.handler 0)]

theorem connected_run : service.Run initial connecting connected :=
  withHandler_run opened_run 0 0 rfl rfl rfl

end Watchcat
