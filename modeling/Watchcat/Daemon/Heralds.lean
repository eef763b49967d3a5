import Watchcat.Daemon.Outcomes
import Watchcat.Daemon.Revisions
import Watchcat.Daemon.Uses

/-!
# Who announces a new revision

A section of the daemon that raises the revision leaves its task with something
to announce. Every task announces it before it ends, unless one of a few calls
goes wrong on the way.
-/

namespace Watchcat

open Watchcat.Core Method

variable {σ α : Type}

/-! ## Heralds -/

/-- The first section of a cycle. -/
def DaemonSection.isPrepare : DaemonSection → Bool
  | .prepare => true
  | _ => false

/-- The last section of a cycle. -/
def DaemonSection.isCommit : DaemonSection → Bool
  | .commit => true
  | _ => false

/-- What a task knows of the revision, and what it has still to announce. -/
structure Herald where
  -- the revision when the task last took or gave back the daemon's lock
  seen : Nat := 0
  -- the revision when it last took it
  entered : Option Nat := none
  inside : Bool := false
  -- the next revision has been stored in this section
  stored : Bool := false
  -- the revision announced in this section
  told : Option Nat := none
  -- a revision that it has raised and not announced
  owes : Option Nat := none
  -- it has subscribed and its response is not written
  joined : Bool := false
  -- it stands between the two sections of a cycle
  planned : Bool := false

namespace Herald

/-- What a call changes. -/
def next (h : Herald) : Prog.Event Reply → Herald
  | ⟨.lockDaemon section_, d⟩ => { h with
      seen := d.revision
      entered := some d.revision
      inside := true
      stored := false
      told := none
      planned := h.planned && !section_.isCommit }
  | ⟨.writeControlState _, .ok _⟩ => { h with stored := true }
  | ⟨.notify n, _⟩ =>
    if n.event = "state.changed" then { h with told := some n.revision, owes := none } else h
  | ⟨.unlockDaemon d section_ _, _⟩ => { h with
      seen := d.revision
      inside := false
      stored := false
      planned := h.planned || section_.isPrepare
      owes :=
        if d.revision = h.seen then h.owes
        else if h.told = some d.revision then none else some d.revision }
  | ⟨.subscribe, true⟩ => { h with joined := true }
  | ⟨.writeResponse _, .ok _⟩ => { h with joined := false }
  | _ => h

theorem next_notify (h : Herald) (n : RpcNotification) (u : Unit) : h.next ⟨.notify n, u⟩ =
    if n.event = "state.changed" then { h with told := some n.revision, owes := none } else h :=
  rfl

/-- The call is one after which a raised revision is not announced: the watchlist cannot be read
again, the request is refused, the response cannot be written, or the cycle has failed or panicked
on the way to its announcements. -/
def silenced (h : Herald) : Prog.Event Reply → Bool
  | ⟨.readWatchlist, r⟩ => h.stored && !readable r
  | ⟨.unlockDaemon d (.control _) answer, _⟩ =>
    d.revision != h.seen && answer.all fun response => response.error.isSome
  | ⟨.writeResponse _, .error _⟩ => h.owes.isSome
  | ⟨.unlockEngine _, _⟩ => h.planned && h.owes.isSome
  | ⟨.reconcilePanicked, _⟩ => h.owes.isSome
  | _ => false

/-- The daemon is not one that the task can meet: its revision has fallen, or is none. -/
def strange (h : Herald) : Prog.Event Reply → Bool
  | ⟨.lockDaemon _, d⟩ => d.revision < h.seen || u64Max < d.revision
  | _ => false

/-- What a task does only where it may. -/
def Allows (h : Herald) : Call → Prop
  | .lockDaemon _ => h.joined = false
  | .unlockDaemon d _ _ =>
    h.inside = true ∧ h.joined = false ∧ h.seen ≤ d.revision ∧ d.revision ≤ u64Max
  | .notify n => n.event = "state.changed" → ∀ v, h.owes = some v → v ≤ n.revision
  | .writeResponse response => h.joined = true → h.entered = some response.revision
  | _ => True

end Herald

/-- The heralds of the tasks; nothing is known of one that has been silenced. -/
def heralds : Monitor Reply (Option Herald) where
  allowed o op := ∀ h, o = some h → h.Allows op
  next o op r := o.bind fun h =>
    if h.silenced ⟨op, r⟩ || h.strange ⟨op, r⟩ then none else some (h.next ⟨op, r⟩)

theorem heralds_next_eq {o : Option Herald} {op : Call} {r : Reply op} {x : Herald}
    (h : heralds.next o op r = some x) : ∃ y, o = some y ∧ y.silenced ⟨op, r⟩ = false ∧
      y.strange ⟨op, r⟩ = false ∧ x = y.next ⟨op, r⟩ := by
  obtain ⟨y, rfl, hy⟩ := Option.bind_eq_some_iff.mp h
  split at hy
  · cases hy
  · rename_i hno
    rw [Bool.or_eq_true, not_or, Bool.not_eq_true, Bool.not_eq_true] at hno
    exact ⟨y, rfl, hno.1, hno.2, (Option.some.inj hy).symm⟩

/-- A silenced task may do anything. -/
theorem follows_silenced {m : Method σ α} {s : σ} {Q : Option Herald → Except Error α → σ → Prop}
    (hq : ∀ r s', Q none r s') : m.Follows heralds none s Q := by
  have hall : (m s).Calls fun _ => True := Prog.calls_true (m s)
  exact hall.follows (fun _ _ => nofun) (fun _ _ _ => rfl) fun r => hq r.1 r.2

/-! ## Tasks with nothing to announce -/

/-- The task has nothing to announce. -/
def Idle (o : Option Herald) : Prop :=
  ∀ h, o = some h → h.owes = none ∧ h.joined = false ∧ h.stored = false

/-- The calls that do not stay idle by themselves. -/
def Call.stirs : Call → Bool
  | .writeControlState _ | .unlockDaemon _ _ _ | .subscribe => true
  | _ => false

theorem idle_call {op : Call} {o : Option Herald} (hop : op.stirs = false) (h : Idle o) :
    heralds.allowed o op ∧ ∀ r, Idle (heralds.next o op r) := by
  constructor
  · intro x hx
    obtain ⟨howes, hjoined, _⟩ := h x hx
    cases op with
    | lockDaemon => exact hjoined
    | notify n => exact fun _ v hv => nomatch howes.symm.trans hv
    | writeResponse => exact fun hj => nomatch hjoined.symm.trans hj
    | unlockDaemon => cases hop
    | _ => trivial
  · intro r x hx
    obtain ⟨y, hy, _, _, rfl⟩ := heralds_next_eq hx
    obtain ⟨howes, hjoined, hstored⟩ := h y hy
    cases op with
    | lockDaemon => exact ⟨howes, hjoined, rfl⟩
    | notify n =>
      rw [Herald.next_notify]
      split
      · exact ⟨rfl, hjoined, hstored⟩
      · exact ⟨howes, hjoined, hstored⟩
    | writeResponse =>
      cases r with
      | error e => exact ⟨howes, hjoined, hstored⟩
      | ok _ => exact ⟨howes, rfl, hstored⟩
    | unlockDaemon | writeControlState | subscribe => cases hop
    | _ => exact ⟨howes, hjoined, hstored⟩

/-- The method stays idle. -/
abbrev StaysIdle (m : Method σ α) : Prop := m.Keeps heralds Idle

theorem idle_of_uses {m : Method σ α} (h : m.Uses fun op => op.stirs = false) : StaysIdle m :=
  h.keeps fun _ _ hop ho => idle_call hop ho

theorem OfEngine.idle {m : Method σ α} (h : OfEngine m) : StaysIdle m :=
  idle_of_uses (h.mono fun op hop => by cases op <;> first | rfl | cases hop)

theorem OfRequest.idle {m : Method σ α} (h : OfRequest m) : StaysIdle m :=
  idle_of_uses (h.mono fun op hop => by cases op <;> first | rfl | cases hop)

theorem OfRegistry.idle {m : Method σ α} (h : OfRegistry m) : StaysIdle m :=
  idle_of_uses (h.mono fun op hop => by cases op <;> first | rfl | cases hop)

theorem idle_perform {op : Call} (h : op.stirs = false) :
    StaysIdle (perform op : Method σ (Reply op)) :=
  idle_of_uses (Act.uses_perform h)

/-! ## Sections of the daemon -/

/-- A section, from the herald that has entered it to the one that leaves it. -/
theorem follows_inDaemon {section_ : DaemonSection} {answer : Except Error α → Option RpcResponse}
    {m : Method WatchcatDaemon α} {h : Herald} {s : σ}
    {Q : Option Herald → Except Error α → σ → Prop} (hjoined : h.joined = false)
    (hnone : ∀ res, Q none res s)
    (hm : ∀ d : WatchcatDaemon, h.seen ≤ d.revision → d.revision ≤ u64Max →
      m.Follows heralds (some (h.next ⟨.lockDaemon section_, d⟩)) d fun o res d' =>
        ∀ x, o = some x → x.Allows (.unlockDaemon d' section_ (answer res)) ∧
          Q (heralds.next o (.unlockDaemon d' section_ (answer res)) ()) res s) :
    (inDaemon section_ answer m : Method σ α).Follows heralds (some h) s Q := by
  refine ⟨fun _ hx => Option.some.inj hx ▸ hjoined, fun d => Prog.follows_bind.mpr ?_⟩
  have hleave : m.Follows heralds (heralds.next (some h) (.lockDaemon section_) d) d
      fun o res d' => heralds.allowed o (.unlockDaemon d' section_ (answer res)) ∧
        ∀ u, Q (heralds.next o (.unlockDaemon d' section_ (answer res)) u) res s := by
    by_cases hd : h.seen ≤ d.revision ∧ d.revision ≤ u64Max
    · have hnext : heralds.next (some h) (.lockDaemon section_) d =
          some (h.next ⟨.lockDaemon section_, d⟩) := by
        have hordinary : h.strange ⟨.lockDaemon section_, d⟩ = false := by
          simp only [Herald.strange, Bool.or_eq_false_iff, decide_eq_false_iff_not]
          omega
        simp only [heralds, Option.bind_some, hordinary, Herald.silenced, Bool.or_self,
          Bool.false_eq_true, if_false]
      rw [hnext]
      refine (hm d hd.1 hd.2).mono fun o res d' hx => ?_
      cases o with
      | none => exact ⟨nofun, fun _ => hnone res⟩
      | some x =>
        obtain ⟨hallows, hq⟩ := hx x rfl
        exact ⟨fun y hy => Option.some.inj hy ▸ hallows, fun _ => hq⟩
    · have hnext : heralds.next (some h) (.lockDaemon section_) d = none := by
        have hstrange : h.strange ⟨.lockDaemon section_, d⟩ = true := by
          simp only [Herald.strange, Bool.or_eq_true, decide_eq_true_eq]
          omega
        simp only [heralds, Option.bind_some, hstrange, Bool.or_true, if_true]
      rw [hnext]
      exact follows_silenced fun res _ => ⟨nofun, fun _ => hnone res⟩
  exact hleave

/-- A section that leaves the herald and the revision stays idle. -/
theorem idle_inDaemon {section_ : DaemonSection} {answer : Except Error α → Option RpcResponse}
    {m : Method WatchcatDaemon α} (hsteady : m.Moves Steady)
    (hreads : m.Uses fun op => op = .readWatchlist) :
    StaysIdle (inDaemon section_ answer m : Method σ α) := by
  intro o s ho
  cases o with
  | none => exact follows_silenced fun _ _ => nofun
  | some h =>
    obtain ⟨howes, hjoined, _⟩ := ho h rfl
    refine follows_inDaemon hjoined (fun _ => nofun) fun d hseen hbound => ?_
    have hkept : m.Follows heralds (some (h.next ⟨.lockDaemon section_, d⟩)) d fun o _ _ =>
        o = some (h.next ⟨.lockDaemon section_, d⟩) := by
      refine hreads.follows ?_ ?_ fun _ _ => rfl
      · rintro _ rfl _ _
        trivial
      · rintro _ r rfl
        rfl
    refine hkept.and_returns fun tr res d' o hr hx => ?_
    subst hx
    have hrevision : d'.revision = d.revision := (hsteady.returns hr).revision
    rintro x ⟨⟩
    refine ⟨⟨rfl, hjoined, ?_, ?_⟩, fun y hy => ?_⟩
    · rw [hrevision]
      exact le_refl _
    · rw [hrevision]
      exact hbound
    · obtain ⟨z, hz, _, _, rfl⟩ := heralds_next_eq hy
      cases hz
      refine ⟨?_, hjoined, rfl⟩
      exact (if_pos hrevision).trans howes

theorem idle_readDaemon : StaysIdle (readDaemon : Method σ WatchcatDaemon) :=
  idle_inDaemon steady_get Act.uses_get

theorem idle_inEngine {m : Method WatchEngine α} (hm : StaysIdle m) :
    StaysIdle (inEngine m : Method σ α) := by
  intro o s ho
  have hlock : heralds.allowed o .lockEngine ∧ ∀ r, Idle (heralds.next o .lockEngine r) :=
    idle_call rfl ho
  refine ⟨hlock.1, fun e => Prog.follows_bind.mpr ?_⟩
  refine Prog.Follows.mono (hm _ e (hlock.2 e)) fun o' r ho' => ?_
  exact idle_call rfl ho'

theorem idle_inRegistry {section_ : Except Error α → RegistrySection}
    {m : Method RetryOperationRegistry α} (hm : StaysIdle m) :
    StaysIdle (inRegistry section_ m : Method σ α) := by
  intro o s ho
  have hlock : heralds.allowed o .lockRegistry ∧ ∀ r, Idle (heralds.next o .lockRegistry r) :=
    idle_call rfl ho
  refine ⟨hlock.1, fun r => Prog.follows_bind.mpr ?_⟩
  refine Prog.Follows.mono (hm _ r (hlock.2 r)) fun o' res ho' => ?_
  exact idle_call rfl ho'

/-- The calls behind the daemon's lock change no more of a herald than what is stored. -/
theorem OfDaemon.follows_heralds {m : Method WatchcatDaemon α} (h : OfDaemon m) {x : Herald}
    {d : WatchcatDaemon} : m.Follows heralds (some x) d fun o _ _ =>
      ∀ y, o = some y → ∃ stored, y = { x with stored := stored } := by
  refine Act.Uses.keeps (I := fun o => ∀ y, o = some y → ∃ stored, y = { x with stored := stored })
    h ?_ _ _ ?_
  · refine fun op o hop ho => ⟨fun y _ => ?_, fun r y hy => ?_⟩
    · cases op <;> trivial
    · obtain ⟨z, hz, _, _, rfl⟩ := heralds_next_eq hy
      obtain ⟨stored, rfl⟩ := ho z hz
      cases op with
      | writeControlState =>
        cases r with
        | error e => exact ⟨stored, rfl⟩
        | ok _ => exact ⟨true, rfl⟩
      | lockDaemon | unlockDaemon | notify | subscribe | writeResponse => cases hop
      | _ => exact ⟨stored, rfl⟩
  · rintro _ ⟨⟩
    exact ⟨x.stored, rfl⟩

/-! ## Requests -/

/-- What is to be announced is what the response says of a mutation that was carried out. -/
def Answered (method : String) (o : Option Herald) (res : Except Error RpcResponse) : Prop :=
  ∀ h, o = some h → h.joined = false ∧ h.stored = false ∧ ∀ v, h.owes = some v →
    ∃ response, res = .ok response ∧ response.revision = v ∧ response.error = none ∧
      isMutation method = true

theorem Idle.answered {o : Option Herald} (h : Idle o) (method : String)
    (res : Except Error RpcResponse) : Answered method o res := by
  intro x hx
  obtain ⟨howes, hjoined, hstored⟩ := h x hx
  exact ⟨hjoined, hstored, fun v hv => nomatch howes.symm.trans hv⟩

theorem follows_serveControl {request : RpcRequest} {o : Option Herald} (ho : Idle o) {s : Unit} :
    (serveControl request).Follows heralds o s fun o res _ => Answered request.method o res := by
  cases o with
  | none => exact follows_silenced fun _ _ => nofun
  | some h =>
    obtain ⟨howes, hjoined, _⟩ := ho h rfl
    refine follows_inDaemon hjoined (fun _ => nofun) fun d hseen hbound => ?_
    refine (ofDaemon_handleControl request).follows_heralds.and_returns ?_
    intro tr res d' o hr hx x ho
    obtain ⟨stored, rfl⟩ := hx x ho
    obtain ⟨hmutates, response, rfl, hresponse⟩ := handleControl_revision hr
    have hadvances : Advances d d' := hmutates.elim Steady.advances fun h => h.2
    refine ⟨⟨rfl, hjoined, hadvances.revision hbound⟩, fun y hy => ?_⟩
    subst ho
    obtain ⟨z, hz, hsilenced, _, rfl⟩ := heralds_next_eq hy
    cases hz
    refine ⟨hjoined, rfl, fun v hv => ?_⟩
    by_cases hsame : d'.revision = d.revision
    · have hkept : h.owes = some v := (if_pos hsame).symm.trans hv
      exact nomatch howes.symm.trans hkept
    · have hv' : some d'.revision = some v := (if_neg hsame).symm.trans hv
      have haccepted : response.error = none := by
        simpa [Herald.silenced, Herald.next, Except.toOption, hsame] using hsilenced
      refine ⟨response, rfl, hresponse.trans (Option.some.inj hv'), haccepted, ?_⟩
      rcases hmutates with hsteady | ⟨hmutation, _⟩
      · exact absurd hsteady.revision hsame
      · exact hmutation

/-- Nothing is left to announce. -/
def Heard (o : Option Herald) : Prop := ∀ h, o = some h → h.owes = none

theorem Idle.heard {o : Option Herald} (h : Idle o) : Heard o := fun x hx => (h x hx).1

/-- Nothing is left to announce, unless the task is about to end in a panic. -/
def HeardOrPanicked (o : Option Herald) (res : Except Error α) : Prop :=
  Heard o ∨ res = .error .panicked

theorem follows_serveProvider {request : RpcRequest} {o : Option Herald} (ho : Idle o) {s : Unit} :
    (serveProvider request).Follows heralds o s fun o res _ => Answered request.method o res := by
  refine Act.follows_andThen.mpr ((idle_readDaemon o s ho).mono fun o d s ho => ?_)
  cases d with
  | error e => exact ho.answered _ _
  | ok d =>
    refine Act.follows_andThen.mpr (Act.follows_attempt.mpr ?_)
    refine ((ofInquiry_askInteractive request _ _).ofRequest.idle o s ho).mono
      fun o answered s ho => ?_
    cases answered with
    | error e => exact ho.answered _ _
    | ok result =>
      refine Act.follows_ite.mpr ⟨fun hmethod => ?_, fun _ => ho.answered _ _⟩
      exact follows_serveControl ho

theorem follows_serveBoundary {request : RpcRequest} {o : Option Herald} (ho : Idle o) {s : Unit} :
    (serveBoundary request).Follows heralds o s fun o res _ => Answered request.method o res := by
  refine Act.follows_andThen.mpr ((idle_readDaemon o s ho).mono fun o d s ho => ?_)
  cases d with
  | error e => exact ho.answered _ _
  | ok d =>
    refine Act.follows_andThen.mpr ?_
    refine (idle_perform rfl o s ho).mono fun o r s ho => ?_
    cases r with
    | error e => exact ho.answered _ _
    | ok _ =>
      refine Act.follows_closing.mpr ((follows_serveControl ho).mono fun o res s hanswered => ?_)
      refine ⟨fun _ _ => trivial, fun u x hx => ?_⟩
      obtain ⟨y, hy, _, _, hnext⟩ := heralds_next_eq hx
      exact hnext ▸ hanswered y hy

/-- The response is written and what it says announced. -/
theorem follows_conclude {request : RpcRequest} {serve : Task RpcResponse} {o : Option Herald}
    {s : Unit} (hserve : serve.Follows heralds o s fun o res _ => Answered request.method o res) :
    (do
      let response ← serve
      respond response
      if response.error.isNone && isMutation request.method then
        perform (.notify ⟨"state.changed", response.revision⟩) : Task Unit).Follows heralds o s
      fun o _ _ => Heard o := by
  refine Act.follows_andThen.mpr (hserve.mono fun o res s hanswered => ?_)
  cases res with
  | error e =>
    intro x hx
    cases howes : x.owes with
    | none => rfl
    | some v =>
      obtain ⟨_, hres, _⟩ := (hanswered x hx).2.2 v howes
      cases hres
  | ok response =>
    refine Act.follows_andThen.mpr (Act.follows_andThen.mpr (Act.follows_perform.mpr ?_))
    refine ⟨fun x hx hjoined => ?_, fun written => ?_⟩
    · exact nomatch (hanswered x hx).1.symm.trans hjoined
    · cases written with
      | error e =>
        intro x hx
        obtain ⟨y, _, hsilenced, _, rfl⟩ := heralds_next_eq hx
        exact Option.isSome_eq_false_iff.mp hsilenced |> Option.isNone_iff_eq_none.mp
      | ok _ =>
        -- what is owed is what the response says, so the request is a mutation that succeeded
        have howed : ∀ x, heralds.next o (.writeResponse response) (.ok ()) = some x →
            ∀ v, x.owes = some v → response.revision = v ∧
              (response.error.isNone && isMutation request.method) = true := by
          intro x hx v hv
          obtain ⟨y, hy, _, _, rfl⟩ := heralds_next_eq hx
          obtain ⟨response', hres, hrevision, herror, hmutation⟩ := (hanswered y hy).2.2 v hv
          cases hres
          exact ⟨hrevision, by rw [herror, hmutation]; rfl⟩
        refine Act.follows_ofExcept.mpr (Act.follows_ite.mpr ⟨fun _ => ?_, fun hno x hx => ?_⟩)
        · refine Act.follows_perform.mpr ⟨fun x hx _ v hv => (howed x hx v hv).1.ge, ?_⟩
          intro _ x hx
          obtain ⟨y, _, _, _, rfl⟩ := heralds_next_eq hx
          rfl
        · cases howes : x.owes with
          | none => rfl
          | some v => exact absurd (howed x hx v howes).2 hno

/-- A request announces the revision that its response carries. -/
theorem follows_serveRequest {request : RpcRequest} {o : Option Herald} (ho : Idle o) {s : Unit} :
    (serveRequest request).Follows heralds o s fun o _ _ => Heard o := by
  refine Act.follows_ite.mpr ⟨fun _ => follows_conclude (follows_serveProvider ho), fun _ => ?_⟩
  exact Act.follows_ite.mpr ⟨fun _ => follows_conclude (follows_serveBoundary ho),
    fun _ => follows_conclude (follows_serveControl ho)⟩

/-! ## Subscribers -/

theorem idle_respond (response : RpcResponse) : StaysIdle (respond response : Method σ Unit) :=
  idle_of_uses (uses_respond rfl)

theorem idle_publish (notification : RpcNotification) : StaysIdle (publish notification) :=
  (idle_perform rfl).andThen fun _ => Act.keeps_ofExcept _

theorem idle_publishRevision (event : String) : StaysIdle (publishRevision event) :=
  idle_readDaemon.andThen fun _ => idle_publish _

theorem idle_streamEvents (rounds : Nat) : StaysIdle (streamEvents rounds) := by
  induction rounds with
  | zero => exact Act.keeps_ret _
  | succ rounds ih =>
    refine (idle_perform rfl).andThen fun event => ?_
    cases event with
    | closed => exact Act.keeps_ret _
    | readFailed | unexpected => exact Act.keeps_fail _
    | received notification => exact (idle_publish notification).andThen fun _ => ih
    | lagged | heartbeat => exact (idle_publishRevision _).andThen fun _ => ih

/-- The task has entered the daemon at this revision last. -/
def EnteredAt (revision : Nat) (o : Option Herald) : Prop :=
  ∀ h, o = some h → h.entered = some revision

theorem follows_readDaemon {o : Option Herald} (ho : Idle o) {s : σ} :
    (readDaemon : Method σ WatchcatDaemon).Follows heralds o s fun o res _ =>
      Idle o ∧ ∀ d, res = .ok d → EnteredAt d.revision o := by
  cases o with
  | none => exact follows_silenced fun _ _ => ⟨nofun, fun _ _ => nofun⟩
  | some h =>
    obtain ⟨howes, hjoined, _⟩ := ho h rfl
    refine follows_inDaemon hjoined (fun _ => ⟨nofun, fun _ _ => nofun⟩) fun d _ hbound => ?_
    rintro _ ⟨⟩
    refine ⟨⟨rfl, hjoined, le_refl _, hbound⟩, fun y hy => ?_, fun d' hd' y hy => ?_⟩
    · obtain ⟨z, hz, _, _, rfl⟩ := heralds_next_eq hy
      cases hz
      exact ⟨(if_pos rfl).trans howes, hjoined, rfl⟩
    · obtain ⟨z, hz, _, _, rfl⟩ := heralds_next_eq hy
      cases hz
      cases hd'
      rfl

/-- A subscriber is answered with the revision it read before it subscribed. -/
theorem follows_serveSubscribe {rounds : Nat} {request : RpcRequest} {o : Option Herald}
    (ho : Idle o) {s : Unit} :
    (serveSubscribe rounds request).Follows heralds o s fun o _ _ => Heard o := by
  refine Act.follows_ite.mpr ⟨fun _ => ho.heard, fun _ => ?_⟩
  refine Act.follows_andThen.mpr ((follows_readDaemon ho).mono fun o res s h => ?_)
  obtain ⟨ho, hentered⟩ := h
  cases res with
  | error e => exact ho.heard
  | ok d =>
    refine Act.follows_andThen.mpr (Act.follows_perform.mpr ⟨fun _ _ => trivial, fun slot => ?_⟩)
    cases slot with
    | false =>
      have hidle : Idle (heralds.next o .subscribe false) := by
        intro x hx
        obtain ⟨y, hy, _, _, hnext⟩ := heralds_next_eq hx
        exact hnext ▸ ho y hy
      exact (idle_respond _ _ s hidle).mono fun _ _ _ h => h.heard
    | true =>
      refine Act.follows_andThen.mpr (Act.follows_andThen.mpr (Act.follows_perform.mpr ?_))
      refine ⟨fun x hx _ => ?_, fun written => ?_⟩
      · obtain ⟨y, hy, _, _, rfl⟩ := heralds_next_eq hx
        exact hentered d rfl y hy
      · have hwritten : ∀ x, heralds.next (heralds.next o .subscribe true)
            (.writeResponse (.success request.id d.revision .subscribed)) written = some x →
            x.owes = none ∧ x.stored = false ∧ (written.isOk = true → x.joined = false) := by
          intro x hx
          obtain ⟨y, hy, _, _, rfl⟩ := heralds_next_eq hx
          obtain ⟨z, hz, _, _, rfl⟩ := heralds_next_eq hy
          obtain ⟨howes, hjoined, hstored⟩ := ho z hz
          cases written with
          | error e => exact ⟨howes, hstored, nofun⟩
          | ok _ => exact ⟨howes, hstored, fun _ => rfl⟩
        cases written with
        | error e => exact fun x hx => (hwritten x hx).1
        | ok _ =>
          refine Act.follows_ofExcept.mpr ((idle_streamEvents rounds _ s fun x hx => ?_).mono
            fun _ _ _ h => h.heard)
          exact ⟨(hwritten x hx).1, (hwritten x hx).2.2 rfl, (hwritten x hx).2.1⟩

/-! ## The other tasks -/

theorem idle_retryTask (job : RetryJob) : StaysIdle (retryTask job) := by
  have hlist : StaysIdle (listTargets : Method WatchEngine (List WatchTarget)) :=
    idle_of_uses (uses_listTargets rfl)
  have hrun : StaysIdle (runRetry job) := by
    refine (idle_perform rfl).andThen fun _ => Act.keeps_ite (Act.keeps_fail _) ?_
    refine (idle_inRegistry (ofRegistry_setRunning _).idle).andThen fun _ => ?_
    refine (ofUpkeep_replaceSettings _).ofEngine.idle.andThen fun _ =>
      hlist.andThen fun targets => ?_
    refine (ofUpkeep_replaceWatchTargets targets).ofEngine.idle.andThen fun _ => ?_
    refine (ofUpkeep_ensureProvider _).ofEngine.idle.andThen fun _ =>
      (idle_perform rfl).andThen fun now => ?_
    exact (ofEngine_retryNow _ _ now false _).idle
  have hfinish : ∀ result, StaysIdle (finishRetry job result) := by
    refine fun result => idle_inRegistry ((ofRegistry_finish _ _).idle.andThen fun found => ?_)
    split
    · exact idle_perform rfl
    · exact Act.keeps_ret _
  refine .andThen (.attempt ?_) fun result => Act.keeps_ite (idle_perform rfl) (hfinish result)
  exact (idle_perform rfl).andThen fun _ =>
    Act.keeps_ite (Act.keeps_fail _) (idle_inEngine hrun)

theorem idle_serveRetryStatus (request : RpcRequest) : StaysIdle (serveRetryStatus request) := by
  refine Act.keeps_ite (Act.keeps_fail _) ?_
  split
  · exact Act.keeps_fail _
  · refine idle_readDaemon.andThen fun d => .andThen (idle_inRegistry ?_) fun operation => ?_
    · exact Act.keeps_get.andThen fun _ => Act.keeps_ret _
    · split
      · exact idle_respond _
      · exact idle_respond _

theorem idle_serveRetryNow (request : RpcRequest) : StaysIdle (serveRetryNow request) := by
  have hprepare : StaysIdle (prepareRetry request) := by
    unfold prepareRetry
    split
    · exact Act.keeps_fail _
    · refine (idle_perform rfl).andThen fun _ => Act.keeps_ite (Act.keeps_fail _) ?_
      refine .andThen (idle_inDaemon ?_ ?_) fun _ => Act.keeps_ret _
      · exact steady_andThen (steady_checkRevision request) fun _ =>
          steady_andThen steady_get fun _ => steady_ret _
      · refine .andThen (.andThen Act.uses_get fun d => ?_) fun _ =>
          .andThen Act.uses_get fun _ => Act.uses_ret _
        split
        · exact Act.uses_ret _
        · exact Act.uses_ite (Act.uses_fail _) (Act.uses_ret _)
  have hknown : ∀ retry revision, StaysIdle (answerKnownRetry request retry revision) := by
    refine fun retry revision => idle_inRegistry ((ofRegistry_findRequest _ _).idle.andThen ?_)
    intro found
    split
    · exact (idle_respond _).andThen fun _ => Act.keeps_ret _
    · exact Act.keeps_ret _
  have haccept : ∀ retry revision, StaysIdle (acceptRetry request retry revision) := by
    refine fun retry revision => idle_inRegistry ((ofRegistry_accept _ _).idle.attempt.andThen ?_)
    intro accepted
    split
    · exact Act.keeps_ret _
    · exact (idle_respond _).andThen fun _ => Act.keeps_ret _
  have hwithdraw : ∀ id, StaysIdle (withdrawRetry id) := fun id =>
    .andThen (Act.Keeps.attempt (idle_inRegistry (ofRegistry_rollback id).idle)) fun _ =>
      Act.keeps_ret _
  refine idle_readDaemon.andThen fun d => Act.keeps_ite (Act.keeps_fail _) ?_
  refine (Act.keeps_ofExcept _).andThen fun retry => (hknown retry _).andThen fun known => ?_
  refine Act.keeps_ite (Act.keeps_ret _) (hprepare.attempt.andThen fun prepared => ?_)
  split
  · exact idle_respond _
  · refine (haccept _ _).andThen fun accepted => ?_
    split
    · exact Act.keeps_ret _
    · refine (idle_respond _).attempt.andThen fun written => ?_
      split
      · exact Act.keeps_ite ((hwithdraw _).andThen fun _ => Act.keeps_fail _) (Act.keeps_fail _)
      · refine Act.keeps_ite ((idle_perform rfl).andThen fun _ => ?_) (Act.keeps_ret _)
        exact (idle_perform rfl).andThen fun _ => idle_perform rfl

theorem idle_shutdown : StaysIdle shutdown := by
  refine (idle_perform rfl).andThen fun _ => .andThen (idle_inDaemon ?_ ?_) fun _ => ?_
  · exact steady_andThen (Act.Moves.attempt steady_listTargets) fun _ =>
      steady_andThen steady_get fun _ => steady_ret _
  · exact .andThen (Act.Uses.attempt (uses_listTargets rfl)) fun _ =>
      .andThen Act.uses_get fun _ => Act.uses_ret _
  refine (idle_perform rfl).andThen fun _ => (idle_perform rfl).andThen fun _ => ?_
  refine (idle_perform rfl).andThen fun _ => (idle_perform rfl).andThen fun _ => ?_
  exact (idle_perform rfl).andThen fun _ => idle_inEngine ofUpkeep_closeEngine.ofEngine.idle

/-- A client's request leaves nothing to announce. -/
theorem follows_serveConnection_heard {rounds : Nat} {o : Option Herald} (ho : Idle o) {s : Unit} :
    (serveConnection rounds).Follows heralds o s fun o _ _ => Heard o := by
  refine Act.follows_andThen.mpr ((idle_perform rfl o s ho).mono ?_)
  intro o read s ho
  cases read with
  | error e => exact ho.heard
  | ok read =>
    refine Act.follows_andThen.mpr ?_
    cases read with
    | error e => exact ho.heard
    | ok request =>
      refine Act.follows_ofExcept.mpr ?_
      refine Act.follows_ite.mpr ⟨fun _ => follows_serveSubscribe ho, fun _ => ?_⟩
      refine Act.follows_ite.mpr ⟨fun _ => ?_, fun _ => ?_⟩
      · exact (idle_serveRetryStatus request o s ho).mono fun _ _ _ h => h.heard
      refine Act.follows_ite.mpr ⟨fun _ => ?_, fun _ => follows_serveRequest ho⟩
      exact (idle_serveRetryNow request o s ho).mono fun _ _ _ h => h.heard

/-! ## The reconcile loop -/

/-- Where the watchlist cannot be read after the revision was stored, the task is silenced. -/
theorem heralds_listTargets {x : Herald} {d : WatchcatDaemon} :
    listTargets.Follows heralds (some x) d fun o res d' => d' = d ∧ ∀ y, o = some y →
      y = x ∧ ∀ e, res = .error e → x.stored = false := by
  refine Act.follows_andThen.mpr (Act.follows_andThen.mpr (Act.follows_perform.mpr ?_))
  refine ⟨fun _ _ => trivial, fun r => ?_⟩
  have hread : ∀ y, heralds.next (some x) .readWatchlist r = some y →
      y = x ∧ (readable r = false → x.stored = false) := by
    intro y hy
    obtain ⟨z, hz, hsilenced, _, hnext⟩ := heralds_next_eq hy
    cases hz
    refine ⟨hnext, fun hr => ?_⟩
    simpa [Herald.silenced, hr] using hsilenced
  cases r with
  | error e => exact ⟨rfl, fun y hy => ⟨(hread y hy).1, fun _ _ => (hread y hy).2 rfl⟩⟩
  | ok found =>
    refine Act.follows_andThen.mpr (Act.follows_ofExcept.mpr ?_)
    refine Act.follows_ite.mpr ⟨fun hv => ⟨rfl, fun y hy => ?_⟩, fun _ => ⟨rfl, fun y hy => ?_⟩⟩
    · exact ⟨(hread y hy).1, fun _ _ => (hread y hy).2 (by simpa [readable] using hv)⟩
    · exact ⟨(hread y hy).1, by rintro _ ⟨⟩⟩

/-- A bump that succeeds has stored the revision. -/
theorem heralds_bumpRevision {x : Herald} {d : WatchcatDaemon} :
    bumpRevision.Follows heralds (some x) d fun o res d' => ∀ y, o = some y →
      ∃ stored, y = { x with stored := stored } ∧
        (Steady d d' ∨ res = .ok () ∧ stored = true ∧ Advances d d') := by
  refine Act.follows_andThen.mpr (heralds_listTargets.mono fun o targets d' h => ?_)
  obtain ⟨rfl, hx⟩ := h
  cases targets with
  | error e =>
    intro y hy
    obtain ⟨rfl, _⟩ := hx y hy
    exact ⟨y.stored, rfl, .inl rfl⟩
  | ok targets =>
    simp only [nextRevision, updateRecoveryPermit, perform, Act.bind_eq, Act.pure_eq,
      Act.follows_andThen, Act.follows_zoom, Act.follows_get, Act.follows_modify,
      Act.follows_perform]
    refine ⟨fun _ _ => trivial, fun written => ?_⟩
    cases written with
    | error e =>
      simp only [Act.follows_andThen, Act.follows_modify, Act.follows_fail]
      intro y hy
      obtain ⟨z, hz, _, _, hnext⟩ := heralds_next_eq hy
      exact ⟨x.stored, hnext.trans (hx z hz).1, .inl rfl⟩
    | ok _ =>
      simp only [Act.follows_andThen, Act.follows_get, Act.follows_ret]
      refine ⟨fun _ _ => trivial, fun _ y hy => ?_⟩
      obtain ⟨z, hz, _, _, rfl⟩ := heralds_next_eq hy
      obtain ⟨w, hw, _, _, rfl⟩ := heralds_next_eq hz
      obtain ⟨rfl, _⟩ := hx w hw
      exact ⟨true, rfl, .inr ⟨trivial, rfl, .inr rfl⟩⟩

/-- A method is followed from what may be known of its task. -/
theorem follows_known {m : Method σ α} {o : Option Herald} {s : σ}
    {Q : Option Herald → Except Error α → σ → Prop} (hnone : ∀ r s', Q none r s')
    (h : ∀ x, o = some x → m.Follows heralds (some x) s Q) : m.Follows heralds o s Q := by
  cases o with
  | none => exact follows_silenced hnone
  | some x => exact h x rfl

/-- A reload that raises the revision has stored it; one that fails has not. -/
theorem heralds_reloadExternalConfig {x : Herald} {d : WatchcatDaemon} :
    reloadExternalConfig.Follows heralds (some x) d fun o res d' => ∀ y, o = some y →
      ∃ stored, y = { x with stored := stored } ∧
        (Steady d d' ∨ res = .ok () ∧ stored = true ∧ Advances d d') := by
  refine Act.follows_andThen.mpr (Act.follows_perform.mpr ⟨fun _ _ => trivial, fun modified => ?_⟩)
  refine Act.follows_andThen.mpr
    (Act.follows_get.mpr (Act.follows_ite.mpr ⟨fun _ => ?_, fun _ => ?_⟩))
  · intro y hy
    obtain ⟨z, hz, _, _, rfl⟩ := heralds_next_eq hy
    cases hz
    exact ⟨x.stored, rfl, .inl rfl⟩
  refine Act.follows_andThen.mpr (Act.follows_attempt.mpr (follows_known (fun _ _ => ?_) ?_))
  · exact follows_known (fun _ _ => nofun) nofun
  intro y hy
  obtain ⟨z, hz, _, _, rfl⟩ := heralds_next_eq hy
  cases hz
  have hload : loadSettings.Moves Steady := by
    refine steady_andThen (steady_perform _) fun r =>
      steady_andThen (steady_ofExcept r) fun found => ?_
    cases found with
    | none => exact steady_ret _
    | some settings => exact steady_andThen (steady_ofExcept _) fun _ => steady_ret _
  refine (ofDaemon_loadSettings.follows_heralds (d := d)).and_returns fun tr loaded d' o hr hx => ?_
  have hsteady := hload.returns hr
  refine follows_known (fun _ _ => nofun) fun y hy => ?_
  obtain ⟨stored, rfl⟩ := hx y hy
  cases loaded with
  | error e =>
    rintro _ ⟨⟩
    exact ⟨stored, rfl, .inl hsteady⟩
  | ok settings =>
    refine Act.follows_andThen.mpr (heralds_bumpRevision.mono fun o bumped d'' hbumped => ?_)
    cases bumped with
    | error e =>
      intro y hy
      obtain ⟨stored, rfl, hd | ⟨hok, _⟩⟩ := hbumped y hy
      · exact ⟨stored, rfl, .inl (hd.trans hsteady)⟩
      · cases hok
    | ok _ =>
      refine Act.follows_andThen.mpr
        (Act.follows_perform.mpr ⟨fun _ _ => trivial, fun _ y hy => ?_⟩)
      obtain ⟨z, hz, _, _, hnext⟩ := heralds_next_eq hy
      obtain ⟨stored, hstored, hraised⟩ := hbumped z hz
      refine ⟨stored, hnext.trans hstored, ?_⟩
      rcases hraised with hd | ⟨_, hstored, hd⟩
      · exact .inl (hd.trans hsteady)
      · exact .inr ⟨rfl, hstored, hsteady.andThen_advances hd⟩

/-- A plan that cannot be made has not raised the revision, or its task is silenced. -/
theorem heralds_prepareReconcile {x : Herald} {d : WatchcatDaemon} :
    prepareReconcile.Follows heralds (some x) d fun o res d' => ∀ y, o = some y →
      ∃ stored, y = { x with stored := stored } ∧ Advances d d' ∧
        ∀ e, res = .error e → Steady d d' := by
  refine Act.follows_andThen.mpr (heralds_reloadExternalConfig.mono fun o reloaded d' hreload => ?_)
  cases reloaded with
  | error e =>
    intro y hy
    obtain ⟨stored, rfl, hd | ⟨hok, _⟩⟩ := hreload y hy
    · exact ⟨stored, rfl, hd.advances, fun _ _ => hd⟩
    · cases hok
  | ok _ =>
    refine follows_known (fun _ _ => nofun) fun y hy => ?_
    obtain ⟨stored, rfl, hraised⟩ := hreload y hy
    have hadvances : Advances d d' := hraised.elim Steady.advances fun h => h.2.2
    refine Act.follows_andThen.mpr (heralds_listTargets.mono fun o targets d'' hlist => ?_)
    obtain ⟨rfl, hlist⟩ := hlist
    cases targets with
    | error e =>
      intro z hz
      obtain ⟨rfl, hunread⟩ := hlist z hz
      refine ⟨stored, rfl, hadvances, fun _ _ => ?_⟩
      rcases hraised with hd | ⟨_, hstored, _⟩
      · exact hd
      · exact absurd ((hunread e rfl).symm.trans hstored) nofun
    | ok targets =>
      refine Act.follows_andThen.mpr (Act.follows_andThen.mpr (Act.follows_get.mpr ?_))
      refine Act.follows_perform.mpr ⟨fun _ _ => trivial, fun _ => ?_⟩
      refine Act.follows_andThen.mpr
        (Act.follows_perform.mpr ⟨fun _ _ => trivial, fun now z hz => ?_⟩)
      obtain ⟨v, hv, _, _, hnext⟩ := heralds_next_eq hz
      obtain ⟨w, hw, _, _, hnext'⟩ := heralds_next_eq hv
      refine ⟨stored, ?_, hadvances, nofun⟩
      exact hnext.trans (hnext'.trans (hlist w hw).1)

/-- What is known between the two ends of a cycle: the revision before it, and that one that was
raised since is to be announced. -/
structure Planned (before : Nat) (h : Herald) : Prop where
  joined : h.joined = false
  stored : h.stored = false
  planned : h.planned = true
  since : before ≤ h.seen
  owes : ∀ v, h.owes = some v → v = h.seen ∧ before < h.seen

/-- The first section of a cycle. -/
theorem follows_prepare {o : Option Herald} (ho : Idle o) {s : Unit} :
    (inDaemon .prepare (fun _ => none) (do
      let before := (← Act.get).revision
      return (before, ← Act.attempt prepareReconcile))
      : Task (Nat × Except Error ReconcilePlan)).Follows heralds o s fun o res _ =>
      ∀ y, o = some y → ∃ before prepared, res = .ok (before, prepared) ∧ Planned before y ∧
        ∀ e, prepared = .error e → y.owes = none := by
  cases o with
  | none => exact follows_silenced fun _ _ => nofun
  | some h =>
    obtain ⟨howes, hjoined, _⟩ := ho h rfl
    refine follows_inDaemon hjoined (fun _ => nofun) fun d hseen hbound => ?_
    refine Act.follows_andThen.mpr (Act.follows_get.mpr ?_)
    refine Act.follows_andThen.mpr (Act.follows_attempt.mpr ?_)
    refine heralds_prepareReconcile.mono fun o prepared d' hprepared => Act.follows_ret.mpr ?_
    intro y hy
    subst hy
    obtain ⟨stored, rfl, hadvances, hfailed⟩ := hprepared y rfl
    obtain ⟨hle, hle'⟩ := hadvances.revision hbound
    refine ⟨⟨rfl, hjoined, hle, hle'⟩, fun z hz => ?_⟩
    obtain ⟨v, hv, _, _, rfl⟩ := heralds_next_eq hz
    cases hv
    refine ⟨d.revision, prepared, rfl, ⟨hjoined, rfl, Bool.or_true _, hle, fun v hv => ?_⟩,
      fun e he => ?_⟩
    · by_cases hsame : d'.revision = d.revision
      · have hkept : h.owes = some v := (if_pos hsame).symm.trans hv
        exact nomatch howes.symm.trans hkept
      · have hraised : some d'.revision = some v := (if_neg hsame).symm.trans hv
        exact ⟨(Option.some.inj hraised).symm, lt_of_le_of_ne hle (Ne.symm hsame)⟩
    · exact (if_pos (hfailed e he).revision).trans howes

/-- The last section of a cycle announces what was raised since the first, unless it panics. -/
theorem heralds_commit {before : Nat} {engine : WatchEngine} {plan : ReconcilePlan}
    {outcome : ReconcileOutcome} {h : Herald} (hplanned : Planned before h) {d : WatchcatDaemon}
    (hseen : h.seen ≤ d.revision) (hbound : d.revision ≤ u64Max) :
    (do
      let committed ← attempted (commitReconcile engine plan outcome)
      let revision := (← Act.get).revision
      if !outcome.events.isEmpty then perform (.notify ⟨"engine.events", revision⟩)
      if revision ≠ before then perform (.notify ⟨"state.changed", revision⟩)
      return committed.toOption.getD engine : Method WatchcatDaemon WatchEngine).Follows heralds
      (some (h.next ⟨.lockDaemon .commit, d⟩)) d fun o res d' =>
        ∀ x, o = some x → x.Allows (.unlockDaemon d' .commit none) ∧
          HeardOrPanicked (heralds.next o (.unlockDaemon d' .commit none) ()) res := by
  obtain ⟨hjoined, _, _, hbefore, howes⟩ := hplanned
  refine Act.follows_andThen.mpr (Act.follows_attemptUnless.mpr ?_)
  refine (ofDaemon_commitReconcile _ _ _).follows_heralds.and_returns fun tr result d' o hr hx => ?_
  obtain ⟨hle, hle'⟩ := ((advances_commitReconcile _ _ _).returns hr).revision hbound
  have hallows : ∀ x : Herald, x.inside = true → x.joined = false → x.seen = d.revision →
      x.Allows (.unlockDaemon d' .commit none) :=
    fun x hi hj hs => ⟨hi, hj, by rw [hs]; exact hle, hle'⟩
  suffices hcommitted : ∀ committed : Except Error WatchEngine, Act.Follows heralds (do
      let revision := (← Act.get).revision
      if !outcome.events.isEmpty then perform (.notify ⟨"engine.events", revision⟩)
      if revision ≠ before then perform (.notify ⟨"state.changed", revision⟩)
      return committed.toOption.getD engine : Method WatchcatDaemon WatchEngine) o d'
        fun o res d' =>
        ∀ x, o = some x → x.Allows (.unlockDaemon d' .commit none) ∧
          HeardOrPanicked (heralds.next o (.unlockDaemon d' .commit none) ()) res by
    refine ⟨fun _ _ => hcommitted _, fun e _ => ?_⟩
    cases e with
    | panicked =>
      intro y hy
      obtain ⟨stored, rfl⟩ := hx y hy
      exact ⟨hallows _ rfl hjoined rfl, .inr rfl⟩
    | _ => exact hcommitted _
  intro committed
  refine follows_known (fun _ _ => nofun) fun y hy => ?_
  obtain ⟨stored, rfl⟩ := hx y hy
  refine Act.follows_andThen.mpr (Act.follows_get.mpr ?_)
  have hallows : ∀ x : Herald, x.inside = true → x.joined = false → x.seen = d.revision →
      x.Allows (.unlockDaemon d' .commit none) :=
    fun x hi hj hs => ⟨hi, hj, by rw [hs]; exact hle, hle'⟩
  have hend : (do
      if d'.revision ≠ before then perform (.notify ⟨"state.changed", d'.revision⟩)
      return committed.toOption.getD engine : Method WatchcatDaemon WatchEngine).Follows heralds
      (some { h.next ⟨.lockDaemon .commit, d⟩ with stored := stored }) d' fun o res d' =>
        ∀ x, o = some x → x.Allows (.unlockDaemon d' .commit none) ∧
          HeardOrPanicked (heralds.next o (.unlockDaemon d' .commit none) ()) res := by
    refine Act.follows_ite.mpr ⟨fun _ => ?_, fun hsame x hx => ?_⟩
    · refine Act.follows_andThen.mpr (Act.follows_perform.mpr ⟨?_, fun _ x hx => ?_⟩)
      · rintro _ ⟨⟩ _ v hv
        obtain ⟨rfl, _⟩ := howes v hv
        exact hseen.trans hle
      · obtain ⟨y, hy, _, _, rfl⟩ := heralds_next_eq hx
        cases hy
        refine ⟨hallows _ rfl hjoined rfl, .inl fun z hz => ?_⟩
        obtain ⟨v, hv, _, _, rfl⟩ := heralds_next_eq hz
        rw [hx] at hv
        cases hv
        by_cases hraised : d'.revision = d.revision
        · exact if_pos hraised
        · exact (if_neg hraised).trans (if_pos rfl)
    · cases hx
      refine ⟨hallows _ rfl hjoined rfl, .inl fun z hz => ?_⟩
      obtain ⟨v, hv, _, _, rfl⟩ := heralds_next_eq hz
      cases hv
      have hnever : d'.revision = d.revision ∧ h.owes = none := by
        refine ⟨by have := not_not.mp hsame; omega, ?_⟩
        cases hv : h.owes with
        | none => rfl
        | some v =>
          have hless := (howes v hv).2
          have hback := not_not.mp hsame
          omega
      exact (if_pos hnever.1).trans hnever.2
  refine Act.follows_ite.mpr ⟨fun _ => ?_, fun _ => hend⟩
  refine Act.follows_andThen.mpr (Act.follows_perform.mpr ⟨?_, fun _ => ?_⟩)
  · rintro _ ⟨⟩ hevent
    exact absurd hevent (show ¬ "engine.events" = "state.changed" by decide)
  · have hkept : heralds.next (some { h.next ⟨.lockDaemon .commit, d⟩ with stored := stored })
        (.notify ⟨"engine.events", d'.revision⟩) () =
        some { h.next ⟨.lockDaemon .commit, d⟩ with stored := stored } := by
      simp [heralds, Herald.silenced, Herald.strange, Herald.next_notify]
    rw [hkept]
    exact hend

theorem follows_commitOutcome {before : Nat} {plan : ReconcilePlan} {outcome : ReconcileOutcome}
    {o : Option Herald} (ho : ∀ h, o = some h → Planned before h) {e : WatchEngine} :
    (commitOutcome before plan outcome).Follows heralds o e fun o res _ =>
      HeardOrPanicked o res := by
  refine follows_known (fun _ _ => .inl nofun) fun h hh => ?_
  have hplanned := ho h hh
  refine Act.follows_andThen.mpr (Act.follows_get.mpr (Act.follows_andThen.mpr ?_))
  refine (follows_inDaemon (Q := fun o res _ => HeardOrPanicked o res) hplanned.joined
    (fun _ => .inl nofun) fun d hseen hbound => heralds_commit hplanned hseen hbound).mono
    fun o res _ hheard => ?_
  cases res with
  | error e => exact hheard.imp id fun he => congrArg Except.error (Except.error.inj he)
  | ok engine => exact .inl (hheard.resolve_right nofun)

/-- An engine's work keeps what its task knows. -/
theorem OfEngine.follows_heralds {m : Method WatchEngine α} (h : OfEngine m) {e : WatchEngine}
    {o : Option Herald} {before : Nat} (ho : ∀ h, o = some h → Planned before h) :
    m.Follows heralds o e fun o _ _ => ∀ h, o = some h → Planned before h := by
  refine Act.Uses.keeps (I := fun o => ∀ h, o = some h → Planned before h) h ?_ _ _ ho
  refine fun op o hop ho => ⟨fun y _ => ?_, fun r y hy => ?_⟩
  · cases op <;> trivial
  · obtain ⟨z, hz, _, _, rfl⟩ := heralds_next_eq hy
    cases op with
    | lockDaemon | unlockDaemon | writeControlState | notify | subscribe | writeResponse =>
      cases hop
    | _ => exact ho z hz

/-- An iteration announces the revision, unless it is silenced on the way. -/
theorem follows_reconcileIteration {o : Option Herald} (ho : Idle o) {s : Unit} :
    reconcileIteration.Follows heralds o s fun o _ _ => Heard o := by
  refine Act.follows_andThen.mpr ((follows_prepare ho).mono fun o res s hprepared => ?_)
  cases res with
  | error e =>
    intro y hy
    obtain ⟨_, _, hres, _⟩ := hprepared y hy
    cases hres
  | ok prepared =>
    obtain ⟨before, plan⟩ := prepared
    have hplanned : ∀ y, o = some y → Planned before y ∧ ∀ e, plan = .error e → y.owes = none := by
      intro y hy
      obtain ⟨_, _, hres, h⟩ := hprepared y hy
      cases hres
      exact h
    cases plan with
    | error e => exact fun y hy => (hplanned y hy).2 e rfl
    | ok plan =>
      -- the engine's lock changes nothing, and a pass that has failed silences the task
      have hlocked : ∀ e y, heralds.next o .lockEngine e = some y → Planned before y := by
        intro e y hy
        obtain ⟨z, hz, _, _, hnext⟩ := heralds_next_eq hy
        exact hnext ▸ (hplanned z hz).1
      have hbody : ∀ e, (do
          let outcome ← reconcileEngine plan
          commitOutcome before plan outcome).Follows heralds (heralds.next o .lockEngine e) e
          fun o res _ => HeardOrPanicked o res ∨ ∀ y, o = some y → Planned before y := by
        intro e
        refine Act.follows_andThen.mpr ?_
        refine ((ofEngine_reconcileEngine plan).follows_heralds (hlocked e)).mono
          fun o res e h => ?_
        cases res with
        | error _ => exact .inr h
        | ok outcome => exact (follows_commitOutcome h).mono fun _ _ _ => .inl
      have hcycle : (inEngine (do
          let outcome ← reconcileEngine plan
          commitOutcome before plan outcome) : Task Unit).Follows heralds o s
          fun o res _ => HeardOrPanicked o res := by
        refine ⟨fun _ _ => trivial, fun e => Prog.follows_bind.mpr ?_⟩
        refine Prog.Follows.mono (hbody e) fun o res h => ⟨fun _ _ => trivial, fun _ => ?_⟩
        rcases h with (h | h) | h
        · refine .inl fun y hy => ?_
          obtain ⟨z, hz, _, _, rfl⟩ := heralds_next_eq hy
          exact h y hz
        · exact .inr h
        · refine .inl fun y hy => ?_
          obtain ⟨z, hz, hsilenced, _, rfl⟩ := heralds_next_eq hy
          have hplan : (y.planned && y.owes.isSome) = false := hsilenced
          rw [(h y hz).planned, Bool.true_and] at hplan
          exact Option.isNone_iff_eq_none.mp (Option.isSome_eq_false_iff.mp hplan)
      refine Act.follows_andThen.mpr (Act.follows_attempt.mpr (hcycle.mono fun o res s h => ?_))
      refine Act.follows_ite.mpr ⟨fun _ => ?_, fun hno => ?_⟩
      · refine Act.follows_perform.mpr ⟨fun _ _ => trivial, fun _ y hy => ?_⟩
        obtain ⟨z, _, hsilenced, _, rfl⟩ := heralds_next_eq hy
        exact Option.isNone_iff_eq_none.mp (Option.isSome_eq_false_iff.mp hsilenced)
      · exact Act.follows_ofExcept.mpr (h.resolve_right hno)

end Watchcat
