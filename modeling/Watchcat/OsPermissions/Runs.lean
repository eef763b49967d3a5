import Watchcat.OsPermissions.Uses

/-!
# Runs of the dialog monitor

The main run loop runs the callbacks of the monitor one after the other, in any
order. Other threads configure the rules and stop the monitor between its calls,
where the locks are free.
-/

namespace Watchcat

open Watchcat.Core Desktop

/-! ## Callbacks -/

/-- A callback of the monitor. -/
inductive MonitorOp
  | queued (pid : Int)
  | notified (pid : Option Int) (reset : Bool)
  | retried (pid : Int)
  | configured

/-- The method that a callback runs. -/
def MonitorOp.method [Lowercase] : MonitorOp → Desktop DesktopMonitor Empty Unit
  | .queued pid => DesktopMonitor.queued pid
  | .notified pid reset => DesktopMonitor.notified pid reset
  | .retried pid => DesktopMonitor.retried pid
  | .configured => DesktopMonitor.configured

/-- A callback that has run. -/
structure MonitorRecord where
  op : MonitorOp
  before : DesktopMonitor
  calls : List (Prog.Event DesktopReply)
  after : DesktopMonitor

/-- A run of callbacks, of any length. -/
inductive MonitorRun [Lowercase] : DesktopMonitor → List MonitorRecord → DesktopMonitor → Prop
  | nil (m : DesktopMonitor) : MonitorRun m [] m
  | snoc {m mid m' : DesktopMonitor} {records : List MonitorRecord} {op : MonitorOp}
      {tr : List (Prog.Event DesktopReply)} {r : Except Empty Unit}
      (h : MonitorRun m records mid) (hop : op.method.Returns mid tr r m') :
      MonitorRun m (records ++ [⟨op, mid, tr, m'⟩]) m'

/-- The calls of a run. -/
def callsOf (records : List MonitorRecord) : List (Prog.Event DesktopReply) :=
  records.flatMap MonitorRecord.calls

theorem callsOf_append (records records' : List MonitorRecord) :
    callsOf (records ++ records') = callsOf records ++ callsOf records' :=
  List.flatMap_append

/-- What every callback keeps of the calls holds of a run. -/
theorem MonitorRun.keeps [Lowercase] {S : Type} {M : Monitor DesktopReply S} {I : S → Prop}
    (hop : ∀ op : MonitorOp, op.method.Keeps M I) {m m' : DesktopMonitor}
    {records : List MonitorRecord} (h : MonitorRun m records m') {s : S} (hs : I s) :
    I (M.after s (callsOf records)) := by
  induction h with
  | nil => exact hs
  | @snoc _ _ records op tr _ _ hlast ih =>
    rw [callsOf_append, Monitor.after_append]
    have hkept := (hop op _ _ ih).returns hlast
    simpa [callsOf] using hkept

/-- Each call of a run is allowed where every callback keeps to the monitor. -/
theorem MonitorRun.allowed [Lowercase] {S : Type} {M : Monitor DesktopReply S} {I : S → Prop}
    (hop : ∀ op : MonitorOp, op.method.Keeps M I) {m m' : DesktopMonitor}
    {records : List MonitorRecord} (h : MonitorRun m records m') {s : S} (hs : I s)
    {before after : List (Prog.Event DesktopReply)} {e : Prog.Event DesktopReply}
    (heq : callsOf records = before ++ e :: after) : M.allowed (M.after s before) e.1 := by
  induction h generalizing after with
  | nil => exact absurd heq (by simp [callsOf])
  | @snoc mid _ records op tr _ h hlast ih =>
    rw [callsOf_append, show callsOf [⟨op, mid, tr, _⟩] = tr from List.append_nil tr] at heq
    rcases List.append_eq_append_iff.mp heq with ⟨own, rfl, hown⟩ | ⟨rest, hrest, htail⟩
    · rw [Monitor.after_append]
      exact (hop op _ mid (h.keeps hop hs)).returns_allowed (hown ▸ hlast)
    · cases rest with
      | nil =>
        rw [List.append_nil] at hrest
        rw [← hrest]
        have hfirst : tr = [] ++ e :: after := htail.symm
        exact (hop op _ mid (h.keeps hop hs)).returns_allowed (hfirst ▸ hlast)
      | cons e' rest =>
        obtain ⟨rfl, rfl⟩ := List.cons.inj htail
        exact ih hrest

/-! ## Other threads -/

/-- What the threads share: the permit and the rules, and which of their locks the monitor has. -/
structure SharedPermit where
  permit : Bool
  rules : Option DialogSettings
  permitHeld : Bool := false
  rulesHeld : Bool := false

/-- A moment in the life of the monitor: a call of its own, new rules from `configure`, or the end
of `Guard::stop`. -/
inductive DesktopMoment
  | call (e : Prog.Event DesktopReply)
  | configured (rules : DialogSettings)
  | stopped

namespace DesktopMoment

/-- The call of the monitor. -/
def call? : DesktopMoment → Option (Prog.Event DesktopReply)
  | .call e => some e
  | _ => none

/-- The moment is possible: what is read is what is there, and another thread takes a lock only
where it is free. -/
def Possible (shared : SharedPermit) : DesktopMoment → Prop
  | .call ⟨.readPermit, permitted⟩ => permitted = shared.permit
  | .call ⟨.lockPermit, permitted⟩ => permitted = shared.permit
  | .call ⟨.readRules, rules⟩ => rules = shared.rules
  | .call ⟨.lockRules, rules⟩ => rules = shared.rules
  | .configured _ => shared.rulesHeld = false
  | .stopped => shared.permitHeld = false
  | _ => True

/-- What the moment leaves. -/
def next (shared : SharedPermit) : DesktopMoment → SharedPermit
  | .call ⟨.lockPermit, _⟩ => { shared with permitHeld := true }
  | .call ⟨.unlockPermit, _⟩ => { shared with permitHeld := false }
  | .call ⟨.lockRules, _⟩ => { shared with rulesHeld := true }
  | .call ⟨.unlockRules, _⟩ => { shared with rulesHeld := false }
  | .call _ => shared
  | .configured rules => { shared with rules := some rules }
  | .stopped => { shared with permit := false }

end DesktopMoment

/-- What some moments leave. -/
def SharedPermit.after (shared : SharedPermit) (moments : List DesktopMoment) : SharedPermit :=
  moments.foldl DesktopMoment.next shared

/-- Every moment is possible where it comes. -/
def SharedPermit.Passes : SharedPermit → List DesktopMoment → Prop
  | _, [] => True
  | shared, moment :: moments => moment.Possible shared ∧ (moment.next shared).Passes moments

namespace SharedPermit

variable {shared : SharedPermit} {moments moments' : List DesktopMoment}

theorem after_append :
    shared.after (moments ++ moments') = (shared.after moments).after moments' := List.foldl_append

theorem passes_append : shared.Passes (moments ++ moments') ↔
    shared.Passes moments ∧ (shared.after moments).Passes moments' := by
  induction moments generalizing shared with
  | nil => exact (true_and _).symm ▸ Iff.rfl
  | cons moment moments ih =>
    rw [List.cons_append, Passes, Passes, ih, and_assoc]
    rfl

/-- What every possible moment keeps holds after some moments, and what it says of each moment. -/
theorem Passes.keeps {I : SharedPermit → Prop} {C : Prog.Event DesktopReply → Prop}
    {N : DesktopMoment → Prop}
    (hstep : ∀ shared moment, I shared → moment.Possible shared →
      (∀ e, moment.call? = some e → C e) → I (moment.next shared) ∧ N moment)
    (h : shared.Passes moments) (hcalls : ∀ e ∈ moments.filterMap DesktopMoment.call?, C e)
    (hI : I shared) : I (shared.after moments) ∧ ∀ moment ∈ moments, N moment := by
  induction moments generalizing shared with
  | nil => exact ⟨hI, nofun⟩
  | cons moment moments ih =>
    have hcall : ∀ m ∈ moment :: moments, ∀ e, m.call? = some e → C e :=
      fun m hm e he => hcalls e (List.mem_filterMap.mpr ⟨m, hm, he⟩)
    obtain ⟨hnext, hN⟩ := hstep shared moment hI h.1 (hcall moment List.mem_cons_self)
    obtain ⟨hafter, hall⟩ := ih h.2 (fun e he => by
      obtain ⟨m, hm, he⟩ := List.mem_filterMap.mp he
      exact hcall m (List.mem_cons_of_mem _ hm) e he) hnext
    exact ⟨hafter, List.forall_mem_cons.mpr ⟨hN, hall⟩⟩

/-- While the monitor has the rules nobody configures them. -/
theorem rules_stay (hheld : shared.rulesHeld = true) (hpasses : shared.Passes moments)
    (hcalls : ∀ e ∈ moments.filterMap DesktopMoment.call?, e.1 ≠ .unlockRules) :
    ((shared.after moments).rulesHeld = true ∧ (shared.after moments).rules = shared.rules) ∧
      ∀ moment ∈ moments, ∀ rules, moment ≠ .configured rules := by
  refine hpasses.keeps (I := fun held => held.rulesHeld = true ∧ held.rules = shared.rules)
    (fun held moment hheld hpossible hcall => ?_) hcalls ⟨hheld, rfl⟩
  cases moment with
  | configured rules => exact absurd (hheld.1.symm.trans hpossible) (by decide)
  | stopped => exact ⟨hheld, nofun⟩
  | call e =>
    obtain ⟨op, r⟩ := e
    have hne : op ≠ .unlockRules := hcall ⟨op, r⟩ rfl
    cases op with
    | unlockRules => exact absurd rfl hne
    | lockRules => exact ⟨⟨rfl, hheld.2⟩, nofun⟩
    | _ => exact ⟨hheld, nofun⟩

/-- While the monitor has the permit nobody stops it. -/
theorem permit_stays (hheld : shared.permitHeld = true) (hpasses : shared.Passes moments)
    (hcalls : ∀ e ∈ moments.filterMap DesktopMoment.call?, e.1 ≠ .unlockPermit) :
    ((shared.after moments).permitHeld = true ∧ (shared.after moments).permit = shared.permit) ∧
      ∀ moment ∈ moments, moment ≠ .stopped := by
  refine hpasses.keeps (I := fun held => held.permitHeld = true ∧ held.permit = shared.permit)
    (fun held moment hheld hpossible hcall => ?_) hcalls ⟨hheld, rfl⟩
  cases moment with
  | configured rules => exact ⟨hheld, nofun⟩
  | stopped => exact absurd (hheld.1.symm.trans hpossible) (by decide)
  | call e =>
    obtain ⟨op, r⟩ := e
    have hne : op ≠ .unlockPermit := hcall ⟨op, r⟩ rfl
    cases op with
    | unlockPermit => exact absurd rfl hne
    | lockPermit => exact ⟨⟨rfl, hheld.2⟩, nofun⟩
    | _ => exact ⟨hheld, nofun⟩

/-- A permit that is withdrawn is not given back. -/
theorem permit_withdrawn (h : shared.permit = false) : (shared.after moments).permit = false := by
  induction moments generalizing shared with
  | nil => exact h
  | cons moment moments ih =>
    refine ih ?_
    cases moment with
    | configured rules => exact h
    | stopped => rfl
    | call e =>
      obtain ⟨op, r⟩ := e
      cases op <;> exact h

/-- Where the permit is there, nobody has stopped the monitor. -/
theorem not_stopped (h : (shared.after moments).permit = true) : .stopped ∉ moments := by
  intro hmem
  obtain ⟨before, after, rfl⟩ := List.append_of_mem hmem
  rw [after_append] at h
  have hstopped : (DesktopMoment.stopped.next (shared.after before)).permit = false := rfl
  have hwithdrawn : ((DesktopMoment.stopped.next (shared.after before)).after after).permit =
      false := permit_withdrawn hstopped
  exact absurd (h.symm.trans hwithdrawn) (by decide)

end SharedPermit

end Watchcat
