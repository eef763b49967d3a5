import Watchcat.Daemon.Effects
import Watchcat.Daemon.Heralds
import Watchcat.Daemon.Playing

/-!
# Subscribers hear of every revision

A subscriber is answered with a revision and from then on hears of the later ones:
each section that raises the revision leaves a task that announces it. This holds
in every state of a run in which no task has been silenced on its way to the
announcement since the process was started, for every subscriber that was not
overtaken by a later revision before it subscribed.
-/

namespace Watchcat

open Watchcat.Core Method

/-! ## Streams -/

/-- What a task has read of the revision and been told of since it subscribed. -/
structure Stream where
  read : Option Nat := none
  -- a later revision was announced after the reading and before the subscription
  overtaken : Bool := false
  -- the notifications sent since the subscription; a resync makes up for those that are dropped
  queued : Option (List RpcNotification) := none
  -- the revision that the response to the subscription carried
  answered : Option Nat := none

namespace Stream

/-- A notification is sent to all subscribers. -/
def hears (s : Stream) (n : RpcNotification) : Stream :=
  match s.queued with
  | some q => { s with queued := some (q ++ [n]) }
  | none => { s with overtaken := s.overtaken ||
      n.event == "state.changed" && s.read.any (· < n.revision) }

/-- A call of the task itself. -/
def next (s : Stream) : Prog.Event Reply → Stream
  | ⟨.lockDaemon _, d⟩ => if s.queued.isSome then s else { read := some d.revision }
  | ⟨.subscribe, true⟩ => { s with queued := some (s.queued.getD []) }
  | ⟨.writeResponse response, .ok _⟩ =>
    if s.queued.isSome && s.answered.isNone then { s with answered := some response.revision }
    else s
  | _ => s

/-- The stream of a task over the steps of a run. -/
def after (t : Tid) (s : Stream) : Label Reply Tid → Stream
  | .call u op r => match (⟨op, r⟩ : Prog.Event Reply) with
    | ⟨.notify n, _⟩ => s.hears n
    | e => if u = t then s.next e else s
  | .begins u | .drops u => if u = t then {} else s
  | .changes => s
  | .restarts => {}

/-- The subscriber has been told of this revision, or of a later one. -/
def Informed (s : Stream) (revision : Nat) : Prop :=
  ∃ q, s.queued = some q ∧ ∃ n ∈ q, n.event = "state.changed" ∧ revision ≤ n.revision

end Stream

/-- The herald of a task over the steps of a run. -/
def Herald.after (t : Tid) (h : Herald) : Label Reply Tid → Herald
  | .call u op r => if u = t then h.next ⟨op, r⟩ else h
  | .begins u | .drops u => if u = t then {} else h
  | .changes => h
  | .restarts => {}

/-- What a task knows of the revision after a run. -/
def heraldOf (t : Tid) (tr : List (Label Reply Tid)) : Herald := tr.foldl (Herald.after t) {}

/-- What a task has been told after a run. -/
def streamOf (t : Tid) (tr : List (Label Reply Tid)) : Stream := tr.foldl (Stream.after t) {}

theorem heraldOf_snoc (t : Tid) (tr : List (Label Reply Tid)) (l : Label Reply Tid) :
    heraldOf t (tr ++ [l]) = (heraldOf t tr).after t l := List.foldl_append

theorem streamOf_snoc (t : Tid) (tr : List (Label Reply Tid)) (l : Label Reply Tid) :
    streamOf t (tr ++ [l]) = (streamOf t tr).after t l := List.foldl_append

/-- The step leaves a raised revision without an announcement: its task is silenced, or dropped
before it has announced it. -/
def Silences (tr : List (Label Reply Tid)) : Label Reply Tid → Prop
  | .call t op r => (heraldOf t tr).silenced ⟨op, r⟩ = true
  | .drops t => (heraldOf t tr).owes ≠ none
  | _ => False

/-! ## What is kept -/

/-- How the reading of a subscriber and its response belong together. -/
structure Stream.Asks (s : Stream) (h : Herald) : Prop where
  before : s.queued = none → s.read = h.entered ∧ s.answered = none
  joined : s.queued.isSome = true → s.answered = none → h.joined = true ∧ s.read = h.entered
  answered : ∀ r, s.answered = some r → s.read = some r

/-- Who is behind with what: a subscriber has read the revision of the daemon, it has been told of
it, or a task is about to announce it. -/
structure Covered (w : World) (heralds : Tid → Herald) (streams : Tid → Stream) : Prop where
  bound : w.running = true → w.daemon.revision ≤ u64Max
  seen : ∀ t, (heralds t).seen ≤ w.daemon.revision
  inside : ∀ t, (heralds t).inside = true →
    w.daemonLock = some t ∧ w.daemon.revision = (heralds t).seen
  told : ∀ t v, (heralds t).inside = true → (heralds t).told = some v → ∀ u r,
    (streams u).read = some r → (streams u).overtaken = false → v ≤ r ∨ (streams u).Informed v
  known : ∀ t r, (streams t).read = some r → (streams t).overtaken = false →
    w.daemon.revision ≤ r ∨ (streams t).Informed w.daemon.revision ∨
      ∃ u, (heralds u).owes = some w.daemon.revision
  asks : ∀ t, (streams t).Asks (heralds t)

variable {w w' : World} {heralds : Tid → Herald} {streams : Tid → Stream} {t : Tid}

/-- What a change of one task leaves of it is left of all. -/
theorem update_same {α β : Type} (f : α → β) (g : Tid → α) {a : α} (h : f a = f (g t)) (u : Tid) :
    f (Function.update g t a u) = f (g u) := by
  by_cases hu : u = t
  · subst hu
    rw [Function.update_self, h]
  · rw [Function.update_of_ne hu]

/-- A call that is not an announcement reaches the stream of its own task. -/
theorem after_call {op : Call} {r : Reply op} (h : ∀ n, op ≠ .notify n) :
    (fun u => (streams u).after u (.call t op r)) =
      Function.update streams t ((streams t).next ⟨op, r⟩) := by
  funext u
  have hafter : (streams u).after u (.call t op r) =
      if t = u then (streams u).next ⟨op, r⟩ else streams u := by
    cases op with
    | notify n => exact absurd rfl (h n)
    | _ => rfl
  rw [hafter]
  by_cases hu : u = t
  · subst hu
    rw [if_pos rfl, Function.update_self]
  · rw [if_neg (Ne.symm hu), Function.update_of_ne hu]

/-- What the calls that matter here leave alone. -/
theorem Covered.congr (h : Covered w heralds streams) {heralds' : Tid → Herald}
    (hdaemon : w'.daemon = w.daemon) (hlock : w'.daemonLock = w.daemonLock)
    (hrunning : w'.running = w.running)
    (hheralds : ∀ u, ∃ stored, heralds' u = { heralds u with stored := stored }) :
    Covered w' heralds' streams := by
  have hseen : ∀ u, (heralds' u).seen = (heralds u).seen := fun u => by
    obtain ⟨_, hu⟩ := hheralds u; rw [hu]
  have hinside : ∀ u, (heralds' u).inside = (heralds u).inside := fun u => by
    obtain ⟨_, hu⟩ := hheralds u; rw [hu]
  have htold : ∀ u, (heralds' u).told = (heralds u).told := fun u => by
    obtain ⟨_, hu⟩ := hheralds u; rw [hu]
  have howes : ∀ u, (heralds' u).owes = (heralds u).owes := fun u => by
    obtain ⟨_, hu⟩ := hheralds u; rw [hu]
  refine ⟨?_, fun u => ?_, fun u hu => ?_, fun u v hu hv => ?_, fun u r hr ho => ?_, fun u => ?_⟩
  · rw [hdaemon, hrunning]
    exact h.bound
  · rw [hdaemon, hseen]
    exact h.seen u
  · rw [hdaemon, hlock, hseen]
    exact h.inside u (hinside u ▸ hu)
  · exact h.told u v (hinside u ▸ hu) (htold u ▸ hv)
  · rw [hdaemon]
    simp only [howes]
    exact h.known u r hr ho
  · obtain ⟨_, hu⟩ := hheralds u
    rw [hu]
    exact ⟨(h.asks u).before, (h.asks u).joined, (h.asks u).answered⟩

/-- The daemon is entered: the task reads the revision there is. -/
theorem Covered.locked (h : Covered w heralds streams) {section_ : DaemonSection}
    {d : WatchcatDaemon} (hallows : (heralds t).Allows (.lockDaemon section_))
    (ha : World.act t w (.lockDaemon section_) d w') :
    Covered w' (Function.update heralds t ((heralds t).next ⟨.lockDaemon section_, d⟩))
      (Function.update streams t ((streams t).next ⟨.lockDaemon section_, d⟩)) := by
  obtain ⟨hfree, rfl, rfl⟩ := ha
  have hnone : ∀ u, (heralds u).inside = true → False := fun u hu => by
    have hlock := (h.inside u hu).1
    rw [hfree] at hlock
    cases hlock
  have howes := update_same Herald.owes heralds
    (a := (heralds t).next ⟨.lockDaemon section_, w.daemon⟩) rfl
  have hstream : (streams t).next ⟨.lockDaemon section_, w.daemon⟩ =
      if (streams t).queued.isSome then streams t else { read := some w.daemon.revision } := rfl
  refine ⟨h.bound, fun u => ?_, fun u hu => ?_, fun u v hu hv => ?_, fun u r hr ho => ?_,
    fun u => ?_⟩
  · by_cases hu : u = t
    · subst hu
      rw [Function.update_self]
      exact le_refl _
    · rw [Function.update_of_ne hu]
      exact h.seen u
  · by_cases ht : u = t
    · subst ht
      rw [Function.update_self]
      exact ⟨rfl, rfl⟩
    · rw [Function.update_of_ne ht] at hu
      exact absurd (hnone u hu) not_false
  · by_cases ht : u = t
    · subst ht
      rw [Function.update_self] at hv
      cases hv
    · rw [Function.update_of_ne ht] at hu
      exact absurd (hnone u hu) not_false
  · simp only [howes]
    by_cases hu : u = t
    · subst hu
      rw [Function.update_self, hstream] at hr ho ⊢
      by_cases hq : (streams u).queued.isSome = true
      · rw [if_pos hq] at hr ho ⊢
        exact h.known u r hr ho
      · rw [if_neg hq] at hr
        exact .inl (Option.some.inj hr).le
    · rw [Function.update_of_ne hu] at hr ho ⊢
      exact h.known u r hr ho
  · by_cases hu : u = t
    · subst hu
      rw [Function.update_self, Function.update_self, hstream]
      by_cases hq : (streams u).queued.isSome = true
      · rw [if_pos hq]
        refine ⟨fun hno => ?_, fun _ hno => ?_, (h.asks u).answered⟩
        · rw [hno] at hq
          cases hq
        · have hjoined := ((h.asks u).joined hq hno).1
          exact absurd (hjoined.symm.trans hallows) nofun
      · rw [if_neg hq]
        exact ⟨fun _ => ⟨rfl, rfl⟩, fun hno => (Bool.false_ne_true hno).elim, nofun⟩
    · rw [Function.update_of_ne hu, Function.update_of_ne hu]
      exact h.asks u

/-- The daemon is left: what the section has raised is announced or owed. -/
theorem Covered.unlocked (h : Covered w heralds streams) {d : WatchcatDaemon}
    {section_ : DaemonSection} {answer : Option RpcResponse} {u : Unit}
    (hallows : (heralds t).Allows (.unlockDaemon d section_ answer))
    (ha : World.act t w (.unlockDaemon d section_ answer) u w') :
    Covered w' (Function.update heralds t ((heralds t).next ⟨.unlockDaemon d section_ answer, u⟩))
      streams := by
  obtain ⟨hlock, rfl⟩ := ha
  obtain ⟨hinside, hjoined, hle, hle'⟩ := hallows
  obtain ⟨_, hrevision⟩ := h.inside t hinside
  have hnone : ∀ v, v ≠ t → (heralds v).inside = true → False := fun v hv hi => by
    have hother := (h.inside v hi).1
    rw [hlock] at hother
    exact hv (Option.some.inj hother).symm
  refine ⟨fun _ => hle', fun v => ?_, fun v hv => ?_, fun v _ hv => ?_, fun v r hr ho => ?_,
    fun v => ?_⟩
  · by_cases ht : v = t
    · subst ht
      rw [Function.update_self]
      exact le_refl _
    · rw [Function.update_of_ne ht]
      exact (h.seen v).trans (hrevision.le.trans hle)
  · by_cases ht : v = t
    · subst ht
      rw [Function.update_self] at hv
      cases hv
    · rw [Function.update_of_ne ht] at hv
      exact absurd (hnone v ht hv) not_false
  · by_cases ht : v = t
    · subst ht
      rw [Function.update_self] at hv
      cases hv
    · rw [Function.update_of_ne ht] at hv
      exact absurd (hnone v ht hv) not_false
  · by_cases hsame : d.revision = (heralds t).seen
    · -- the revision is the one of before, and so is what its task owes
      have howes := update_same Herald.owes heralds
        (a := (heralds t).next ⟨.unlockDaemon d section_ answer, u⟩) (if_pos hsame)
      simp only [howes]
      rw [hsame, ← hrevision]
      exact h.known v r hr ho
    · by_cases htold : (heralds t).told = some d.revision
      · exact (h.told t d.revision hinside htold v r hr ho).imp_right .inl
      · refine .inr (.inr ⟨t, ?_⟩)
        rw [Function.update_self]
        exact (if_neg hsame).trans (if_neg htold)
  · by_cases ht : v = t
    · subst ht
      rw [Function.update_self]
      exact ⟨(h.asks v).before, (h.asks v).joined, (h.asks v).answered⟩
    · rw [Function.update_of_ne ht]
      exact h.asks v

theorem Stream.Informed.hears {s : Stream} {v : Nat} (h : s.Informed v) (n : RpcNotification) :
    (s.hears n).Informed v := by
  obtain ⟨q, hq, m, hm, hevent, hle⟩ := h
  refine ⟨q ++ [n], ?_, m, List.mem_append.mpr (.inl hm), hevent, hle⟩
  unfold Stream.hears
  rw [hq]

/-- A notification changes what is queued, or overtakes one who has read an earlier revision. -/
theorem Stream.hears_cases (s : Stream) (n : RpcNotification) :
    (s.hears n).read = s.read ∧ (s.hears n).answered = s.answered ∧
      (s.hears n).queued = s.queued.map (fun q => q ++ [n]) ∧
      ((s.hears n).overtaken = false → s.overtaken = false ∧
        (s.queued = none → n.event = "state.changed" → ∀ r, s.read = some r →
          n.revision ≤ r)) := by
  unfold Stream.hears
  cases hq : s.queued with
  | some q => exact ⟨rfl, rfl, rfl, fun ho => ⟨ho, nofun⟩⟩
  | none =>
    refine ⟨rfl, rfl, rfl, fun ho => ?_⟩
    obtain ⟨ho, hnew⟩ := Bool.or_eq_false_iff.mp ho
    refine ⟨ho, fun _ hevent r hr => ?_⟩
    rw [hevent, hr] at hnew
    simpa using hnew

/-- Subscribers that are not overtaken are told, or have read the revision. -/
theorem Stream.hears_informed {s : Stream} {n : RpcNotification}
    (hevent : n.event = "state.changed") (ho : (s.hears n).overtaken = false) {r v : Nat}
    (hr : s.read = some r) (hv : v ≤ n.revision) : v ≤ r ∨ (s.hears n).Informed v := by
  obtain ⟨_, _, hqueued, hovertaken⟩ := s.hears_cases n
  cases hq : s.queued with
  | none => exact .inl (hv.trans ((hovertaken ho).2 hq hevent r hr))
  | some q =>
    rw [hq] at hqueued
    exact .inr ⟨_, hqueued, n, List.mem_append.mpr (.inr (List.mem_singleton.mpr rfl)), hevent, hv⟩

/-- A revision is announced, or something else. -/
theorem Covered.notified (h : Covered w heralds streams) {n : RpcNotification} {u : Unit}
    (hallows : (heralds t).Allows (.notify n)) :
    Covered w (Function.update heralds t ((heralds t).next ⟨.notify n, u⟩))
      fun v => (streams v).hears n := by
  have hnext := (heralds t).next_notify n u
  have hchanged : ∀ v, n.event = "state.changed" ∧ v = t ∨
      (Function.update heralds t ((heralds t).next ⟨.notify n, u⟩)) v = heralds v := by
    intro v
    by_cases ht : v = t
    · subst ht
      by_cases hevent : n.event = "state.changed"
      · exact .inl ⟨hevent, rfl⟩
      · rw [Function.update_self, hnext, if_neg hevent]
        exact .inr rfl
    · exact .inr (Function.update_of_ne ht _ _)
  have hkept : ∀ {β : Type} (f : Herald → β), (∀ h : Herald, f (h.next ⟨.notify n, u⟩) = f h) →
      ∀ v, f (Function.update heralds t ((heralds t).next ⟨.notify n, u⟩) v) = f (heralds v) :=
    fun f hf v => update_same f heralds (hf _) v
  have hsplit : ∀ {β : Type} (f : Herald → β) (h : Herald),
      f { h with told := some n.revision, owes := none } = f h →
      f (h.next ⟨.notify n, u⟩) = f h := by
    intro β f h hf
    rw [Herald.next_notify]
    split
    · exact hf
    · rfl
  have hseen := hkept Herald.seen fun h => hsplit _ h rfl
  have hinside := hkept Herald.inside fun h => hsplit _ h rfl
  have hentered := hkept Herald.entered fun h => hsplit _ h rfl
  have hjoined := hkept Herald.joined fun h => hsplit _ h rfl
  refine ⟨h.bound, fun v => ?_, fun v hv => ?_, fun v x hv hx x' r hr ho => ?_, fun v r hr ho => ?_,
    fun v => ?_⟩
  · rw [hseen]
    exact h.seen v
  · rw [hseen]
    exact h.inside v (hinside v ▸ hv)
  · obtain ⟨hread, _, _, hovertaken⟩ := (streams x').hears_cases n
    rcases hchanged v with ⟨hevent, rfl⟩ | hsame
    · rw [Function.update_self, hnext, if_pos hevent] at hx
      cases hx
      exact Stream.hears_informed hevent ho (hread ▸ hr) (le_refl _)
    · rw [hsame] at hv hx
      exact (h.told v x hv hx x' r (hread ▸ hr) (hovertaken ho).1).imp_right fun hinformed =>
        hinformed.hears n
  · obtain ⟨hread, _, _, hovertaken⟩ := (streams v).hears_cases n
    rcases h.known v r (hread ▸ hr) (hovertaken ho).1 with hle | hinformed | ⟨x, hx⟩
    · exact .inl hle
    · exact .inr (.inl (hinformed.hears n))
    · rcases hchanged x with ⟨hevent, rfl⟩ | hsame
      · exact (Stream.hears_informed hevent ho (hread ▸ hr) (hallows hevent _ hx)).imp_right .inl
      · exact .inr (.inr ⟨x, by rw [hsame]; exact hx⟩)
  · obtain ⟨hread, hanswered, hqueued, _⟩ := (streams v).hears_cases n
    have hnone : ((streams v).hears n).queued = none → (streams v).queued = none := by
      rw [hqueued]
      exact Option.map_eq_none_iff.mp
    refine ⟨fun hq => ?_, fun hq ha => ?_, fun r hr => ?_⟩
    · rw [hread, hanswered, hentered]
      exact (h.asks v).before (hnone hq)
    · rw [hread, hentered, hjoined]
      rw [hqueued, Option.isSome_map] at hq
      exact (h.asks v).joined hq (hanswered ▸ ha)
    · rw [hread]
      exact (h.asks v).answered r (hanswered ▸ hr)

/-- Only what a task has asked for, and whether it is answered, changes. -/
theorem Covered.asked (h : Covered w heralds streams) {joined : Bool} {s : Stream}
    (hread : s.read = (streams t).read) (hovertaken : s.overtaken = (streams t).overtaken)
    (hqueued : ∀ q, (streams t).queued = some q → s.queued = some q)
    (hasks : s.Asks { heralds t with joined := joined }) :
    Covered w (Function.update heralds t { heralds t with joined := joined })
      (Function.update streams t s) := by
  have hseen := update_same Herald.seen heralds (a := { heralds t with joined := joined }) rfl
  have hinside := update_same Herald.inside heralds (a := { heralds t with joined := joined }) rfl
  have htold := update_same Herald.told heralds (a := { heralds t with joined := joined }) rfl
  have howes := update_same Herald.owes heralds (a := { heralds t with joined := joined }) rfl
  have hreads := update_same Stream.read streams hread
  have hovertakens := update_same Stream.overtaken streams hovertaken
  have hinformed : ∀ u v, (streams u).Informed v → (Function.update streams t s u).Informed v := by
    rintro u v ⟨q, hq, hn⟩
    by_cases hu : u = t
    · subst hu
      rw [Function.update_self]
      exact ⟨q, hqueued q hq, hn⟩
    · rw [Function.update_of_ne hu]
      exact ⟨q, hq, hn⟩
  refine ⟨h.bound, fun u => ?_, fun u hu => ?_, fun u v hu hv x r hr ho => ?_, fun u r hr ho => ?_,
    fun u => ?_⟩
  · rw [hseen]
    exact h.seen u
  · rw [hseen]
    exact h.inside u (hinside u ▸ hu)
  · exact (h.told u v (hinside u ▸ hu) (htold u ▸ hv) x r (hreads x ▸ hr)
      (hovertakens x ▸ ho)).imp_right (hinformed x v)
  · simp only [howes]
    exact (h.known u r (hreads u ▸ hr) (hovertakens u ▸ ho)).imp_right
      (Or.imp_left (hinformed u _))
  · by_cases hu : u = t
    · subst hu
      rw [Function.update_self, Function.update_self]
      exact hasks
    · rw [Function.update_of_ne hu, Function.update_of_ne hu]
      exact h.asks u

/-- A task subscribes. -/
theorem Covered.subscribed (h : Covered w heralds streams) {slot : Bool} :
    Covered w (Function.update heralds t ((heralds t).next ⟨.subscribe, slot⟩))
      (Function.update streams t ((streams t).next ⟨.subscribe, slot⟩)) := by
  cases slot with
  | false =>
    have hheralds : (heralds t).next ⟨.subscribe, false⟩ = heralds t := rfl
    have hstreams : (streams t).next ⟨.subscribe, false⟩ = streams t := rfl
    rw [hheralds, hstreams, Function.update_eq_self, Function.update_eq_self]
    exact h
  | true =>
    refine h.asked rfl rfl (fun q hq => ?_) ⟨nofun, fun _ ha => ⟨rfl, ?_⟩, (h.asks t).answered⟩
    · exact congrArg (fun queued => some (Option.getD queued [])) hq
    · cases hq : (streams t).queued with
      | none => exact ((h.asks t).before hq).1
      | some q => exact ((h.asks t).joined (by rw [hq]; rfl) ha).2

/-- A response is written, or not. -/
theorem Covered.responded (h : Covered w heralds streams) {response : RpcResponse}
    {written : Except Error Unit} (hallows : (heralds t).Allows (.writeResponse response)) :
    Covered w (Function.update heralds t ((heralds t).next ⟨.writeResponse response, written⟩))
      (Function.update streams t ((streams t).next ⟨.writeResponse response, written⟩)) := by
  cases written with
  | error e =>
    have hheralds : (heralds t).next ⟨.writeResponse response, .error e⟩ = heralds t := rfl
    have hstreams : (streams t).next ⟨.writeResponse response, .error e⟩ = streams t := rfl
    rw [hheralds, hstreams, Function.update_eq_self, Function.update_eq_self]
    exact h
  | ok _ =>
    have hstream : (streams t).next ⟨.writeResponse response, .ok ()⟩ =
        if (streams t).queued.isSome && (streams t).answered.isNone then
          { streams t with answered := some response.revision } else streams t := rfl
    by_cases hfirst : ((streams t).queued.isSome && (streams t).answered.isNone) = true
    · rw [hstream, if_pos hfirst]
      obtain ⟨hq, ha⟩ := Bool.and_eq_true_iff.mp hfirst
      obtain ⟨hjoined, hread⟩ := (h.asks t).joined hq (Option.isNone_iff_eq_none.mp ha)
      refine h.asked rfl rfl (fun _ hq => hq) ⟨fun hno => ?_, nofun, ?_⟩
      · rw [show (streams t).queued = none from hno] at hq
        cases hq
      · rintro _ ⟨⟩
        exact hread.trans (hallows hjoined)
    · rw [hstream, if_neg hfirst]
      refine h.asked rfl rfl (fun _ hq => hq) ⟨(h.asks t).before, fun hq ha => ?_,
        (h.asks t).answered⟩
      rw [hq, ha] at hfirst
      exact absurd rfl hfirst

/-- Calls that have to do with the revision and its announcement. -/
def Call.ofHeralds : Call → Bool
  | .lockDaemon _ | .unlockDaemon _ _ _ | .notify _ | .subscribe | .writeResponse _ => true
  | _ => false

theorem act_daemon {op : Call} {r : Reply op} (hop : op.ofHeralds = false)
    (ha : World.act t w op r w') :
    w'.daemon = w.daemon ∧ w'.daemonLock = w.daemonLock ∧ w'.running = w.running := by
  cases op with
  | lockDaemon | unlockDaemon | notify | subscribe | writeResponse => cases hop
  | writeWatchlist | writeControlState | writeOperations =>
    cases r <;> (obtain rfl := ha; exact ⟨rfl, rfl, rfl⟩)
  | _ =>
    first
    | (obtain rfl := ha; exact ⟨rfl, rfl, rfl⟩)
    | (obtain ⟨_, rfl⟩ := ha; exact ⟨rfl, rfl, rfl⟩)
    | (obtain ⟨_, _, rfl⟩ := ha; exact ⟨rfl, rfl, rfl⟩)

/-- Every call that its task may make keeps the subscribers covered. -/
theorem Covered.called (h : Covered w heralds streams) {op : Call} {r : Reply op}
    (hallows : (heralds t).Allows op) (ha : World.act t w op r w') :
    Covered w' (Function.update heralds t ((heralds t).next ⟨op, r⟩))
      fun u => (streams u).after u (.call t op r) := by
  by_cases hop : op.ofHeralds = true
  · cases op with
    | notify n =>
      obtain rfl := ha
      exact h.notified hallows
    | lockDaemon section_ =>
      rw [after_call (fun _ h => by cases h)]
      exact h.locked hallows ha
    | unlockDaemon d section_ answer =>
      have hsame : (streams t).next ⟨.unlockDaemon d section_ answer, r⟩ = streams t := rfl
      rw [after_call (fun _ h => by cases h), hsame, Function.update_eq_self]
      exact h.unlocked hallows ha
    | subscribe =>
      obtain rfl := ha
      rw [after_call (fun _ h => by cases h)]
      exact h.subscribed
    | writeResponse response =>
      obtain rfl := ha
      rw [after_call (fun _ h => by cases h)]
      exact h.responded hallows
    | _ => cases hop
  · have hother := Bool.not_eq_true _ ▸ hop
    obtain ⟨hdaemon, hlock, hrunning⟩ := act_daemon hother ha
    have hstream : (streams t).next ⟨op, r⟩ = streams t := by
      cases op <;> first | rfl | cases hother
    have hherald : ∃ stored, (heralds t).next ⟨op, r⟩ = { heralds t with stored := stored } := by
      cases op with
      | lockDaemon | unlockDaemon | notify | subscribe | writeResponse => cases hother
      | writeControlState =>
        cases r with
        | error e => exact ⟨_, rfl⟩
        | ok _ => exact ⟨true, rfl⟩
      | _ => exact ⟨_, rfl⟩
    rw [after_call (by rintro n rfl; cases hother), hstream, Function.update_eq_self]
    refine h.congr hdaemon hlock hrunning fun u => ?_
    by_cases hu : u = t
    · subst hu
      rw [Function.update_self]
      exact hherald
    · rw [Function.update_of_ne hu]
      exact ⟨_, rfl⟩

/-- A task that has nothing to announce begins anew or is gone. -/
theorem Covered.reset (h : Covered w heralds streams) (howes : (heralds t).owes = none)
    (hdaemon : w'.daemon = w.daemon) (hlock : w'.daemonLock = w.daemonLock)
    (hrunning : w'.running = w.running) :
    Covered w' (Function.update heralds t {}) (Function.update streams t {}) := by
  refine ⟨?_, fun u => ?_, fun u hu => ?_, fun u v hu hv x r hr ho => ?_, fun u r hr ho => ?_,
    fun u => ?_⟩
  · rw [hdaemon, hrunning]
    exact h.bound
  · by_cases ht : u = t
    · subst ht
      rw [Function.update_self]
      exact Nat.zero_le _
    · rw [Function.update_of_ne ht, hdaemon]
      exact h.seen u
  · by_cases ht : u = t
    · subst ht
      rw [Function.update_self] at hu
      cases hu
    · rw [Function.update_of_ne ht] at hu ⊢
      rw [hdaemon, hlock]
      exact h.inside u hu
  · by_cases hx : x = t
    · subst hx
      rw [Function.update_self] at hr
      cases hr
    · rw [Function.update_of_ne hx] at hr ho ⊢
      by_cases ht : u = t
      · subst ht
        rw [Function.update_self] at hu
        cases hu
      · rw [Function.update_of_ne ht] at hu hv
        exact h.told u v hu hv x r hr ho
  · by_cases hu : u = t
    · subst hu
      rw [Function.update_self] at hr
      cases hr
    · rw [Function.update_of_ne hu] at hr ho ⊢
      have howes' := update_same Herald.owes heralds (a := {}) howes.symm
      simp only [hdaemon, howes']
      exact h.known u r hr ho
  · by_cases hu : u = t
    · subst hu
      rw [Function.update_self, Function.update_self]
      exact ⟨fun _ => ⟨rfl, rfl⟩, fun h => (Bool.false_ne_true h).elim, nofun⟩
    · rw [Function.update_of_ne hu, Function.update_of_ne hu]
      exact h.asks u

/-! ## Runs -/

/-- What the service keeps about its heralds and subscribers. -/
structure Heralded (tr : List (Label Reply Tid)) (w : World) (g : Tid → Option (Option Herald)) :
    Prop where
  known : ∀ t, (g t).getD (some {}) = some (heraldOf t tr)
  running : ∀ t, g t ≠ none → w.running = true
  covered : Covered w (fun t => heraldOf t tr) fun t => streamOf t tr

theorem loadControlState_bound {g : List (Prog.Event Reply)} :
    (loadControlState : Task ControlState).Follows (Monitor.history Reply) g () fun _ r _ =>
      ∀ c, r = .ok c → c.revision ≤ u64Max := by
  refine Act.follows_andThen.mpr (Act.follows_perform.mpr ⟨trivial, fun r => ?_⟩)
  refine Act.follows_andThen.mpr (Act.follows_ofExcept.mpr ?_)
  cases r with
  | error e => exact nofun
  | ok found =>
    refine Act.follows_ite.mpr ⟨fun _ => nofun, fun _ => ?_⟩
    simp only [nextRevision, perform, Act.bind_eq, Act.pure_eq, Act.follows_andThen,
      Act.follows_within, Act.follows_get, Act.follows_modify, Act.follows_perform]
    refine ⟨trivial, fun r => ?_⟩
    cases r with
    | error e =>
      simp only [Act.follows_andThen, Act.follows_modify, Act.follows_fail]
      exact nofun
    | ok _ =>
      simp only [Act.follows_andThen, Act.follows_get, Act.follows_ret]
      rintro c ⟨⟩
      exact max_le (min_le_right _ _) (by decide)

/-- A service starts at a machine revision. -/
theorem startService_bound {dryRun : Bool} {calls : List (Prog.Event Reply)}
    {started : Except Error (WatchcatDaemon × WatchEngine × RetryOperationRegistry)}
    (h : (startService dryRun).Returns () calls started ()) {d : WatchcatDaemon}
    {e : WatchEngine} {registry : RetryOperationRegistry}
    (hok : started = .ok (d, e, registry)) : d.revision ≤ u64Max := by
  have hload : ∀ g, loadDaemon.Follows (Monitor.history Reply) g () fun _ r _ =>
      ∀ d, r = .ok d → d.revision ≤ u64Max := by
    intro g
    refine Act.follows_andThen.mpr (Act.follows_perform.mpr ⟨trivial, fun modified => ?_⟩)
    refine Act.follows_andThen.mpr (Act.follows_history.mpr fun _ settings s _ => ?_)
    cases settings with
    | error e => exact nofun
    | ok settings =>
      refine Act.follows_andThen.mpr (Act.follows_history.mpr fun _ targets s _ => ?_)
      cases targets with
      | error e => exact nofun
      | ok targets =>
        refine Act.follows_andThen.mpr (Act.follows_history.mpr fun _ state s _ => ?_)
        cases state with
        | error e => exact nofun
        | ok state =>
          refine Act.follows_andThen.mpr (Act.follows_perform.mpr ⟨trivial, fun now => ?_⟩)
          refine Act.follows_andThen.mpr (loadControlState_bound.mono fun _ control s hc => ?_)
          cases control with
          | error e => exact nofun
          | ok control =>
            refine Act.follows_andThen.mpr (Act.follows_perform.mpr ⟨trivial, fun _ => ?_⟩)
            rintro d ⟨⟩
            exact hc control rfl
  refine Act.Follows.of_history (Q := fun _ res _ => ∀ d e registry, res = .ok (d, e, registry) →
    d.revision ≤ u64Max) ?_ h d e registry hok
  refine Act.follows_andThen.mpr ((hload []).mono fun _ d s hd => ?_)
  cases d with
  | error e => exact fun _ _ _ h => nomatch h
  | ok d =>
    refine Act.follows_andThen.mpr (Act.follows_history.mpr fun _ e s _ => ?_)
    cases e with
    | error e => exact fun _ _ _ h => nomatch h
    | ok e =>
      refine Act.follows_andThen.mpr (Act.follows_history.mpr fun _ registry s _ => ?_)
      cases registry with
      | error e => exact fun _ _ _ h => nomatch h
      | ok registry =>
        rintro _ _ _ ⟨⟩
        exact hd d rfl

theorem begins_heard {p : Prog Reply Unit} (hb : World.begins w t p w') :
    (p.Follows Watchcat.heralds (some {}) fun o _ => Heard o) ∧ w.running = true ∧
      w'.daemon = w.daemon ∧ w'.daemonLock = w.daemonLock ∧ w'.running = w.running := by
  have hidle : Idle (some {}) := by
    rintro _ ⟨⟩
    exact ⟨rfl, rfl, rfl⟩
  have htask : ∀ {m : Task Unit}, m.Follows Watchcat.heralds (some {}) () (fun o _ _ => Heard o) →
      ((m ()).bind fun _ => .pure ()).Follows Watchcat.heralds (some {}) fun o _ => Heard o :=
    fun h => Prog.follows_bind.mpr h
  have hstays : ∀ {m : Task Unit}, StaysIdle m →
      m.Follows Watchcat.heralds (some {}) () (fun o _ _ => Heard o) :=
    fun h => (h _ () hidle).mono fun _ _ _ ho => ho.heard
  cases t with
  | main =>
    obtain ⟨hrunning, _, rfl, rfl⟩ := hb
    exact ⟨htask (hstays idle_shutdown), hrunning, rfl, rfl, rfl⟩
  | reconcile =>
    obtain ⟨hrunning, _, rfl, rfl⟩ := hb
    exact ⟨htask (follows_reconcileIteration hidle), hrunning, rfl, rfl, rfl⟩
  | handler n =>
    obtain ⟨hrunning, _, rfl, rounds, rfl⟩ := hb
    exact ⟨htask (follows_serveConnection_heard hidle), hrunning, rfl, rfl, rfl⟩
  | retry n =>
    obtain ⟨hrunning, _, _, job, _, _, rfl, rfl⟩ := hb
    exact ⟨htask (hstays (idle_retryTask job)), hrunning, rfl, rfl, rfl⟩

theorem heraldOf_call (tr : List (Label Reply Tid)) (t : Tid) (op : Call) (r : Reply op) :
    (fun u => heraldOf u (tr ++ [.call t op r])) =
      Function.update (fun u => heraldOf u tr) t ((heraldOf t tr).next ⟨op, r⟩) := by
  funext u
  rw [heraldOf_snoc, Herald.after]
  by_cases hu : u = t
  · subst hu
    rw [if_pos rfl, Function.update_self]
  · rw [if_neg (Ne.symm hu), Function.update_of_ne hu]

/-- What is known of a task that begins anew or is gone. -/
theorem heraldOf_reset {tr : List (Label Reply Tid)} {t : Tid} {l : Label Reply Tid}
    (hl : l = .begins t ∨ l = .drops t) :
    (fun u => heraldOf u (tr ++ [l])) = Function.update (fun u => heraldOf u tr) t {} ∧
      (fun u => streamOf u (tr ++ [l])) = Function.update (fun u => streamOf u tr) t {} := by
  constructor
  · funext u
    rw [heraldOf_snoc]
    by_cases hu : u = t
    · subst hu
      rw [Function.update_self]
      rcases hl with rfl | rfl <;> exact if_pos rfl
    · rw [Function.update_of_ne hu]
      rcases hl with rfl | rfl <;> exact if_neg (Ne.symm hu)
  · funext u
    rw [streamOf_snoc]
    by_cases hu : u = t
    · subst hu
      rw [Function.update_self]
      rcases hl with rfl | rfl <;> exact if_pos rfl
    · rw [Function.update_of_ne hu]
      rcases hl with rfl | rfl <;> exact if_neg (Ne.symm hu)

variable {tr : List (Label Reply Tid)} {g : Tid → Option (Option Herald)}

theorem Heralded.called (h : Heralded tr w g) {o : Option Herald} {op : Call} {r : Reply op}
    (hspoken : ¬ Silences tr (.call t op r)) (ho : g t = some o)
    (hallowed : Watchcat.heralds.allowed o op) (ha : World.act t w op r w') :
    Heralded (tr ++ [.call t op r]) w'
      (Function.update g t (some (Watchcat.heralds.next o op r))) := by
  have hknown : o = some (heraldOf t tr) := by
    have ht := h.known t
    rw [ho] at ht
    exact ht
  have hrunning : w.running = true := h.running t (by rw [ho]; exact nofun)
  have hsilenced : (heraldOf t tr).silenced ⟨op, r⟩ = false := Bool.not_eq_true _ ▸ hspoken
  have hordinary : (heraldOf t tr).strange ⟨op, r⟩ = false := by
    cases op with
    | lockDaemon section_ =>
      obtain ⟨_, rfl, _⟩ := ha
      have hseen := h.covered.seen t
      have hbound := h.covered.bound hrunning
      simp only [Herald.strange, Bool.or_eq_false_iff, decide_eq_false_iff_not]
      omega
    | _ => rfl
  have hnext : Watchcat.heralds.next o op r = some ((heraldOf t tr).next ⟨op, r⟩) := by
    subst hknown
    simp only [Watchcat.heralds, Option.bind_some, hsilenced, hordinary, Bool.or_self,
      Bool.false_eq_true, if_false]
  refine ⟨fun u => ?_, fun u hu => ?_, ?_⟩
  · have hall := congrFun (heraldOf_call tr t op r) u
    rw [hall, hnext]
    by_cases hu : u = t
    · subst hu
      rw [Function.update_self, Function.update_self]
      rfl
    · rw [Function.update_of_ne hu, Function.update_of_ne hu]
      exact h.known u
  · rw [act_running ha]
    exact hrunning
  · rw [heraldOf_call]
    simp only [streamOf_snoc]
    exact h.covered.called (hallowed _ hknown) ha

/-- A start of the service has nobody to tell of anything. -/
theorem Heralded.restarted (hr : World.restarts w w') :
    Heralded (tr ++ [.restarts]) w' fun _ => none := by
  obtain ⟨dryRun, calls, started, mid, hstart, hw'⟩ := hr
  refine ⟨fun u => ?_, nofun, ?_⟩
  · rw [heraldOf_snoc]
    rfl
  · simp only [heraldOf_snoc, streamOf_snoc]
    refine ⟨fun hrun => ?_, fun _ => Nat.zero_le _, nofun, nofun, nofun, fun _ =>
      ⟨fun _ => ⟨rfl, rfl⟩, fun h => (Bool.false_ne_true h).elim, nofun⟩⟩
    cases started with
    | error e =>
      have hrunning : mid.running = w.ended.running :=
        hstart.path.frame fun _ _ _ _ => act_running
      obtain rfl := hw'
      rw [hrunning] at hrun
      cases hrun
    | ok started =>
      obtain ⟨d, e, registry⟩ := started
      obtain rfl := hw'
      exact startService_bound hstart.returns rfl

/-- The invariant of the service over runs in which no task is silenced. -/
theorem heralded_invariant : System.InvariantWhile service (fun tr l => ¬ Silences tr l)
    Watchcat.heralds Heard Heralded where
  call hi hspoken ho hallowed ha := hi.called hspoken ho hallowed ha
  begins {tr w w' g t p} hi _ ht hb := by
    obtain ⟨hfollows, hrunning, hdaemon, hlock, hkept⟩ := begins_heard hb
    refine ⟨some {}, hfollows, fun u => ?_, fun u hu => ?_, ?_⟩
    · have hall : heraldOf u (tr ++ [.begins t]) =
          Function.update (fun u => heraldOf u tr) t {} u :=
        congrFun (heraldOf_reset (.inl rfl)).1 u
      rw [hall]
      by_cases hu : u = t
      · subst hu
        rw [Function.update_self, Function.update_self]
        rfl
      · rw [Function.update_of_ne hu, Function.update_of_ne hu]
        exact hi.known u
    · rw [hkept]
      exact hrunning
    · rw [(heraldOf_reset (.inl rfl)).1, (heraldOf_reset (.inl rfl)).2]
      refine hi.covered.reset ?_ hdaemon hlock hkept
      have hknown := hi.known t
      cases hg : g t with
      | none =>
        rw [hg] at hknown
        rw [← Option.some.inj hknown]
      | some o =>
        rw [hg] at hknown
        exact ht o hg _ hknown
  drops {tr w w' g t} hi hspoken hd := by
    obtain ⟨_, _, _, engine, rfl⟩ := hd
    refine ⟨fun u => ?_, fun u hu => ?_, ?_⟩
    · have hall : heraldOf u (tr ++ [.drops t]) = Function.update (fun u => heraldOf u tr) t {} u :=
        congrFun (heraldOf_reset (.inr rfl)).1 u
      rw [hall]
      by_cases hu : u = t
      · subst hu
        rw [Function.update_self, Function.update_self]
        rfl
      · rw [Function.update_of_ne hu, Function.update_of_ne hu]
        exact hi.known u
    · by_cases ht : u = t
      · subst ht
        rw [Function.update_self] at hu
        exact absurd rfl hu
      · rw [Function.update_of_ne ht] at hu
        exact hi.running u hu
    · rw [(heraldOf_reset (.inr rfl)).1, (heraldOf_reset (.inr rfl)).2]
      exact hi.covered.reset (not_not.mp hspoken) rfl rfl rfl
  changes {tr w w' g} hi _ hc := by
    obtain ⟨config, _, rfl⟩ := hc
    refine ⟨fun u => ?_, hi.running, ?_⟩
    · rw [heraldOf_snoc]
      exact hi.known u
    · simp only [heraldOf_snoc, streamOf_snoc]
      exact hi.covered.congr rfl rfl rfl fun _ => ⟨_, rfl⟩
  restarts _ _ hr := .restarted hr

/-- The task stands between a section that has raised the revision and the announcement. -/
def Core.Config.Announcing (c : Config Reply Tid World) (tr : List (Label Reply Tid)) (t : Tid) :
    Prop :=
  (∃ op next, c.pool t = some (.call op next)) ∧ (heraldOf t tr).owes ≠ none

/-- A subscriber that was answered with a revision has been told of the one there is, where no
task has been silenced since the start of the process, none is on its way to the announcement, and
the subscriber was not overtaken before it subscribed. -/
theorem subscribers_told {tr : List (Label Reply Tid)} {c : Config Reply Tid World}
    (hr : service.Run initial tr c) (hspoken : System.SinceRestart (fun tr l => ¬ Silences tr l) tr)
    (hcomplete : ∀ t, ¬ c.Announcing tr t) {t : Tid}
    (hovertaken : (streamOf t tr).overtaken = false) {revision : Nat}
    (hanswered : (streamOf t tr).answered = some revision)
    (hlater : revision < c.world.daemon.revision) :
    (streamOf t tr).Informed c.world.daemon.revision := by
  have hinitial : Heralded [] World.initial fun _ => none := by
    refine ⟨fun _ => rfl, nofun, fun h => (Bool.false_ne_true h).elim, fun _ => Nat.zero_le _,
      nofun, nofun, nofun,
      fun _ => ⟨fun _ => ⟨rfl, rfl⟩, fun h => (Bool.false_ne_true h).elim, nofun⟩⟩
  obtain ⟨g, htracked, hheralded⟩ :=
    heralded_invariant.run .restarted hr hspoken (System.tracked_none _ _) hinitial
  rcases hheralded.covered.known t revision ((hheralded.covered.asks t).answered _ hanswered)
    hovertaken with hle | hinformed | ⟨u, howes⟩
  · exact absurd hle (not_le.mpr hlater)
  · exact hinformed
  · have hknown := hheralded.known u
    have hfollows := htracked u
    cases hg : g u with
    | none =>
      rw [hg] at hknown
      rw [← Option.some.inj hknown] at howes
      cases howes
    | some o =>
      rw [hg] at hknown hfollows
      cases hp : c.pool u with
      | none => rw [hp] at hfollows; exact hfollows.elim
      | some p =>
        rw [hp] at hfollows
        cases p with
        | pure _ => exact absurd ((hfollows _ hknown).symm.trans howes) nofun
        | call op next => exact absurd ⟨⟨op, next, hp⟩, howes ▸ nofun⟩ (hcomplete u)

/-! ## Runs of two clients -/

instance decidableSilences (tr : List (Label Reply Tid)) :
    (l : Label Reply Tid) → Decidable (Silences tr l)
  | .call t op r => inferInstanceAs (Decidable ((heraldOf t tr).silenced ⟨op, r⟩ = true))
  | .drops t => inferInstanceAs (Decidable ((heraldOf t tr).owes ≠ none))
  | .begins _ | .changes | .restarts => inferInstanceAs (Decidable False)

/-- A first start and two clients. -/
def twoConnected : Config Reply Tid World :=
  withHandler 1 0 (withHandler 0 0 ⟨World.opened, fun _ => none⟩)

/-- The steps to it. -/
def twoConnecting : List (Label Reply Tid) :=
  [.restarts, .begins (.handler 0), .begins (.handler 1)]

theorem twoConnected_run : service.Run initial twoConnecting twoConnected :=
  withHandler_run (withHandler_run opened_run 0 0 rfl rfl rfl) 1 0 rfl rfl rfl

/-- The first client asks for a subscription, and its handler reads the revision. -/
def askScript : List (Tid × Cue) :=
  [(.handler 0, .asked (sampleRequest "events.subscribe" .null)), (.handler 0, .plain),
    (.handler 0, .plain)]

/-- The handler subscribes and answers. -/
def subscribeScript : List (Tid × Cue) := List.replicate 2 (.handler 0, .plain)

/-- The second client adds the sample session. -/
def addScript : List (Tid × Cue) :=
  (.handler 1, .asked addRequest) :: List.replicate 12 (.handler 1, .plain)

/-- Both handlers have ended, and nobody else runs. -/
theorem quiet_of_scripts (script : List (Tid × Cue))
    (hscript : ∀ t ∈ script.map Prod.fst, t = .handler 0 ∨ t = .handler 1)
    (hfirst : (serviceHost.played script twoConnected).2.pool (.handler 0) = some (.pure ()))
    (hsecond : (serviceHost.played script twoConnected).2.pool (.handler 1) = some (.pure ()))
    (t : Tid) :
    ∀ op next, (serviceHost.played script twoConnected).2.pool t ≠ some (.call op next) := by
  intro op next hp
  by_cases h₀ : t = .handler 0
  · rw [h₀, hfirst] at hp
    cases hp
  · by_cases h₁ : t = .handler 1
    · rw [h₁, hsecond] at hp
      cases hp
    · have hidle : t ∉ script.map Prod.fst := fun ht => (hscript t ht).elim h₀ h₁
      rw [serviceHost.played_pool _ _ hidle] at hp
      have hnone : twoConnected.pool t = none :=
        (Function.update_of_ne h₁ _ _).trans (Function.update_of_ne h₀ _ _)
      rw [hnone] at hp
      cases hp

/-- A subscriber hears of the session that is added after its subscription. -/
theorem subscribers_told_added :
    (streamOf (.handler 0) (twoConnecting ++ (serviceHost.played
      (askScript ++ subscribeScript ++ addScript) twoConnected).1)).Informed 2 := by
  have hspoken : System.SinceRestart (fun tr l => ¬ Silences tr l) (twoConnecting ++
      (serviceHost.played (askScript ++ subscribeScript ++ addScript) twoConnected).1) :=
    System.sinceRestart_of_getElem (by decide)
  have hquiet := quiet_of_scripts (askScript ++ subscribeScript ++ addScript) (by decide) rfl rfl
  exact subscribers_told (twoConnected_run.append (serviceHost.played_run _ _)) hspoken
    (fun t ⟨⟨op, next, hp⟩, _⟩ => hquiet t op next hp) rfl rfl (by decide)

/-- A subscriber never hears of the session that is added before its subscription, though after
it has read the revision. -/
theorem subscriber_overtaken : ¬ ∀ tr c, service.Run initial tr c →
    (∀ t op next, c.pool t ≠ some (.call op next)) → ∀ t revision,
    (streamOf t tr).answered = some revision → revision < c.world.daemon.revision →
    (streamOf t tr).Informed c.world.daemon.revision := by
  intro h
  have hquiet := quiet_of_scripts (askScript ++ addScript ++ subscribeScript) (by decide) rfl rfl
  obtain ⟨q, hq, n, hn, _⟩ := h _ _ (twoConnected_run.append
    (serviceHost.played_run (askScript ++ addScript ++ subscribeScript) twoConnected)) hquiet
    (.handler 0) 1 rfl (by decide)
  have hnone : some q = some [] := hq.symm.trans rfl
  cases hnone
  cases hn

end Watchcat
