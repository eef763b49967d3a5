import Watchcat.Core.Sequential
import Watchcat.Daemon.System

/-!
# What the daemon's methods do to the files

A method of the daemon runs behind its lock, so nothing else touches the
watchlist, the control state or the configuration while it runs. Its effect is
stated on the world it runs in, whichever of its files fail.
-/

namespace Watchcat

open Watchcat.Core Method

variable {σ : Type} {t : Tid} {w : World} {s : σ}

/-! ## What a call leaves alone -/

/-- The calls that reach the watchlist, the configuration file or the window rules. -/
def touchesFiles : Call → Bool
  | .writeWatchlist _ | .writeConfig _ | .readConfig | .configModified | .configureDialogs _ => true
  | _ => false

theorem act_files {w' : World} {op : Call} {r : Reply op} (h : touchesFiles op = false)
    (ha : World.act t w op r w') :
    w'.watchlist = w.watchlist ∧ w'.config = w.config ∧ w'.dialogs = w.dialogs := by
  cases op with
  | writeWatchlist | writeConfig | readConfig | configModified | configureDialogs => cases h
  | writeControlState | writeOperations => cases r <;> (obtain rfl := ha; exact ⟨rfl, rfl, rfl⟩)
  | _ =>
    -- the call reads, or changes locks, the permit and the tasks
    first
    | (obtain rfl := ha; exact ⟨rfl, rfl, rfl⟩)
    | (obtain ⟨_, rfl⟩ := ha; exact ⟨rfl, rfl, rfl⟩)
    | (obtain ⟨_, _, rfl⟩ := ha; exact ⟨rfl, rfl, rfl⟩)

theorem act_running {w' : World} {op : Call} {r : Reply op} (ha : World.act t w op r w') :
    w'.running = w.running := by
  cases op with
  | writeWatchlist | writeControlState | writeOperations =>
    cases r <;> (obtain rfl := ha; rfl)
  | _ =>
    first
    | (obtain rfl := ha; rfl)
    | (obtain ⟨_, rfl⟩ := ha; rfl)
    | (obtain ⟨_, _, rfl⟩ := ha; rfl)

/-! ## The stores -/

theorem wp_loadWatchlist {Q : World → Except Error WatchlistDocument → σ → Prop}
    (hok : Q w (.ok w.document) s) (herror : ∀ e, Q w (.error e) s) :
    Act.Wp World.bare t w loadWatchlist s Q := by
  simp only [loadWatchlist, perform, Act.bind_eq, Act.pure_eq, Act.wp_andThen, Act.wp_perform,
    Act.wp_ofExcept]
  rintro r w' ⟨hread, rfl⟩
  cases r with
  | error e => exact herror e
  | ok found =>
    obtain rfl := hread found rfl
    exact Act.wp_ite.mpr ⟨fun _ => Act.wp_fail.mpr (herror _), fun _ => Act.wp_ret.mpr hok⟩

theorem wp_listTargets {Q : World → Except Error (List WatchTarget) → σ → Prop}
    (hok : Q w (.ok w.document.targets) s) (herror : ∀ e, Q w (.error e) s) :
    Act.Wp World.bare t w listTargets s Q := by
  simp only [listTargets, Act.bind_eq, Act.wp_andThen]
  exact wp_loadWatchlist (Act.wp_ret.mpr hok) herror

/-- The world after the watchlist was replaced. -/
def World.withDocument (w : World) (document : WatchlistDocument) : World :=
  { w with watchlist := some document }

theorem wp_addTarget {target : WatchTarget} {Q : World → Except Error Bool → σ → Prop}
    (hok : Q (w.withDocument (w.document.add target).2) (.ok (w.document.add target).1) s)
    (herror : ∀ e, Q w (.error e) s) : Act.Wp World.bare t w (addTarget target) s Q := by
  simp only [addTarget, perform, Act.bind_eq, Act.wp_andThen]
  refine wp_loadWatchlist ?_ herror
  simp only [Act.wp_perform, Act.wp_ofExcept]
  intro r w' hwrite
  cases r with
  | error e => obtain rfl := hwrite; exact herror e
  | ok _ => obtain rfl := hwrite; exact Act.wp_ret.mpr hok

theorem wp_removeTarget {key : String} {Q : World → Except Error Bool → σ → Prop}
    (hok : Q (w.withDocument (w.document.remove key).2) (.ok (w.document.remove key).1) s)
    (herror : ∀ e, Q w (.error e) s) : Act.Wp World.bare t w (removeTarget key) s Q := by
  simp only [removeTarget, perform, Act.bind_eq, Act.wp_andThen]
  refine wp_loadWatchlist ?_ herror
  simp only [Act.wp_perform, Act.wp_ofExcept]
  intro r w' hwrite
  cases r with
  | error e => obtain rfl := hwrite; exact herror e
  | ok _ => obtain rfl := hwrite; exact Act.wp_ret.mpr hok

theorem wp_reconcileTargets {sessions : List Session} {now stale : Int} {keys : Finset String}
    {Q : World → Except Error (List WatchTarget) → σ → Prop}
    (hsame : w.document.reconcile sessions now stale keys = some w.document →
      Q w (.ok w.document.targets) s)
    (hok : ∀ document, w.document.reconcile sessions now stale keys = some document →
      Q (w.withDocument document) (.ok document.targets) s)
    (herror : ∀ e, Q w (.error e) s) :
    Act.Wp World.bare t w (reconcileTargets sessions now stale keys) s Q := by
  simp only [reconcileTargets, perform, Act.bind_eq, Act.wp_andThen]
  refine wp_loadWatchlist ?_ herror
  refine Act.wp_ofExcept.mpr ?_
  cases hfound : w.document.reconcile sessions now stale keys with
  | none => exact herror .panicked
  | some document =>
    refine Act.wp_ite.mpr ⟨fun _ => ?_, fun hdocument => ?_⟩
    · simp only [Act.wp_andThen, Act.wp_perform, Act.wp_ofExcept]
      intro r w' hwrite
      cases r with
      | error e => obtain rfl := hwrite; exact herror e
      | ok _ => obtain rfl := hwrite; exact Act.wp_ret.mpr (hok document hfound)
    · obtain rfl := not_not.mp hdocument
      exact Act.wp_ret.mpr (hsame hfound)

/-- The control state at the next revision. -/
def ControlState.next (c : ControlState) : ControlState :=
  { c with revision := max (saturatingAdd c.revision 1) 1 }

theorem wp_nextRevision {c : ControlState} {Q : World → Except Error Nat → ControlState → Prop}
    (hok : Q { w with controlState := some c.next } (.ok c.next.revision) c.next)
    (herror : ∀ e, Q w (.error e) c) : Act.Wp World.bare t w nextRevision c Q := by
  simp only [nextRevision, perform, Act.bind_eq, Act.wp_andThen, Act.wp_get, Act.wp_modify,
    Act.wp_perform]
  intro r w' hwrite
  cases r with
  | error e =>
    obtain rfl := hwrite
    simp only [Act.wp_andThen, Act.wp_modify, Act.wp_fail]
    exact herror e
  | ok _ =>
    obtain rfl := hwrite
    simp only [Act.pure_eq, Act.wp_andThen, Act.wp_get, Act.wp_ret]
    exact hok

/-! ## The daemon -/

theorem wp_updateRecoveryPermit {targets : List WatchTarget} {d : WatchcatDaemon}
    {Q : World → Except Error Unit → WatchcatDaemon → Prop}
    (h : Q { w with permit := .of true targets d.revision } (.ok ()) d) :
    Act.Wp World.bare t w (updateRecoveryPermit targets) d Q := by
  simp only [updateRecoveryPermit, perform, Act.bind_eq, Act.wp_andThen, Act.wp_get,
    Act.wp_perform]
  rintro r w' rfl
  exact h

/-- The world after a bump. -/
def World.bumped (w : World) (d : WatchcatDaemon) : World :=
  { w with
    controlState := some d.controlState.next
    permit := .of true w.document.targets d.controlState.next.revision }

/-- The daemon after a bump. -/
def WatchcatDaemon.bumped (d : WatchcatDaemon) : WatchcatDaemon :=
  { d with controlState := d.controlState.next }

theorem wp_bumpRevision {d : WatchcatDaemon} {Q : World → Except Error Unit → WatchcatDaemon → Prop}
    (hok : Q (w.bumped d) (.ok ()) d.bumped) (herror : ∀ e, Q w (.error e) d) :
    Act.Wp World.bare t w bumpRevision d Q := by
  simp only [bumpRevision, Act.bind_eq, Act.wp_andThen]
  refine wp_listTargets ?_ herror
  simp only [Act.wp_zoom]
  exact wp_nextRevision (wp_updateRecoveryPermit hok) herror

/-! ## Revisions and what they stand for -/

/-- A method left alone what a revision stands for. -/
structure Kept (w : World) (d : WatchcatDaemon) (w' : World) (d' : WatchcatDaemon) : Prop where
  controlState : w'.controlState = w.controlState
  daemonControl : d'.controlState = d.controlState
  running : w'.running = w.running
  document : w'.document = w.document
  settings : d'.settings = d.settings

/-- A method left alone the revision. -/
structure Unbumped (w : World) (d : WatchcatDaemon) (w' : World) (d' : WatchcatDaemon) :
    Prop where
  controlState : w'.controlState = w.controlState
  daemonControl : d'.controlState = d.controlState
  running : w'.running = w.running

/-- A method has stored the next revision. -/
structure Advanced (w : World) (d : WatchcatDaemon) (w' : World) (d' : WatchcatDaemon) :
    Prop where
  controlState : w'.controlState = some d'.controlState
  daemonControl : d'.controlState = d.controlState.next
  running : w'.running = w.running

/-- A method has stored the next revision, or left alone what the revision stands for. -/
def Tied (w : World) (d : WatchcatDaemon) (w' : World) (d' : WatchcatDaemon) : Prop :=
  Kept w d w' d' ∨ Advanced w d w' d'

theorem Kept.refl (w : World) (d : WatchcatDaemon) : Kept w d w d := ⟨rfl, rfl, rfl, rfl, rfl⟩

theorem Kept.trans {w w' w'' : World} {d d' d'' : WatchcatDaemon} (h : Kept w d w' d')
    (h' : Kept w' d' w'' d'') : Kept w d w'' d'' :=
  ⟨h'.1.trans h.1, h'.2.trans h.2, h'.3.trans h.3, h'.4.trans h.4, h'.5.trans h.5⟩

theorem Unbumped.trans {w w' w'' : World} {d d' d'' : WatchcatDaemon} (h : Unbumped w d w' d')
    (h' : Unbumped w' d' w'' d'') : Unbumped w d w'' d'' :=
  ⟨h'.1.trans h.1, h'.2.trans h.2, h'.3.trans h.3⟩

theorem Kept.unbumped {w w' : World} {d d' : WatchcatDaemon} (h : Kept w d w' d') :
    Unbumped w d w' d' :=
  ⟨h.controlState, h.daemonControl, h.running⟩

theorem Kept.tied {w w' w'' : World} {d d' d'' : WatchcatDaemon} (h : Kept w d w' d')
    (h' : Tied w' d' w'' d'') : Tied w d w'' d'' := by
  rcases h' with h' | h'
  · exact .inl (h.trans h')
  · exact .inr ⟨h'.controlState, by rw [h'.daemonControl, h.daemonControl],
      h'.running.trans h.running⟩

theorem Advanced.trans {w w' w'' : World} {d d' d'' : WatchcatDaemon} (h : Advanced w d w' d')
    (h' : Unbumped w' d' w'' d'') : Advanced w d w'' d'' :=
  ⟨by rw [h'.controlState, h.controlState, h'.daemonControl],
    h'.daemonControl.trans h.daemonControl, h'.running.trans h.running⟩

/-- Whatever happens, the method relates the world and the daemon before and after. -/
def Relates (R : World → WatchcatDaemon → World → WatchcatDaemon → Prop) {α : Type}
    (m : Method WatchcatDaemon α) : Prop :=
  ∀ t w d, Act.Wp World.bare t w m d fun w' _ d' => R w d w' d'

section Relates

variable {α β : Type} {R R' : World → WatchcatDaemon → World → WatchcatDaemon → Prop}

/-- A sequence is related where its parts compose, and the first part alone where it fails. -/
theorem relates_andThen {S : World → WatchcatDaemon → World → WatchcatDaemon → Prop}
    {m : Method WatchcatDaemon α} {f : α → Method WatchcatDaemon β} (hm : Relates R m)
    (hf : ∀ a, Relates R' (f a)) (herror : ∀ {w d w' d'}, R w d w' d' → S w d w' d')
    (hok : ∀ {w d w' d' w'' d''}, R w d w' d' → R' w' d' w'' d'' → S w d w'' d'') :
    Relates S (Act.andThen m f) := by
  intro t w d
  rw [Act.wp_andThen]
  refine (hm t w d).mono fun w' r d' hr => ?_
  cases r with
  | ok a => exact (hf a t w' d').mono fun w'' _ d'' hr' => hok hr hr'
  | error e => exact herror hr

theorem Relates.mono {m : Method WatchcatDaemon α} (h : Relates R m)
    (hr : ∀ {w d w' d'}, R w d w' d' → R' w d w' d') : Relates R' m :=
  fun t w d => (h t w d).mono fun _ _ _ => hr

theorem relates_ite {c : Prop} [Decidable c] {m m' : Method WatchcatDaemon α}
    (hm : Relates R m) (hm' : Relates R m') : Relates R (if c then m else m') := by
  by_cases h : c
  · simpa only [h, if_true] using hm
  · simpa only [h, if_false] using hm'

theorem relates_attempt {m : Method WatchcatDaemon α} (h : Relates R m) :
    Relates R (Act.attempt m : Method WatchcatDaemon (Except Error α)) :=
  fun t w d => Act.wp_attempt.mpr (h t w d)

/-- Reading and then going on. -/
theorem kept_andThen {m : Method WatchcatDaemon α} {f : α → Method WatchcatDaemon β}
    (hm : Relates Kept m) (hf : ∀ a, Relates Kept (f a)) : Relates Kept (Act.andThen m f) :=
  relates_andThen hm hf (fun h => h) Kept.trans

theorem unbumped_andThen {m : Method WatchcatDaemon α} {f : α → Method WatchcatDaemon β}
    (hm : Relates Unbumped m) (hf : ∀ a, Relates Unbumped (f a)) :
    Relates Unbumped (Act.andThen m f) :=
  relates_andThen hm hf (fun h => h) Unbumped.trans

theorem tied_andThen {m : Method WatchcatDaemon α} {f : α → Method WatchcatDaemon β}
    (hm : Relates Kept m) (hf : ∀ a, Relates Tied (f a)) : Relates Tied (Act.andThen m f) :=
  relates_andThen hm hf .inl Kept.tied

theorem kept_ret (a : α) : Relates Kept (Act.ret a) :=
  fun _ w d => Act.wp_ret.mpr (Kept.refl w d)

theorem kept_get : Relates Kept (Act.get : Method WatchcatDaemon WatchcatDaemon) :=
  fun _ w d => Act.wp_get.mpr (Kept.refl w d)

theorem kept_fail (e : Error) : Relates Kept (Act.fail e : Method WatchcatDaemon α) :=
  fun _ w d => Act.wp_fail.mpr (Kept.refl w d)

theorem kept_ofExcept (r : Except Error α) :
    Relates Kept (Act.ofExcept r : Method WatchcatDaemon α) :=
  fun _ w d => Act.wp_ofExcept.mpr (Kept.refl w d)

/-- A call relates what its answers leave. -/
theorem relates_perform {op : Call} (h : ∀ t w d r w', World.act t w op r w' → R w d w' d) :
    Relates R (perform op : Method WatchcatDaemon (Reply op)) :=
  fun t w d => Act.wp_perform.mpr fun r w' ha => h t w d r w' ha

/-- A call that the world answers without changing. -/
theorem kept_perform {op : Call} (h : ∀ t w r w', World.act t w op r w' → w' = w) :
    Relates Kept (perform op : Method WatchcatDaemon (Reply op)) :=
  relates_perform fun t w d r w' ha => h t w r w' ha ▸ Kept.refl w d

theorem kept_listTargets : Relates Kept listTargets :=
  fun _ w d => wp_listTargets (Kept.refl w d) fun _ => Kept.refl w d

theorem kept_updateRecoveryPermit (targets : List WatchTarget) :
    Relates Kept (updateRecoveryPermit targets) :=
  fun _ _ _ => wp_updateRecoveryPermit ⟨rfl, rfl, rfl, rfl, rfl⟩

theorem kept_checkRevision (request : RpcRequest) : Relates Kept (checkRevision request) := by
  refine kept_andThen kept_get fun d => ?_
  cases request.expectedRevision with
  | none => exact kept_ret _
  | some expected => exact relates_ite (kept_fail _) (kept_ret _)

/-- What follows a bump may change everything but the revision. -/
theorem tied_bump_andThen {f : Unit → Method WatchcatDaemon β} (hf : Relates Unbumped (f ())) :
    Relates Tied (Act.andThen bumpRevision f) := by
  intro t w d
  rw [Act.wp_andThen]
  have hadvanced : Advanced w d (w.bumped d) d.bumped := ⟨rfl, rfl, rfl⟩
  refine wp_bumpRevision ?_ fun _ => .inl (Kept.refl w d)
  exact (hf t _ _).mono fun w' r d' hr => .inr (hadvanced.trans hr)

end Relates

end Watchcat
