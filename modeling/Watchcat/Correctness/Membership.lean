import Watchcat.Daemon.Effects
import Watchcat.Daemon.Sample

/-!
# Membership of the watchlist

The store is called with anything, in any order, and its file may fail at every
call. A history records the calls with the documents before and after them.
-/

namespace Watchcat

open Watchcat.Core

/-- A call of the watchlist store. -/
inductive WatchlistOp
  | add (target : WatchTarget)
  | remove (key : String)
  | reconcile (sessions : List Session) (now staleAfterSeconds : Int)
      (protectedKeys : Finset String)

/-- The method of a call. -/
def WatchlistOp.method : WatchlistOp → Task Unit
  | .add target => do
    let _ ← addTarget target
  | .remove key => do
    let _ ← removeTarget key
  | .reconcile sessions now staleAfterSeconds protectedKeys => do
    let _ ← reconcileTargets sessions now staleAfterSeconds protectedKeys

/-- The effect of a call on the document, where it succeeds; a panic has none. -/
def WatchlistOp.apply : WatchlistOp → WatchlistDocument → WatchlistDocument
  | .add target, d => (d.add target).2
  | .remove key, d => (d.remove key).2
  | .reconcile sessions now staleAfterSeconds protectedKeys, d =>
    (d.reconcile sessions now staleAfterSeconds protectedKeys).getD d

/-- A call with the document before and after it. -/
structure WatchlistRecord where
  op : WatchlistOp
  before : WatchlistDocument
  after : WatchlistDocument
  result : Except Error Unit

/-- The calls made of the store since there was no file. -/
inductive WatchlistRun : List WatchlistRecord → World → Prop
  | start {w : World} (h : w.document = {}) : WatchlistRun [] w
  | step {log : List WatchlistRecord} {w w' : World} {t : Tid} {op : WatchlistOp}
      {calls : List (Prog.Event Reply)} {r : Except Error Unit × Unit}
      (hrun : WatchlistRun log w) (hx : World.bare.Alone t w (op.method ()) calls r w') :
      WatchlistRun (log ++ [⟨op, w.document, w'.document, r.1⟩]) w'

/-- A call that succeeds has its effect, one that fails has none. -/
theorem wp_watchlistOp (t : Tid) (w : World) (op : WatchlistOp) :
    Act.Wp World.bare t w op.method () fun w' r _ =>
      match r with
      | .ok _ => w'.document = op.apply w.document
      | .error _ => w'.document = w.document := by
  cases op with
  | add target =>
    simp only [WatchlistOp.method, Act.bind_eq, Act.wp_andThen]
    exact wp_addTarget (Act.wp_ret.mpr rfl) fun _ => rfl
  | remove key =>
    simp only [WatchlistOp.method, Act.bind_eq, Act.wp_andThen]
    exact wp_removeTarget (Act.wp_ret.mpr rfl) fun _ => rfl
  | reconcile sessions now stale keys =>
    simp only [WatchlistOp.method, Act.bind_eq, Act.wp_andThen]
    refine wp_reconcileTargets (fun h => ?_) (fun document h => ?_) fun _ => rfl
    · refine Act.wp_ret.mpr ?_
      rw [WatchlistOp.apply, h, Option.getD_some]
    · refine Act.wp_ret.mpr ?_
      rw [WatchlistOp.apply, h, Option.getD_some]
      rfl

/-- The call failed and left the document, or had its effect. -/
theorem watchlistOp_after {t : Tid} {w w' : World} {op : WatchlistOp}
    {calls : List (Prog.Event Reply)} {r : Except Error Unit × Unit}
    (h : World.bare.Alone t w (op.method ()) calls r w') :
    w'.document = w.document ∧ (∃ e, r.1 = .error e) ∨
      w'.document = op.apply w.document ∧ r.1 = .ok () := by
  have hafter := wp_watchlistOp t w op calls r w' h
  obtain ⟨(e | _), _⟩ := r
  · exact .inl ⟨hafter, e, rfl⟩
  · exact .inr ⟨hafter, rfl⟩

/-- Reconciling has no effect, or the one from its cutoff on. -/
theorem WatchlistOp.apply_reconcile (d : WatchlistDocument) (sessions : List Session)
    (now stale : Int) (keys : Finset String) :
    (reconcile sessions now stale keys).apply d = d ∨ ∃ cutoff,
      (reconcile sessions now stale keys).apply d =
        d.reconcileSince sessions now cutoff keys := by
  rw [apply]
  cases h : d.reconcile sessions now stale keys with
  | none => exact .inl rfl
  | some d' =>
    obtain ⟨cutoff, _, rfl⟩ := WatchlistDocument.reconcile_eq_some.mp h
    exact .inr ⟨cutoff, rfl⟩

theorem WatchlistDocument.WellFormed.apply {d : WatchlistDocument} (h : d.WellFormed)
    (op : WatchlistOp) : (op.apply d).WellFormed := by
  cases op with
  | add target => exact h.add target
  | remove key => exact h.remove key
  | reconcile sessions now stale keys =>
    rcases WatchlistOp.apply_reconcile d sessions now stale keys with heq | ⟨cutoff, heq⟩
    · rw [heq]
      exact h
    · rw [heq]
      exact h.reconcileSince sessions now cutoff keys

/-- The key is excluded and no target. -/
def WatchlistDocument.Dropped (d : WatchlistDocument) (key : String) : Prop :=
  key ∈ d.excluded ∧ key ∉ d.keys

/-- The record adds the key. -/
def WatchlistRecord.Adds (record : WatchlistRecord) (key : String) : Prop :=
  ∃ target : WatchTarget, record.op = .add target ∧ record.result = .ok () ∧ target.key = key

/-- The record removes the key. -/
def WatchlistRecord.Removes (record : WatchlistRecord) (key : String) : Prop :=
  record.op = .remove key ∧ record.result = .ok ()

/-- The key was removed and not added since. -/
def RemovedSince (log : List WatchlistRecord) (key : String) : Prop :=
  ∃ earlier record later, log = earlier ++ record :: later ∧ record.Removes key ∧
    ∀ r ∈ later, ¬ r.Adds key

/-- A dropped key stays dropped where it is not added. -/
theorem WatchlistDocument.WellFormed.dropped_apply {d : WatchlistDocument} (h : d.WellFormed)
    {op : WatchlistOp} {key : String} (hd : d.Dropped key)
    (hadd : ∀ target, op = .add target → target.key ≠ key) : (op.apply d).Dropped key := by
  have hexcluded : key ∈ (op.apply d).excluded := by
    cases op with
    | add target =>
      exact Finset.mem_erase.mpr ⟨(hadd target rfl).symm, hd.1⟩
    | remove k => exact Finset.mem_insert_of_mem hd.1
    | reconcile sessions now stale keys =>
      rcases WatchlistOp.apply_reconcile d sessions now stale keys with heq | ⟨cutoff, heq⟩
      · rw [heq]
        exact hd.1
      · rw [heq]
        exact hd.1
  exact ⟨hexcluded, fun hk => (h.apply op).authorized key hk hexcluded⟩

/-- What the history of a store keeps. -/
structure WatchlistKept (log : List WatchlistRecord) (w : World) : Prop where
  wellFormed : w.document.WellFormed
  dropped : ∀ key, RemovedSince log key → w.document.Dropped key
  recorded : ∀ record ∈ log, record.before.WellFormed ∧
    (record.after = record.before ∨ record.after = record.op.apply record.before)

theorem WatchlistRun.kept {log : List WatchlistRecord} {w : World} (h : WatchlistRun log w) :
    WatchlistKept log w := by
  induction h with
  | start h =>
    refine ⟨by rw [h]; exact WatchlistDocument.wellFormed_empty, ?_, nofun⟩
    rintro key ⟨earlier, record, later, hnil, _⟩
    exact absurd hnil (by simp)
  | @step log w w' t op calls r hrun hx ih =>
    have hafter := watchlistOp_after hx
    have hrecorded : w'.document = w.document ∨ w'.document = op.apply w.document :=
      hafter.imp And.left And.left
    refine ⟨?_, ?_, ?_⟩
    · rcases hrecorded with heq | heq <;> rw [heq]
      · exact ih.wellFormed
      · exact ih.wellFormed.apply op
    · rintro key ⟨earlier, record, later, hlog, hremoves, hlater⟩
      rcases List.eq_nil_or_concat later with rfl | ⟨init, last, rfl⟩
      · -- the last call is the removal
        obtain ⟨rfl, hlast⟩ := List.append_inj' hlog rfl
        obtain rfl := (List.cons.inj hlast).1
        obtain ⟨hop, hok⟩ := hremoves
        dsimp only at hop hok
        subst hop
        rcases hafter with ⟨_, e, he⟩ | ⟨heq, _⟩
        · rw [hok] at he
          cases he
        · have hexcluded : key ∈ w'.document.excluded := by
            rw [heq]
            exact Finset.mem_insert_self _ _
          refine ⟨hexcluded, fun hk => ?_⟩
          rw [heq] at hk hexcluded
          exact (ih.wellFormed.remove key).authorized key hk hexcluded
      · rw [List.concat_eq_append, ← List.cons_append, ← List.append_assoc] at hlog
        obtain ⟨rfl, hlast⟩ := List.append_inj' hlog rfl
        obtain rfl := (List.cons.inj hlast).1
        have hbefore := ih.dropped key ⟨earlier, record, init, rfl, hremoves,
          fun r hr => hlater r (by simp [hr])⟩
        rcases hafter with ⟨heq, _⟩ | ⟨heq, hok⟩
        · rwa [heq]
        · rw [heq]
          refine ih.wellFormed.dropped_apply hbefore fun target hop hkey => ?_
          exact hlater ⟨op, w.document, w'.document, r.1⟩ (by simp) ⟨target, hop, hok, hkey⟩
    · intro record hrecord
      rcases List.mem_append.mp hrecord with hrecord | hrecord
      · exact ih.recorded record hrecord
      · obtain rfl := List.mem_singleton.mp hrecord
        exact ⟨ih.wellFormed, hrecorded⟩

/-- After any calls of the store the keys of the targets are distinct and not excluded, and a
removed key is excluded and absent until it is added; reconciling leaves the exclusions, and the
instant of addition, the source and the label of every target it had. -/
theorem watchlist_membership {log : List WatchlistRecord} {w : World} (h : WatchlistRun log w) :
    w.document.keys.Nodup ∧ (∀ target ∈ w.document.targets, target.key ∉ w.document.excluded) ∧
      (∀ key, RemovedSince log key → key ∈ w.document.excluded ∧ key ∉ w.document.keys) ∧
      ∀ record ∈ log, ∀ sessions now stale keys,
        record.op = .reconcile sessions now stale keys →
          record.after.excluded = record.before.excluded ∧
          ∀ target ∈ record.before.targets, ∀ target' ∈ record.after.targets,
            target'.key = target.key → target'.addedAt = target.addedAt ∧
              target'.source = target.source ∧ target'.label = target.label := by
  have hkept := h.kept
  refine ⟨hkept.wellFormed.nodup, fun target ht =>
    hkept.wellFormed.authorized _ (List.mem_map_of_mem ht), hkept.dropped, ?_⟩
  rintro ⟨op, before, after, result⟩ hrecord sessions now stale keys rfl
  obtain ⟨hbefore, hafter⟩ := hkept.recorded _ hrecord
  dsimp only at hbefore hafter ⊢
  have hreconciled : after = before ∨ ∃ cutoff,
      after = before.reconcileSince sessions now cutoff keys := by
    rcases hafter with rfl | rfl
    · exact .inl rfl
    · exact WatchlistOp.apply_reconcile before sessions now stale keys
  rcases hreconciled with rfl | ⟨cutoff, rfl⟩
  · refine ⟨rfl, fun target ht target' ht' hkey => ?_⟩
    obtain rfl := List.inj_on_of_nodup_map hbefore.nodup ht' ht hkey
    exact ⟨rfl, rfl, rfl⟩
  · refine ⟨rfl, fun target ht target' ht' hkey => ?_⟩
    have hlasting := hbefore.reconcileSince_lasting ht ht' hkey
    have haddedAt := congrArg WatchTarget.addedAt hlasting
    have hsource := congrArg WatchTarget.source hlasting
    have hlabel := congrArg WatchTarget.label hlasting
    exact ⟨haddedAt, hsource, hlabel⟩

/-! ## A removed session that is discovered again -/

/-- A call that succeeds, from the given world. -/
def playedOp (op : WatchlistOp) (w : World) : WatchlistRecord × World :=
  let r := (World.player .main).play [] w (op.method ())
  (⟨op, w.document, r.2.2.document, r.2.1.1⟩, r.2.2)

theorem WatchlistRun.played {log : List WatchlistRecord} {w : World} (h : WatchlistRun log w)
    (op : WatchlistOp) (hplays : (World.player .main).Plays [] w (op.method ())) :
    WatchlistRun (log ++ [(playedOp op w).1]) (playedOp op w).2 :=
  h.step ((World.player .main).alone hplays)

/-- The sample session as discovery lists it. -/
def rediscovered : WatchlistOp := .reconcile [⟨"codex", "s", "found", .idle, some 1⟩] 2 60 ∅

/-- The sample session was added. -/
def addedSample : WatchlistRecord × World := playedOp (.add sampleTarget) World.initial

/-- The sample session was removed. -/
def droppedSample : WatchlistRecord × World := playedOp (.remove sampleTarget.key) addedSample.2

/-- The sample session was discovered once more. -/
def revisitedSample : WatchlistRecord × World := playedOp rediscovered droppedSample.2

theorem watchlist_membership_rediscovered :
    sampleTarget.key ∈ addedSample.2.document.keys ∧
      sampleTarget.key ∈ revisitedSample.2.document.excluded ∧
      sampleTarget.key ∉ revisitedSample.2.document.keys := by
  have hrun : WatchlistRun [addedSample.1, droppedSample.1, revisitedSample.1] revisitedSample.2 :=
    (((WatchlistRun.start rfl).played _ (by decide)).played _ (by decide)).played _ (by decide)
  have hremoved : RemovedSince [addedSample.1, droppedSample.1, revisitedSample.1]
    sampleTarget.key := by
    refine ⟨[addedSample.1], droppedSample.1, [revisitedSample.1], rfl, ⟨rfl, by decide⟩, ?_⟩
    rintro _ hr ⟨target, hop, _⟩
    obtain rfl := List.mem_singleton.mp hr
    cases hop
  exact ⟨by decide, (watchlist_membership hrun).2.2.1 _ hremoved⟩

end Watchcat
