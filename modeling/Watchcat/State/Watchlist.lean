import Watchcat.Base.Calendar
import Watchcat.Core.Table
import Watchcat.State.Models
import Mathlib.Data.Finset.Sort
import Mathlib.Data.String.Basic

/-!
# The watchlist document

Membership and manual exclusions live in one document. The three mutations are
pure functions of the document; the store around them reads and replaces the
file.
-/

namespace Watchcat

open Watchcat.Core

/-! Sets of names are listed in the order of strings. -/

instance isTrans_string_le : IsTrans String (· ≤ ·) := instIsTransLe

instance antisymm_string_le : @Std.Antisymm String (· ≤ ·) := instAntisymmLe

/-- The watchlist file. -/
structure WatchlistDocument where
  version : Nat := 4
  targets : List WatchTarget := []
  excluded : Finset String := ∅
  deriving DecidableEq

namespace WatchlistDocument

/-- The keys of the authorized targets. -/
def keys (d : WatchlistDocument) : List String := d.targets.map WatchTarget.key

/-- The entry update of a repeated manual addition. -/
def refresh (existing target : WatchTarget) : WatchTarget :=
  { existing with
    addedAt := target.addedAt
    source := .manual
    label := if target.label.isSome then target.label else existing.label }

/-- Update the first target with the given key. -/
def updateFirst (key : String) (f : WatchTarget → WatchTarget) :
    List WatchTarget → List WatchTarget
  | [] => []
  | t :: ts => if t.key = key then f t :: ts else t :: updateFirst key f ts

/-- `WatchlistStore::add` on the document, with whether the key is new. -/
def add (d : WatchlistDocument) (target : WatchTarget) : Bool × WatchlistDocument :=
  let added := !d.targets.any fun entry => entry.key == target.key
  (added, { d with
    excluded := d.excluded.erase target.key
    targets :=
      if added then d.targets ++ [target]
      else updateFirst target.key (fun existing => refresh existing target) d.targets })

/-- `WatchlistStore::remove` on the document, with whether a target was dropped. -/
def remove (d : WatchlistDocument) (key : String) : Bool × WatchlistDocument :=
  let kept := d.targets.filter fun t => t.key ≠ key
  (d.targets.length ≠ kept.length,
    { d with targets := kept, excluded := insert key d.excluded })

/-- The position of each key; a repeated key keeps its last position. -/
def positions (targets : List WatchTarget) : Table String Nat :=
  targets.zipIdx.foldl (fun table entry => table.insert entry.1.key entry.2) .empty

/-- The target made for a newly discovered session. -/
def discovered (session : Session) (now : Int) : WatchTarget where
  source := .automatic
  provider := session.provider
  sessionId := session.id
  label := none
  title := some session.title
  addedAt := now
  lastActivityAt := session.updatedAt

/-- One round of the discovery loop of `reconcile`. -/
def reconcileSession (excluded : Finset String) (now cutoff : Int)
    (state : List WatchTarget × Table String Nat) (session : Session) :
    List WatchTarget × Table String Nat :=
  if session.key ∈ excluded then state
  else match state.2.lookup session.key with
    | some index =>
      (state.1.modify index fun t =>
        { t with
          title := some session.title
          lastActivityAt := laterOf t.lastActivityAt session.updatedAt }, state.2)
    | none =>
      if session.updatedAt.any fun updated => cutoff ≤ updated then
        (state.1 ++ [discovered session now], state.2.insert session.key state.1.length)
      else state

/-- `WatchlistStore::reconcile` on the document, from the cutoff on. -/
def reconcileSince (d : WatchlistDocument) (sessions : List Session) (now cutoff : Int)
    (protectedKeys : Finset String) : WatchlistDocument :=
  let found :=
    sessions.foldl (reconcileSession d.excluded now cutoff) (d.targets, positions d.targets)
  { d with
    targets := found.1.filter fun t => t.key ∈ protectedKeys || cutoff ≤ t.inactivitySince none }

/-- `WatchlistStore::reconcile` on the document: it panics where the cutoff leaves the calendar. -/
def reconcile (d : WatchlistDocument) (sessions : List Session) (now staleAfterSeconds : Int)
    (protectedKeys : Finset String) : Option WatchlistDocument :=
  (gregorian.secondsBefore now staleAfterSeconds).map fun cutoff =>
    d.reconcileSince sessions now cutoff protectedKeys

theorem reconcile_eq_some {d d' : WatchlistDocument} {sessions : List Session} {now stale : Int}
    {p : Finset String} : d.reconcile sessions now stale p = some d' ↔
      ∃ cutoff, gregorian.secondsBefore now stale = some cutoff ∧
        d.reconcileSince sessions now cutoff p = d' :=
  Option.map_eq_some_iff

/-! ## What the mutations leave -/

@[simp] theorem add_version (d : WatchlistDocument) (t : WatchTarget) :
    (d.add t).2.version = d.version := rfl

@[simp] theorem remove_version (d : WatchlistDocument) (k : String) :
    (d.remove k).2.version = d.version := rfl

@[simp] theorem reconcileSince_version (d : WatchlistDocument) (ss : List Session)
    (now cutoff : Int) (p : Finset String) :
    (d.reconcileSince ss now cutoff p).version = d.version := rfl

@[simp] theorem reconcileSince_excluded (d : WatchlistDocument) (ss : List Session)
    (now cutoff : Int) (p : Finset String) :
    (d.reconcileSince ss now cutoff p).excluded = d.excluded := rfl

@[simp] theorem remove_excluded (d : WatchlistDocument) (k : String) :
    (d.remove k).2.excluded = insert k d.excluded := rfl

@[simp] theorem add_excluded (d : WatchlistDocument) (t : WatchTarget) :
    (d.add t).2.excluded = d.excluded.erase t.key := rfl

/-- A removed key is no target. -/
theorem remove_keys (d : WatchlistDocument) (k : String) :
    (d.remove k).2.keys = d.keys.filter fun k' => k' ≠ k := by
  simp only [remove, keys, List.filter_map]
  rfl

/-- Refreshing an entry keeps every key. -/
theorem keys_updateFirst (key : String) (target : WatchTarget) (ts : List WatchTarget) :
    (updateFirst key (fun existing => refresh existing target) ts).map WatchTarget.key =
      ts.map WatchTarget.key := by
  induction ts with
  | nil => rfl
  | cons t ts ih =>
    by_cases h : t.key = key
    · rw [updateFirst, if_pos h]
      rfl
    · rw [updateFirst, if_neg h, List.map_cons, List.map_cons, ih]

/-- An addition adds at most the added key. -/
theorem mem_add_keys {d : WatchlistDocument} {t : WatchTarget} {k : String} :
    k ∈ (d.add t).2.keys ↔ k = t.key ∨ k ∈ d.keys := by
  simp only [add, keys]
  by_cases h : d.targets.any (fun entry => entry.key == t.key) = true
  · simp only [h, Bool.not_true, Bool.false_eq_true, if_false, keys_updateFirst]
    constructor
    · exact Or.inr
    · rintro (rfl | hk)
      · obtain ⟨e, he, hek⟩ := List.any_eq_true.mp h
        exact List.mem_map.mpr ⟨e, he, beq_iff_eq.mp hek⟩
      · exact hk
  · simp only [Bool.not_eq_true] at h
    simp only [h, Bool.not_false, if_true, List.map_append, List.map_cons, List.map_nil,
      List.mem_append, List.mem_singleton]
    exact or_comm

/-! ## Membership -/

/-- A target is listed once, and no target is excluded. -/
structure WellFormed (d : WatchlistDocument) : Prop where
  nodup : d.keys.Nodup
  authorized : ∀ k ∈ d.keys, k ∉ d.excluded

theorem wellFormed_empty : WellFormed {} := ⟨.nil, nofun⟩

/-- An addition of a listed key keeps the keys, one of a new key appends it. -/
theorem add_keys (d : WatchlistDocument) (t : WatchTarget) :
    (d.add t).2.keys = if t.key ∈ d.keys then d.keys else d.keys ++ [t.key] := by
  have hany : (d.targets.any fun entry => entry.key == t.key) = true ↔ t.key ∈ d.keys := by
    simp only [keys, List.any_eq_true, List.mem_map, beq_iff_eq]
  by_cases h : t.key ∈ d.keys
  · simp only [add, keys, hany.mpr h, Bool.not_true, Bool.false_eq_true, if_false,
      keys_updateFirst]
    exact (if_pos h).symm
  · have hnone : (d.targets.any fun entry => entry.key == t.key) = false :=
      Bool.eq_false_iff.mpr fun hn => h (hany.mp hn)
    simp only [add, keys, hnone, Bool.not_false, if_true, List.map_append, List.map_cons,
      List.map_nil]
    exact (if_neg h).symm

theorem WellFormed.add {d : WatchlistDocument} (h : d.WellFormed) (t : WatchTarget) :
    (d.add t).2.WellFormed := by
  refine ⟨?_, fun k hk => ?_⟩
  · rw [add_keys]
    split
    · exact h.nodup
    · rename_i hnew
      exact h.nodup.append (List.nodup_singleton _) (List.disjoint_singleton.mpr hnew)
  · rw [add_excluded, Finset.mem_erase]
    rintro ⟨hne, hexcluded⟩
    rcases mem_add_keys.mp hk with rfl | hk
    · exact hne rfl
    · exact h.authorized k hk hexcluded

theorem WellFormed.remove {d : WatchlistDocument} (h : d.WellFormed) (k : String) :
    (d.remove k).2.WellFormed := by
  refine ⟨?_, fun k' hk' => ?_⟩
  · rw [remove_keys]
    exact h.nodup.filter _
  · rw [remove_keys, List.mem_filter, decide_eq_true_eq] at hk'
    rw [remove_excluded, Finset.mem_insert]
    rintro (heq | hexcluded)
    · exact hk'.2 heq
    · exact h.authorized k' hk'.1 hexcluded

/-! ## The discovery loop -/

/-- What discovery leaves of a listed target. -/
def lasting (t : WatchTarget) : WatchTarget := { t with title := none, lastActivityAt := none }

@[simp] theorem key_lasting (t : WatchTarget) : (lasting t).key = t.key := rfl

/-- The loop indexes the targets it has by their keys, none excluded, and those it began with
are as they were up to what discovery shows. -/
structure Scanned (d : WatchlistDocument) (found : List WatchTarget × Table String Nat) :
    Prop where
  indexed : ∀ k i, found.2.lookup k = some i ↔ (found.1[i]?).map WatchTarget.key = some k
  authorized : ∀ t ∈ found.1, t.key ∉ d.excluded
  kept : d.targets.map lasting <+: found.1.map lasting

/-- Indexing writes the position of every target over those written before. -/
theorem lookup_positions_from (ts : List WatchTarget) (n : Nat) (table : Table String Nat)
    (hnodup : (ts.map WatchTarget.key).Nodup) (k : String) (i : Nat) :
    ((ts.zipIdx n).foldl (fun table entry => table.insert entry.1.key entry.2) table).lookup k =
        some i ↔
      (∃ j, (ts[j]?).map WatchTarget.key = some k ∧ i = n + j) ∨
        k ∉ ts.map WatchTarget.key ∧ table.lookup k = some i := by
  induction ts generalizing n table with
  | nil => simp
  | cons t ts ih =>
    rw [List.map_cons, List.nodup_cons] at hnodup
    rw [List.zipIdx_cons, List.foldl_cons, ih (n + 1) _ hnodup.2, Table.lookup_insert]
    constructor
    · rintro (⟨j, hj, rfl⟩ | ⟨hk, hlookup⟩)
      · exact .inl ⟨j + 1, hj, by omega⟩
      · by_cases hkey : k = t.key
        · rw [if_pos hkey] at hlookup
          exact .inl ⟨0, by rw [hkey]; rfl, by simpa using (Option.some.inj hlookup).symm⟩
        · rw [if_neg hkey] at hlookup
          exact .inr ⟨by simp [hkey, hk], hlookup⟩
    · rintro (⟨j, hj, rfl⟩ | ⟨hk, hlookup⟩)
      · cases j with
        | zero =>
          have hkey : t.key = k := Option.some.inj hj
          exact .inr ⟨hkey ▸ hnodup.1, by rw [if_pos hkey.symm, Nat.add_zero]⟩
        | succ j => exact .inl ⟨j, hj, by omega⟩
      · simp only [List.map_cons, List.mem_cons, not_or] at hk
        exact .inr ⟨hk.2, by rw [if_neg hk.1, hlookup]⟩

theorem scanned_positions {d : WatchlistDocument} (h : d.WellFormed) :
    Scanned d (d.targets, positions d.targets) := by
  refine ⟨fun k i => ?_, fun t ht => h.authorized _ (List.mem_map_of_mem ht), List.prefix_rfl⟩
  rw [positions, lookup_positions_from _ _ _ h.nodup]
  simp

/-- The position of a key is unique, so the keys are distinct. -/
theorem Scanned.nodup {d : WatchlistDocument} {found : List WatchTarget × Table String Nat}
    (h : Scanned d found) : (found.1.map WatchTarget.key).Nodup := by
  rw [List.nodup_iff_getElem?_ne_getElem?]
  intro i j hij hj heq
  have hjk := List.getElem?_eq_getElem hj
  rw [hjk, List.getElem?_map] at heq
  rw [List.getElem?_map] at hjk
  have hi := (h.indexed _ i).mpr heq
  rw [(h.indexed _ j).mpr hjk] at hi
  exact absurd (Option.some.inj hi) (by omega)

/-- One session keeps the loop's invariant. -/
theorem Scanned.session {d : WatchlistDocument} {found : List WatchTarget × Table String Nat}
    (h : Scanned d found) (now cutoff : Int) (session : Session) :
    Scanned d (reconcileSession d.excluded now cutoff found session) := by
  unfold reconcileSession
  split
  · exact h
  · rename_i hexcluded
    split
    · -- a listed session shows its title and its activity
      rename_i index hindex
      have hmap : ∀ {β : Type} (f : WatchTarget → β), (∀ t, f { t with
          title := some session.title
          lastActivityAt := laterOf t.lastActivityAt session.updatedAt } = f t) →
          (found.1.modify index fun t => { t with
            title := some session.title
            lastActivityAt := laterOf t.lastActivityAt session.updatedAt }).map f =
            found.1.map f := by
        intro β f hf
        refine List.ext_getElem? fun i => ?_
        rw [List.getElem?_map, List.getElem?_map, List.getElem?_modify]
        cases found.1[i]? with
        | none => rfl
        | some t => by_cases hi : index = i <;> simp [hi, hf]
      refine ⟨fun k i => ?_, fun t ht => ?_, ?_⟩
      · rw [h.indexed k i, ← List.getElem?_map, ← List.getElem?_map, hmap _ fun _ => rfl]
      · have hkey := List.mem_map_of_mem (f := WatchTarget.key) ht
        rw [hmap _ fun _ => rfl] at hkey
        obtain ⟨t', ht', heq⟩ := List.mem_map.mp hkey
        exact heq ▸ h.authorized t' ht'
      · rw [hmap _ fun _ => rfl]
        exact h.kept
    · rename_i hlookup
      split
      · -- a new session takes the next position
        have hnew : ∀ i, (found.1[i]?).map WatchTarget.key ≠ some session.key := fun i hi => by
          rw [(h.indexed _ i).mpr hi] at hlookup
          cases hlookup
        have hkey : (discovered session now).key = session.key := rfl
        refine ⟨fun k i => ?_, fun t ht => ?_, ?_⟩
        · rw [Table.lookup_insert]
          by_cases hk : k = session.key
          · subst hk
            rw [if_pos rfl]
            constructor
            · rintro ⟨⟩
              simp [hkey]
            · intro hi
              rcases Nat.lt_trichotomy i found.1.length with hlt | rfl | hgt
              · rw [List.getElem?_append_left hlt] at hi
                exact absurd hi (hnew i)
              · rfl
              · rw [List.getElem?_eq_none (by simp; omega)] at hi
                cases hi
          · rw [if_neg hk, h.indexed k i]
            rcases Nat.lt_trichotomy i found.1.length with hlt | rfl | hgt
            · rw [List.getElem?_append_left hlt]
            · simp [hkey, Ne.symm hk]
            · rw [List.getElem?_eq_none (by omega), List.getElem?_eq_none (by simp; omega)]
        · rcases List.mem_append.mp ht with ht | ht
          · exact h.authorized t ht
          · obtain rfl := List.mem_singleton.mp ht
            exact hexcluded
        · rw [List.map_append]
          exact h.kept.trans (List.prefix_append _ _)
      · exact h

theorem Scanned.sessions {d : WatchlistDocument} {found : List WatchTarget × Table String Nat}
    (h : Scanned d found) (now cutoff : Int) (sessions : List Session) :
    Scanned d (sessions.foldl (reconcileSession d.excluded now cutoff) found) := by
  induction sessions generalizing found with
  | nil => exact h
  | cons session sessions ih => exact ih (h.session now cutoff session)

/-- What is left of the scanned targets is well formed. -/
theorem reconcileSince_scanned {d : WatchlistDocument} (h : d.WellFormed)
    (sessions : List Session) (now cutoff : Int) (p : Finset String) :
    ∃ found, Scanned d found ∧
      (d.reconcileSince sessions now cutoff p).targets.Sublist found.1 :=
  ⟨_, (scanned_positions h).sessions now _ sessions, List.filter_sublist⟩

theorem WellFormed.reconcileSince {d : WatchlistDocument} (h : d.WellFormed)
    (sessions : List Session) (now cutoff : Int) (p : Finset String) :
    (d.reconcileSince sessions now cutoff p).WellFormed := by
  obtain ⟨found, hfound, hsub⟩ := reconcileSince_scanned h sessions now cutoff p
  refine ⟨hfound.nodup.sublist (hsub.map _), fun k hk => ?_⟩
  obtain ⟨t, ht, rfl⟩ := List.mem_map.mp hk
  exact hfound.authorized t (hsub.subset ht)

/-- Discovery changes nothing of a listed target but its title and activity. -/
theorem WellFormed.reconcileSince_lasting {d : WatchlistDocument} (h : d.WellFormed)
    {sessions : List Session} {now cutoff : Int} {p : Finset String} {t t' : WatchTarget}
    (ht : t ∈ d.targets) (ht' : t' ∈ (d.reconcileSince sessions now cutoff p).targets)
    (hkey : t'.key = t.key) : lasting t' = lasting t := by
  obtain ⟨found, hfound, hsub⟩ := reconcileSince_scanned h sessions now cutoff p
  have hnodup : ((found.1.map lasting).map WatchTarget.key).Nodup := by
    rw [List.map_map]
    exact hfound.nodup
  exact List.inj_on_of_nodup_map hnodup (List.mem_map_of_mem (hsub.subset ht'))
    (hfound.kept.subset (List.mem_map_of_mem ht)) hkey

end WatchlistDocument

end Watchcat
