import Mathlib.Data.List.Nodup
import Watchcat.State.Watchlist

/-!
# Discovery, one key at a time

The discovery loop works on a list of targets and an index of their positions.
What it does to one key depends on that key's sessions alone: the entry of a key
is absent or a target, a session of the key updates it, and other sessions leave
it. Membership, activity and repetition are read off this view.
-/

namespace Watchcat

open Watchcat.Core

namespace WatchlistDocument

/-- The target with the key. -/
def entryOf (ts : List WatchTarget) (key : String) : Option WatchTarget :=
  ts.find? fun t => t.key = key

/-- What a session of its key shows of a target. -/
def shown (session : Session) (t : WatchTarget) : WatchTarget :=
  { t with
    title := some session.title
    lastActivityAt := laterOf t.lastActivityAt session.updatedAt }

/-- What a session of its key does to the entry. -/
def noticed (now cutoff : Int) (entry : Option WatchTarget) (session : Session) :
    Option WatchTarget :=
  match entry with
  | some t => some (shown session t)
  | none =>
    if session.updatedAt.any fun updated => cutoff ≤ updated then some (discovered session now)
    else none

/-- The sessions of a key, in the order they were found. -/
def sessionsOf (sessions : List Session) (key : String) : List Session :=
  sessions.filter fun s => s.key = key

/-- The latest activity among sessions. -/
def latestOf (sessions : List Session) : Option Int :=
  sessions.foldl (fun latest s => laterOf latest s.updatedAt) none

/-! ## Entries of lists with distinct keys -/

theorem entryOf_isSome {ts : List WatchTarget} {key : String} :
    (entryOf ts key).isSome ↔ key ∈ ts.map WatchTarget.key := by
  simp [entryOf, List.find?_isSome]

theorem entryOf_eq_none {ts : List WatchTarget} {key : String} :
    entryOf ts key = none ↔ key ∉ ts.map WatchTarget.key := by
  rw [← entryOf_isSome, Option.not_isSome_iff_eq_none]

theorem entryOf_some {ts : List WatchTarget} (hnodup : (ts.map WatchTarget.key).Nodup)
    {key : String} {t : WatchTarget} : entryOf ts key = some t ↔ t ∈ ts ∧ t.key = key := by
  constructor
  · intro h
    exact ⟨List.mem_of_find?_eq_some h, by simpa using List.find?_some h⟩
  · rintro ⟨ht, rfl⟩
    have hsome : (entryOf ts t.key).isSome := entryOf_isSome.mpr (List.mem_map_of_mem ht)
    obtain ⟨t', ht'⟩ := Option.isSome_iff_exists.mp hsome
    have hkey : t'.key = t.key := by simpa using List.find?_some ht'
    rw [ht', List.inj_on_of_nodup_map hnodup (List.mem_of_find?_eq_some ht') ht hkey]

/-- A list with distinct keys is known from its keys and its entries. -/
theorem eq_of_entryOf {ts ts' : List WatchTarget} (hnodup : (ts.map WatchTarget.key).Nodup)
    (hkeys : ts'.map WatchTarget.key = ts.map WatchTarget.key)
    (hentries : ∀ key, entryOf ts' key = entryOf ts key) : ts' = ts := by
  have hlength : ts'.length = ts.length := by simpa using congrArg List.length hkeys
  refine List.ext_getElem hlength fun i hi' hi => ?_
  have hkey : ts'[i].key = ts[i].key := by
    have hat := congrArg (fun ks : List String => ks[i]?) hkeys
    simpa [List.getElem?_eq_getElem hi', List.getElem?_eq_getElem hi] using hat
  have hnodup' : (ts'.map WatchTarget.key).Nodup := hkeys ▸ hnodup
  have hentry : entryOf ts' ts[i].key = some ts'[i] :=
    (entryOf_some hnodup').mpr ⟨List.getElem_mem hi', hkey⟩
  rw [hentries, (entryOf_some hnodup).mpr ⟨List.getElem_mem hi, rfl⟩] at hentry
  exact (Option.some.inj hentry).symm

/-- Filtering filters each entry. -/
theorem entryOf_filter {ts : List WatchTarget} (hnodup : (ts.map WatchTarget.key).Nodup)
    (keep : WatchTarget → Bool) (key : String) :
    entryOf (ts.filter keep) key = (entryOf ts key).filter keep := by
  have hsub : ((ts.filter keep).map WatchTarget.key).Nodup :=
    hnodup.sublist (List.filter_sublist.map _)
  ext t
  rw [entryOf_some hsub, List.mem_filter, Option.filter_eq_some_iff, entryOf_some hnodup]
  exact and_right_comm

/-- Updating one target under its key updates its entry. -/
theorem entryOf_modify {ts : List WatchTarget} (hnodup : (ts.map WatchTarget.key).Nodup)
    {f : WatchTarget → WatchTarget} (hf : ∀ t, (f t).key = t.key) {index : Nat} {target : String}
    (hindex : (ts[index]?).map WatchTarget.key = some target) (key : String) :
    entryOf (ts.modify index f) key =
      if target = key then (entryOf ts key).map f else entryOf ts key := by
  induction ts generalizing index with
  | nil => cases hindex
  | cons t ts ih =>
    rw [List.map_cons, List.nodup_cons] at hnodup
    have hcons : ∀ (u : WatchTarget) us, entryOf (u :: us) key =
        if u.key = key then some u else entryOf us key := by
      intro u us
      by_cases hu : u.key = key <;> simp [entryOf, hu]
    cases index with
    | zero =>
      obtain rfl : t.key = target := Option.some.inj hindex
      rw [List.modify_zero_cons, hcons, hcons, hf]
      split <;> rfl
    | succ index =>
      have hmem : target ∈ ts.map WatchTarget.key := by
        rw [List.getElem?_cons_succ, ← List.getElem?_map] at hindex
        exact List.mem_of_getElem? hindex
      rw [List.modify_succ_cons, hcons, hcons, ih hnodup.2 hindex]
      by_cases ht : t.key = key
      · have hne : target ≠ key := fun heq => hnodup.1 (ht.trans heq.symm ▸ hmem)
        simp only [if_pos ht, if_neg hne]
      · simp only [if_neg ht]

/-- A target with a new key at the end is the entry of its key. -/
theorem entryOf_append (ts : List WatchTarget) (t : WatchTarget) (key : String) :
    entryOf (ts ++ [t]) key = (entryOf ts key).or (if t.key = key then some t else none) := by
  rw [entryOf, List.find?_append, List.find?_singleton, entryOf]
  simp only [decide_eq_true_eq]

/-! ## The loop -/

/-- A session touches the entry of its key only, and none that is excluded. -/
theorem Scanned.entryOf_session {d : WatchlistDocument}
    {found : List WatchTarget × Table String Nat} (h : Scanned d found) (now cutoff : Int)
    (session : Session) (key : String) :
    entryOf (reconcileSession d.excluded now cutoff found session).1 key =
      if session.key = key ∧ key ∉ d.excluded then noticed now cutoff (entryOf found.1 key) session
      else entryOf found.1 key := by
  unfold reconcileSession
  by_cases hexcluded : session.key ∈ d.excluded
  · rw [if_pos hexcluded, if_neg]
    rintro ⟨rfl, hnot⟩
    exact hnot hexcluded
  rw [if_neg hexcluded]
  have hcond : (session.key = key ∧ key ∉ d.excluded) ↔ session.key = key :=
    ⟨And.left, fun heq => ⟨heq, heq ▸ hexcluded⟩⟩
  simp only [hcond]
  cases hlookup : found.2.lookup session.key with
  | some index =>
    have hindex := (h.indexed session.key index).mp hlookup
    have hshown : ∀ t, (shown session t).key = t.key := fun _ => rfl
    refine (entryOf_modify h.nodup hshown hindex key).trans ?_
    split
    · rename_i hkey
      have hsome : (entryOf found.1 key).isSome := by
        rw [entryOf_isSome, ← hkey]
        rw [← List.getElem?_map] at hindex
        exact List.mem_of_getElem? hindex
      obtain ⟨t, ht⟩ := Option.isSome_iff_exists.mp hsome
      rw [ht]
      rfl
    · rfl
  | none =>
    have hnone : entryOf found.1 session.key = none := by
      refine entryOf_eq_none.mpr fun hmem => ?_
      obtain ⟨i, hi⟩ := List.getElem?_of_mem hmem
      rw [List.getElem?_map] at hi
      rw [(h.indexed session.key i).mpr hi] at hlookup
      cases hlookup
    by_cases hkey : session.key = key
    · subst hkey
      have hnew : (discovered session now).key = session.key := rfl
      rw [if_pos rfl, hnone]
      by_cases hupdated : (session.updatedAt.any fun updated => cutoff ≤ updated) = true
      · simp only [hupdated, if_true, noticed, entryOf_append, hnone, hnew, Option.none_or]
      · simp only [hupdated, noticed, Bool.false_eq_true, if_false, hnone]
    · have hother : (discovered session now).key ≠ key := hkey
      rw [if_neg hkey]
      by_cases hupdated : (session.updatedAt.any fun updated => cutoff ≤ updated) = true
      · simp only [hupdated, if_true, entryOf_append, if_neg hother, Option.or_none]
      · simp only [hupdated, Bool.false_eq_true, if_false]

/-- The loop reads the sessions of each key in turn. -/
theorem Scanned.entryOf_sessions {d : WatchlistDocument}
    {found : List WatchTarget × Table String Nat} (h : Scanned d found) (now cutoff : Int)
    (sessions : List Session) {key : String} (hkey : key ∉ d.excluded) :
    entryOf (sessions.foldl (reconcileSession d.excluded now cutoff) found).1 key =
      (sessionsOf sessions key).foldl (noticed now cutoff) (entryOf found.1 key) := by
  induction sessions generalizing found with
  | nil => rfl
  | cons session sessions ih =>
    rw [List.foldl_cons, ih (h.session now cutoff session), h.entryOf_session]
    by_cases hsession : session.key = key
    · rw [if_pos ⟨hsession, hkey⟩, sessionsOf, sessionsOf, List.filter_cons_of_pos
        (by simpa using hsession), List.foldl_cons]
    · rw [if_neg fun hand => hsession hand.1, sessionsOf, sessionsOf, List.filter_cons_of_neg
        (by simpa using hsession)]

/-! ## One key -/

theorem laterOf_assoc (a b c : Option Int) :
    laterOf (laterOf a b) c = laterOf a (laterOf b c) := by
  cases a <;> cases b <;> cases c <;> simp [laterOf, max_assoc]

theorem laterOf_comm (a b : Option Int) : laterOf a b = laterOf b a := by
  cases a <;> cases b <;> simp [laterOf, max_comm]

theorem laterOf_self (a : Option Int) : laterOf a a = a := by
  cases a <;> simp [laterOf]

/-- An instant at or after the cutoff. -/
def atLeast (cutoff : Int) (a : Option Int) : Bool := a.any fun t => cutoff ≤ t

theorem atLeast_laterOf (cutoff : Int) (a b : Option Int) :
    atLeast cutoff (laterOf a b) = (atLeast cutoff a || atLeast cutoff b) := by
  cases a <;> cases b <;> simp [atLeast, laterOf]

/-- The latest activity from an activity on. -/
theorem foldl_laterOf (sessions : List Session) (a : Option Int) :
    sessions.foldl (fun latest s => laterOf latest s.updatedAt) a =
      laterOf a (latestOf sessions) := by
  induction sessions generalizing a with
  | nil => exact (laterOf_none a).symm
  | cons s sessions ih =>
    have hhead : latestOf (s :: sessions) = laterOf s.updatedAt (latestOf sessions) :=
      ih s.updatedAt
    rw [List.foldl_cons, ih, hhead, laterOf_assoc]

theorem latestOf_cons (s : Session) (sessions : List Session) :
    latestOf (s :: sessions) = laterOf s.updatedAt (latestOf sessions) := by
  rw [latestOf, List.foldl_cons, foldl_laterOf]
  rfl

/-- The latest activity does not depend on the order. -/
theorem latestOf_perm {sessions sessions' : List Session} (h : sessions.Perm sessions') :
    latestOf sessions = latestOf sessions' := by
  refine h.foldl_eq' (fun x _ y _ a => ?_) none
  rw [laterOf_assoc, laterOf_comm x.updatedAt, laterOf_assoc]

/-- The title last shown. -/
def titleOf (sessions : List Session) (title : Option String) : Option String :=
  (sessions.getLast?.map Session.title).or title

/-- A target takes the last title and the latest activity of its sessions. -/
theorem foldl_noticed_some (now cutoff : Int) (sessions : List Session) (t : WatchTarget) :
    sessions.foldl (noticed now cutoff) (some t) = some { t with
      title := titleOf sessions t.title
      lastActivityAt := laterOf t.lastActivityAt (latestOf sessions) } := by
  induction sessions generalizing t with
  | nil => simp [titleOf, latestOf]
  | cons s sessions ih =>
    rw [List.foldl_cons, noticed, ih, latestOf_cons, ← laterOf_assoc]
    congr 2
    rw [titleOf, titleOf, List.getLast?_cons, shown]
    cases sessions.getLast? <;> rfl

/-- A key without a target gets one as soon as a session was active since the cutoff. -/
theorem foldl_noticed_none (now cutoff : Int) (sessions : List Session) :
    if atLeast cutoff (latestOf sessions) then
      ∃ t, sessions.foldl (noticed now cutoff) none = some t ∧ t.source = .automatic ∧
        t.lastActivityAt = latestOf sessions ∧ t.title = titleOf sessions t.title
    else sessions.foldl (noticed now cutoff) none = none := by
  induction sessions with
  | nil => rfl
  | cons s sessions ih =>
    rw [latestOf_cons, atLeast_laterOf, List.foldl_cons]
    by_cases hs : atLeast cutoff s.updatedAt = true
    · have hfirst : noticed now cutoff none s = some (discovered s now) := if_pos hs
      rw [if_pos (by simp [hs]), hfirst, foldl_noticed_some]
      refine ⟨_, rfl, rfl, rfl, ?_⟩
      rw [titleOf, titleOf, List.getLast?_cons]
      cases sessions.getLast? <;> rfl
    · have hfirst : noticed now cutoff none s = none := if_neg hs
      rw [hfirst]
      by_cases hlatest : atLeast cutoff (latestOf sessions) = true
      · rw [if_pos hlatest] at ih
        obtain ⟨t, ht, hsource, hactivity, htitle⟩ := ih
        rw [if_pos (by simp [hlatest])]
        refine ⟨t, ht, hsource, ?_, ?_⟩
        · rw [hactivity]
          -- the skipped session is older than the cutoff
          revert hs hlatest
          cases s.updatedAt <;> cases latestOf sessions <;> simp [atLeast, laterOf]
          omega
        · rw [titleOf] at htitle ⊢
          rw [List.getLast?_cons]
          cases hlast : sessions.getLast? with
          | none =>
            rw [List.getLast?_eq_none_iff.mp hlast] at hlatest
            cases hlatest
          | some last => rw [hlast] at htitle; exact htitle
      · rw [if_neg hlatest] at ih
        rw [if_neg (by simp [hs, hlatest])]
        exact ih

end WatchlistDocument

end Watchcat
