import Watchcat.State.Discovery

/-!
# What reconciliation computes

Reconciliation keeps a target that is protected or recent enough, adds a session
that was active since the cutoff, and nothing else. What it computes does not
depend on the order of the sessions, and computing it again changes nothing. It
computes nothing where the cutoff is no date.
-/

namespace Watchcat

namespace WatchlistDocument

variable {d : WatchlistDocument} {sessions : List Session} {now cutoff : Int}
  {protectedKeys : Finset String}

/-- The target stays in the watchlist. -/
def lasts (cutoff : Int) (protectedKeys : Finset String) (t : WatchTarget) : Bool :=
  t.key ∈ protectedKeys || cutoff ≤ t.inactivitySince none

/-- The targets and their index after the discovery loop. -/
def scanned (d : WatchlistDocument) (sessions : List Session) (now cutoff : Int) :
    List WatchTarget × Core.Table String Nat :=
  sessions.foldl (reconcileSession d.excluded now cutoff)
    (d.targets, positions d.targets)

theorem scanned_scanned (h : d.WellFormed) : Scanned d (d.scanned sessions now cutoff) :=
  (scanned_positions h).sessions now _ sessions

theorem reconcileSince_targets : (d.reconcileSince sessions now cutoff protectedKeys).targets =
    (d.scanned sessions now cutoff).1.filter (lasts cutoff protectedKeys) := rfl

/-- The activity of the target with the key. -/
def activityOf (d : WatchlistDocument) (key : String) : Option Int :=
  (entryOf d.targets key).bind WatchTarget.lastActivityAt

/-- The latest activity of the sessions with the key. -/
def foundActivity (sessions : List Session) (key : String) : Option Int :=
  latestOf (sessionsOf sessions key)

/-- The target as it is judged after discovery. -/
def refreshedBy (sessions : List Session) (t : WatchTarget) : WatchTarget :=
  { t with lastActivityAt := laterOf t.lastActivityAt (foundActivity sessions t.key) }

theorem lasts_congr {t t' : WatchTarget} (hkey : t'.key = t.key) (hsource : t'.source = t.source)
    (hadded : t'.addedAt = t.addedAt) (hactivity : t'.lastActivityAt = t.lastActivityAt) :
    lasts cutoff protectedKeys t' = lasts cutoff protectedKeys t := by
  unfold lasts WatchTarget.inactivitySince
  rw [hkey, hsource, hadded, hactivity]

/-- A target that was active since the cutoff stays. -/
theorem lasts_of_active {t : WatchTarget}
    (hactive : atLeast cutoff t.lastActivityAt = true) :
    lasts cutoff protectedKeys t = true := by
  cases hactivity : t.lastActivityAt with
  | none => rw [hactivity] at hactive; cases hactive
  | some at_ =>
    rw [hactivity, atLeast, Option.any_some, decide_eq_true_eq] at hactive
    have hsince : cutoff ≤ t.inactivitySince none := by
      unfold WatchTarget.inactivitySince
      rw [hactivity]
      cases t.source with
      | automatic => exact hactive
      | manual => exact le_max_of_le_left hactive
    simp [lasts, hsince]

/-! ## The entry of a key -/

/-- An entry is read off its sessions and judged. -/
theorem entryOf_reconcileSince (h : d.WellFormed) {key : String} (hkey : key ∉ d.excluded) :
    entryOf (d.reconcileSince sessions now cutoff protectedKeys).targets key =
      ((sessionsOf sessions key).foldl (noticed now cutoff)
        (entryOf d.targets key)).filter (lasts cutoff protectedKeys) := by
  rw [reconcileSince_targets, entryOf_filter (scanned_scanned h).nodup,
    scanned, (scanned_positions h).entryOf_sessions now _ sessions hkey]

/-- A listed target takes part with the activity of its sessions. -/
theorem entryOf_reconcileSince_some (h : d.WellFormed) {key : String} {t : WatchTarget}
    (ht : entryOf d.targets key = some t) :
    entryOf (d.reconcileSince sessions now cutoff protectedKeys).targets key =
      if lasts cutoff protectedKeys (refreshedBy sessions t) then
        some { refreshedBy sessions t with title := titleOf (sessionsOf sessions key) t.title }
      else none := by
  obtain ⟨hmem, rfl⟩ := (entryOf_some h.nodup).mp ht
  have hkey := h.authorized _ (List.mem_map_of_mem hmem)
  rw [entryOf_reconcileSince h hkey, ht, foldl_noticed_some, Option.filter_some]
  exact congrArg (fun b : Bool => if b then _ else _) (lasts_congr rfl rfl rfl rfl)

variable (sessions now cutoff protectedKeys) in
/-- A key that is not listed gets a target where a session was active since the cutoff. -/
theorem entryOf_reconcileSince_none (h : d.WellFormed) {key : String} (hkey : key ∉ d.excluded)
    (hnone : entryOf d.targets key = none) :
    if atLeast cutoff (foundActivity sessions key) then
      ∃ t, entryOf (d.reconcileSince sessions now cutoff protectedKeys).targets key = some t ∧
        t.lastActivityAt = foundActivity sessions key ∧
        t.title = titleOf (sessionsOf sessions key) t.title
    else entryOf (d.reconcileSince sessions now cutoff protectedKeys).targets key = none := by
  have hfold := foldl_noticed_none now cutoff (sessionsOf sessions key)
  rw [entryOf_reconcileSince h hkey, hnone]
  by_cases hactive : atLeast cutoff (foundActivity sessions key) = true
  · rw [if_pos hactive]
    rw [foundActivity] at hactive
    rw [if_pos hactive] at hfold
    obtain ⟨t, ht, _, hactivity, htitle⟩ := hfold
    refine ⟨t, ?_, hactivity, htitle⟩
    rw [ht, Option.filter_some, if_pos (lasts_of_active (hactivity ▸ hactive))]
  · rw [if_neg hactive]
    rw [foundActivity] at hactive
    rw [if_neg hactive] at hfold
    rw [hfold]
    rfl

/-- An excluded key stays out. -/
theorem entryOf_reconcileSince_excluded (h : d.WellFormed) {key : String}
    (hkey : key ∈ d.excluded) :
    entryOf (d.reconcileSince sessions now cutoff protectedKeys).targets key = none := by
  refine entryOf_eq_none.mpr fun hmem => ?_
  exact (h.reconcileSince sessions now cutoff protectedKeys).authorized key hmem hkey

/-! ## Membership and activity -/

/-- The documented membership: a listed target that is protected or recent enough, or a session
that is not excluded and was active since the cutoff. -/
def Member (d : WatchlistDocument) (sessions : List Session) (cutoff : Int)
    (protectedKeys : Finset String) (key : String) : Prop :=
  (∃ t ∈ d.targets, t.key = key ∧ (key ∈ protectedKeys ∨
      cutoff ≤ (refreshedBy sessions t).inactivitySince none)) ∨
    key ∉ d.keys ∧ key ∉ d.excluded ∧
      ∃ at_, foundActivity sessions key = some at_ ∧ cutoff ≤ at_

theorem lasts_iff {t : WatchTarget} : lasts cutoff protectedKeys t = true ↔
    t.key ∈ protectedKeys ∨ cutoff ≤ t.inactivitySince none := by
  simp [lasts]

theorem atLeast_iff {a : Option Int} :
    atLeast cutoff a = true ↔ ∃ at_, a = some at_ ∧ cutoff ≤ at_ := by
  cases a <;> simp [atLeast]

theorem mem_reconcileSince_keys (h : d.WellFormed) {key : String} :
    key ∈ (d.reconcileSince sessions now cutoff protectedKeys).keys ↔
      Member d sessions cutoff protectedKeys key := by
  rw [keys, ← entryOf_isSome, Member]
  cases hentry : entryOf d.targets key with
  | some t =>
    obtain ⟨hmem, rfl⟩ := (entryOf_some h.nodup).mp hentry
    have hlasts : lasts cutoff protectedKeys (refreshedBy sessions t) = true ↔
        t.key ∈ protectedKeys ∨
          cutoff ≤ (refreshedBy sessions t).inactivitySince none := lasts_iff
    rw [entryOf_reconcileSince_some h hentry]
    constructor
    · intro hsome
      refine .inl ⟨t, hmem, rfl, hlasts.mp ?_⟩
      by_contra hnot
      rw [if_neg hnot] at hsome
      cases hsome
    · rintro (⟨t', hmem', hkey, hstays⟩ | ⟨hnew, _⟩)
      · obtain rfl := List.inj_on_of_nodup_map h.nodup hmem' hmem hkey
        rw [if_pos (hlasts.mpr hstays)]
        rfl
      · exact absurd (List.mem_map_of_mem hmem) hnew
  | none =>
    have hnew : key ∉ d.keys := entryOf_eq_none.mp hentry
    have hold : ¬∃ t ∈ d.targets, t.key = key ∧ (key ∈ protectedKeys ∨
        cutoff ≤ (refreshedBy sessions t).inactivitySince none) := by
      rintro ⟨t, ht, rfl, _⟩
      exact hnew (List.mem_map_of_mem ht)
    by_cases hexcluded : key ∈ d.excluded
    · rw [entryOf_reconcileSince_excluded h hexcluded, or_iff_right hold]
      simp [hexcluded]
    · have hfound :=
        entryOf_reconcileSince_none sessions now cutoff protectedKeys h hexcluded hentry
      rw [← atLeast_iff, or_iff_right hold]
      by_cases hactive : atLeast cutoff (foundActivity sessions key) = true
      · rw [if_pos hactive] at hfound
        obtain ⟨t, ht, _⟩ := hfound
        simp [ht, hnew, hexcluded, hactive]
      · rw [if_neg hactive] at hfound
        simp [hfound, hactive]

/-- A target that is left has the latest activity known of its key. -/
theorem reconcileSince_activity (h : d.WellFormed) {t : WatchTarget}
    (ht : t ∈ (d.reconcileSince sessions now cutoff protectedKeys).targets) :
    t.lastActivityAt = laterOf (activityOf d t.key) (foundActivity sessions t.key) := by
  have hwell := h.reconcileSince sessions now cutoff protectedKeys
  have hentry := (entryOf_some hwell.nodup).mpr ⟨ht, rfl⟩
  have hexcluded : t.key ∉ d.excluded := hwell.authorized _ (List.mem_map_of_mem ht)
  rw [activityOf]
  cases hold : entryOf d.targets t.key with
  | some t₀ =>
    obtain ⟨_, hkey⟩ := (entryOf_some h.nodup).mp hold
    rw [entryOf_reconcileSince_some h hold] at hentry
    split at hentry
    · refine (congrArg WatchTarget.lastActivityAt (Option.some.inj hentry)).symm.trans ?_
      rw [← hkey]
      rfl
    · cases hentry
  | none =>
    have hfound := entryOf_reconcileSince_none sessions now cutoff protectedKeys h hexcluded hold
    split at hfound
    · obtain ⟨t', ht', hactivity, _⟩ := hfound
      rw [hentry] at ht'
      obtain rfl := Option.some.inj ht'
      exact hactivity
    · rw [hfound] at hentry
      cases hentry

/-- The activity of a key is known if and only if it has a target. -/
theorem activityOf_reconcileSince (h : d.WellFormed) (key : String) :
    activityOf (d.reconcileSince sessions now cutoff protectedKeys) key =
      if key ∈ (d.reconcileSince sessions now cutoff protectedKeys).keys then
        laterOf (activityOf d key) (foundActivity sessions key) else none := by
  have hwell := h.reconcileSince sessions now cutoff protectedKeys
  rw [activityOf]
  cases hentry : entryOf (d.reconcileSince sessions now cutoff protectedKeys).targets key with
  | some t =>
    obtain ⟨ht, rfl⟩ := (entryOf_some hwell.nodup).mp hentry
    have hmem : t.key ∈ (d.reconcileSince sessions now cutoff protectedKeys).keys :=
      List.mem_map_of_mem ht
    rw [if_pos hmem]
    exact reconcileSince_activity h ht
  | none =>
    have hmem : key ∉ (d.reconcileSince sessions now cutoff protectedKeys).keys :=
      entryOf_eq_none.mp hentry
    rw [if_neg hmem]
    rfl

variable (sessions now cutoff) in
/-- The loop lists the keys it began with and then the new ones. -/
theorem scanned_keys (h : d.WellFormed) : ∃ fresh : List String,
    (d.scanned sessions now cutoff).1.map WatchTarget.key = d.keys ++ fresh ∧
      d.keys.Disjoint fresh := by
  have hscanned : Scanned d (d.scanned sessions now cutoff) := scanned_scanned h
  obtain ⟨fresh, hfresh⟩ := hscanned.kept
  have hkeys := congrArg (List.map WatchTarget.key) hfresh
  rw [List.map_append, List.map_map, List.map_map] at hkeys
  have hnodup := hscanned.nodup
  have hsplit : (d.scanned sessions now cutoff).1.map WatchTarget.key =
      d.keys ++ fresh.map WatchTarget.key := hkeys.symm
  rw [hsplit, List.nodup_append'] at hnodup
  exact ⟨_, hsplit, hnodup.2.2⟩

/-- The targets that were listed keep their order. -/
theorem reconcileSince_order (h : d.WellFormed) :
    ((d.reconcileSince sessions now cutoff protectedKeys).keys.filter
      (· ∈ d.keys)).Sublist d.keys := by
  obtain ⟨fresh, hkeys, hdisjoint⟩ := scanned_keys sessions now cutoff h
  have hsub : (d.reconcileSince sessions now cutoff protectedKeys).keys.Sublist
      (d.keys ++ fresh) := by
    rw [← hkeys]
    exact List.filter_sublist.map _
  have hold : (d.keys ++ fresh).filter (· ∈ d.keys) = d.keys := by
    rw [List.filter_append, List.filter_eq_self.mpr fun k hk => decide_eq_true hk,
      List.filter_eq_nil_iff.mpr fun k hk => by simpa using fun hmem => hdisjoint hmem hk,
      List.append_nil]
  have hfiltered := hsub.filter (· ∈ d.keys)
  rwa [hold] at hfiltered

/-! ## The order of discovery and repetition -/

theorem foundActivity_perm {sessions' : List Session} (hperm : sessions.Perm sessions')
    (key : String) : foundActivity sessions key = foundActivity sessions' key :=
  latestOf_perm (hperm.filter _)

theorem member_perm {sessions' : List Session} (hperm : sessions.Perm sessions') (key : String) :
    Member d sessions cutoff protectedKeys key ↔
      Member d sessions' cutoff protectedKeys key := by
  simp only [Member, refreshedBy, foundActivity_perm hperm]

/-- What was left has taken in its sessions: they show nothing new. -/
theorem shown_settled (h : d.WellFormed) {key : String} {t : WatchTarget}
    (ht : entryOf (d.reconcileSince sessions now cutoff protectedKeys).targets key = some t) :
    laterOf t.lastActivityAt (foundActivity sessions key) = t.lastActivityAt ∧
      titleOf (sessionsOf sessions key) t.title = t.title := by
  have hexcluded : key ∉ d.excluded := fun hmem => by
    rw [entryOf_reconcileSince_excluded h hmem] at ht
    cases ht
  cases hold : entryOf d.targets key with
  | some t₀ =>
    obtain ⟨_, rfl⟩ := (entryOf_some h.nodup).mp hold
    rw [entryOf_reconcileSince_some h hold] at ht
    split at ht
    · obtain rfl := Option.some.inj ht
      refine ⟨?_, ?_⟩
      · show laterOf (laterOf t₀.lastActivityAt (foundActivity sessions t₀.key)) _ = _
        rw [laterOf_assoc, laterOf_self]
        rfl
      · show (_ : Option String).or ((_ : Option String).or _) = _
        rw [← Option.or_assoc, Option.or_self]
        rfl
    · cases ht
  | none =>
    have hfound := entryOf_reconcileSince_none sessions now cutoff protectedKeys h hexcluded hold
    split at hfound
    · obtain ⟨t', ht', hactivity, htitle⟩ := hfound
      rw [ht] at ht'
      obtain rfl := Option.some.inj ht'
      rw [hactivity, laterOf_self]
      exact ⟨rfl, htitle.symm⟩
    · rw [hfound] at ht
      cases ht

/-- A key that was dropped or not taken up has no session active since the cutoff. -/
theorem not_active_of_dropped (h : d.WellFormed) {key : String} (hexcluded : key ∉ d.excluded)
    (hnone : entryOf (d.reconcileSince sessions now cutoff protectedKeys).targets key = none) :
    ¬atLeast cutoff (foundActivity sessions key) = true := by
  intro hactive
  cases hold : entryOf d.targets key with
  | some t =>
    obtain ⟨_, rfl⟩ := (entryOf_some h.nodup).mp hold
    have hlatest : atLeast cutoff (refreshedBy sessions t).lastActivityAt = true := by
      rw [refreshedBy, atLeast_laterOf, hactive, Bool.or_true]
    rw [entryOf_reconcileSince_some h hold, if_pos (lasts_of_active hlatest)] at hnone
    cases hnone
  | none =>
    have hfound := entryOf_reconcileSince_none sessions now cutoff protectedKeys h hexcluded hold
    rw [if_pos hactive] at hfound
    obtain ⟨t, ht, _⟩ := hfound
    rw [hnone] at ht
    cases ht

/-- The loop finds nothing new in what it has left. -/
theorem scanned_settled (h : d.WellFormed) :
    ((d.reconcileSince sessions now cutoff protectedKeys).scanned sessions now cutoff).1 =
      (d.reconcileSince sessions now cutoff protectedKeys).targets := by
  have hwell := h.reconcileSince sessions now cutoff protectedKeys
  have hscanned : Scanned _ ((d.reconcileSince sessions now cutoff protectedKeys).scanned
      sessions now cutoff) := scanned_scanned hwell
  have hentries : ∀ key, entryOf ((d.reconcileSince sessions now cutoff protectedKeys).scanned
      sessions now cutoff).1 key =
        entryOf (d.reconcileSince sessions now cutoff protectedKeys).targets key := by
    intro key
    by_cases hexcluded : key ∈ d.excluded
    · rw [entryOf_reconcileSince_excluded h hexcluded]
      refine entryOf_eq_none.mpr fun hmem => ?_
      obtain ⟨t, ht, rfl⟩ := List.mem_map.mp hmem
      exact hscanned.authorized t ht hexcluded
    · rw [scanned, (scanned_positions hwell).entryOf_sessions now _ sessions hexcluded]
      cases ht : entryOf (d.reconcileSince sessions now cutoff protectedKeys).targets key with
      | some t =>
        obtain ⟨hactivity, htitle⟩ := shown_settled h ht
        rw [foundActivity] at hactivity
        rw [foldl_noticed_some, hactivity, htitle]
      | none =>
        have hnone := foldl_noticed_none now cutoff (sessionsOf sessions key)
        have hinactive := not_active_of_dropped h hexcluded ht
        rw [foundActivity] at hinactive
        rwa [if_neg hinactive] at hnone
  obtain ⟨fresh, hkeys, hdisjoint⟩ := scanned_keys sessions now cutoff hwell
  have hfresh : fresh = [] := by
    refine List.eq_nil_iff_forall_not_mem.mpr fun key hkey => ?_
    have hmem : key ∈ ((d.reconcileSince sessions now cutoff protectedKeys).scanned sessions now
        cutoff).1.map WatchTarget.key := by
      rw [hkeys]
      exact List.mem_append_right _ hkey
    rw [← entryOf_isSome, hentries, entryOf_isSome] at hmem
    exact hdisjoint hmem hkey
  rw [hfresh, List.append_nil] at hkeys
  exact eq_of_entryOf hwell.nodup hkeys hentries

/-- Reconciling again with the same arguments changes nothing. -/
theorem reconcileSince_idempotent (h : d.WellFormed) :
    (d.reconcileSince sessions now cutoff protectedKeys).reconcileSince sessions now cutoff
        protectedKeys =
      d.reconcileSince sessions now cutoff protectedKeys := by
  have htargets : ((d.reconcileSince sessions now cutoff protectedKeys).reconcileSince sessions
      now cutoff protectedKeys).targets =
        (d.reconcileSince sessions now cutoff protectedKeys).targets := by
    rw [reconcileSince_targets, scanned_settled h, reconcileSince_targets, List.filter_filter]
    simp only [Bool.and_self]
  have hdocument : ∀ e : WatchlistDocument, e.reconcileSince sessions now cutoff protectedKeys =
      { e with targets := (e.reconcileSince sessions now cutoff protectedKeys).targets } :=
    fun _ => rfl
  refine (hdocument _).trans ?_
  rw [htargets]

/-- What reconciliation is documented to compute: the membership and the activity of every key, the
listed targets in their order, the same for the sessions in any order, and nothing new when it is
repeated. -/
structure Documented (d : WatchlistDocument) (sessions : List Session) (now stale : Int)
    (protectedKeys : Finset String) (d' : WatchlistDocument) : Prop where
  membership : ∀ key, key ∈ d'.keys ↔
    Member d sessions (now - seconds stale) protectedKeys key
  activity : ∀ t ∈ d'.targets,
    t.lastActivityAt = laterOf (activityOf d t.key) (foundActivity sessions t.key)
  order : (d'.keys.filter (· ∈ d.keys)).Sublist d.keys
  unordered : ∀ sessions', sessions.Perm sessions' →
    ∃ d'', d.reconcile sessions' now stale protectedKeys = some d'' ∧ ∀ key,
      (key ∈ d''.keys ↔ key ∈ d'.keys) ∧ activityOf d'' key = activityOf d' key
  repeated : d'.reconcile sessions now stale protectedKeys = some d'

/-- Where the cutoff is a date, reconciliation computes what is documented. -/
theorem reconcile_documented (h : d.WellFormed) {stale : Int}
    (hcutoff : gregorian.secondsBefore now stale = some (now - seconds stale)) :
    Documented d sessions now stale protectedKeys
      (d.reconcileSince sessions now (now - seconds stale) protectedKeys) := by
  have hreconcile : ∀ (e : WatchlistDocument) sessions',
      e.reconcile sessions' now stale protectedKeys =
        some (e.reconcileSince sessions' now (now - seconds stale) protectedKeys) :=
    fun e sessions' => by rw [reconcile, hcutoff, Option.map_some]
  have hmember : ∀ sessions', sessions.Perm sessions' → ∀ key,
      (key ∈ (d.reconcileSince sessions' now (now - seconds stale) protectedKeys).keys ↔
        key ∈ (d.reconcileSince sessions now (now - seconds stale) protectedKeys).keys) := by
    intro sessions' hperm key
    rw [mem_reconcileSince_keys h, mem_reconcileSince_keys h, member_perm hperm]
  refine ⟨fun key => mem_reconcileSince_keys h, fun t => reconcileSince_activity h,
    reconcileSince_order h, fun sessions' hperm => ⟨_, hreconcile d sessions', fun key =>
      ⟨hmember sessions' hperm key, ?_⟩⟩, ?_⟩
  · rw [activityOf_reconcileSince h, activityOf_reconcileSince h, foundActivity_perm hperm]
    exact if_congr (hmember sessions' hperm key) rfl rfl
  · rw [hreconcile, reconcileSince_idempotent h]

/-- Reconciliation returns what is documented if and only if its cutoff is not before the first date
of the calendar; before it there is no cutoff to take. -/
theorem reconcile_exact_iff {d : WatchlistDocument} (h : d.WellFormed) (sessions : List Session)
    (now stale : Int) (hnow : gregorian.first ≤ now ∧ now ≤ gregorian.last) (hstale : 0 < stale)
    (protectedKeys : Finset String) :
    (∃ d', d.reconcile sessions now stale protectedKeys = some d' ∧
      Documented d sessions now stale protectedKeys d') ↔
    gregorian.first ≤ now - seconds stale := by
  constructor
  · rintro ⟨d', hd', -⟩
    obtain ⟨cutoff, hcutoff, -⟩ := reconcile_eq_some.mp hd'
    have hdate : gregorian.secondsBefore now stale ≠ none := by simp [hcutoff]
    exact ((gregorian.secondsBefore_ne_none_iff now stale).mp hdate).2.1
  · intro hfirst
    obtain ⟨cutoff, hcutoff⟩ := Option.ne_none_iff_exists'.mp
      (Calendar.secondsBefore_of_positive hnow.2 hstale hfirst)
    obtain rfl := gregorian.secondsBefore_eq_some hcutoff
    exact ⟨_, reconcile_eq_some.mpr ⟨_, hcutoff, rfl⟩, reconcile_documented h hcutoff⟩

/-- A listed session and a new one, both active on the ninth day. -/
theorem reconcile_exact_sample :
    let listed : WatchTarget := ⟨.manual, "codex", "s", none, none, 0, none⟩
    let found : List Session := [⟨"codex", "u", "new", .idle, some (days 9)⟩,
      ⟨"codex", "s", "old", .idle, some (days 9)⟩]
    let d : WatchlistDocument := { targets := [listed] }
    ∃ d', d.reconcile found (days 10) 259200 ∅ = some d' ∧ "codex:s" ∈ d'.keys ∧
      "codex:u" ∈ d'.keys := by
  intro listed found d
  have hwell : d.WellFormed := ⟨by decide, by decide⟩
  obtain ⟨d', hd', hdocumented⟩ := (reconcile_exact_iff hwell found (days 10)
    259200 ⟨by decide, by decide⟩ (by decide) ∅).mpr (by decide)
  refine ⟨d', hd', (hdocumented.membership _).mpr (.inl ⟨listed, List.mem_singleton.mpr rfl, rfl,
    .inr (by decide)⟩), (hdocumented.membership _).mpr (.inr ⟨by decide, by decide, days 9,
    by decide, by decide⟩)⟩

/-- The longest time that can be configured is no duration: nothing is computed. -/
theorem reconcile_panics :
    ¬ ∀ (d : WatchlistDocument) (sessions : List Session) (now stale : Int)
      (protectedKeys : Finset String), d.WellFormed →
      gregorian.first ≤ now ∧ now ≤ gregorian.last → 0 < stale ∧ stale ≤ i64Max →
      ∃ d', d.reconcile sessions now stale protectedKeys = some d' ∧
        Documented d sessions now stale protectedKeys d' := by
  intro h
  obtain ⟨d', hd', -⟩ := h {} [] (days 10) i64Max ∅ ⟨by decide, by decide⟩
    ⟨by decide, by decide⟩ ⟨by decide, by decide⟩
  have hnone : ({} : WatchlistDocument).reconcile [] (days 10) i64Max ∅ = none := by decide
  rw [hnone] at hd'
  cases hd'

end WatchlistDocument

end Watchcat
