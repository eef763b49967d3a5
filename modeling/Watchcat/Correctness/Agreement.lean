import Watchcat.Correctness.Discovery
import Watchcat.Correctness.SessionDiscovery
import Watchcat.Daemon.Reconcile

/-!
# The filter before the pass and the membership after it

The engine drops the stale targets before its pass, and the watchlist drops them
when the cycle is committed. The first looks at the last session of a key, the
second at the newest one, so they agree unless only another session than the last
one keeps the target.
-/

namespace Watchcat

open Watchcat.Core Method WatchlistDocument

/-! ## What discovery protects -/

/-- Every session that is never expired is protected. -/
def Discovery.Cautious (d : Discovery) : Prop :=
  ∀ s ∈ d.sessions, s.isUncertain = true → s.key ∈ d.lifecycleProtected

theorem Discovery.Cautious.found {d : Discovery} (h : d.Cautious) (sessions : List Session) :
    (d.found sessions).Cautious := by
  intro s hs huncertain
  rcases List.mem_append.mp hs with hs | hs
  · exact Finset.mem_union_left _ (h s hs huncertain)
  · refine Finset.mem_union_right _ (List.mem_toFinset.mpr ?_)
    exact List.mem_map_of_mem (List.mem_filter.mpr ⟨hs, huncertain⟩)

theorem Discovery.Cautious.unavailable {d : Discovery} (h : d.Cautious)
    (targets : List WatchTarget) (provider : String) :
    (d.unavailable targets provider).Cautious :=
  fun s hs huncertain => Finset.mem_union_left _ (h s hs huncertain)

/-- A round of the discovery loop leaves nothing uncertain unprotected. -/
theorem discoverProvider_cautious {targets : List WatchTarget} {cutoff : Option Int}
    {provider : String}
    {h : List (Prog.Event Reply)} {d : Discovery} (hd : d.Cautious) :
    (discoverProvider targets cutoff provider).Follows (Monitor.history Reply) h d
      fun _ _ d' => d'.Cautious := by
  rw [discoverProvider, Act.bind_eq, Act.follows_andThen, attempted, Act.follows_attemptUnless,
    Act.follows_zoom]
  refine Act.follows_history.mpr fun _ r e _ => ⟨fun sessions _ => ?_, fun error _ => ?_⟩
  · exact Discovery.Cautious.found (d := { d with engine := e }) hd sessions
  · by_cases hpanic : error.isPanic = true
    · rw [if_pos hpanic]
      exact hd
    · rw [if_neg hpanic]
      exact Discovery.Cautious.unavailable (d := { d with engine := e }) hd _ _

theorem discoverSessions_cautious {plan : ReconcilePlan} {order : List String}
    {e e' : WatchEngine} {tr : List (Prog.Event Reply)} {discovery : Discovery}
    (h : (discoverSessions plan order).Returns e tr (.ok discovery) e') : discovery.Cautious := by
  have hfollows : (discoverSessions plan order).Follows (Monitor.history Reply) [] e
      fun _ r _ => ∀ d, r = .ok d → d.Cautious := by
    rw [discoverSessions, Act.follows_zoom, Act.bind_eq, Act.follows_andThen]
    refine (Act.follows_forEach (I := fun _ d => d.Cautious) (E := fun _ _ _ => True) ?_ ?_).mono ?_
    · intro provider _ g d hd
      refine (discoverProvider_cautious hd).mono fun _ r d' hd' => ?_
      cases r with
      | ok _ => exact hd'
      | error _ => trivial
    · exact fun s hs => absurd hs List.not_mem_nil
    · intro g r d hd
      cases r with
      | ok _ => exact fun d' hd' => Except.ok.inj hd' ▸ hd
      | error _ => exact fun d' hd' => nomatch hd'
  exact hfollows.of_history h discovery rfl

/-! ## Two ways to look at a key -/

variable {sessions : List Session} {cutoff : Int} {t : WatchTarget}

/-- The target stays whatever its sessions show: it has been active, or added by hand, since the
cutoff. -/
def WatchTarget.StaysAlone (t : WatchTarget) (cutoff : Int) : Prop :=
  atLeast cutoff t.lastActivityAt = true ∨ t.source = .manual ∧ cutoff ≤ t.addedAt

/-- A session of its key was active since the cutoff. -/
def SeenActive (sessions : List Session) (cutoff : Int) (key : String) : Prop :=
  ∃ s ∈ sessions, s.key = key ∧ atLeast cutoff s.updatedAt = true

/-- A target of which activity was observed. -/
theorem inactivitySince_some {observed : Int} :
    cutoff ≤ t.inactivitySince (some observed) ↔ cutoff ≤ observed ∨ t.StaysAlone cutoff := by
  unfold WatchTarget.inactivitySince WatchTarget.StaysAlone
  cases t.source <;> cases t.lastActivityAt <;> simp [laterOf, atLeast]

theorem refreshedBy_inactivitySince :
    (refreshedBy sessions t).inactivitySince none =
      t.inactivitySince (foundActivity sessions t.key) := by
  unfold WatchTarget.inactivitySince refreshedBy
  rw [laterOf_comm t.lastActivityAt]
  rfl

theorem atLeast_latestOf : atLeast cutoff (latestOf sessions) = true ↔
    ∃ s ∈ sessions, atLeast cutoff s.updatedAt = true := by
  induction sessions with
  | nil => simp [latestOf, atLeast]
  | cons s sessions ih =>
    rw [latestOf_cons, atLeast_laterOf, Bool.or_eq_true, ih]
    simp

theorem atLeast_foundActivity {key : String} :
    atLeast cutoff (foundActivity sessions key) = true ↔ SeenActive sessions cutoff key := by
  rw [foundActivity, atLeast_latestOf, SeenActive]
  simp [sessionsOf, and_assoc]

/-- The last session of a key is one of its sessions. -/
theorem activityOf_cases (sessions : List Session) (key : String) :
    (Watchcat.activityOf sessions key = none ∧ ∀ s ∈ sessions, s.key ≠ key) ∨
      ∃ s ∈ sessions, s.key = key ∧ Watchcat.activityOf sessions key = s.updatedAt := by
  unfold Watchcat.activityOf
  cases hfind : sessions.reverse.find? fun s => s.key == key with
  | none =>
    refine .inl ⟨rfl, fun s hs => ?_⟩
    simpa using List.find?_eq_none.mp hfind s (List.mem_reverse.mpr hs)
  | some s =>
    refine .inr ⟨s, List.mem_reverse.mp (List.mem_of_find?_eq_some hfind), ?_, rfl⟩
    simpa using List.find?_some hfind

/-! ## Agreement -/

/-- The target is protected, or stays whatever is found, or its last session was active since the
cutoff if any of its sessions was. -/
def LastDecides (plan : ReconcilePlan) (sessions : List Session) (protectedKeys : Finset String)
    (t : WatchTarget) : Prop :=
  ∀ cutoff, plan.cutoff = some cutoff → t.key ∈ protectedKeys ∨ t.StaysAlone cutoff ∨
    (SeenActive sessions cutoff t.key →
      atLeast cutoff (Watchcat.activityOf sessions t.key) = true)

/-- A planned target passes the filter for being protected or for the last activity of its key. -/
theorem mem_liveTargets {plan : ReconcilePlan} {protectedKeys : Finset String}
    (hcutoff : plan.cutoff = some cutoff) (ht : t ∈ plan.targets) :
    (∃ live ∈ plan.liveTargets sessions protectedKeys, t ∈ live) ↔ t.key ∈ protectedKeys ∨
      cutoff ≤ t.inactivitySince (Watchcat.activityOf sessions t.key) := by
  simp [ReconcilePlan.liveTargets, hcutoff, List.mem_filter, ht]

/-- A listed target stays for being protected or for the newest activity of its key. -/
theorem mem_reconcileSince_target {d : WatchlistDocument} (h : d.WellFormed) (now : Int)
    {protectedKeys : Finset String} (ht : t ∈ d.targets) :
    t.key ∈ (d.reconcileSince sessions now cutoff protectedKeys).keys ↔ t.key ∈ protectedKeys ∨
      cutoff ≤ t.inactivitySince (foundActivity sessions t.key) := by
  rw [mem_reconcileSince_keys h, Member, ← refreshedBy_inactivitySince]
  constructor
  · rintro (⟨u, hu, hkey, hstays⟩ | ⟨hnew, _⟩)
    · obtain rfl := List.inj_on_of_nodup_map h.nodup hu ht hkey
      exact hstays
    · exact absurd (List.mem_map_of_mem ht) hnew
  · exact fun hstays => .inl ⟨t, ht, rfl, hstays⟩

/-- Where the sessions of the key are all dated, the two computations differ exactly if only the
last session is too old. -/
theorem agrees_of_dated {key : String}
    (hdated : ∀ s ∈ sessions, s.key = key → s.updatedAt.isSome = true) :
    (cutoff ≤ t.inactivitySince (Watchcat.activityOf sessions key) ↔
      cutoff ≤ t.inactivitySince (foundActivity sessions key)) ↔
    t.StaysAlone cutoff ∨ (SeenActive sessions cutoff key →
      atLeast cutoff (Watchcat.activityOf sessions key) = true) := by
  rcases activityOf_cases sessions key with ⟨hnone, hother⟩ | ⟨last, hlast, hlastKey, hactivity⟩
  · have hfound : foundActivity sessions key = none := by
      have hnil : sessionsOf sessions key = [] :=
        List.filter_eq_nil_iff.mpr fun s hs => by simpa using hother s hs
      rw [foundActivity, hnil]
      rfl
    have hunseen : ¬ SeenActive sessions cutoff key := by
      rintro ⟨s, hs, hkey, -⟩
      exact hother s hs hkey
    rw [hnone, hfound]
    exact ⟨fun _ => .inr fun hseen => absurd hseen hunseen, fun _ => Iff.rfl⟩
  · obtain ⟨y, hy⟩ := Option.isSome_iff_exists.mp (hdated last hlast hlastKey)
    rw [hy] at hactivity
    have hseen : SeenActive sessions cutoff key ↔
        ∃ x, foundActivity sessions key = some x ∧ cutoff ≤ x := by
      rw [← atLeast_foundActivity, atLeast_iff]
    have hlastSeen : cutoff ≤ y → SeenActive sessions cutoff key := fun hle =>
      ⟨last, hlast, hlastKey, by simpa [hy, atLeast] using hle⟩
    obtain ⟨x, hx⟩ : ∃ x, foundActivity sessions key = some x := by
      have hleast : SeenActive sessions y key := ⟨last, hlast, hlastKey, by simp [hy, atLeast]⟩
      obtain ⟨x, hx, _⟩ := atLeast_iff.mp (atLeast_foundActivity.mpr hleast)
      exact ⟨x, hx⟩
    have hnewest : SeenActive sessions cutoff key ↔ cutoff ≤ x := by
      simp [hseen, hx]
    have hown : atLeast cutoff (some y) = true ↔ cutoff ≤ y := by simp [atLeast]
    rw [hactivity, hx, inactivitySince_some, inactivitySince_some, hown, hnewest]
    rw [hnewest] at hlastSeen
    tauto

/-- The filter passes exactly the targets that the commit retains if and only if the last session
of the key decides like the newest one. Without a cutoff neither of them returns. -/
theorem filter_agrees_iff {plan : ReconcilePlan} {order : List String} {e e' : WatchEngine}
    {tr : List (Prog.Event Reply)} {discovery : Discovery}
    (hrun : (discoverSessions plan order).Returns e tr (.ok discovery) e')
    {d : WatchlistDocument} (hd : d.WellFormed) (hplan : d.targets = plan.targets)
    {t : WatchTarget} (ht : t ∈ plan.targets) :
    ((∃ live ∈ plan.liveTargets discovery.sessions discovery.lifecycleProtected, t ∈ live) ↔
      ∃ d' ∈ d.reconcile discovery.sessions plan.now plan.settings.lifecycle.staleAfterSeconds
        discovery.lifecycleProtected, t.key ∈ d'.keys) ↔
    LastDecides plan discovery.sessions discovery.lifecycleProtected t := by
  cases hcutoff : plan.cutoff with
  | none =>
    have hdate : gregorian.secondsBefore plan.now
      plan.settings.lifecycle.staleAfterSeconds = none := hcutoff
    simp [ReconcilePlan.liveTargets, reconcile, LastDecides, hcutoff, hdate]
  | some cutoff =>
    have hdate : gregorian.secondsBefore plan.now
      plan.settings.lifecycle.staleAfterSeconds = some cutoff := hcutoff
    have hretained : (∃ d' ∈ d.reconcile discovery.sessions plan.now
        plan.settings.lifecycle.staleAfterSeconds discovery.lifecycleProtected, t.key ∈ d'.keys) ↔
        t.key ∈ discovery.lifecycleProtected ∨
          cutoff ≤ t.inactivitySince (foundActivity discovery.sessions t.key) := by
      rw [← mem_reconcileSince_target hd plan.now (hplan ▸ ht)]
      simp [reconcile, hdate]
    have hdecides : LastDecides plan discovery.sessions discovery.lifecycleProtected t ↔
        t.key ∈ discovery.lifecycleProtected ∨ t.StaysAlone cutoff ∨
          (SeenActive discovery.sessions cutoff t.key →
            atLeast cutoff (Watchcat.activityOf discovery.sessions t.key) = true) := by
      simp [LastDecides, hcutoff]
    rw [mem_liveTargets hcutoff ht, hretained, hdecides]
    by_cases hprotected : t.key ∈ discovery.lifecycleProtected
    · simp [hprotected]
    · have hdated : ∀ s ∈ discovery.sessions, s.key = t.key → s.updatedAt.isSome = true := by
        intro s hs hkey
        by_contra hundated
        refine hprotected (hkey ▸ discoverSessions_cautious hrun s hs ?_)
        simpa [Session.isUncertain] using Or.inr (Option.not_isSome_iff_eq_none.mp hundated)
      rw [or_iff_right hprotected, or_iff_right hprotected, or_iff_right hprotected]
      exact agrees_of_dated hdated

section Sample

attribute [local instance] sampleRfc3339

/-- A target of a thread that the App Server lists twice. -/
def sharedTarget : WatchTarget := ⟨.automatic, "codex", "s", none, none, 0, none⟩

/-- A cycle on the tenth day over the one target. -/
def sharedPlan : ReconcilePlan :=
  ⟨days 10, 0, [sharedTarget], { providers := { claude := { enabled := false } } }⟩

/-- The sessions of the thread: active on the ninth day, and before on the given one. -/
def sharedSessions (earlier : Nat) : List Session :=
  [sampleListed "s" (86400 * 9), sampleListed "s" (86400 * earlier)]

/-- The page of the App Server with the thread, and what discovery makes of it. -/
def sharedDiscovery (earlier : Nat) : Except Error (Option (List Session)) :=
  ((CodexProvider.recentSessions (sampleCursors "") "0.1.0" (days 7) 1
    (sampleConnected 0)).execute (sampleAppServer [.obj [("data", .arr
      [sampleThread "s" (86400 * 9), sampleThread "s" (86400 * earlier)]),
        ("nextCursor", .null)]])).2.1

/-- The engine asks its provider. -/
def sharedEngine : WatchEngine := .new {} {"codex"} [sharedTarget] .initial 10000 false

theorem sharedSessions_found (earlier : Nat)
    (h : (sharedSessions earlier).filter Session.isUncertain = []) :
    (discoverSessions sharedPlan ["codex"]).Returns sharedEngine
      [⟨.recentSessions "codex" (days 7), .ok (sharedSessions earlier)⟩]
      (.ok ⟨sharedEngine, sharedSessions earlier, ∅⟩) sharedEngine := by
  have hfound : (⟨sharedEngine, sharedSessions earlier, ∅⟩ : Discovery) =
      Discovery.found ⟨sharedEngine, [], ∅⟩ (sharedSessions earlier) := by
    simp [Discovery.found, h]
  rw [hfound]
  exact ⟨.ok (sharedSessions earlier), [], rfl, rfl, rfl⟩

/-- The earlier session is recent enough too: the target passes the filter and is retained. -/
theorem filter_agrees_shared :
    (∃ live ∈ sharedPlan.liveTargets (sharedSessions 8) ∅, sharedTarget ∈ live) ↔
      ∃ d' ∈ ({ targets := [sharedTarget] } : WatchlistDocument).reconcile (sharedSessions 8)
        (days 10) sharedPlan.settings.lifecycle.staleAfterSeconds ∅, sharedTarget.key ∈ d'.keys :=
  (filter_agrees_iff (sharedSessions_found 8 (by decide)) ⟨by decide, by decide⟩ rfl
    (List.mem_singleton.mpr rfl)).mpr fun cutoff hcutoff => by
      obtain rfl : days 7 = cutoff := Option.some.inj hcutoff
      exact .inr (.inr fun _ => by decide)

/-- The thread is listed once more with an earlier activity, which is too old: the filter drops the
target that the commit retains. -/
theorem filter_disagrees : sharedDiscovery 1 = .ok (some (sharedSessions 1)) ∧
    ¬ ∀ (plan : ReconcilePlan) (order : List String) (e e' : WatchEngine)
      (tr : List (Prog.Event Reply)) (discovery : Discovery) (d : WatchlistDocument)
      (t : WatchTarget), (discoverSessions plan order).Returns e tr (.ok discovery) e' →
      d.WellFormed → d.targets = plan.targets → t ∈ plan.targets →
      ((∃ live ∈ plan.liveTargets discovery.sessions discovery.lifecycleProtected, t ∈ live) ↔
        ∃ d' ∈ d.reconcile discovery.sessions plan.now plan.settings.lifecycle.staleAfterSeconds
          discovery.lifecycleProtected, t.key ∈ d'.keys) := by
  refine ⟨by decide, fun h => ?_⟩
  have hagrees := h sharedPlan ["codex"] sharedEngine sharedEngine _ _
    { targets := [sharedTarget] } sharedTarget (sharedSessions_found 1 (by decide))
    ⟨by decide, by decide⟩ rfl (List.mem_singleton.mpr rfl)
  have hdropped : sharedPlan.liveTargets (sharedSessions 1) ∅ = some [] := by decide
  have hretained : (({ targets := [sharedTarget] } : WatchlistDocument).reconcile (sharedSessions 1)
      (days 10) sharedPlan.settings.lifecycle.staleAfterSeconds ∅).any
        (fun d' => sharedTarget.key ∈ d'.keys) = true := by decide
  obtain ⟨d', hd', hkey⟩ := (Option.any_eq_true _ _).mp hretained
  obtain ⟨live, hlive, ht⟩ := hagrees.mpr ⟨d', hd', of_decide_eq_true hkey⟩
  obtain rfl : [] = live := Option.some.inj (hdropped.symm.trans hlive)
  exact List.not_mem_nil ht

end Sample

end Watchcat
