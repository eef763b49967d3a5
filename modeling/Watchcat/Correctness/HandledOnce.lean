import Watchcat.Engine.Runs

/-!
# A failed turn is recovered once within the retention

An automatic resume call that may have started a turn is remembered as handled
until pruning forgets it, so two of them for one failure are more than the
retention apart.
-/

namespace Watchcat

open Watchcat.Core RuntimeState

/-- The failure key of a resume call that may have started a turn. -/
def startedKey : Prog.Event Reply → Option String
  | ⟨.resume _ _ _ failureKey, answer⟩ => if mayHaveStarted answer then some failureKey else none
  | _ => none

/-- The failures whose resume calls may have started a turn, with the time of the pass. -/
def startedAt (now : Int) (tr : List (Prog.Event Reply)) : List (String × Int) :=
  (tr.filterMap startedKey).map fun key => (key, now)

/-- The automatic resume calls of a run that ended in a receipt or in an unknown
acknowledgement. -/
def automaticStarts (log : List OpRecord) : List (String × Int) :=
  log.flatMap fun record =>
    match record.op with
    | .pass now _ => startedAt now record.calls
    | _ => []

/-- Later starts for the same failure are more than the retention later. -/
def Spaced (starts : List (String × Int)) : Prop :=
  starts.Pairwise fun a b => a.1 = b.1 → a.2 + retention < b.2

/-- Every start is forgotten by age or remembered as handled since. -/
def Remembered (now : Int) (starts : List (String × Int)) (s : RuntimeState) : Prop :=
  ∀ start ∈ starts, start.2 ≤ now ∧ (start.2 + retention < now ∨
    ∃ h, s.handled.lookup start.1 = some h ∧ h.action ≠ .skipped ∧ start.2 ≤ h.handledAt)

theorem startedKey_quiet {e : Prog.Event Reply} (he : e.1.isResume = false) :
    startedKey e = none := by
  obtain ⟨op, r⟩ := e
  cases op <;> first
    | rfl
    | cases he

theorem filterMap_startedKey_quiet {tr : List (Prog.Event Reply)} (htr : resumes tr = []) :
    tr.filterMap startedKey = [] := by
  refine List.filterMap_eq_nil_iff.mpr fun e he => startedKey_quiet ?_
  by_contra hres
  simp only [Bool.not_eq_false] at hres
  have hmem : e ∈ resumes tr := List.mem_filter.mpr ⟨he, hres⟩
  rw [htr] at hmem
  cases hmem

theorem filterMap_startedKey_sent (generation : Nat) (d : Due) (s : RuntimeState)
    (answer : Except Error ResumeReceipt) {pre post : List (Prog.Event Reply)}
    (hpre : resumes pre = []) (hpost : resumes post = []) :
    (pre ++ (sentCalls generation d s answer ++ post)).filterMap startedKey =
      if mayHaveStarted answer then [d.failure.key] else [] := by
  rw [List.filterMap_append, List.filterMap_append, filterMap_startedKey_quiet hpre,
    filterMap_startedKey_quiet hpost]
  simp only [sentCalls, List.filterMap_cons, startedKey, List.filterMap_nil, List.nil_append,
    List.append_nil]
  split
  · rename_i h
    split at h
    · cases h
    · rename_i hno
      rw [if_neg hno]
  · rename_i h
    split at h
    · rename_i hyes
      cases h
      rw [if_pos hyes]
    · cases h

/-! ## One round -/

theorem Remembered.mono {now later : Int} {starts : List (String × Int)} {s s' : RuntimeState}
    (h : Remembered now starts s) (hle : now ≤ later) (hs : s'.handled = s.handled) :
    Remembered later starts s' := by
  intro start hmem
  obtain ⟨hpast, hold⟩ := h start hmem
  refine ⟨hpast.trans hle, ?_⟩
  rcases hold with hold | hhandled
  · exact Or.inl (by omega)
  · exact Or.inr (by rwa [hs])

/-- Pruning forgets only what is older than the retention. -/
theorem Remembered.prune {now : Int} {starts : List (String × Int)} {s : RuntimeState}
    (h : Remembered now starts s) : Remembered now starts (s.prune now) := by
  intro start hmem
  obtain ⟨hpast, hold⟩ := h start hmem
  refine ⟨hpast, ?_⟩
  rcases hold with hold | ⟨handled, hlookup, haction, hat⟩
  · exact Or.inl hold
  · by_cases hcut : start.2 + retention < now
    · exact Or.inl hcut
    · refine Or.inr ⟨handled, ?_, haction, hat⟩
      rw [RuntimeState.prune_handled_lookup, hlookup, Option.filter_some,
        if_pos (decide_eq_true (by omega))]

/-- A start of an unhandled failure is older than the retention. -/
theorem Remembered.old_of_unhandled {now : Int} {starts : List (String × Int)} {s : RuntimeState}
    (h : Remembered now starts s) {f : Failure} (hf : s.Unhandled f) {start : String × Int}
    (hmem : start ∈ starts) (hkey : start.1 = f.key) : start.2 + retention < now := by
  rcases (h start hmem).2 with hold | ⟨handled, hlookup, haction, _⟩
  · exact hold
  · have hlooked : s.handledAction f = some handled.action := by
      rw [RuntimeState.handledAction, ← hkey, hlookup]
      rfl
    obtain ⟨hresumed, hunconfirmed⟩ := hf
    rw [hlooked] at hresumed hunconfirmed
    cases hcase : handled.action with
    | skipped => exact absurd hcase haction
    | resumed => exact absurd (congrArg some hcase) hresumed
    | unconfirmed => exact absurd (congrArg some hcase) hunconfirmed

/-- Marking an unhandled failure as skipped loses no start. -/
theorem Remembered.markSkipped {now : Int} {starts : List (String × Int)} {s : RuntimeState}
    (h : Remembered now starts s) {f : Failure} (hf : s.Unhandled f) :
    Remembered now starts (s.markHandled f .skipped now) := by
  intro start hmem
  by_cases hkey : start.1 = f.key
  · exact ⟨(h start hmem).1, Or.inl (h.old_of_unhandled hf hmem hkey)⟩
  · rw [RuntimeState.markHandled_handled, Table.lookup_insert_ne hkey]
    exact h start hmem

/-- Marking a failure as resumed or unconfirmed remembers all its starts. -/
theorem Remembered.mark {now : Int} {starts : List (String × Int)} {s : RuntimeState}
    (h : Remembered now starts s) (f : Failure) {a : HandledAction} (ha : a ≠ .skipped) :
    Remembered now starts (s.markHandled f a now) := by
  intro start hmem
  by_cases hkey : start.1 = f.key
  · refine ⟨(h start hmem).1, Or.inr ⟨⟨a, now⟩, ?_, ha, (h start hmem).1⟩⟩
    rw [RuntimeState.markHandled_handled, hkey, Table.lookup_insert_self]
  · rw [RuntimeState.markHandled_handled, Table.lookup_insert_ne hkey]
    exact h start hmem

/-- A new start that is marked as handled is remembered. -/
theorem Remembered.snoc {now : Int} {starts : List (String × Int)} {s : RuntimeState}
    (h : Remembered now starts s) {key : String} {handled : HandledFailure}
    (hlookup : s.handled.lookup key = some handled) (haction : handled.action ≠ .skipped)
    (hat : handled.handledAt = now) : Remembered now (starts ++ [(key, now)]) s := by
  intro start hmem
  rcases List.mem_append.mp hmem with hmem | hmem
  · exact h start hmem
  · obtain rfl := List.mem_singleton.mp hmem
    exact ⟨le_rfl, Or.inr ⟨handled, hlookup, haction, hat.ge⟩⟩

/-- Settling a resume call keeps what is remembered. -/
theorem Remembered.settle {now : Int} {starts : List (String × Int)} {s : RuntimeState}
    (h : Remembered now starts s) (d : Due) (automatic : Bool)
    (answer : Except Error ResumeReceipt) :
    Remembered now starts (d.settle now automatic answer s) := by
  cases answer with
  | ok receipt =>
    have hbegun : Remembered now starts (s.beginRecovery d.failure receipt.turnId now automatic) :=
      h.mono le_rfl rfl
    exact hbegun.mark d.failure (by decide)
  | error e =>
    simp only [Due.settle]
    split
    · exact h.mark d.failure (by decide)
    · exact h

/-- A start is marked as handled when it is settled. -/
theorem lookup_settle (d : Due) (now : Int) (automatic : Bool)
    {answer : Except Error ResumeReceipt} (s : RuntimeState) (hstarted : mayHaveStarted answer) :
    ∃ handled, (d.settle now automatic answer s).handled.lookup d.failure.key = some handled ∧
      handled.action ≠ .skipped ∧ handled.handledAt = now := by
  cases answer with
  | ok receipt => exact ⟨⟨.resumed, now⟩, Table.lookup_insert_self _ _ _, by simp, rfl⟩
  | error e =>
    have hunknown : e.acknowledgementIsUnknown = true := hstarted
    simp only [Due.settle, hunknown, if_true]
    exact ⟨⟨.unconfirmed, now⟩, Table.lookup_insert_self _ _ _, by simp, rfl⟩

/-! ## Runs -/

/-- Read the starts of one call. -/
def noteStart (now : Int) (starts : List (String × Int)) (e : Prog.Event Reply) :
    List (String × Int) := starts ++ startedAt now [e]

theorem foldl_noteStart (now : Int) (starts : List (String × Int)) (tr : List (Prog.Event Reply)) :
    tr.foldl (noteStart now) starts = starts ++ startedAt now tr := by
  induction tr generalizing starts with
  | nil => simp [startedAt]
  | cons e tr ih =>
    rw [List.foldl_cons, ih, noteStart, List.append_assoc]
    simp only [startedAt, ← List.map_append, ← List.filterMap_append, List.singleton_append]

theorem startedAt_quiet (now : Int) {tr : List (Prog.Event Reply)} (htr : resumes tr = []) :
    startedAt now tr = [] := by
  rw [startedAt, filterMap_startedKey_quiet htr]
  rfl

/-- Every round of a pass keeps the starts remembered and spaced. -/
theorem remembered_rounds (now : Int) : KeptByRounds (noteStart now) now (fun _ => True)
    fun starts p => Remembered now starts p.state ∧ Spaced starts where
  quiet htr hi := by
    rwa [foldl_noteStart, startedAt_quiet now htr, List.append_nil]
  observed pending answer hi :=
    ⟨hi.1.mono le_rfl (Pass.observed_observes _ pending now answer).handled, hi.2⟩
  target {generation t starts p p' tr r} hr _ hi := by
    rw [foldl_noteStart]
    cases hr with
    | idle htr hstate _ =>
      rw [startedAt_quiet now htr, List.append_nil, hstate]
      exact hi
    | resolved =>
      rw [startedAt_quiet now (by rfl), List.append_nil]
      refine ⟨hi.1.mono le_rfl ?_, hi.2⟩
      show (if p.engine.state.hasPendingFor t then p.engine.state
        else p.engine.state.clearAttempts t).handled = _
      split <;> rfl
    | skipped hunhandled _ hstate _ =>
      rw [startedAt_quiet now (by rfl), List.append_nil, hstate]
      exact ⟨hi.1.markSkipped hunhandled, hi.2⟩
    | @retried f tr _ q _ hq hunhandled _ hround =>
      subst hq
      have hcut : startedAt now (⟨.permitAllows t generation, true⟩ ::
          ⟨.latestFailure t.provider t.sessionId, .ok (some f)⟩ :: tr) = startedAt now tr := rfl
      rw [hcut]
      cases hround with
      | undated _ hstate _ =>
        rw [startedAt_quiet now (by rfl), List.append_nil, hstate]
        exact ⟨hi.1.mono le_rfl (by simp), hi.2⟩
      | considered htr hstate _ =>
        rw [startedAt_quiet now htr, List.append_nil, hstate]
        exact ⟨hi.1.mono le_rfl (by simp), hi.2⟩
      | unsaved htr hstate _ =>
        rw [startedAt_quiet now htr, List.append_nil, hstate]
        exact ⟨hi.1.mono le_rfl (by simp), hi.2⟩
      | @sent d pre post answer _ _ _ hfailure hpre hpost hstate _ =>
        have hconsidered : Remembered now starts
            (((p.markUnresolved t).state.considered f t now
              (p.markUnresolved t).window).recordAttempt t now) := hi.1.mono le_rfl (by simp)
        have hsettled := hconsidered.settle d true answer
        rw [← hstate] at hsettled
        rw [startedAt, filterMap_startedKey_sent _ _ _ _ hpre hpost]
        by_cases hstarted : mayHaveStarted answer = true
        · rw [if_pos hstarted]
          obtain ⟨handled, hlookup, haction, hat⟩ := lookup_settle d now true _ hstarted
          rw [← hstate] at hlookup
          refine ⟨hsettled.snoc hlookup haction hat, ?_⟩
          refine List.pairwise_append.mpr ⟨hi.2, List.pairwise_singleton _ _, ?_⟩
          intro start hmem last hlast hkey
          obtain rfl := List.mem_singleton.mp hlast
          rw [hfailure] at hkey
          exact hi.1.old_of_unhandled hunhandled hmem hkey
        · rw [if_neg hstarted]
          simpa using And.intro hsettled hi.2

theorem ManualRound.remembered {now : Int} {automatic : Bool} {generation : Nat}
    {e e' : WatchEngine} {tr : List (Prog.Event Reply)} {r : Except Error ResumeReceipt}
    (hr : ManualRound now automatic generation e tr r e') {starts : List (String × Int)}
    (h : Remembered now starts e.state) : Remembered now starts e'.state := by
  cases hr with
  | refused _ hprepared => exact h.mono le_rfl hprepared.handled
  | @sent d _ _ _ _ s _ _ hprepared hstate =>
    rw [hstate]
    exact (h.mono le_rfl hprepared.handled).settle d automatic r

/-- At any time not before the run, every start is remembered or forgotten by age, and starts for
one failure are more than the retention apart. -/
theorem run_remembered {e₀ e : WatchEngine} {log : List OpRecord} (h : EngineRun e₀ log e)
    (hclock : ClockMonotone log) {now : Int} (hnow : ∀ t ∈ times log, t ≤ now) :
    Remembered now (automaticStarts log) e.state ∧ Spaced (automaticStarts log) := by
  induction h generalizing now with
  | nil => exact ⟨fun _ hmem => absurd hmem List.not_mem_nil, List.Pairwise.nil⟩
  | @snoc e' e'' log record hrun hb hx ih =>
    subst hb
    obtain ⟨hprior, hbefore⟩ := hclock.snoc
    rw [times_append] at hnow
    have hpast : ∀ t ∈ times log, t ≤ now := fun t ht =>
      hnow t (List.mem_append.mpr (Or.inl ht))
    have hlast : ∀ t, record.op.time = some t → t ≤ now := fun t ht =>
      hnow t (List.mem_append.mpr (Or.inr (by rw [ht]; exact List.mem_singleton.mpr rfl)))
    have hstarts : automaticStarts (log ++ [record]) = automaticStarts log ++
        automaticStarts [record] := List.flatMap_append
    rw [hstarts]
    cases hx with
    | @pass time _ _ _ _ _ p _ hrounds =>
      obtain ⟨hrem, hspaced⟩ := ih hprior (hbefore time rfl)
      have hend := (remembered_rounds time).passRun hrounds (fun _ _ => trivial)
        ⟨hrem.prune, hspaced⟩
      rw [foldl_noteStart] at hend
      simp only [automaticStarts, List.flatMap_cons, List.flatMap_nil, List.append_nil] at hend ⊢
      exact ⟨hend.1.mono (hlast time rfl) rfl, hend.2⟩
    | @observe time _ _ _ p hr =>
      obtain ⟨hrem, hspaced⟩ := ih hprior (hbefore time rfl)
      have hend := (remembered_rounds time).reconcilePendingOnly hr ⟨hrem.prune, hspaced⟩
      obtain ⟨seen, post, rfl, hpost, hseen⟩ := reconcilePendingOnly_run hr
      rw [foldl_noteStart, startedAt_quiet time (by rw [resumes_append, hseen.quiet, hpost]; rfl),
        List.append_nil] at hend
      rw [show automaticStarts [_] = [] from rfl, List.append_nil]
      exact ⟨hend.1.mono (hlast time rfl) rfl, hend.2⟩
    | @retryNow _ _ time _ _ _ _ _ _ hr =>
      obtain ⟨hrem, hspaced⟩ := ih hprior (hbefore time rfl)
      rw [show automaticStarts [_] = [] from rfl, List.append_nil]
      exact ⟨((retryNow_round hr).remembered hrem).mono (hlast time rfl) rfl, hspaced⟩
    | replaceSettings hr =>
      obtain ⟨hrem, hspaced⟩ := ih hprior hpast
      rw [show automaticStarts [_] = [] from rfl, List.append_nil]
      exact ⟨hrem.mono le_rfl (congrArg RuntimeState.handled
        ((replaceSettings_upkeep _ [] _).of_history hr).2), hspaced⟩
    | replaceTargets =>
      obtain ⟨hrem, hspaced⟩ := ih hprior hpast
      rw [show automaticStarts [_] = [] from rfl, List.append_nil]
      exact ⟨hrem.mono le_rfl rfl, hspaced⟩
    | ensureProvider hr =>
      obtain ⟨hrem, hspaced⟩ := ih hprior hpast
      rw [show automaticStarts [_] = [] from rfl, List.append_nil]
      exact ⟨hrem.mono le_rfl (congrArg RuntimeState.handled
        ((ensureProvider_upkeep _ [] _).of_history hr).2), hspaced⟩

/-- Two automatic resume calls for one failure that ended in a receipt or in an unknown
acknowledgement are more than the retention apart. -/
theorem automatic_starts_spaced {e₀ e : WatchEngine} {log : List OpRecord}
    (h : EngineRun e₀ log e) (hclock : ClockMonotone log) :
    (automaticStarts log).Pairwise fun a b => a.1 = b.1 → a.2 + days 30 < b.2 := by
  obtain ⟨now, hnow⟩ := exists_after log
  exact (run_remembered h hclock hnow).2

/-! ## A failure that outlives the retention -/

/-- The provider reports the same failed turn for good, acknowledges each recovery and says
that the recovery turn failed. -/
def stuckProvider : SampleProvider where
  latest := some (sampleFailure "t")
  outcome := .failed
  resumed := .ok (sampleReceipt "r")

/-- Two pairs of passes a month apart: each time the failure is seen first and sent later. -/
def stuckScript : List (Int × SampleProvider) :=
  [0, seconds 10, days 31, days 31 + seconds 10].map fun now => (now, stuckProvider)

/-- The failure of the month before is sent again, with a receipt each time. -/
theorem stuck_run : ∃ log, EngineRun (sampleEngine {}) log
      (SampleProvider.passes stuckScript (sampleEngine {})).2 ∧ ClockMonotone log ∧
    automaticStarts log = [("codex:s:t", seconds 10), ("codex:s:t", days 31 + seconds 10)] := by
  obtain ⟨log, hrun, hlog⟩ := SampleProvider.run_passes stuckScript (.nil (sampleEngine {}))
  have hstarts : automaticStarts log = (log.map OpRecord.sample).flatMap fun r =>
      match r.1 with
      | .pass now _ => startedAt now r.2.2
      | _ => [] := by
    rw [List.flatMap_map]
    rfl
  refine ⟨log, hrun, ?_, ?_⟩
  · rw [ClockMonotone, times_sample, hlog]
    decide
  · rw [hstarts, hlog]
    decide

/-- A failed turn can be recovered more than once. -/
theorem automatic_starts_repeat : ¬ ∀ (e₀ e : WatchEngine) (log : List OpRecord),
    EngineRun e₀ log e → ClockMonotone log → ((automaticStarts log).map Prod.fst).Nodup := by
  intro honce
  obtain ⟨log, hrun, hclock, hstarts⟩ := stuck_run
  have hnodup := honce _ _ log hrun hclock
  rw [hstarts] at hnodup
  exact absurd hnodup (by decide)

theorem automatic_starts_spaced_stuck : ∃ log, EngineRun (sampleEngine {}) log
      (SampleProvider.passes stuckScript (sampleEngine {})).2 ∧
    (automaticStarts log).length = 2 ∧
    (automaticStarts log).Pairwise fun a b => a.1 = b.1 → a.2 + days 30 < b.2 := by
  obtain ⟨log, hrun, hclock, hstarts⟩ := stuck_run
  exact ⟨log, hrun, by rw [hstarts]; rfl, automatic_starts_spaced hrun hclock⟩

end Watchcat
