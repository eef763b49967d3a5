import Watchcat.Engine.Observations

/-!
# Recoveries at the end of their time

An observation gives up a recovery that is seven days old, whatever it is told.
A recovery whose provider is not there is passed over before its age is looked
at, so nothing bounds how long it is pending.
-/

namespace Watchcat

open Watchcat.Core

/-! ## Keys -/

/-- Every pending recovery is stored under its failure key. -/
def RuntimeState.KeysMatch (s : RuntimeState) : Prop :=
  ∀ key x, s.recoveryAt key = some x → x.failureKey = key

theorem RuntimeState.recoveryAt_congr {s s' : RuntimeState}
    (h : s'.pendingRecoveries = s.pendingRecoveries) (key : String) :
    s'.recoveryAt key = s.recoveryAt key := by
  rw [recoveryAt, h, recoveryAt]

namespace RuntimeState.KeysMatch

theorem of_pending {s s' : RuntimeState} (h : s.KeysMatch)
    (hs : s'.pendingRecoveries = s.pendingRecoveries) : s'.KeysMatch :=
  fun key x hx => h key x (recoveryAt_congr hs key ▸ hx)

end RuntimeState.KeysMatch

/-! ## Receipts -/

/-- The call starts a recovery turn for the failure and is acknowledged. -/
def acknowledges (failureKey : String) : Prog.Event Reply → Bool
  | ⟨.resume _ _ _ key, .ok _⟩ => key == failureKey
  | _ => false

/-- Some call of the trace is acknowledged for the failure. -/
def acknowledged (failureKey : String) (tr : List (Prog.Event Reply)) : Bool :=
  tr.any (acknowledges failureKey)

theorem acknowledged_quiet (failureKey : String) {tr : List (Prog.Event Reply)}
    (htr : resumes tr = []) : acknowledged failureKey tr = false := by
  rw [acknowledged, List.any_eq_false]
  intro e he hack
  have hresume : e ∈ resumes tr := List.mem_filter.mpr ⟨he, by
    obtain ⟨op, r⟩ := e
    cases op <;> first | rfl | cases hack⟩
  rw [htr] at hresume
  cases hresume

theorem acknowledged_append (failureKey : String) (tr tr' : List (Prog.Event Reply)) :
    acknowledged failureKey (tr ++ tr') =
      (acknowledged failureKey tr || acknowledged failureKey tr') := List.any_append

/-- What happens to the recovery of a failure while calls are made: it is as before, or it was
started now. -/
def Restarted (now : Int) (key : String) (tr : List (Prog.Event Reply)) (s s' : RuntimeState) :
    Prop :=
  if acknowledged key tr then
    ∃ x, s'.recoveryAt key = some x ∧ x.startedAt = now ∧ x.failureKey = key
  else s'.recoveryAt key = s.recoveryAt key

namespace Restarted

variable {now : Int} {key : String} {tr tr' : List (Prog.Event Reply)} {s mid s' : RuntimeState}

theorem quiet (htr : resumes tr = []) (hs : s'.pendingRecoveries = s.pendingRecoveries) :
    Restarted now key tr s s' := by
  rw [Restarted, acknowledged_quiet key htr]
  exact RuntimeState.recoveryAt_congr hs key

theorem trans (h : Restarted now key tr s mid) (h' : Restarted now key tr' mid s') :
    Restarted now key (tr ++ tr') s s' := by
  unfold Restarted at h h' ⊢
  rw [acknowledged_append]
  by_cases hsecond : acknowledged key tr' = true
  · simpa [hsecond] using h'
  · rw [if_neg hsecond] at h'
    simpa [hsecond, h'] using h

/-- Without a receipt nothing is started. -/
theorem untouched (h : Restarted now key tr s s') (hnone : acknowledged key tr = false) :
    s'.recoveryAt key = s.recoveryAt key := by
  rwa [Restarted, hnone, if_neg Bool.false_ne_true] at h

/-- A receipt starts the recovery. -/
theorem started (h : Restarted now key tr s s') (hsome : acknowledged key tr = true) :
    ∃ x, s'.recoveryAt key = some x ∧ x.startedAt = now ∧ x.failureKey = key := by
  rwa [Restarted, if_pos hsome] at h

/-- What is gone was not started and was not there before. -/
theorem gone (h : Restarted now key tr s s') (hend : s'.recoveryAt key = none) :
    s.recoveryAt key = none := by
  cases hack : acknowledged key tr with
  | true =>
    obtain ⟨x, hx, _⟩ := h.started hack
    rw [hend] at hx
    cases hx
  | false => rw [← h.untouched hack, hend]

/-- The answer of a resume call. -/
theorem sent {generation : Nat} {d : Due} {automatic : Bool} {saved : RuntimeState}
    {answer : Except Error ResumeReceipt} {pre post : List (Prog.Event Reply)}
    (hpre : resumes pre = []) (hpost : resumes post = [])
    (hs : s.pendingRecoveries = mid.pendingRecoveries) :
    Restarted now key (pre ++ (sentCalls generation d saved answer ++ post)) mid
      (d.settle now automatic answer s) := by
  have hack : acknowledged key (pre ++ (sentCalls generation d saved answer ++ post)) =
      acknowledges key ⟨.resume d.target.provider d.target.sessionId d.prompt d.failure.key,
        answer⟩ := by
    rw [acknowledged_append, acknowledged_append, acknowledged_quiet key hpre,
      acknowledged_quiet key hpost, Bool.false_or, Bool.or_false]
    simp [acknowledged, sentCalls, acknowledges]
  rw [Restarted, hack]
  cases answer with
  | error e =>
    have hsame : (d.settle now automatic (.error e) s).pendingRecoveries =
        s.pendingRecoveries := by
      simp only [Due.settle]
      split <;> rfl
    exact RuntimeState.recoveryAt_congr (hsame.trans hs) key
  | ok receipt =>
    have hlookup : ∀ k, (d.settle now automatic (.ok receipt) s).pendingRecoveries.lookup k =
        if k = d.failure.key then some
          { failureKey := d.failure.key
            provider := d.failure.provider
            sessionId := d.failure.sessionId
            failedTurnId := d.failure.turnId
            recoveryTurnId := receipt.turnId
            startedAt := now
            automatic := automatic
            observationFailures := 0
            lastObservationAt := none }
        else s.pendingRecoveries.lookup k := fun k => Table.lookup_insert _ _ _ _
    by_cases hkey : d.failure.key = key
    · simp [acknowledges, hkey, RuntimeState.recoveryAt, hlookup, PendingRecovery.recovery]
    · have hne : key ≠ d.failure.key := fun h => hkey h.symm
      simp [acknowledges, hkey, hne, RuntimeState.recoveryAt, hlookup, hs]

end Restarted

/-- A round of a target. -/
theorem TargetRound.restarted {now : Int} {generation : Nat} {t : WatchTarget} {p p' : Pass}
    {tr : List (Prog.Event Reply)} {r : Except Error Unit}
    (h : TargetRound now generation t p tr r p') (key : String) :
    Restarted now key tr p.state p'.state := by
  cases h with
  | idle htr hstate _ => exact hstate ▸ .quiet htr rfl
  | resolved =>
    have hsame : (p.markResolved t).state.pendingRecoveries = p.state.pendingRecoveries := by
      simp only [Pass.markResolved, Pass.state]
      split <;> rfl
    exact .quiet rfl hsame
  | skipped _ _ hstate _ => exact hstate ▸ .quiet rfl rfl
  | @retried f tr _ _ _ hq _ _ hround =>
    subst hq
    -- the first two calls resume nothing
    have hasked : ∀ {s : RuntimeState}, Restarted now key tr p.state s →
        Restarted now key (⟨.permitAllows t generation, true⟩ ::
          ⟨.latestFailure t.provider t.sessionId, .ok (some f)⟩ :: tr) p.state s := fun h =>
      (show Restarted now key [⟨.permitAllows t generation, true⟩,
        ⟨.latestFailure t.provider t.sessionId, .ok (some f)⟩] p.state p.state from
          .quiet rfl rfl).trans h
    cases hround with
    | undated _ hstate _ =>
      rw [hstate]
      exact hasked (.quiet rfl (by simp))
    | considered htr hstate _ =>
      rw [hstate]
      exact hasked (.quiet htr (by simp))
    | unsaved htr hstate _ =>
      rw [hstate]
      exact hasked (.quiet htr (by simp))
    | sent _ _ _ hpre hpost hstate _ =>
      rw [hstate]
      exact hasked (.sent hpre hpost (by simp))

/-- The rounds of a pass. -/
theorem passRounds_restarted {now : Int} {generation : Nat} {ts : List WatchTarget}
    {p p' : Pass} {rounds : List TargetRecord} {r : Except Error Unit}
    (h : Act.Rounds (passTarget now generation) ts p rounds r p') (key : String) :
    Restarted now key (rounds.flatMap Act.Round.calls) p.state p'.state ∧
      p'.state.recoveryOutcomes = p.state.recoveryOutcomes := by
  induction h with
  | done => exact ⟨.quiet rfl rfl, rfl⟩
  | failed hb =>
    exact ⟨by simpa using (passTarget_round hb).restarted key,
      (passTarget_round hb).recoveryOutcomes⟩
  | next hb _ ih =>
    exact ⟨((passTarget_round hb).restarted key).trans ih.1,
      ih.2.trans (passTarget_round hb).recoveryOutcomes⟩

/-! ## Operations -/

/-- The time of an operation that observes the pending recoveries. -/
def EngineOp.observes : EngineOp → Option Int
  | .pass now _ => some now
  | .observe now => some now
  | _ => none

/-- An operation observes the pending recoveries of the pruned state, and what follows can only
start recoveries. -/
theorem OpRecord.Executes.observation {record : OpRecord} {e' : WatchEngine}
    (h : record.Executes e') {now : Int} (hop : record.op.observes = some now) :
    ∃ seen rest mid, ObservationRun now ⟨record.before.withState fun s => s.prune now, [], 0⟩
        seen mid ∧ record.calls = seen ++ rest ∧
      (∀ key, Restarted now key rest mid.state e'.state) ∧
      e'.state.recoveryOutcomes = mid.state.recoveryOutcomes := by
  cases h with
  | pass _ hrounds =>
    obtain rfl := Option.some.inj hop
    obtain ⟨hseen, hrounds, hpost⟩ := hrounds
    refine ⟨_, _, _, hseen, rfl, fun key => ?_, (passRounds_restarted hrounds "").2⟩
    exact (passRounds_restarted hrounds key).1.trans (.quiet hpost rfl)
  | observe hr =>
    obtain rfl := Option.some.inj hop
    obtain ⟨seen, post, rfl, hpost, hseen⟩ := reconcilePendingOnly_run hr
    exact ⟨_, _, _, hseen, rfl, fun key => .quiet hpost rfl, rfl⟩
  | _ => cases hop

/-- The observations of a pass and what they ended. -/
theorem ObservationRun.concludes {now : Int} {p p' : Pass} {tr : List (Prog.Event Reply)}
    (h : ObservationRun now p tr p') :
    ∃ ended, Concludes now p p' ended ∧
      (∀ x ∈ ended, ∃ key, p.state.pendingRecoveries.lookup key = some x.asked ∧
        x.asked.provider ∈ p.engine.providers) ∧
      (ended.map EndedRecovery.call).Sublist tr ∧
      ∀ key pending, p.state.pendingRecoveries.lookup key = some pending →
        pending.provider ∈ p.engine.providers →
          pendingRecoveryMaxAge ≤ now - pending.startedAt →
            p'.state.recoveryAt pending.failureKey = none := by
  cases h with
  | @intro order _ _ hrounds =>
    obtain ⟨ended, hconcludes, hasked, hcalls, hgone⟩ := observations_end hrounds
    refine ⟨ended, hconcludes, fun x hx => ?_, hcalls.cons _, fun key pending hlookup => ?_⟩
    · obtain ⟨key, hlookup⟩ := Table.mem_values.mp (order.2.mem_iff.mp (hasked x hx).1)
      exact ⟨key, hlookup, (hasked x hx).2⟩
    · exact hgone pending (order.2.mem_iff.mpr (Table.mem_values.mpr ⟨key, hlookup⟩))

namespace RuntimeState.KeysMatch

theorem restarted {now : Int} {tr : List (Prog.Event Reply)} {s s' : RuntimeState}
    (h : s.KeysMatch) (hs : ∀ key, Restarted now key tr s s') : s'.KeysMatch := by
  intro key x hx
  cases hack : acknowledged key tr with
  | true =>
    obtain ⟨y, hy, _, hmatch⟩ := (hs key).started hack
    rw [hx] at hy
    exact Option.some.inj hy ▸ hmatch
  | false => exact h key x ((hs key).untouched hack ▸ hx)

theorem concludes {now : Int} {p p' : Pass} {ended : List EndedRecovery}
    (h : p.state.KeysMatch) (hs : Concludes now p p' ended) : p'.state.KeysMatch := by
  intro key x hx
  rw [hs.recoveries] at hx
  split at hx
  · cases hx
  · exact h key x hx

end RuntimeState.KeysMatch

/-- An operation stores recoveries under their keys only. -/
theorem OpRecord.Executes.keysMatch {record : OpRecord} {e' : WatchEngine}
    (h : record.Executes e') (hk : record.before.state.KeysMatch) : e'.state.KeysMatch := by
  have hobserves : ∀ now, record.op.observes = some now → e'.state.KeysMatch := fun now hop => by
    obtain ⟨seen, rest, mid, hseen, _, hrest, _⟩ := h.observation hop
    obtain ⟨ended, hconcludes, _⟩ := hseen.concludes
    have hpruned : Pass.state ⟨record.before.withState fun s => s.prune now, [], 0⟩ |>.KeysMatch :=
      hk.of_pending rfl
    exact (hpruned.concludes hconcludes).restarted hrest
  cases h with
  | pass _ _ => exact hobserves _ rfl
  | observe _ => exact hobserves _ rfl
  | @retryNow _ _ now automatic generation e _ _ answer hr =>
    cases retryNow_round hr with
    | refused _ hprepared => exact hk.of_pending hprepared.pending
    | @sent d pre post _ _ s hpre hpost hprepared hstate =>
      have hsent : ∀ key, Restarted now key (pre ++ (sentCalls generation d s answer ++ post))
          e.state (d.settle now automatic answer s) :=
        fun key => .sent hpre hpost hprepared.pending
      exact hstate ▸ hk.restarted hsent
  | replaceSettings hr => exact ((replaceSettings_upkeep _ [] _).of_history hr).2.symm ▸ hk
  | replaceTargets => exact hk
  | ensureProvider hr => exact ((ensureProvider_upkeep _ [] _).of_history hr).2.symm ▸ hk

/-- Every run stores recoveries under their keys only. -/
theorem EngineRun.keysMatch {e₀ e : WatchEngine} {log : List OpRecord} (h : EngineRun e₀ log e)
    (h₀ : e₀.state.KeysMatch) : e.state.KeysMatch := by
  induction h with
  | nil => exact h₀
  | snoc _ hb hx ih =>
    subst hb
    exact hx.keysMatch ih

/-! ## The bound on observation -/

/-- Each pending recovery that is gone was ended by an answer about its own turn, in a call of
its own, and the outcomes have each once as the answer says: a completed turn as a success, a
failed one as a failure, and with any other answer it was given up without an outcome. -/
def EachCounted (now : Int) (tr : List (Prog.Event Reply)) (s s' : RuntimeState) : Prop :=
  ∃ ended : List EndedRecovery, (ended.map EndedRecovery.key).Nodup ∧
    (∀ x ∈ ended, s.recoveryAt x.key = some x.removed.recovery ∧
      x.asked.recovery = x.removed.recovery) ∧
    (∀ key, s.recoveryAt key ≠ none → s'.recoveryAt key = none →
      key ∈ ended.map EndedRecovery.key) ∧
    (ended.map EndedRecovery.call).Sublist tr ∧
    s'.recoveryOutcomes = (s.prune now).recoveryOutcomes ++
      ended.flatMap fun x => x.ending.outcomes now x.removed

/-- No pending recovery is seven days old. -/
def NoneOld (now : Int) (s : RuntimeState) : Prop :=
  ∀ key x, s.recoveryAt key = some x → now - pendingRecoveryMaxAge < x.startedAt

/-- The provider of every pending recovery that is seven days old is there, or the operation starts
a recovery for the same failure anew. -/
def OldObserved (now : Int) (e : WatchEngine) (tr : List (Prog.Event Reply)) : Prop :=
  ∀ key x, e.state.recoveryAt key = some x → x.startedAt ≤ now - pendingRecoveryMaxAge →
    x.provider ∈ e.providers ∨ acknowledged key tr = true

/-- What an operation at the time does to the recoveries, which are pending under their keys: it
ends some whose providers are there, among them all old ones, and may start others anew. -/
structure OpRecord.Settles (now : Int) (record : OpRecord) (e' : WatchEngine)
    (ended : List EndedRecovery) : Prop where
  distinct : (ended.map EndedRecovery.key).Nodup
  asked : ∀ x ∈ ended, record.before.state.recoveryAt x.key = some x.asked.recovery ∧
    x.asked.provider ∈ record.before.providers
  removed : ∀ x ∈ ended, record.before.state.recoveryAt x.key = some x.removed.recovery
  calls : (ended.map EndedRecovery.call).Sublist record.calls
  recoveries : ∃ mid : RuntimeState, (∀ key, mid.recoveryAt key =
      if key ∈ ended.map EndedRecovery.key then none else record.before.state.recoveryAt key) ∧
    ∀ key, Restarted now key record.calls mid e'.state
  old : ∀ key x, record.before.state.recoveryAt key = some x →
    x.provider ∈ record.before.providers → x.startedAt ≤ now - pendingRecoveryMaxAge →
      key ∈ ended.map EndedRecovery.key
  outcomes : e'.state.recoveryOutcomes = (record.before.state.prune now).recoveryOutcomes ++
    ended.flatMap fun x => x.ending.outcomes now x.removed

theorem OpRecord.Executes.settles {record : OpRecord} {e' : WatchEngine}
    (h : record.Executes e') {now : Int} (hop : record.op.observes = some now)
    (hkeys : record.before.state.KeysMatch) : ∃ ended, record.Settles now e' ended := by
  obtain ⟨seen, rest, mid, hseen, hcalls, hrest, houtcomes⟩ := h.observation hop
  obtain ⟨ended, hconcludes, hasked, hended, hgone⟩ := hseen.concludes
  -- what was asked about is what is stored under its key
  have hstored : ∀ {key : String} {pending : PendingRecovery},
      record.before.state.pendingRecoveries.lookup key = some pending →
        record.before.state.recoveryAt pending.failureKey = some pending.recovery ∧
          pending.failureKey = key := fun {key pending} hlookup => by
    have hat : record.before.state.recoveryAt key = some pending.recovery :=
      congrArg (Option.map PendingRecovery.recovery) hlookup
    have hkey : pending.failureKey = key := hkeys key pending.recovery hat
    exact ⟨hkey ▸ hat, hkey⟩
  refine ⟨ended, hconcludes.distinct, fun x hx => ?_, hconcludes.removed, ?_,
    ⟨mid.state, hconcludes.recoveries, fun key => ?_⟩, fun key x hx hprovider hold => ?_,
    houtcomes.trans hconcludes.outcomes⟩
  · obtain ⟨_, hlookup, hbuilt⟩ := hasked x hx
    exact ⟨(hstored hlookup).1, hbuilt⟩
  · rw [hcalls]
    exact hended.trans (List.sublist_append_left seen rest)
  · rw [hcalls]
    exact (Restarted.quiet hseen.quiet rfl).trans (hrest key)
  · obtain ⟨pending, hlookup, rfl⟩ := Option.map_eq_some_iff.mp hx
    have hend := hgone key pending hlookup hprovider (le_sub_comm.mp hold)
    rw [hconcludes.recoveries, (hstored hlookup).2] at hend
    by_contra hkept
    rw [if_neg hkept] at hend
    rw [show record.before.state.recoveryAt key = none from hend] at hx
    cases hx

/-- Every recovery that is gone after an operation was counted once. -/
theorem OpRecord.Settles.eachCounted {now : Int} {record : OpRecord} {e' : WatchEngine}
    {ended : List EndedRecovery} (h : record.Settles now e' ended) :
    EachCounted now record.calls record.before.state e'.state := by
  obtain ⟨mid, hmid, hstarted⟩ := h.recoveries
  refine ⟨ended, h.distinct, fun x hx => ⟨h.removed x hx, ?_⟩, fun key hsome hend => ?_, h.calls,
    h.outcomes⟩
  · exact Option.some.inj ((h.asked x hx).1.symm.trans (h.removed x hx))
  · by_contra hkept
    have hnone := (hstarted key).gone hend
    rw [hmid key, if_neg hkept] at hnone
    exact hsome hnone

/-- No recovery is old after an operation if and only if the old ones were observed. -/
theorem OpRecord.Settles.noneOld_iff {now : Int} {record : OpRecord} {e' : WatchEngine}
    {ended : List EndedRecovery} (h : record.Settles now e' ended) :
    NoneOld now e'.state ↔ OldObserved now record.before record.calls := by
  obtain ⟨mid, hmid, hstarted⟩ := h.recoveries
  constructor
  · intro hnone key x hx hold
    by_contra hmissed
    obtain ⟨hprovider, hack⟩ := not_or.mp hmissed
    -- a recovery that was ended had its provider asked
    have hkept : key ∉ ended.map EndedRecovery.key := fun hmem => by
      obtain ⟨z, hz, rfl⟩ := List.mem_map.mp hmem
      obtain ⟨hat, hbuilt⟩ := h.asked z hz
      rw [hat] at hx
      exact hprovider (Option.some.inj hx ▸ hbuilt)
    have hsame := (hstarted key).untouched (Bool.eq_false_iff.mpr hack)
    have hyoung := hnone key x (by rw [hsame, hmid key, if_neg hkept, hx])
    omega
  · intro hobserved key x hx
    cases hack : acknowledged key record.calls with
    | true =>
      obtain ⟨y, hy, hstart, _⟩ := (hstarted key).started hack
      rw [hx] at hy
      obtain rfl := Option.some.inj hy
      rw [hstart]
      exact sub_lt_self now (by decide)
    | false =>
      by_contra hold
      rw [(hstarted key).untouched hack, hmid key] at hx
      split at hx
      · cases hx
      · rename_i hkept
        refine hkept (h.old key x hx ?_ (not_lt.mp hold))
        refine (hobserved key x hx (not_lt.mp hold)).resolve_right fun hsome => ?_
        rw [hack] at hsome
        cases hsome

/-- After a pass no pending recovery is seven days old and each one that is gone was counted once,
if and only if the providers of the old ones were there to be asked. -/
theorem old_recoveries_gone_iff {e₀ e e' : WatchEngine} {log : List OpRecord} {record : OpRecord}
    (h : EngineRun e₀ log e) (h₀ : e₀.state.KeysMatch) (hb : record.before = e)
    (hx : record.Executes e') {now : Int} (hop : record.op.observes = some now) :
    NoneOld now e'.state ∧ EachCounted now record.calls e.state e'.state ↔
      OldObserved now e record.calls := by
  subst hb
  obtain ⟨ended, hsettles⟩ := hx.settles hop (h.keysMatch h₀)
  rw [and_iff_left hsettles.eachCounted]
  exact hsettles.noneOld_iff

/-- A state with one recovery, started at the beginning. -/
def recoveringState : RuntimeState :=
  RuntimeState.initial.beginRecovery (sampleFailure "t") "r" 0 true

theorem recoveringState_only {key : String} {x : PendingRecovery}
    (hx : recoveringState.recoveryAt key = some x) : x.failureKey = key ∧ x.provider = "codex" := by
  obtain ⟨y, hy, rfl⟩ := Option.map_eq_some_iff.mp hx
  have hlookup : recoveringState.pendingRecoveries.lookup key =
      if key = (sampleFailure "t").key then _ else none := Table.lookup_insert _ _ _ _
  rw [hlookup] at hy
  split at hy
  · rename_i hkey
    obtain rfl := Option.some.inj hy
    exact ⟨hkey.symm, rfl⟩
  · cases hy

theorem recoveringState_keysMatch : recoveringState.KeysMatch :=
  fun _ _ hx => (recoveringState_only hx).1

/-- The engine of a process that was started with the provider disabled. -/
def strandedEngine : WatchEngine := .new {} ∅ [] recoveringState 10000 false

/-- A pass a week later leaves the recovery pending. -/
theorem old_recovery_remains : EngineRun strandedEngine [] strandedEngine ∧
    strandedEngine.state.KeysMatch ∧
    (SampleProvider.passRecord {} (days 7) strandedEngine).Executes
      (SampleProvider.pass {} (days 7) strandedEngine).2.2.engine ∧
    ∃ x, (SampleProvider.pass {} (days 7) strandedEngine).2.2.engine.state.recoveryAt "codex:s:t" =
      some x ∧ x.startedAt = 0 :=
  ⟨.nil _, recoveringState_keysMatch, SampleProvider.pass_executes {} _ _, _, rfl, rfl⟩

/-- The engine of a process that can ask the provider. -/
def observingEngine : WatchEngine := .new {} {"codex"} [] recoveringState 10000 false

/-- A pass a week later gives the recovery up although its turn is still in progress. -/
theorem old_recoveries_gone_observed :
    NoneOld (days 7) (SampleProvider.pass {} (days 7) observingEngine).2.2.engine.state ∧
      EachCounted (days 7) (SampleProvider.pass {} (days 7) observingEngine).1
        observingEngine.state
        (SampleProvider.pass {} (days 7) observingEngine).2.2.engine.state := by
  refine (old_recoveries_gone_iff (.nil observingEngine) recoveringState_keysMatch rfl
    (SampleProvider.pass_executes {} (days 7) observingEngine) rfl).mpr ?_
  intro key x hx _
  rw [show observingEngine.state = recoveringState from rfl] at hx
  rw [(recoveringState_only hx).2]
  exact .inl (by decide)

end Watchcat
