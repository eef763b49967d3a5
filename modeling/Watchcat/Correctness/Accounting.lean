import Watchcat.Engine.Observations

/-!
# Accounting of sent recoveries

A ledger read off the calls counts the receipts, and among them those whose
failure already had a pending entry in the state saved just before the call. In
every run the receipts are pending, ended or overwritten, each once, and a
recovery that ended with an outcome has one in the state.
-/

namespace Watchcat

open Watchcat.Core

/-- What the calls of a run tell about receipts. -/
structure Ledger where
  saved : Option RuntimeState := none
  receipts : Nat := 0
  overwritten : Nat := 0

namespace Ledger

/-- The failure has a pending entry in the state saved last. -/
def isPending (l : Ledger) (failureKey : String) : Bool :=
  l.saved.any fun s => (s.pendingRecoveries.lookup failureKey).isSome

/-- A receipt for a failure, over the entry that is pending for it if there is one. -/
def receipt (l : Ledger) (failureKey : String) : Ledger :=
  { l with
    receipts := l.receipts + 1
    overwritten := l.overwritten + if l.isPending failureKey then 1 else 0 }

/-- Read one call. -/
def note (l : Ledger) : Prog.Event Reply → Ledger
  | ⟨.writeState s, _⟩ => { l with saved := some s }
  | ⟨.resume _ _ _ failureKey, answer⟩ =>
    match answer with
    | .ok _ => l.receipt failureKey
    | .error _ => l
  | _ => l

/-- The ledger of the calls of a run. -/
def ofRun (log : List OpRecord) : Ledger := (log.flatMap OpRecord.calls).foldl note {}

/-- A call that resumes nothing leaves the counts. -/
theorem note_quiet (l : Ledger) {e : Prog.Event Reply} (he : e.1.isResume = false) :
    (l.note e).receipts = l.receipts ∧ (l.note e).overwritten = l.overwritten := by
  obtain ⟨op, r⟩ := e
  cases op <;> first
    | exact ⟨rfl, rfl⟩
    | cases he

theorem foldl_quiet (l : Ledger) {tr : List (Prog.Event Reply)} (htr : resumes tr = []) :
    (tr.foldl note l).receipts = l.receipts ∧ (tr.foldl note l).overwritten = l.overwritten := by
  induction tr generalizing l with
  | nil => exact ⟨rfl, rfl⟩
  | cons e tr ih =>
    rw [resumes_cons] at htr
    split at htr
    · cases htr
    · rename_i he
      obtain ⟨h₁, h₂⟩ := ih (l.note e) htr
      obtain ⟨h₃, h₄⟩ := l.note_quiet (Bool.eq_false_iff.mpr he)
      exact ⟨h₁.trans h₃, h₂.trans h₄⟩

/-- The calls of a sent recovery: the state is saved right before the resume call. -/
theorem foldl_sentCalls (l : Ledger) (generation : Nat) (d : Due) (s : RuntimeState)
    (answer : Except Error ResumeReceipt) :
    (sentCalls generation d s answer).foldl note l =
      match answer with
      | .ok _ => { l with saved := some s }.receipt d.failure.key
      | .error _ => { l with saved := some s } := by
  cases answer <;> rfl

end Ledger

/-- How many events tell what became of a pending recovery. -/
def recoveryEvents (events : List EngineEvent) : Nat := events.countP EngineEvent.isRecovery

/-- The runtime state an operation works on: observing begins with pruning it. -/
def OpRecord.start (record : OpRecord) : RuntimeState :=
  match record.op with
  | .pass now _ => record.before.state.prune now
  | .observe now => record.before.state.prune now
  | _ => record.before.state

/-- The outcomes that an operation has added to those it began with. -/
def OpRecord.outcomes (record : OpRecord) (after : WatchEngine) : List RecoveryOutcome :=
  after.state.recoveryOutcomes.drop record.start.recoveryOutcomes.length

/-- The outcomes recorded in a run that leaves the engine. -/
def finishedRecoveries : List OpRecord → WatchEngine → List RecoveryOutcome
  | [], _ => []
  | record :: later, e =>
    record.outcomes (later.head?.elim e OpRecord.before) ++ finishedRecoveries later e

theorem finishedRecoveries_snoc (log : List OpRecord) (record : OpRecord) (e : WatchEngine) :
    finishedRecoveries (log ++ [record]) e =
      finishedRecoveries log record.before ++ record.outcomes e := by
  induction log with
  | nil => exact List.append_nil _
  | cons first later ih =>
    rw [List.cons_append, finishedRecoveries, ih, finishedRecoveries, List.append_assoc]
    cases later <;> rfl

/-- The outcome that an event tells of. -/
def EngineEvent.succeeded (e : EngineEvent) : Option Bool :=
  if e.kind = "recovery.completed" then some true
  else if e.kind = "recovery.failed" then some false else none

/-- The recoveries a run has given up observing. -/
def abandonedRecoveries (log : List OpRecord) : Nat :=
  (log.flatMap OpRecord.events).countP fun e => e.kind == "recovery.unconfirmed"

/-- The events of outcomes and of given up recoveries are all the recovery events. -/
theorem succeeded_add_abandoned (log : List OpRecord) :
    ((log.flatMap OpRecord.events).filterMap EngineEvent.succeeded).length +
      abandonedRecoveries log = recoveryEvents (log.flatMap OpRecord.events) := by
  unfold abandonedRecoveries recoveryEvents
  induction log.flatMap OpRecord.events with
  | nil => rfl
  | cons e es ih =>
    simp only [List.countP_cons, List.filterMap_cons, EngineEvent.isRecovery,
      EngineEvent.succeeded]
    by_cases hcompleted : e.kind = "recovery.completed"
    · simp [hcompleted]
      omega
    · by_cases hfailed : e.kind = "recovery.failed"
      · simp [hfailed]
        omega
      · simp [hcompleted, hfailed]
        omega

/-- The receipts, with those pending at the start, are pending, ended or overwritten. -/
def Balanced (start ended : Nat) (l : Ledger) (p : Pass) : Prop :=
  start + l.receipts = p.state.pendingRecoveries.size + (ended + recoveryEvents p.events) +
    l.overwritten

theorem recoveryEvents_extends {p p' : Pass} (h : p.Extends p') :
    recoveryEvents p'.events = recoveryEvents p.events := by
  obtain ⟨new, hnew, hrec⟩ := h.events
  have hzero : new.countP EngineEvent.isRecovery = 0 :=
    List.countP_eq_zero.mpr fun e he => by simp [hrec e he]
  rw [hnew, recoveryEvents, List.countP_append, hzero]
  rfl

/-- A receipt adds a pending entry unless it overwrites one. -/
theorem settle_balanced (l : Ledger) (generation : Nat) (d : Due) (now : Int) (automatic : Bool)
    (answer : Except Error ResumeReceipt) (s : RuntimeState) {pre post : List (Prog.Event Reply)}
    (hpre : resumes pre = []) (hpost : resumes post = []) {l' : Ledger}
    (hl : l' = (pre ++ (sentCalls generation d s answer ++ post)).foldl Ledger.note l) :
    l'.receipts + s.pendingRecoveries.size + l.overwritten =
      l.receipts + (d.settle now automatic answer s).pendingRecoveries.size + l'.overwritten := by
  rw [List.foldl_append, List.foldl_append] at hl
  obtain ⟨hr₁, ho₁⟩ := l.foldl_quiet hpre
  obtain ⟨hr₂, ho₂⟩ :=
    ((sentCalls generation d s answer).foldl Ledger.note
      (pre.foldl Ledger.note l)).foldl_quiet hpost
  rw [← hl, Ledger.foldl_sentCalls] at hr₂ ho₂
  cases answer with
  | error e =>
    have hsize : (d.settle now automatic (.error e) s).pendingRecoveries = s.pendingRecoveries := by
      simp only [Due.settle]
      split <;> rfl
    rw [hsize]
    simp only at hr₂ ho₂
    omega
  | ok receipt =>
    have hsize : (d.settle now automatic (.ok receipt) s).pendingRecoveries.size =
        if (s.pendingRecoveries.lookup d.failure.key).isSome then s.pendingRecoveries.size
        else s.pendingRecoveries.size + 1 := Table.size_insert _ _ _
    simp only [Ledger.receipt, Ledger.isPending, Option.any_some] at hr₂ ho₂
    rw [hsize]
    by_cases hp : (s.pendingRecoveries.lookup d.failure.key).isSome = true
    · simp only [hp, if_true] at ho₂ ⊢
      omega
    · simp only [hp] at ho₂ ⊢
      simp only [Bool.false_eq_true, if_false] at ho₂ ⊢
      omega

/-- The recoveries that are pending, and those told by the events. -/
def Pass.recoveryCount (p : Pass) : Nat :=
  p.state.pendingRecoveries.size + recoveryEvents p.events

theorem abandonPending_recoveryCount (p : Pass) (pending : PendingRecovery) (now : Int) :
    (p.abandonPending pending now).recoveryCount = p.recoveryCount := by
  unfold Pass.recoveryCount Pass.abandonPending RuntimeState.abandonRecovery
  cases h : p.state.pendingRecoveries.lookup pending.failureKey with
  | none => rfl
  | some entry =>
    have hpos := Table.size_pos_of_lookup h
    simp [Table.size_erase, h, recoveryEvents, pendingEvent, EngineEvent.isRecovery]
    omega

theorem finishPending_recoveryCount (p : Pass) (pending : PendingRecovery) (success : Bool)
    (now : Int) : (p.finishPending pending success now).recoveryCount = p.recoveryCount := by
  unfold Pass.recoveryCount Pass.finishPending RuntimeState.finishRecovery
  cases h : p.state.pendingRecoveries.lookup pending.failureKey with
  | none => rfl
  | some entry =>
    have hpos := Table.size_pos_of_lookup h
    cases success
    · simp [Table.size_erase, h, recoveryEvents, pendingEvent, EngineEvent.isRecovery]
      omega
    · simp [Table.size_erase, h, recoveryEvents, pendingEvent, EngineEvent.isRecovery]
      omega

theorem missedObservation_recoveryCount (p : Pass) (pending : PendingRecovery) (now : Int) :
    (p.missedObservation pending now).recoveryCount = p.recoveryCount := by
  have hrecord : (p.state.recordRecoveryObservationFailure pending.failureKey
      now).2.pendingRecoveries.size = p.state.pendingRecoveries.size := by
    unfold RuntimeState.recordRecoveryObservationFailure
    cases h : p.state.pendingRecoveries.lookup pending.failureKey with
    | none => rfl
    | some entry => simp [Table.size_insert, h]
  unfold Pass.missedObservation
  dsimp only
  split
  · rw [abandonPending_recoveryCount]
    simpa [Pass.recoveryCount] using hrecord
  · simpa [Pass.recoveryCount] using hrecord

/-- A finished or abandoned recovery leaves the pending entries and enters the events. -/
theorem observed_recoveryCount (p : Pass) (pending : PendingRecovery) (now : Int)
    (answer : Except Error TurnOutcome) :
    (p.observed pending now answer).recoveryCount = p.recoveryCount := by
  rcases answer with e | outcome
  · exact missedObservation_recoveryCount p pending now
  · cases outcome with
    | completed => exact finishPending_recoveryCount p pending true now
    | failed => exact finishPending_recoveryCount p pending false now
    | unknown => exact missedObservation_recoveryCount p pending now
    | inProgress =>
      simp only [Pass.observed]
      split
      · exact abandonPending_recoveryCount p pending now
      · rfl

/-- Calls that resume nothing and a state with the same pending recoveries keep the balance. -/
theorem Balanced.quiet {start ended : Nat} {l : Ledger} {p p' : Pass}
    (h : Balanced start ended l p) {tr : List (Prog.Event Reply)} (htr : resumes tr = [])
    (hstate : p'.state.pendingRecoveries = p.state.pendingRecoveries)
    (hevents : recoveryEvents p'.events = recoveryEvents p.events) :
    Balanced start ended (tr.foldl Ledger.note l) p' := by
  obtain ⟨hr, ho⟩ := l.foldl_quiet htr
  unfold Balanced at h ⊢
  rw [hr, ho, hstate, hevents]
  exact h

/-- A sent recovery keeps the balance. -/
theorem Balanced.sent {start ended : Nat} {l : Ledger} {p p' : Pass}
    (h : Balanced start ended l p) {generation : Nat} {d : Due} {now : Int} {automatic : Bool}
    {answer : Except Error ResumeReceipt} {s : RuntimeState} {pre post : List (Prog.Event Reply)}
    (hpre : resumes pre = []) (hpost : resumes post = [])
    (hs : s.pendingRecoveries = p.state.pendingRecoveries)
    (hstate : p'.state = d.settle now automatic answer s)
    (hevents : recoveryEvents p'.events = recoveryEvents p.events) :
    Balanced start ended
      ((pre ++ (sentCalls generation d s answer ++ post)).foldl Ledger.note l) p' := by
  have hsettle := settle_balanced l generation d now automatic answer s hpre hpost rfl
  unfold Balanced at h ⊢
  rw [hstate, hevents]
  rw [hs] at hsettle
  omega

/-- Every round of a pass keeps the balance. -/
theorem balanced_rounds (start ended : Nat) (now : Int) :
    KeptByRounds Ledger.note now (fun _ => True) (Balanced start ended) where
  quiet htr hi := hi.quiet htr rfl rfl
  observed {l p} pending answer hi := by
    have hcount := observed_recoveryCount p pending now answer
    unfold Pass.recoveryCount at hcount
    unfold Balanced at hi ⊢
    omega
  target {generation t l p p' tr r} hr _ hi := by
    cases hr with
    | idle htr hstate hkept => exact hi.quiet htr (by rw [hstate]) (recoveryEvents_extends hkept)
    | resolved =>
      refine hi.quiet rfl ?_ (recoveryEvents_extends (.markResolved p t))
      show (if p.engine.state.hasPendingFor t then p.engine.state
        else p.engine.state.clearAttempts t).pendingRecoveries = _
      split <;> rfl
    | skipped _ _ hstate hkept =>
      exact hi.quiet rfl (by rw [hstate]; rfl) (recoveryEvents_extends hkept)
    | @retried f tr _ q _ hq _ _ hround =>
      subst hq
      rw [List.foldl_cons, List.foldl_cons]
      have hasked : resumes [⟨.permitAllows t generation, true⟩,
          ⟨.latestFailure t.provider t.sessionId, .ok (some f)⟩] = [] := rfl
      have hi : Balanced start ended _ (p.markUnresolved t) := hi.quiet hasked rfl rfl
      cases hround with
      | undated _ hstate hkept =>
        exact hi.quiet rfl (by rw [hstate]; simp) (recoveryEvents_extends hkept)
      | considered htr hstate hkept =>
        exact hi.quiet htr (by rw [hstate]; simp) (recoveryEvents_extends hkept)
      | unsaved htr hstate hkept =>
        exact hi.quiet htr (by rw [hstate]; simp) (recoveryEvents_extends hkept)
      | sent _ _ _ hpre hpost hstate hkept =>
        exact hi.sent hpre hpost (by simp) hstate (recoveryEvents_extends hkept)

/-- The balance of a whole run. -/
theorem run_balanced {e₀ e : WatchEngine} {log : List OpRecord} (h : EngineRun e₀ log e) :
    Balanced e₀.state.pendingRecoveries.size (recoveryEvents (log.flatMap OpRecord.events))
      (Ledger.ofRun log) ⟨e, [], 0⟩ := by
  induction h with
  | nil => simp [Balanced, Ledger.ofRun, recoveryEvents, Pass.state]
  | @snoc e e' log record _ hb hx ih =>
    subst hb
    have hevents : recoveryEvents ((log ++ [record]).flatMap OpRecord.events) =
        recoveryEvents (log.flatMap OpRecord.events) + recoveryEvents record.events := by
      simp [recoveryEvents, List.flatMap_append, List.countP_append]
    have hledger : Ledger.ofRun (log ++ [record]) =
        record.calls.foldl Ledger.note (Ledger.ofRun log) := by
      simp [Ledger.ofRun, List.flatMap_append, List.foldl_append]
    rw [hevents, hledger]
    cases hx with
    | pass _ hrounds =>
      have hend := (balanced_rounds _ _ _).passRun hrounds (fun _ _ => trivial) ih
      unfold Balanced at hend ⊢
      simpa [recoveryEvents, Pass.state, Nat.add_assoc] using hend
    | observe hr =>
      have hend := (balanced_rounds _ _ _).reconcilePendingOnly hr ih
      unfold Balanced at hend ⊢
      simpa [recoveryEvents, Pass.state, Nat.add_assoc] using hend
    | retryNow hr =>
      cases retryNow_round hr with
      | refused htr hprepared => exact ih.quiet htr hprepared.pending rfl
      | sent hpre hpost hprepared hstate =>
        exact ih.sent hpre hpost hprepared.pending hstate rfl
    | replaceSettings hr =>
      obtain ⟨htr, hstate⟩ := (replaceSettings_upkeep _ [] _).of_history hr
      exact ih.quiet htr (congrArg RuntimeState.pendingRecoveries hstate) rfl
    | replaceTargets => exact ih.quiet rfl rfl rfl
    | ensureProvider hr =>
      obtain ⟨htr, hstate⟩ := (ensureProvider_upkeep _ [] _).of_history hr
      exact ih.quiet htr (congrArg RuntimeState.pendingRecoveries hstate) rfl

/-! ## Outcomes -/

/-- The outcomes since a state are those that the events tell of, in their order. -/
def OutcomesTold (start : RuntimeState) (p : Pass) : Prop :=
  ∃ added, p.state.recoveryOutcomes = start.recoveryOutcomes ++ added ∧
    added.map RecoveryOutcome.success = p.events.filterMap EngineEvent.succeeded

theorem OutcomesTold.extends {start : RuntimeState} {p p' : Pass} (h : OutcomesTold start p)
    (hstate : p'.state.recoveryOutcomes = p.state.recoveryOutcomes) (hkept : p.Extends p') :
    OutcomesTold start p' := by
  obtain ⟨added, houtcomes, hadded⟩ := h
  obtain ⟨new, hnew, hrecovery⟩ := hkept.events
  have hnone : new.filterMap EngineEvent.succeeded = [] := by
    refine List.filterMap_eq_nil_iff.mpr fun e he => ?_
    have hother := hrecovery e he
    simp only [EngineEvent.isRecovery, Bool.or_eq_false_iff, beq_eq_false_iff_ne] at hother
    rw [EngineEvent.succeeded, if_neg hother.1.1, if_neg hother.1.2]
  refine ⟨added, hstate.trans houtcomes, ?_⟩
  rw [hnew, List.filterMap_append, hnone, List.append_nil, hadded]

/-- An ending has the outcome that its event tells of. -/
theorem Ending.succeeded_event (now : Int) (pending removed : PendingRecovery) (ending : Ending) :
    (ending.outcomes now removed).map RecoveryOutcome.success =
      [ending.event now pending].filterMap EngineEvent.succeeded := by
  cases ending <;> rfl

/-- Every round of a pass records the outcomes it tells of. -/
theorem recorded_rounds (start : RuntimeState) (now : Int) :
    KeptByRounds (fun _ _ => ()) now (fun _ => True) fun (_ : Unit) p => OutcomesTold start p where
  quiet _ hi := hi
  observed {_ p} pending answer hi := by
    obtain ⟨added, houtcomes, hadded⟩ := hi
    cases p.observed_observation pending now answer with
    | kept _ hsame hevents => exact ⟨added, hsame.trans houtcomes, hevents ▸ hadded⟩
    | @ended removed _ _ hmore hevents =>
      refine ⟨added ++ (Ending.of answer).outcomes now removed, ?_, ?_⟩
      · rw [hmore, houtcomes, List.append_assoc]
      · rw [hevents, List.filterMap_append, List.map_append, hadded, Ending.succeeded_event]
  target hr _ hi := hi.extends hr.recoveryOutcomes hr.extends

/-- The outcomes that an operation adds are those its events tell of. -/
theorem OpRecord.Executes.recorded {record : OpRecord} {e' : WatchEngine}
    (h : record.Executes e') : (record.outcomes e').map RecoveryOutcome.success =
      record.events.filterMap EngineEvent.succeeded := by
  have hsame : ∀ {start : RuntimeState}, e'.state.recoveryOutcomes = start.recoveryOutcomes →
      (e'.state.recoveryOutcomes.drop start.recoveryOutcomes.length).map
        RecoveryOutcome.success = [] := fun hs => by
    rw [hs, List.drop_length, List.map_nil]
  have hadded : ∀ {start : RuntimeState} {p : Pass}, OutcomesTold start p →
      (p.state.recoveryOutcomes.drop start.recoveryOutcomes.length).map
        RecoveryOutcome.success = p.events.filterMap EngineEvent.succeeded := fun hrecorded => by
    obtain ⟨added, houtcomes, hadded⟩ := hrecorded
    rw [houtcomes, List.drop_left, hadded]
  have hnone : ∀ e : WatchEngine, OutcomesTold e.state ⟨e, [], 0⟩ :=
    fun _ => ⟨[], (List.append_nil _).symm, rfl⟩
  cases h with
  | pass _ hrounds =>
    exact hadded ((recorded_rounds _ _).passRun (g := ()) hrounds (fun _ _ => trivial) (hnone _))
  | observe hr => exact hadded ((recorded_rounds _ _).reconcilePendingOnly (g := ()) hr (hnone _))
  | retryNow hr =>
    cases retryNow_round hr with
    | refused _ hprepared => exact hsame hprepared.outcomes
    | @sent d _ _ _ _ _ _ _ hprepared hstate =>
      exact hsame (hstate ▸ (d.settle_recoveryOutcomes _ _ _ _).trans hprepared.outcomes)
  | replaceSettings hr =>
    exact hsame (congrArg RuntimeState.recoveryOutcomes
      ((replaceSettings_upkeep _ [] _).of_history hr).2)
  | replaceTargets => exact hsame rfl
  | ensureProvider hr =>
    exact hsame (congrArg RuntimeState.recoveryOutcomes
      ((ensureProvider_upkeep _ [] _).of_history hr).2)

/-- The outcomes recorded in a run are those its events tell of, each once. -/
theorem EngineRun.recorded {e₀ e : WatchEngine} {log : List OpRecord} (h : EngineRun e₀ log e) :
    (finishedRecoveries log e).map RecoveryOutcome.success =
      (log.flatMap OpRecord.events).filterMap EngineEvent.succeeded := by
  induction h with
  | nil => rfl
  | snoc _ hb hx ih =>
    subst hb
    rw [finishedRecoveries_snoc, List.map_append, ih, hx.recorded, List.flatMap_append,
      List.filterMap_append, List.flatMap_singleton]

/-- The recorded outcomes are those the events tell of. Every receipt is pending, finished with
one of them or abandoned, each counted once, exactly if no receipt of the run came for a failure
that already had a pending recovery. -/
theorem receipts_accounted_iff {e₀ e : WatchEngine} {log : List OpRecord}
    (h : EngineRun e₀ log e) :
    ((finishedRecoveries log e).map RecoveryOutcome.success =
        (log.flatMap OpRecord.events).filterMap EngineEvent.succeeded ∧
      e₀.state.pendingRecoveries.size + (Ledger.ofRun log).receipts =
        e.state.pendingRecoveries.size + (finishedRecoveries log e).length +
          abandonedRecoveries log) ↔
      (Ledger.ofRun log).overwritten = 0 := by
  have hbalance := run_balanced h
  have hevents := succeeded_add_abandoned log
  rw [← h.recorded, List.length_map] at hevents
  unfold Balanced at hbalance
  simp only [Pass.state] at hbalance
  have hnil : recoveryEvents ([] : List EngineEvent) = 0 := rfl
  rw [and_iff_right h.recorded]
  constructor
  · intro heq
    omega
  · intro hzero
    omega

/-! ## Two receipts for one failure -/

/-- The provider keeps reporting the failed turn and acknowledges each retry. -/
def eagerProvider : SampleProvider where
  latest := some (sampleFailure "t")
  resumed := .ok (sampleReceipt "r")

/-- The engine after the first manual retry. -/
def retriedEngine : WatchEngine := (eagerProvider.retry 0 (sampleEngine {})).2.2

/-- Two manual retries of the same failure, one second apart. -/
def retriedTwice : List OpRecord :=
  [eagerProvider.retryRecord 0 (sampleEngine {}),
    eagerProvider.retryRecord (seconds 1) retriedEngine]

theorem retriedTwice_run : EngineRun (sampleEngine {}) retriedTwice
    (eagerProvider.retry (seconds 1) retriedEngine).2.2 := by
  have hfirst : EngineRun (sampleEngine {}) ([] ++ [eagerProvider.retryRecord 0 (sampleEngine {})])
      retriedEngine := .snoc (.nil _) rfl (eagerProvider.retry_executes 0 _)
  exact .snoc hfirst rfl (eagerProvider.retry_executes (seconds 1) _)

/-- The second receipt takes the place of the first: of two receipts one is pending and none has
ended. -/
theorem receipts_not_accounted :
    ∃ (e₀ e : WatchEngine) (log : List OpRecord), EngineRun e₀ log e ∧
      e₀.state.pendingRecoveries.size = 0 ∧
      (Ledger.ofRun log).receipts = 2 ∧ e.state.pendingRecoveries.size = 1 ∧
      finishedRecoveries log e = [] ∧ abandonedRecoveries log = 0 :=
  ⟨_, _, _, retriedTwice_run, by decide, by decide, by decide, by decide, by decide⟩

/-- The started turn has completed, and the session has failed no more. -/
def settledProvider : SampleProvider where
  outcome := .completed

/-- A manual retry and a pass that finds its turn completed. -/
def settledRun : List OpRecord :=
  [eagerProvider.retryRecord 0 (sampleEngine {}),
    settledProvider.passRecord (seconds 60) retriedEngine]

/-- The engine after the run. -/
def settledEngine : WatchEngine := (settledProvider.pass (seconds 60) retriedEngine).2.2.engine

theorem settledRun_run : EngineRun (sampleEngine {}) settledRun settledEngine := by
  have hfirst : EngineRun (sampleEngine {}) ([] ++ [eagerProvider.retryRecord 0 (sampleEngine {})])
      retriedEngine := .snoc (.nil _) rfl (eagerProvider.retry_executes 0 _)
  exact .snoc hfirst rfl (settledProvider.pass_executes (seconds 60) _)

/-- The one receipt has become the one outcome. -/
theorem receipts_accounted_iff_settled :
    (finishedRecoveries settledRun settledEngine).map RecoveryOutcome.success =
        (settledRun.flatMap OpRecord.events).filterMap EngineEvent.succeeded ∧
      (sampleEngine {}).state.pendingRecoveries.size + (Ledger.ofRun settledRun).receipts =
        settledEngine.state.pendingRecoveries.size +
          (finishedRecoveries settledRun settledEngine).length + abandonedRecoveries settledRun :=
  (receipts_accounted_iff settledRun_run).mpr (by decide)

end Watchcat
