import Watchcat.Engine.Sends

/-!
# What observing the pending recoveries does

An observation keeps a pending recovery or ends it: with a success, with a
failure, or without an outcome. Whatever the answers are, a recovery that was
observed at the end of its time is gone, and what the pass tells of ended
recoveries are exactly the entries it removed.
-/

namespace Watchcat

open Watchcat.Core Method

/-- How the observation of a recovery ends. -/
inductive Ending
  | completed
  | failed
  | abandoned
  deriving DecidableEq, Repr

/-- The ending that an answer about a recovery turn leads to, where it leads to one: only the two
outcomes of the turn count, everything else gives the recovery up. -/
def Ending.of : Except Error TurnOutcome → Ending
  | .ok .completed => .completed
  | .ok .failed => .failed
  | .ok .inProgress => .abandoned
  | .ok .unknown => .abandoned
  | .error _ => .abandoned

/-- What an ending adds to the outcomes. -/
def Ending.outcomes (now : Int) (removed : PendingRecovery) : Ending → List RecoveryOutcome
  | .completed => [⟨now, removed.automatic, true⟩]
  | .failed => [⟨now, removed.automatic, false⟩]
  | .abandoned => []

/-- What an ending tells. -/
def Ending.event (now : Int) (pending : PendingRecovery) : Ending → EngineEvent
  | .completed => pendingEvent now "recovery.completed" pending
      ("recovery turn " ++ pending.recoveryTurnId ++ " completed")
  | .failed => pendingEvent now "recovery.failed" pending
      ("recovery turn " ++ pending.recoveryTurnId ++ " failed")
  | .abandoned => pendingEvent now "recovery.unconfirmed" pending
      ("stopped observing recovery turn " ++ pending.recoveryTurnId ++
        " after its outcome remained unavailable")

/-- A pending recovery without the record of its observations. -/
def PendingRecovery.recovery (pending : PendingRecovery) : PendingRecovery :=
  { pending with observationFailures := 0, lastObservationAt := none }

/-- The pending recovery under a key, without the record of its observations. -/
def RuntimeState.recoveryAt (s : RuntimeState) (key : String) : Option PendingRecovery :=
  (s.pendingRecoveries.lookup key).map PendingRecovery.recovery

/-- What the observation of a pending recovery with an answer can do. -/
inductive Observation (now : Int) (pending : PendingRecovery) (answer : Except Error TurnOutcome)
    (p p' : Pass) : Prop
  | kept (hrecoveries : ∀ key, p'.state.recoveryAt key = p.state.recoveryAt key)
      (houtcomes : p'.state.recoveryOutcomes = p.state.recoveryOutcomes)
      (hevents : p'.events = p.events)
  | ended {removed : PendingRecovery}
      (hremoved : p.state.recoveryAt pending.failureKey = some removed.recovery)
      (hrecoveries : ∀ key, p'.state.recoveryAt key =
        if key = pending.failureKey then none else p.state.recoveryAt key)
      (houtcomes : p'.state.recoveryOutcomes =
        p.state.recoveryOutcomes ++ (Ending.of answer).outcomes now removed)
      (hevents : p'.events = p.events ++ [(Ending.of answer).event now pending])

namespace Pass

variable (p : Pass) (pending : PendingRecovery) (now : Int)

theorem recoveryAt_erase {s s' : RuntimeState} {key : String}
    (h : s'.pendingRecoveries = s.pendingRecoveries.erase key) (key' : String) :
    s'.recoveryAt key' = if key' = key then none else s.recoveryAt key' := by
  rw [RuntimeState.recoveryAt, h, Table.lookup_erase]
  split <;> rfl

theorem finishPending_observation (success : Bool) :
    Observation now pending (.ok (if success then .completed else .failed)) p
      (p.finishPending pending success now) := by
  unfold finishPending RuntimeState.finishRecovery
  cases h : p.state.pendingRecoveries.lookup pending.failureKey with
  | none => exact .kept (fun _ => rfl) rfl rfl
  | some removed =>
    have hremoved : p.state.recoveryAt pending.failureKey = some removed.recovery := by
      rw [RuntimeState.recoveryAt, h]
      rfl
    cases success with
    | true => exact .ended hremoved (recoveryAt_erase rfl) rfl rfl
    | false => exact .ended hremoved (recoveryAt_erase rfl) rfl rfl

theorem abandonPending_observation {answer : Except Error TurnOutcome}
    (hanswer : Ending.of answer = .abandoned) :
    Observation now pending answer p (p.abandonPending pending now) := by
  unfold abandonPending RuntimeState.abandonRecovery
  cases h : p.state.pendingRecoveries.lookup pending.failureKey with
  | none => exact .kept (fun _ => rfl) rfl rfl
  | some removed =>
    have hremoved : p.state.recoveryAt pending.failureKey = some removed.recovery := by
      rw [RuntimeState.recoveryAt, h]
      rfl
    refine .ended hremoved (recoveryAt_erase rfl) ?_ ?_
    · rw [hanswer]
      exact (List.append_nil _).symm
    · rw [hanswer]
      rfl

/-- Counting a missed observation leaves the recoveries. -/
theorem recordFailure_recoveryAt (s : RuntimeState) (failureKey : String) (key : String) :
    (s.recordRecoveryObservationFailure failureKey now).2.recoveryAt key = s.recoveryAt key := by
  unfold RuntimeState.recordRecoveryObservationFailure
  cases h : s.pendingRecoveries.lookup failureKey with
  | none => rfl
  | some y =>
    simp only [RuntimeState.recoveryAt, Table.lookup_insert]
    split
    · rename_i heq
      rw [heq, h]
      rfl
    · rfl

theorem recordFailure_outcomes (s : RuntimeState) (failureKey : String) :
    (s.recordRecoveryObservationFailure failureKey now).2.recoveryOutcomes =
      s.recoveryOutcomes := by
  unfold RuntimeState.recordRecoveryObservationFailure
  cases s.pendingRecoveries.lookup failureKey <;> rfl

theorem missedObservation_observation {answer : Except Error TurnOutcome}
    (hanswer : Ending.of answer = .abandoned) :
    Observation now pending answer p (p.missedObservation pending now) := by
  have hrecoveries := recordFailure_recoveryAt now p.state pending.failureKey
  have houtcomes := recordFailure_outcomes now p.state pending.failureKey
  unfold missedObservation
  dsimp only
  split
  · rcases abandonPending_observation (p.withState fun _ =>
        (p.state.recordRecoveryObservationFailure pending.failureKey now).2) pending now
          hanswer with
      ⟨hkept, hsame, hevents⟩ | ⟨hremoved, hkept, hadded, hevents⟩
    · exact .kept (fun key => (hkept key).trans (hrecoveries key)) (hsame.trans houtcomes) hevents
    · refine .ended ((hrecoveries _).symm.trans hremoved) (fun key => ?_) ?_ hevents
      · rw [hkept key, Pass.withState_state, hrecoveries key]
      · rw [hadded, Pass.withState_state, houtcomes]
  · exact .kept hrecoveries houtcomes rfl

/-- Every answer keeps the recovery or ends it. -/
theorem observed_observation (answer : Except Error TurnOutcome) :
    Observation now pending answer p (p.observed pending now answer) := by
  rcases answer with e | outcome
  · exact p.missedObservation_observation pending now rfl
  · cases outcome with
    | completed => exact p.finishPending_observation pending now true
    | failed => exact p.finishPending_observation pending now false
    | unknown => exact p.missedObservation_observation pending now rfl
    | inProgress =>
      simp only [observed]
      split
      · exact p.abandonPending_observation pending now rfl
      · exact .kept (fun _ => rfl) rfl rfl

theorem finishPending_gone (success : Bool) :
    (p.finishPending pending success now).state.recoveryAt pending.failureKey = none := by
  unfold finishPending RuntimeState.finishRecovery
  cases h : p.state.pendingRecoveries.lookup pending.failureKey with
  | none =>
    show p.state.recoveryAt pending.failureKey = none
    rw [RuntimeState.recoveryAt, h]
    rfl
  | some removed =>
    cases success <;>
    · refine (recoveryAt_erase (s := p.state) rfl _).trans ?_
      rw [if_pos rfl]

theorem abandonPending_gone :
    (p.abandonPending pending now).state.recoveryAt pending.failureKey = none := by
  unfold abandonPending RuntimeState.abandonRecovery
  cases h : p.state.pendingRecoveries.lookup pending.failureKey with
  | none =>
    show p.state.recoveryAt pending.failureKey = none
    rw [RuntimeState.recoveryAt, h]
    rfl
  | some removed =>
    refine (recoveryAt_erase (s := p.state) rfl _).trans ?_
    rw [if_pos rfl]

/-- Every answer about a recovery at the end of its time leaves none under its key. -/
theorem observed_gone (hold : pendingRecoveryMaxAge ≤ now - pending.startedAt)
    (answer : Except Error TurnOutcome) :
    (p.observed pending now answer).state.recoveryAt pending.failureKey = none := by
  have hmissed : (p.missedObservation pending now).state.recoveryAt pending.failureKey =
      none := by
    unfold missedObservation
    dsimp only
    rw [if_pos (by simp only [pendingRecoveryExpired, decide_eq_true hold, Bool.true_or])]
    exact abandonPending_gone _ pending now
  rcases answer with e | outcome
  · exact hmissed
  · cases outcome with
    | completed => exact p.finishPending_gone pending now true
    | failed => exact p.finishPending_gone pending now false
    | unknown => exact hmissed
    | inProgress =>
      simp only [observed, if_pos hold]
      exact p.abandonPending_gone pending now

end Pass

/-! ## All observations of a pass -/

/-- A recovery that was ended: what was asked about, the answer, and the entry that was removed. -/
structure EndedRecovery where
  asked : PendingRecovery
  answer : Except Error TurnOutcome
  removed : PendingRecovery

/-- How the recovery was ended. -/
def EndedRecovery.ending (x : EndedRecovery) : Ending := .of x.answer

/-- The key under which the recovery was pending. -/
def EndedRecovery.key (x : EndedRecovery) : String := x.asked.failureKey

/-- The recoveries between two states of a pass that were ended: each was pending under a key of
its own, none is pending any more, and the outcomes and the events tell each of them once. -/
structure Concludes (now : Int) (p p' : Pass) (ended : List EndedRecovery) : Prop where
  distinct : (ended.map EndedRecovery.key).Nodup
  removed : ∀ x ∈ ended, p.state.recoveryAt x.key = some x.removed.recovery
  recoveries : ∀ key, p'.state.recoveryAt key =
    if key ∈ ended.map EndedRecovery.key then none else p.state.recoveryAt key
  outcomes : p'.state.recoveryOutcomes = p.state.recoveryOutcomes ++
    ended.flatMap fun x => x.ending.outcomes now x.removed
  events : p'.events = p.events ++ ended.map fun x => x.ending.event now x.asked

theorem Concludes.refl (now : Int) (p : Pass) : Concludes now p p [] :=
  ⟨.nil, by simp, by simp, by simp, by simp⟩

/-- The question about the turn of a recovery and its answer. -/
def outcomeCall (asked : PendingRecovery) (answer : Except Error TurnOutcome) :
    Prog.Event Reply :=
  ⟨.turnOutcome asked.provider asked.sessionId asked.recoveryTurnId, answer⟩

/-- The call that ended a recovery. -/
def EndedRecovery.call (x : EndedRecovery) : Prog.Event Reply := outcomeCall x.asked x.answer

/-- One more observation before the others. -/
theorem Concludes.observation {now : Int} {p mid p' : Pass} {pending : PendingRecovery}
    {answer : Except Error TurnOutcome} {ended : List EndedRecovery}
    (h : Observation now pending answer p mid) (h' : Concludes now mid p' ended) :
    ∃ first, Concludes now p p' (first ++ ended) ∧
      (∀ x ∈ first, x.asked = pending) ∧
      (first.map EndedRecovery.call).Sublist [outcomeCall pending answer] := by
  cases h with
  | kept hrecoveries houtcomes hevents =>
    refine ⟨[], ⟨h'.distinct, fun x hx => ?_, fun key => ?_, ?_, ?_⟩, by simp,
      List.nil_sublist _⟩
    · exact (hrecoveries x.key).symm.trans (h'.removed x hx)
    · rw [h'.recoveries key, hrecoveries key, List.nil_append]
    · rw [h'.outcomes, houtcomes, List.nil_append]
    · rw [h'.events, hevents, List.nil_append]
  | @ended removed hremoved hrecoveries houtcomes hevents =>
    -- the recovery is no longer pending when the others end
    have hother : ∀ x ∈ ended, x.key ≠ pending.failureKey := fun x hx heq => by
      have hsome := h'.removed x hx
      rw [hrecoveries, if_pos heq] at hsome
      cases hsome
    refine ⟨[⟨pending, answer, removed⟩], ⟨?_, fun x hx => ?_, fun key => ?_, ?_, ?_⟩, ?_,
      .refl _⟩
    · refine List.nodup_cons.mpr ⟨fun hmem => ?_, h'.distinct⟩
      obtain ⟨x, hx, hkey⟩ := List.mem_map.mp hmem
      exact hother x hx hkey
    · rcases List.mem_cons.mp hx with rfl | hx
      · exact hremoved
      · have hsome := h'.removed x hx
        rwa [hrecoveries, if_neg (hother x hx)] at hsome
    · rw [h'.recoveries key, hrecoveries key, List.singleton_append, List.map_cons]
      by_cases hkey : key = pending.failureKey
      · simp [hkey, EndedRecovery.key]
      · simp [hkey, EndedRecovery.key]
    · rw [h'.outcomes, houtcomes, List.append_assoc]
      rfl
    · rw [h'.events, hevents, List.append_assoc]
      rfl
    · exact fun x hx => List.mem_singleton.mp hx ▸ rfl

/-- The observations end recoveries that were asked about, each with its own call and as its
answer tells, and leave none at the end of its time whose provider is there. -/
theorem observations_end {now : Int} {order : List PendingRecovery} {p p' : Pass}
    {rounds : List (Act.Round Reply Pass PendingRecovery)} {r : Except Error Unit}
    (h : Act.Rounds (observePending now) order p rounds r p') :
    ∃ ended, Concludes now p p' ended ∧
      (∀ x ∈ ended, x.asked ∈ order ∧ x.asked.provider ∈ p.engine.providers) ∧
      (ended.map EndedRecovery.call).Sublist (rounds.flatMap Act.Round.calls) ∧
      ∀ pending ∈ order, pending.provider ∈ p.engine.providers →
        pendingRecoveryMaxAge ≤ now - pending.startedAt →
          p'.state.recoveryAt pending.failureKey = none := by
  induction h with
  | done => exact ⟨[], .refl now _, by simp, .refl _, by simp⟩
  | failed hb => cases observePending_round hb
  | @next pending order p mid p' _ _ _ hb _ ih =>
    obtain ⟨ended, hconcludes, hasked, hcalls, hgone⟩ := ih
    cases observePending_round hb with
    | unavailable hp =>
      refine ⟨ended, hconcludes, fun x hx => ?_, hcalls, fun y hy hprovider hold => ?_⟩
      · exact ⟨List.mem_cons_of_mem _ (hasked x hx).1, (hasked x hx).2⟩
      · rcases List.mem_cons.mp hy with rfl | hy
        · exact absurd hprovider hp
        · exact hgone y hy hprovider hold
    | @observed answer hp =>
      have hframe := p.observed_frame pending now answer
      obtain ⟨first, hall, hfirst, hcall⟩ :=
        hconcludes.observation (p.observed_observation pending now answer)
      refine ⟨first ++ ended, hall, fun x hx => ?_, ?_, fun y hy hprovider hold => ?_⟩
      · rcases List.mem_append.mp hx with hx | hx
        · rw [hfirst x hx]
          exact ⟨List.mem_cons_self, hp⟩
        · rw [← hframe.providers]
          exact ⟨List.mem_cons_of_mem _ (hasked x hx).1, (hasked x hx).2⟩
      · rw [List.map_append]
        exact hcall.append hcalls
      · rcases List.mem_cons.mp hy with rfl | hy
        · rw [hconcludes.recoveries, p.observed_gone y now hold answer]
          exact ite_self _
        · exact hgone y hy (hframe.providers ▸ hprovider) hold

end Watchcat
