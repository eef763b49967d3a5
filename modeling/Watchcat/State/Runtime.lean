import Watchcat.Core.Table
import Watchcat.Core.Window
import Watchcat.State.Models

/-!
# Runtime recovery state

The engine's durable record of handled failures, first observations, attempts,
pending recoveries and finished outcomes. The operations are those of the
source; each comes with what it looks up afterwards, so that later proofs never
unfold a map.
-/

namespace Watchcat

open Watchcat.Core

/-- How a failure was disposed of; the texts in the state file are in `HandledAction.text`. -/
inductive HandledAction
  | skipped
  | resumed
  | unconfirmed
  deriving DecidableEq, Repr

/-- The text a disposition is stored under. -/
def HandledAction.text : HandledAction → String
  | skipped => "skipped"
  | resumed => "resumed"
  | unconfirmed => "unconfirmed"

/-- A disposition with the time it was made. -/
structure HandledFailure where
  action : HandledAction
  handledAt : Int
  deriving DecidableEq, Repr

/-- A sent recovery whose turn has not been seen to end. -/
structure PendingRecovery where
  failureKey : String
  provider : String
  sessionId : String
  failedTurnId : String
  recoveryTurnId : String
  startedAt : Int
  automatic : Bool
  observationFailures : Nat
  lastObservationAt : Option Int
  deriving DecidableEq, Repr

/-- A finished recovery. -/
structure RecoveryOutcome where
  completedAt : Int
  automatic : Bool
  success : Bool
  deriving DecidableEq, Repr

/-- The counters of finished recoveries. -/
structure RecoveryMetrics where
  automaticRecoveries : Nat
  manualRecoveries : Nat
  failedRecoveries : Nat
  handsFreePercent : Nat
  deriving DecidableEq, Repr

/-- The runtime state document. -/
structure RuntimeState where
  version : Nat
  handled : Table String HandledFailure
  observed : Table String Int
  attempts : Table String (List Int)
  pendingRecoveries : Table String PendingRecovery
  recoveryOutcomes : List RecoveryOutcome

namespace RuntimeState

/-- The state used where no file exists. -/
def initial : RuntimeState where
  version := 3
  handled := .empty
  observed := .empty
  attempts := .empty
  pendingRecoveries := .empty
  recoveryOutcomes := []

/-- How long settled records are kept. -/
def retention : Int := days 30

/-- How many finished outcomes are kept. -/
def outcomeLimit : Nat := 10000

/-- `handled_action`. -/
def handledAction (s : RuntimeState) (f : Failure) : Option HandledAction :=
  (s.handled.lookup f.key).map HandledFailure.action

/-- `mark_handled`. -/
def markHandled (s : RuntimeState) (f : Failure) (action : HandledAction) (now : Int) :
    RuntimeState :=
  { s with handled := s.handled.insert f.key ⟨action, now⟩ }

/-- `first_seen`: the recorded first observation, recording `now` where there is none. -/
def firstSeen (s : RuntimeState) (f : Failure) (now : Int) : Int × RuntimeState :=
  match s.observed.lookup f.key with
  | some t => (t, s)
  | none => (now, { s with observed := s.observed.insert f.key now })

/-- The stored attempts of a target, oldest first. -/
def attemptsOf (s : RuntimeState) (t : WatchTarget) : List Int :=
  (s.attempts.lookup t.key).getD []

/-- `recent_attempts`: trim the attempts of a target to the window and count them. -/
def recentAttempts (s : RuntimeState) (t : WatchTarget) (now windowSeconds : Int) :
    Nat × RuntimeState :=
  let kept := (s.attemptsOf t).filter fun a => now - seconds windowSeconds ≤ a
  (kept.length, { s with attempts := s.attempts.insert t.key kept })

/-- `record_attempt`. -/
def recordAttempt (s : RuntimeState) (t : WatchTarget) (now : Int) : RuntimeState :=
  { s with attempts := s.attempts.insert t.key (s.attemptsOf t ++ [now]) }

/-- `latest_attempt`. -/
def latestAttempt (s : RuntimeState) (t : WatchTarget) : Option Int := (s.attemptsOf t).getLast?

/-- `clear_attempts`. -/
def clearAttempts (s : RuntimeState) (t : WatchTarget) : RuntimeState :=
  { s with attempts := s.attempts.erase t.key }

/-- `begin_recovery`. -/
def beginRecovery (s : RuntimeState) (f : Failure) (recoveryTurnId : String) (now : Int)
    (automatic : Bool) : RuntimeState :=
  { s with
    pendingRecoveries := s.pendingRecoveries.insert f.key
      { failureKey := f.key
        provider := f.provider
        sessionId := f.sessionId
        failedTurnId := f.turnId
        recoveryTurnId := recoveryTurnId
        startedAt := now
        automatic := automatic
        observationFailures := 0
        lastObservationAt := none } }

/-- `pending_target_keys`. -/
def pendingTargetKeys (s : RuntimeState) : List String :=
  s.pendingRecoveries.values.map fun p => p.provider ++ ":" ++ p.sessionId

/-- `has_pending_for`. -/
def hasPendingFor (s : RuntimeState) (t : WatchTarget) : Bool :=
  s.pendingRecoveries.values.any fun p => p.provider == t.provider && p.sessionId == t.sessionId

/-- `finish_recovery`: drop the pending entry and record its outcome. -/
def finishRecovery (s : RuntimeState) (failureKey : String) (success : Bool) (now : Int) :
    Option PendingRecovery × RuntimeState :=
  match s.pendingRecoveries.lookup failureKey with
  | none => (none, s)
  | some p =>
    (some p, { s with
      pendingRecoveries := s.pendingRecoveries.erase failureKey
      recoveryOutcomes := s.recoveryOutcomes ++ [⟨now, p.automatic, success⟩] })

/-- `record_recovery_observation_failure`: `u32` counters saturate. -/
def recordRecoveryObservationFailure (s : RuntimeState) (failureKey : String) (now : Int) :
    Option Nat × RuntimeState :=
  match s.pendingRecoveries.lookup failureKey with
  | none => (none, s)
  | some p =>
    let failures := min (p.observationFailures + 1) u32Max
    (some failures, { s with
      pendingRecoveries := s.pendingRecoveries.insert failureKey
        { p with observationFailures := failures, lastObservationAt := some now } })

/-- `abandon_recovery`: drop the pending entry without an outcome. -/
def abandonRecovery (s : RuntimeState) (failureKey : String) :
    Option PendingRecovery × RuntimeState :=
  match s.pendingRecoveries.lookup failureKey with
  | none => (none, s)
  | some p => (some p, { s with pendingRecoveries := s.pendingRecoveries.erase failureKey })

/-- `metrics_since`. -/
def metricsSince (s : RuntimeState) (since : Int) : RecoveryMetrics :=
  let outcomes := s.recoveryOutcomes.filter fun o => since ≤ o.completedAt
  let automatic := outcomes.countP fun o => o.success && o.automatic
  let manual := outcomes.countP fun o => o.success && !o.automatic
  let failed := outcomes.countP fun o => !o.success
  let percent :=
    if automatic + manual = 0 then 100 else saturatingMul automatic 100 / (automatic + manual)
  { automaticRecoveries := automatic
    manualRecoveries := manual
    failedRecoveries := failed
    handsFreePercent := if percent < 256 then percent else 100 }

/-- `prune`: drop what is older than the retention and all but the last outcomes. -/
def prune (s : RuntimeState) (now : Int) : RuntimeState :=
  let cutoff := now - retention
  let outcomes := s.recoveryOutcomes.filter fun o => cutoff ≤ o.completedAt
  { s with
    handled := s.handled.retain fun h => cutoff ≤ h.handledAt
    observed := s.observed.retain fun t => cutoff ≤ t
    attempts := s.attempts.filterMap fun attempts =>
      let kept := attempts.filter fun a => cutoff ≤ a
      if kept.isEmpty then none else some kept
    recoveryOutcomes := outcomes.drop (outcomes.length - outcomeLimit) }

/-! ## What the operations look up -/

variable (s : RuntimeState) (f : Failure) (t : WatchTarget) (now : Int)

@[simp] theorem markHandled_handled (a : HandledAction) :
    (s.markHandled f a now).handled = s.handled.insert f.key ⟨a, now⟩ := rfl

@[simp] theorem markHandled_attempts (a : HandledAction) :
    (s.markHandled f a now).attempts = s.attempts := rfl

@[simp] theorem markHandled_pendingRecoveries (a : HandledAction) :
    (s.markHandled f a now).pendingRecoveries = s.pendingRecoveries := rfl

@[simp] theorem firstSeen_handled : (s.firstSeen f now).2.handled = s.handled := by
  unfold firstSeen
  split <;> rfl

@[simp] theorem firstSeen_attempts : (s.firstSeen f now).2.attempts = s.attempts := by
  unfold firstSeen
  split <;> rfl

@[simp] theorem firstSeen_pendingRecoveries :
    (s.firstSeen f now).2.pendingRecoveries = s.pendingRecoveries := by
  unfold firstSeen
  split <;> rfl

@[simp] theorem recentAttempts_handled (w : Int) :
    (s.recentAttempts t now w).2.handled = s.handled := rfl

@[simp] theorem recentAttempts_pendingRecoveries (w : Int) :
    (s.recentAttempts t now w).2.pendingRecoveries = s.pendingRecoveries := rfl

@[simp] theorem recordAttempt_handled : (s.recordAttempt t now).handled = s.handled := rfl

@[simp] theorem recordAttempt_pendingRecoveries :
    (s.recordAttempt t now).pendingRecoveries = s.pendingRecoveries := rfl

@[simp] theorem clearAttempts_handled : (s.clearAttempts t).handled = s.handled := rfl

@[simp] theorem clearAttempts_pendingRecoveries :
    (s.clearAttempts t).pendingRecoveries = s.pendingRecoveries := rfl

@[simp] theorem beginRecovery_handled (turn : String) (automatic : Bool) :
    (s.beginRecovery f turn now automatic).handled = s.handled := rfl

@[simp] theorem beginRecovery_attempts (turn : String) (automatic : Bool) :
    (s.beginRecovery f turn now automatic).attempts = s.attempts := rfl

@[simp] theorem finishRecovery_handled (k : String) (success : Bool) :
    (s.finishRecovery k success now).2.handled = s.handled := by
  unfold finishRecovery
  split <;> rfl

@[simp] theorem finishRecovery_attempts (k : String) (success : Bool) :
    (s.finishRecovery k success now).2.attempts = s.attempts := by
  unfold finishRecovery
  split <;> rfl

@[simp] theorem abandonRecovery_handled (k : String) :
    (s.abandonRecovery k).2.handled = s.handled := by
  unfold abandonRecovery
  split <;> rfl

@[simp] theorem abandonRecovery_attempts (k : String) :
    (s.abandonRecovery k).2.attempts = s.attempts := by
  unfold abandonRecovery
  split <;> rfl

@[simp] theorem recordRecoveryObservationFailure_handled (k : String) :
    (s.recordRecoveryObservationFailure k now).2.handled = s.handled := by
  unfold recordRecoveryObservationFailure
  split <;> rfl

@[simp] theorem recordRecoveryObservationFailure_attempts (k : String) :
    (s.recordRecoveryObservationFailure k now).2.attempts = s.attempts := by
  unfold recordRecoveryObservationFailure
  split <;> rfl

@[simp] theorem prune_pendingRecoveries : (s.prune now).pendingRecoveries = s.pendingRecoveries :=
  rfl

/-- Pruning keeps exactly the handled entries inside the retention. -/
theorem prune_handled_lookup (k : String) : (s.prune now).handled.lookup k =
    (s.handled.lookup k).filter fun h => decide (now - retention ≤ h.handledAt) :=
  Table.lookup_retain _ _ _

/-- Attempts are kept under the key of the target. -/
theorem attemptsOf_congr {t u : WatchTarget} (h : u.key = t.key) :
    s.attemptsOf u = s.attemptsOf t := by
  rw [attemptsOf, h, attemptsOf]

theorem attemptsOf_of_attempts {s s' : RuntimeState} (h : s'.attempts = s.attempts)
    (t : WatchTarget) : s'.attemptsOf t = s.attemptsOf t := by
  rw [attemptsOf, h, attemptsOf]

/-- The attempts of a target are trimmed to the window, those of others are untouched. -/
theorem recentAttempts_attemptsOf (w : Int) (u : WatchTarget) :
    (s.recentAttempts t now w).2.attemptsOf u =
      if u.key = t.key then (s.attemptsOf t).filter fun a => now - seconds w ≤ a
      else s.attemptsOf u := by
  simp only [recentAttempts, attemptsOf, Table.lookup_insert]
  by_cases h : u.key = t.key
  · simp only [h, if_true, Option.getD_some]
  · simp only [h, if_false]

theorem recordAttempt_attemptsOf (u : WatchTarget) :
    (s.recordAttempt t now).attemptsOf u =
      if u.key = t.key then s.attemptsOf t ++ [now] else s.attemptsOf u := by
  simp only [recordAttempt, attemptsOf, Table.lookup_insert]
  by_cases h : u.key = t.key
  · simp only [h, if_true, Option.getD_some]
  · simp only [h, if_false]

theorem clearAttempts_attemptsOf (u : WatchTarget) :
    (s.clearAttempts t).attemptsOf u = if u.key = t.key then [] else s.attemptsOf u := by
  simp only [clearAttempts, attemptsOf, Table.lookup_erase]
  by_cases h : u.key = t.key
  · simp only [h, if_true, Option.getD_none]
  · simp only [h, if_false]

/-- Pruning trims the attempts of every target to the retention. -/
theorem prune_attemptsOf (u : WatchTarget) :
    (s.prune now).attemptsOf u = (s.attemptsOf u).filter fun a => decide (now - retention ≤ a) := by
  simp only [prune, attemptsOf, Table.lookup_filterMap]
  cases s.attempts.lookup u.key with
  | none => rfl
  | some attempts =>
    simp only [Option.bind_some, Option.getD_some]
    by_cases h : (attempts.filter fun a => decide (now - retention ≤ a)).isEmpty = true
    · simp only [h, if_true, Option.getD_none]
      exact (List.isEmpty_iff.mp h).symm
    · simp only [h]
      rfl

/-- Trimming to a window loses no attempt inside it. -/
theorem recentAttempts_covers (w : Int) (u : WatchTarget) :
    Covers (now - seconds w) ((s.recentAttempts t now w).2.attemptsOf u) (s.attemptsOf u) := by
  rw [recentAttempts_attemptsOf]
  split
  · rename_i h
    rw [attemptsOf_congr s h]
    exact .filter _ _ fun _ _ hlive => decide_eq_true hlive
  · exact .refl _ _

/-- Recording an attempt loses none. -/
theorem recordAttempt_covers (start : Int) (u : WatchTarget) :
    Covers start ((s.recordAttempt t now).attemptsOf u) (s.attemptsOf u) := by
  rw [recordAttempt_attemptsOf]
  split
  · rename_i h
    rw [attemptsOf_congr s h]
    exact (Covers.refl _ _).grow now
  · exact .refl _ _

end RuntimeState

end Watchcat
