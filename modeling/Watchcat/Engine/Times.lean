import Watchcat.Engine.Sends

/-!
# The times an engine remembers

First observations and attempts are the only times the delay of a retry is
computed from. Whatever an engine does, it remembers a time it was given or one
it has remembered before, and an attempt that is still inside the window and the
retention is not forgotten unless the session was seen without a failure.
-/

namespace Watchcat

open Watchcat.Core Method

/-! ## The recorded times -/

/-- Every first observation and attempt has the property. -/
structure RuntimeState.Timed (P : Int → Prop) (s : RuntimeState) : Prop where
  observed : ∀ k t, s.observed.lookup k = some t → P t
  attempts : ∀ t : WatchTarget, ∀ a ∈ s.attemptsOf t, P a

/-- The attempt at the time is remembered, and no attempt after it is older. -/
def RuntimeState.Remembers (s : RuntimeState) (t : WatchTarget) (start : Int) : Prop :=
  ∃ before after, s.attemptsOf t = before ++ start :: after ∧ ∀ a ∈ after, start ≤ a

namespace RuntimeState

variable {P : Int → Prop} {s s' : RuntimeState} {now : Int}

namespace Timed

theorem initial (P : Int → Prop) : RuntimeState.initial.Timed P :=
  ⟨fun _ _ h => (nomatch h), fun _ _ h => (nomatch h)⟩

theorem of_same (h : s.Timed P) (hobserved : s'.observed = s.observed)
    (hattempts : s'.attempts = s.attempts) : s'.Timed P :=
  ⟨fun k t hk => h.observed k t (hobserved ▸ hk),
    fun t a ha => h.attempts t a (attemptsOf_of_attempts hattempts t ▸ ha)⟩

theorem firstSeen (h : s.Timed P) (hnow : P now) (f : Failure) :
    (s.firstSeen f now).2.Timed P := by
  refine ⟨fun k t hk => ?_, fun t a ha => h.attempts t a (s.firstSeen_attemptsOf f now t ▸ ha)⟩
  unfold RuntimeState.firstSeen at hk
  split at hk
  · exact h.observed k t hk
  · rw [Table.lookup_insert] at hk
    split at hk
    · exact Option.some.inj hk ▸ hnow
    · exact h.observed k t hk

/-- The first observation is a recorded time or the current one. -/
theorem firstSeen_fst (h : s.Timed P) (hnow : P now) (f : Failure) :
    P (s.firstSeen f now).1 := by
  unfold RuntimeState.firstSeen
  split
  · rename_i t hlookup
    exact h.observed _ t hlookup
  · exact hnow

theorem recentAttempts (h : s.Timed P) (t : WatchTarget) (w : Int) :
    (s.recentAttempts t now w).2.Timed P := by
  refine ⟨h.observed, fun u a ha => ?_⟩
  rw [recentAttempts_attemptsOf] at ha
  split at ha
  · exact h.attempts t a (List.mem_of_mem_filter ha)
  · exact h.attempts u a ha

theorem recordAttempt (h : s.Timed P) (hnow : P now) (t : WatchTarget) :
    (s.recordAttempt t now).Timed P := by
  refine ⟨h.observed, fun u a ha => ?_⟩
  rw [recordAttempt_attemptsOf] at ha
  split at ha
  · rcases List.mem_append.mp ha with ha | ha
    · exact h.attempts t a ha
    · exact List.mem_singleton.mp ha ▸ hnow
  · exact h.attempts u a ha

theorem clearAttempts (h : s.Timed P) (t : WatchTarget) : (s.clearAttempts t).Timed P := by
  refine ⟨h.observed, fun u a ha => ?_⟩
  rw [clearAttempts_attemptsOf] at ha
  split at ha
  · cases ha
  · exact h.attempts u a ha

theorem prune (h : s.Timed P) (now : Int) : (s.prune now).Timed P := by
  refine ⟨fun k t hk => ?_, fun u a ha => ?_⟩
  · have hkept : (s.prune now).observed.lookup k =
        (s.observed.lookup k).filter fun t => decide (now - retention ≤ t) :=
      Table.lookup_retain _ _ _
    rw [hkept, Option.filter_eq_some_iff] at hk
    exact h.observed k t hk.1
  · rw [prune_attemptsOf] at ha
    exact h.attempts u a (List.mem_of_mem_filter ha)

end Timed

namespace Remembers

variable {t : WatchTarget} {start : Int}

theorem of_attempts (h : s.Remembers t start) (hs : s'.attemptsOf t = s.attemptsOf t) :
    s'.Remembers t start := by
  obtain ⟨before, after, heq, hafter⟩ := h
  exact ⟨before, after, hs.trans heq, hafter⟩

/-- The latest attempt is not before one that is remembered. -/
theorem latest (h : s.Remembers t start) : ∃ a, s.latestAttempt t = some a ∧ start ≤ a := by
  obtain ⟨before, after, heq, hafter⟩ := h
  rw [latestAttempt, heq, List.getLast?_append, List.getLast?_cons]
  cases hlast : after.getLast? with
  | none => exact ⟨start, rfl, le_refl _⟩
  | some a => exact ⟨a, rfl, hafter a (List.mem_of_getLast? hlast)⟩

/-- Trimming from a cutoff that is not after the attempt keeps it. -/
theorem filter (h : s.Remembers t start) {cutoff : Int} (hcutoff : cutoff ≤ start)
    (hs : s'.attemptsOf t = (s.attemptsOf t).filter fun a => decide (cutoff ≤ a)) :
    s'.Remembers t start := by
  obtain ⟨before, after, heq, hafter⟩ := h
  refine ⟨before.filter fun a => decide (cutoff ≤ a), after.filter fun a => decide (cutoff ≤ a),
    ?_, fun a ha => hafter a (List.mem_of_mem_filter ha)⟩
  rw [hs, heq, List.filter_append, List.filter_cons_of_pos (by simpa using hcutoff)]

theorem recordAttempt (h : s.Remembers t start) (hnow : start ≤ now) (u : WatchTarget) :
    (s.recordAttempt u now).Remembers t start := by
  by_cases hu : t.key = u.key
  · obtain ⟨before, after, heq, hafter⟩ := h
    refine ⟨before, after ++ [now], ?_, fun a ha => ?_⟩
    · rw [recordAttempt_attemptsOf, if_pos hu, ← attemptsOf_congr s hu, heq, List.append_assoc,
        List.cons_append]
    · rcases List.mem_append.mp ha with ha | ha
      · exact hafter a ha
      · exact List.mem_singleton.mp ha ▸ hnow
  · exact h.of_attempts (by rw [recordAttempt_attemptsOf, if_neg hu])

theorem recentAttempts (h : s.Remembers t start) {w : Int} (hwindow : now - seconds w ≤ start)
    (u : WatchTarget) : (s.recentAttempts u now w).2.Remembers t start := by
  by_cases hu : t.key = u.key
  · exact h.filter hwindow (by
      rw [recentAttempts_attemptsOf, if_pos hu, ← attemptsOf_congr s hu])
  · exact h.of_attempts (by rw [recentAttempts_attemptsOf, if_neg hu])

theorem prune (h : s.Remembers t start) (hkept : now - retention ≤ start) :
    (s.prune now).Remembers t start :=
  h.filter hkept (s.prune_attemptsOf now t)

end Remembers

/-- An attempt that was just recorded is remembered. -/
theorem remembers_recordAttempt (s : RuntimeState) {t u : WatchTarget} (hu : t.key = u.key)
    (now : Int) : (s.recordAttempt u now).Remembers t now :=
  ⟨s.attemptsOf u, [], by rw [recordAttempt_attemptsOf, if_pos hu], fun _ h => by cases h⟩

/-! ## The times of a manual retry -/

/-- What a manual retry may do to the recorded times. -/
inductive RetrySteps (now windowSeconds : Int) : RuntimeState → RuntimeState → Prop
  | other {s s' : RuntimeState} (hobserved : s'.observed = s.observed)
      (hattempts : s'.attempts = s.attempts) : RetrySteps now windowSeconds s s'
  | trimmed (s : RuntimeState) (t : WatchTarget) :
      RetrySteps now windowSeconds s (s.recentAttempts t now windowSeconds).2
  | recorded (s : RuntimeState) (t : WatchTarget) :
      RetrySteps now windowSeconds s (s.recordAttempt t now)
  | trans {s mid s' : RuntimeState} (h : RetrySteps now windowSeconds s mid)
      (h' : RetrySteps now windowSeconds mid s') : RetrySteps now windowSeconds s s'

theorem RetrySteps.timed {w : Int} (h : RetrySteps now w s s') (hnow : P now) (hs : s.Timed P) :
    s'.Timed P := by
  induction h with
  | other hobserved hattempts => exact hs.of_same hobserved hattempts
  | trimmed _ t => exact hs.recentAttempts t w
  | recorded _ t => exact hs.recordAttempt hnow t
  | trans _ _ ih ih' => exact ih' (ih hs)

theorem RetrySteps.remembers {w : Int} (h : RetrySteps now w s s') {t : WatchTarget} {start : Int}
    (hnow : start ≤ now) (hwindow : now - seconds w ≤ start) (hs : s.Remembers t start) :
    s'.Remembers t start := by
  induction h with
  | other _ hattempts => exact hs.of_attempts (attemptsOf_of_attempts hattempts t)
  | trimmed _ u => exact hs.recentAttempts hwindow u
  | recorded _ u => exact hs.recordAttempt hnow u
  | trans _ _ ih ih' => exact ih' (ih hs)

end RuntimeState

/-- A manual retry leaves the engine but the unresolved keys and takes steps on the times. -/
def Retried (now windowSeconds : Int) (e e' : WatchEngine) : Prop :=
  e.Frame e' ∧
    (e.window = windowSeconds → RuntimeState.RetrySteps now windowSeconds e.state e'.state)

theorem Retried.same {now w : Int} {e e' : WatchEngine} (hframe : e.Frame e')
    (hobserved : e'.state.observed = e.state.observed)
    (hattempts : e'.state.attempts = e.state.attempts) : Retried now w e e' :=
  ⟨hframe, fun _ => .other hobserved hattempts⟩

theorem Retried.refl (now w : Int) (e : WatchEngine) : Retried now w e e :=
  .same (.refl e) rfl rfl

theorem Retried.trans {now w : Int} {e mid e' : WatchEngine} (h : Retried now w e mid)
    (h' : Retried now w mid e') : Retried now w e e' := by
  refine ⟨h.1.trans h'.1, fun hw => (h.2 hw).trans (h'.2 ?_)⟩
  rw [← hw, WatchEngine.window, h.1.settings, WatchEngine.window]

section Retried

variable {now w : Int} {α β : Type}

theorem retried_andThen {m : Method WatchEngine α} {f : α → Method WatchEngine β}
    (hm : m.Moves (Retried now w)) (hf : ∀ a, (f a).Moves (Retried now w)) :
    (Act.andThen m f).Moves (Retried now w) :=
  Act.Moves.andThen hm hf id Retried.trans

theorem retried_perform (op : Call) : (perform op : Method WatchEngine _).Moves (Retried now w) :=
  Act.moves_perform (Retried.refl now w) op

theorem retried_get : (Act.get : Method WatchEngine _).Moves (Retried now w) :=
  Act.moves_get (Retried.refl now w)

theorem retried_fail (e : Error) : (Act.fail e : Method WatchEngine α).Moves (Retried now w) :=
  Act.moves_fail (Retried.refl now w) e

theorem retried_ofExcept (r : Except Error α) :
    (Act.ofExcept r : Method WatchEngine α).Moves (Retried now w) :=
  Act.moves_ofExcept (Retried.refl now w) r

end Retried

theorem retried_sendManualRetry (now w : Int) (automatic : Bool) (d : Due) :
    (sendManualRetry now automatic d).Moves (Retried now w) := by
  have hrecorded : (Act.modify fun e : WatchEngine =>
      e.withState fun s => s.recordAttempt d.target now : Method WatchEngine Unit).Moves
        (Retried now w) :=
    Act.moves_modify fun e => ⟨⟨rfl, rfl, rfl, rfl⟩, fun _ => .recorded e.state d.target⟩
  have hsettled : ∀ answer, (Act.modify fun e : WatchEngine =>
      e.withState (d.settle now automatic answer) : Method WatchEngine Unit).Moves
        (Retried now w) :=
    fun answer => Act.moves_modify fun e => .same ⟨rfl, rfl, rfl, rfl⟩ (d.settle_observed _ _ _ _)
      (d.settle_attempts _ _ _ _)
  refine retried_andThen hrecorded fun _ => retried_andThen retried_get fun _ => ?_
  refine retried_andThen (retried_perform _) fun r => ?_
  refine retried_andThen (retried_ofExcept r) fun _ => ?_
  refine retried_andThen retried_get fun e => Act.moves_ite (retried_fail _) ?_
  refine retried_andThen (retried_perform _) fun answer => ?_
  refine retried_andThen (hsettled answer) fun _ => Act.moves_ite ?_ (retried_ofExcept _)
  refine retried_andThen retried_get fun _ => retried_andThen (retried_perform _) fun _ => ?_
  refine retried_andThen retried_get fun _ => ?_
  exact retried_andThen (retried_perform _) fun _ => retried_ofExcept _

theorem retried_retryFailureNow (now w : Int) (automatic : Bool) (generation : Nat)
    (target : WatchTarget) (failure : Failure) :
    (retryFailureNow now automatic generation target failure).Moves (Retried now w) := by
  have hattempts : (Act.update fun e : WatchEngine =>
      let r := e.state.recentAttempts target now e.settings.engine.attemptWindowSeconds
      (r.1, e.withState fun _ => r.2) : Method WatchEngine Nat).Moves (Retried now w) :=
    fun _ e => ⟨⟨rfl, rfl, rfl, rfl⟩, fun hw => hw ▸ .trimmed e.state target⟩
  refine retried_andThen retried_get fun e => Act.moves_ite (retried_fail _) ?_
  refine retried_andThen retried_get fun _ => ?_
  refine retried_andThen (retried_ofExcept _) fun _ => ?_
  refine retried_andThen hattempts fun attempts => Act.moves_ite (retried_fail _) ?_
  refine retried_andThen (retried_perform _) fun _ => Act.Moves.closing ?_
  exact retried_andThen (retried_perform _) fun allowed =>
    Act.moves_ite (retried_fail _) (retried_sendManualRetry now w automatic _)

/-- A manual retry leaves the engine and only trims and records attempts. -/
theorem retried_retryNow (providerName sessionId : String) (now w : Int) (automatic : Bool)
    (generation : Nat) :
    (retryNow providerName sessionId now automatic generation).Moves (Retried now w) := by
  have hunresolved : ∀ key, (Act.modify fun e : WatchEngine =>
      { e with unresolvedTargets := insert key e.unresolvedTargets } :
        Method WatchEngine Unit).Moves (Retried now w) :=
    fun key => Act.moves_modify fun e => .same ⟨rfl, rfl, rfl, rfl⟩ rfl rfl
  refine retried_andThen retried_get fun e => ?_
  split
  · exact retried_fail _
  · refine retried_andThen (retried_perform _) fun allowed => ?_
    refine Act.moves_ite (retried_fail _) (Act.moves_ite (retried_fail _) ?_)
    refine retried_andThen (retried_perform _) fun r => ?_
    refine retried_andThen (retried_ofExcept r) fun latest => ?_
    split
    · exact retried_fail _
    · exact retried_andThen (hunresolved _) fun _ =>
        retried_retryFailureNow now w automatic generation _ _

/-! ## The times of a pass -/

namespace Pass

theorem abandonPending_seen (p : Pass) (pending : PendingRecovery) (now : Int) :
    (p.abandonPending pending now).state.observed = p.state.observed := by
  unfold abandonPending RuntimeState.abandonRecovery
  cases p.state.pendingRecoveries.lookup pending.failureKey <;> rfl

theorem finishPending_seen (p : Pass) (pending : PendingRecovery) (success : Bool) (now : Int) :
    (p.finishPending pending success now).state.observed = p.state.observed := by
  unfold finishPending RuntimeState.finishRecovery
  cases p.state.pendingRecoveries.lookup pending.failureKey <;> rfl

theorem missedObservation_seen (p : Pass) (pending : PendingRecovery) (now : Int) :
    (p.missedObservation pending now).state.observed = p.state.observed := by
  have hrecorded : (p.state.recordRecoveryObservationFailure pending.failureKey now).2.observed =
      p.state.observed := by
    unfold RuntimeState.recordRecoveryObservationFailure
    cases p.state.pendingRecoveries.lookup pending.failureKey <;> rfl
  unfold missedObservation
  dsimp only
  split
  · exact (abandonPending_seen _ pending now).trans hrecorded
  · exact hrecorded

/-- An observation of a pending recovery leaves the first observations. -/
theorem observed_seen (p : Pass) (pending : PendingRecovery) (now : Int)
    (answer : Except Error TurnOutcome) :
    (p.observed pending now answer).state.observed = p.state.observed := by
  rcases answer with e | outcome
  · exact p.missedObservation_seen pending now
  · cases outcome with
    | completed => exact p.finishPending_seen pending true now
    | failed => exact p.finishPending_seen pending false now
    | unknown => exact p.missedObservation_seen pending now
    | inProgress =>
      simp only [observed]
      split
      · exact p.abandonPending_seen pending now
      · rfl

end Pass

theorem RuntimeState.Timed.considered {P : Int → Prop} {s : RuntimeState} {now : Int}
    (h : s.Timed P) (hnow : P now) (f : Failure) (t : WatchTarget) (w : Int) :
    (s.considered f t now w).Timed P :=
  (h.firstSeen hnow f).recentAttempts t w

/-- A pass remembers its own time and times remembered before. -/
theorem timed_rounds {P : Int → Prop} {now : Int} (hnow : P now) :
    KeptByRounds (fun _ _ => ()) now (fun _ => True) fun (_ : Unit) p => p.state.Timed P where
  quiet _ hi := hi
  observed {_ p} pending answer hi := hi.of_same (p.observed_seen pending now answer)
    (p.observed_observes pending now answer).attempts
  target {_ t _ p p' tr r} hr _ hi := by
    cases hr with
    | idle _ hstate _ => rw [hstate]; exact hi
    | resolved =>
      show RuntimeState.Timed P (if p.engine.state.hasPendingFor t then p.engine.state
        else p.engine.state.clearAttempts t)
      split
      · exact hi
      · exact hi.clearAttempts t
    | skipped _ _ hstate _ => rw [hstate]; exact hi.of_same rfl rfl
    | @retried f _ _ q _ hq _ _ hround =>
      subst hq
      have hconsidered : (p.state.considered f t now p.window).Timed P :=
        RuntimeState.Timed.considered hi hnow f t p.window
      cases hround with
      | undated _ hstate _ => rw [hstate]; exact RuntimeState.Timed.firstSeen hi hnow f
      | considered _ hstate _ => rw [hstate]; exact hconsidered
      | unsaved _ hstate _ => rw [hstate]; exact hconsidered.recordAttempt hnow t
      | @sent d _ _ answer _ _ _ _ _ _ hstate _ =>
        rw [hstate]
        exact (hconsidered.recordAttempt hnow t).of_same (d.settle_observed now true answer _)
          (d.settle_attempts now true answer _)

theorem PassRun.timed {P : Int → Prop} {now : Int} {generation : Nat} {e : WatchEngine}
    {p : Pass} {tr : List (Prog.Event Reply)} {rounds : List TargetRecord}
    (h : PassRun now generation ⟨e, [], 0⟩ tr rounds p) (hnow : P now) (hs : e.state.Timed P) :
    p.state.Timed P ∧ ∀ round ∈ rounds, round.before.state.Timed P := by
  have hkept := timed_rounds hnow
  have hpruned : Pass.state ⟨e.withState fun s => s.prune now, [], 0⟩ |>.Timed P := hs.prune now
  refine ⟨hkept.passRun (g := ()) h (fun _ _ => trivial) hpruned, fun round hround => ?_⟩
  obtain ⟨hseen, htargets, _⟩ := h
  obtain ⟨_, hbefore⟩ := hkept.targets_before (g := ()) htargets (fun _ _ => trivial)
    (hkept.observationRun (g := ()) hseen hpruned) round hround
  exact hbefore

/-- An operation remembers its own time and times remembered before. -/
theorem OpRecord.Executes.timed {P : Int → Prop} {record : OpRecord} {e' : WatchEngine}
    (h : record.Executes e') (hnow : ∀ now, record.op.time = some now → P now)
    (hs : record.before.state.Timed P) :
    e'.state.Timed P ∧ ∀ round ∈ record.rounds, round.before.state.Timed P := by
  have hnone : ∀ round ∈ ([] : List TargetRecord), round.before.state.Timed P :=
    fun _ hround => absurd hround List.not_mem_nil
  cases h with
  | pass _ hrounds => exact hrounds.timed (hnow _ rfl) hs
  | @observe now e tr r p hr =>
    exact ⟨(timed_rounds (hnow now rfl)).reconcilePendingOnly (g := ()) hr (hs.prune now), hnone⟩
  | @retryNow _ _ now _ _ e _ _ _ hr =>
    exact ⟨(((retried_retryNow _ _ now e.window _ _).returns hr).2 rfl).timed (hnow now rfl) hs,
      hnone⟩
  | replaceSettings hr =>
    exact ⟨((replaceSettings_upkeep _ [] _).of_history hr).2.symm ▸ hs, hnone⟩
  | replaceTargets => exact ⟨hs, hnone⟩
  | ensureProvider hr => exact ⟨((ensureProvider_upkeep _ [] _).of_history hr).2.symm ▸ hs, hnone⟩

/-- Every time a run works with is a time of the run or one the engine began with. -/
theorem EngineRun.timed {P : Int → Prop} {e₀ e : WatchEngine} {log : List OpRecord}
    (h : EngineRun e₀ log e) (h₀ : e₀.state.Timed P) (htimes : ∀ now ∈ times log, P now) :
    e.state.Timed P ∧
      ∀ record ∈ log, ∀ round ∈ record.rounds, round.before.state.Timed P := by
  induction h with
  | nil => exact ⟨h₀, fun _ hmem => absurd hmem List.not_mem_nil⟩
  | @snoc e' e'' log record _ hb hx ih =>
    subst hb
    rw [times_append] at htimes
    obtain ⟨hend, hall⟩ := ih fun now hnow => htimes now (List.mem_append_left _ hnow)
    obtain ⟨hend', hrounds⟩ := hx.timed (fun now hnow =>
      htimes now (List.mem_append_right _ (by simp [hnow]))) hend
    refine ⟨hend', fun record' hmem => ?_⟩
    rcases List.mem_append.mp hmem with hmem | hmem
    · exact hall record' hmem
    · obtain rfl := List.mem_singleton.mp hmem
      exact hrounds

end Watchcat
