import Watchcat.Engine.Runs

/-!
# The attempt budget of a session

Every automatic resume call of a session is preceded by an attempt in the
runtime state. As long as no attempt inside the window is dropped, the attempts
cover the calls, and the limit checked against them bounds the calls in every
window.
-/

namespace Watchcat

open Watchcat.Core RuntimeState

/-- The call resumes the session of the target. -/
def resumesSession (t : WatchTarget) : Prog.Event Reply → Bool
  | ⟨.resume provider sessionId _ _, _⟩ => provider == t.provider && sessionId == t.sessionId
  | _ => false

/-- The time of the pass, once for every resume call of the session. -/
def resumeTimesAt (t : WatchTarget) (now : Int) (tr : List (Prog.Event Reply)) : List Int :=
  (tr.filter (resumesSession t)).map fun _ => now

/-- The times of the automatic resume calls of a session. -/
def resumeTimes (t : WatchTarget) (log : List OpRecord) : List Int :=
  log.flatMap fun record =>
    match record.op with
    | .pass now _ => resumeTimesAt t now record.calls
    | _ => []

/-- The answer about the latest turn, where the call asks for it. -/
def latestAnswer : Prog.Event Reply → Option (Except Error (Option Failure))
  | ⟨.latestFailure _ _, answer⟩ => some answer
  | _ => none

/-- What the provider first says about the latest turn in a round. -/
def toldLatest (round : TargetRecord) : Option (Except Error (Option Failure)) :=
  round.calls.findSome? latestAnswer

/-- The policy under which a round makes its resume call. -/
def appliedPolicy (settings : Settings) (round : TargetRecord) : Option ResolvedPolicy :=
  if resumes round.calls = [] then none
  else match toldLatest round with
    | some (.ok (some f)) => some (settings.policy f.condition)
    | _ => none

/-- The attempts of the target are all older than the window. -/
def AttemptsPast (t : WatchTarget) (now windowSeconds : Int) (s : RuntimeState) : Prop :=
  ∀ a ∈ s.attemptsOf t, a < now - seconds windowSeconds

/-- A round that is told of no failure does not clear an attempt inside the window. -/
def KeepsBudget (t : WatchTarget) (now : Int) (round : TargetRecord) : Prop :=
  round.element.key = t.key → toldLatest round = some (.ok none) →
    round.before.state.hasPendingFor round.element = true ∨
      AttemptsPast t now round.before.window round.before.state

/-- Pruning at the time drops no attempt inside the window. -/
def PruneKeepsBudget (t : WatchTarget) (now : Int) (e : WatchEngine) : Prop :=
  ∀ a ∈ e.state.attemptsOf t, now - seconds e.window ≤ a → now - retention ≤ a

/-- No step of the operation drops an attempt of the target inside the window. -/
def OpRecord.KeepsBudget (t : WatchTarget) (record : OpRecord) : Prop :=
  match record.op with
  | .pass now _ => PruneKeepsBudget t now record.before ∧
      ∀ round ∈ record.rounds, Watchcat.KeepsBudget t now round
  | .observe now => PruneKeepsBudget t now record.before
  | _ => True

/-- The policies under which the session was resumed. -/
def appliedPolicies (t : WatchTarget) (log : List OpRecord) : List ResolvedPolicy :=
  log.flatMap fun record =>
    (record.rounds.filter fun round => round.element.key == t.key).filterMap
      (appliedPolicy record.before.settings)

/-! ## Attempts -/

theorem hasKey_of_session {t u : WatchTarget} (hprovider : u.provider = t.provider)
    (hsession : u.sessionId = t.sessionId) : u.key = t.key := by
  rw [WatchTarget.key, hprovider, hsession, WatchTarget.key]

/-- Looking at a failure trims the attempts of its target to the window. -/
theorem RuntimeState.considered_attemptsOf (s : RuntimeState) (f : Failure) (u t : WatchTarget)
    (now w : Int) : (s.considered f u now w).attemptsOf t =
      if t.key = u.key then (s.attemptsOf u).filter fun a => now - seconds w ≤ a
      else s.attemptsOf t := by
  rw [considered, recentAttempts_attemptsOf, attemptsOf_of_attempts (firstSeen_attempts s f now),
    attemptsOf_of_attempts (firstSeen_attempts s f now)]

theorem RuntimeState.considered_covers (s : RuntimeState) (f : Failure) (u t : WatchTarget)
    (now w : Int) :
    Covers (now - seconds w) ((s.considered f u now w).attemptsOf t) (s.attemptsOf t) := by
  have h := (s.firstSeen f now).2.recentAttempts_covers u now w t
  rwa [attemptsOf_of_attempts (firstSeen_attempts s f now) t] at h

/-! ## One round -/

/-- The calls are covered by the attempts of the session and within the limit. -/
structure Budgeted (t : WatchTarget) (now windowSeconds : Int) (limit : Nat) (times : List Int)
    (s : RuntimeState) : Prop where
  covered : Covers (now - seconds windowSeconds) (s.attemptsOf t) times
  within : WithinLimit (seconds windowSeconds) limit times

namespace Budgeted

variable {t : WatchTarget} {now w : Int} {limit : Nat} {times : List Int} {s s' : RuntimeState}

theorem covers (h : Budgeted t now w limit times s)
    (hs : Covers (now - seconds w) (s'.attemptsOf t) (s.attemptsOf t)) :
    Budgeted t now w limit times s' := ⟨hs.trans h.covered, h.within⟩

theorem of_attempts (h : Budgeted t now w limit times s) (hs : s'.attempts = s.attempts) :
    Budgeted t now w limit times s' := by
  refine h.covers ?_
  rw [attemptsOf_of_attempts hs]
  exact .refl _ _

theorem later {now' : Int} (h : Budgeted t now w limit times s) (hle : now ≤ now') :
    Budgeted t now' w limit times s := ⟨h.covered.mono (by omega), h.within⟩

/-- Pruning keeps the calls covered if it drops no attempt inside the window. -/
theorem prune (h : Budgeted t now w limit times s)
    (hkeeps : ∀ a ∈ s.attemptsOf t, now - seconds w ≤ a → now - retention ≤ a) :
    Budgeted t now w limit times (s.prune now) := by
  refine h.covers ?_
  rw [prune_attemptsOf]
  exact .filter _ _ fun a ha hlive => decide_eq_true (hkeeps a ha hlive)

/-- Clearing the attempts of a session whose attempts are all past. -/
theorem cleared (h : Budgeted t now w limit times s) {u : WatchTarget}
    (hpast : u.key = t.key → AttemptsPast t now w s) :
    Budgeted t now w limit times (s.clearAttempts u) := by
  refine h.covers ?_
  rw [clearAttempts_attemptsOf]
  split
  · rename_i hkey
    exact .of_past _ (hpast hkey.symm)
  · exact .refl _ _

/-- A resume call that was admitted below the limit and recorded. -/
theorem sent (h : Budgeted t now w limit times s) (f : Failure) (d : Due)
    (answer : Except Error ResumeReceipt)
    (hroom : d.target.key = t.key →
      ((s.firstSeen f now).2.recentAttempts d.target now w).1 < limit) :
    Budgeted t now w limit
      (times ++ if d.target.provider = t.provider ∧ d.target.sessionId = t.sessionId then [now]
        else [])
      (d.settle now true answer ((s.considered f d.target now w).recordAttempt d.target now)) := by
  have hconsidered := h.covers (s.considered_covers f d.target t now w)
  split
  · rename_i hsession
    have hkey := hasKey_of_session hsession.1 hsession.2
    refine ⟨?_, h.within.snoc hconsidered.covered ?_⟩
    · rw [attemptsOf_of_attempts (d.settle_attempts now true answer _), recordAttempt_attemptsOf,
        if_pos hkey.symm, attemptsOf_congr _ hkey]
      exact hconsidered.covered.snoc now
    · have hcount := hroom hkey
      rw [considered_attemptsOf, if_pos hkey.symm, List.countP_filter]
      rw [recentAttempts, attemptsOf_of_attempts (firstSeen_attempts s f now),
        ← List.countP_eq_length_filter] at hcount
      simpa only [Bool.and_self] using hcount
  · rw [List.append_nil]
    refine (hconsidered.covers
      ((s.considered f d.target now w).recordAttempt_covers d.target now _ t)).of_attempts ?_
    exact d.settle_attempts now true answer _

end Budgeted

/-- A manual retry loses no attempt inside the window. -/
theorem ManualRound.covers {now : Int} {automatic : Bool} {generation : Nat} {e e' : WatchEngine}
    {tr : List (Prog.Event Reply)} {r : Except Error ResumeReceipt}
    (h : ManualRound now automatic generation e tr r e') (t : WatchTarget) :
    Covers (now - seconds e.window) (e'.state.attemptsOf t) (e.state.attemptsOf t) := by
  cases h with
  | refused _ hprepared => exact hprepared.attempts t
  | @sent d _ _ _ _ _ _ _ hprepared hstate =>
    rw [hstate, attemptsOf_of_attempts (d.settle_attempts now automatic r _)]
    exact hprepared.attempts t

/-! ## Rounds -/

/-- Read the resume calls of the session. -/
def noteResume (t : WatchTarget) (now : Int) (times : List Int) (e : Prog.Event Reply) :
    List Int := times ++ resumeTimesAt t now [e]

theorem foldl_noteResume (t : WatchTarget) (now : Int) (times : List Int)
    (tr : List (Prog.Event Reply)) :
    tr.foldl (noteResume t now) times = times ++ resumeTimesAt t now tr := by
  induction tr generalizing times with
  | nil => simp [resumeTimesAt]
  | cons e tr ih =>
    rw [List.foldl_cons, ih, noteResume, List.append_assoc]
    simp only [resumeTimesAt, ← List.map_append, ← List.filter_append, List.singleton_append]

theorem resumesSession_quiet {t : WatchTarget} {e : Prog.Event Reply}
    (he : e.1.isResume = false) : resumesSession t e = false := by
  obtain ⟨op, r⟩ := e
  cases op <;> first
    | rfl
    | cases he

theorem resumeTimesAt_quiet (t : WatchTarget) (now : Int) {tr : List (Prog.Event Reply)}
    (htr : resumes tr = []) : resumeTimesAt t now tr = [] := by
  have hnone : tr.filter (resumesSession t) = [] := by
    refine List.filter_eq_nil_iff.mpr fun e he => ?_
    rw [Bool.not_eq_true]
    exact resumesSession_quiet (Bool.eq_false_iff.mpr (List.filter_eq_nil_iff.mp htr e he))
  rw [resumeTimesAt, hnone]
  rfl

theorem resumeTimesAt_sent (t : WatchTarget) (now : Int) (generation : Nat) (d : Due)
    (s : RuntimeState) (answer : Except Error ResumeReceipt) {pre post : List (Prog.Event Reply)}
    (hpre : resumes pre = []) (hpost : resumes post = []) :
    resumeTimesAt t now (pre ++ (sentCalls generation d s answer ++ post)) =
      if d.target.provider = t.provider ∧ d.target.sessionId = t.sessionId then [now] else [] := by
  have hparts : ∀ tr tr' : List (Prog.Event Reply), resumeTimesAt t now (tr ++ tr') =
      resumeTimesAt t now tr ++ resumeTimesAt t now tr' := fun tr tr' => by
    simp only [resumeTimesAt, List.filter_append, List.map_append]
  rw [hparts, hparts, resumeTimesAt_quiet t now hpre, resumeTimesAt_quiet t now hpost,
    List.append_nil, List.nil_append]
  simp only [resumeTimesAt, sentCalls, List.filter_cons, resumesSession, List.filter_nil,
    Bool.and_eq_true, beq_iff_eq, Bool.false_eq_true, if_false]
  split <;> rfl

/-- A round with a resume call applies the policy of the failure it was told. -/
theorem appliedPolicy_retried (settings : Settings) {t : WatchTarget} {p : Pass}
    {generation : Nat} {f : Failure} {tr : List (Prog.Event Reply)} (hsent : resumes tr ≠ []) :
    appliedPolicy settings ⟨t, p, ⟨.permitAllows t generation, true⟩ ::
        ⟨.latestFailure t.provider t.sessionId, .ok (some f)⟩ :: tr⟩ =
      some (settings.policy f.condition) := by
  have hcalls : resumes (⟨.permitAllows t generation, true⟩ ::
      ⟨.latestFailure t.provider t.sessionId, .ok (some f)⟩ :: tr) ≠ [] := hsent
  rw [appliedPolicy, if_neg hcalls]
  rfl

/-- Every round of a pass keeps the calls budgeted. -/
theorem budgeted_rounds (t : WatchTarget) (now : Int) (settings : Settings) (limit : Nat) :
    KeptByRounds (noteResume t now) now
      (fun round => KeepsBudget t now round ∧ (round.element.key = t.key →
        ∀ policy ∈ appliedPolicy settings round, policy.maxAttempts ≤ limit))
      fun times p => p.engine.settings = settings ∧
        Budgeted t now settings.engine.attemptWindowSeconds limit times p.state where
  quiet htr hi := by
    rwa [foldl_noteResume, resumeTimesAt_quiet t now htr, List.append_nil]
  observed {times p} pending answer hi := by
    have hobserves := p.observed_observes pending now answer
    exact ⟨hobserves.settings.trans hi.1, hi.2.of_attempts hobserves.attempts⟩
  target {generation u times p p' tr r} hr hc hi := by
    obtain ⟨rfl, hi⟩ := hi
    rw [foldl_noteResume]
    cases hr with
    | idle htr hstate hkept =>
      rw [resumeTimesAt_quiet t now htr, List.append_nil, hstate]
      exact ⟨hkept.settings, hi⟩
    | resolved =>
      rw [resumeTimesAt_quiet t now (by rfl), List.append_nil]
      refine ⟨rfl, ?_⟩
      show Budgeted t now _ limit times (if p.engine.state.hasPendingFor u then p.engine.state
        else p.engine.state.clearAttempts u)
      split
      · exact hi
      · rename_i hpending
        exact hi.cleared fun hkey => (hc.1 hkey rfl).resolve_left hpending
    | skipped _ _ hstate hkept =>
      rw [resumeTimesAt_quiet t now (by rfl), List.append_nil, hstate]
      exact ⟨hkept.settings, hi.of_attempts rfl⟩
    | @retried f tr _ q _ hq _ _ hround =>
      subst hq
      have hcut : resumeTimesAt t now (⟨.permitAllows u generation, true⟩ ::
          ⟨.latestFailure u.provider u.sessionId, .ok (some f)⟩ :: tr) =
            resumeTimesAt t now tr := rfl
      have hconsidered := p.state.considered_covers f u t now p.window
      rw [hcut]
      cases hround with
      | undated _ hstate hkept =>
        rw [resumeTimesAt_quiet t now (by rfl), List.append_nil, hstate]
        exact ⟨hkept.settings, hi.of_attempts (p.state.firstSeen_attempts f now)⟩
      | considered htr hstate hkept =>
        rw [resumeTimesAt_quiet t now htr, List.append_nil, hstate]
        exact ⟨hkept.settings, hi.covers hconsidered⟩
      | unsaved htr hstate hkept =>
        rw [resumeTimesAt_quiet t now htr, List.append_nil, hstate]
        exact ⟨hkept.settings, (hi.covers hconsidered).covers
          (recordAttempt_covers _ u now _ t)⟩
      | @sent d pre post answer _ hready htarget hfailure hpre hpost hstate hkept =>
        subst htarget hfailure
        rw [resumeTimesAt_sent t now _ _ _ _ hpre hpost, hstate]
        refine ⟨hkept.settings, hi.sent d.failure d answer fun hkey => ?_⟩
        have hlimit := hready.limit
        rw [hready.attempts, hready.policy] at hlimit
        refine lt_of_lt_of_le hlimit (hc.2 hkey _ (appliedPolicy_retried _ ?_))
        simp [sentCalls, resumes_cons, Call.isResume]

/-! ## Runs -/

theorem resumeTimes_snoc (t : WatchTarget) (log : List OpRecord) (record : OpRecord) :
    resumeTimes t (log ++ [record]) = resumeTimes t log ++ resumeTimes t [record] :=
  List.flatMap_append

theorem resumeTimes_other (t : WatchTarget) {record : OpRecord}
    (h : ∀ now generation, record.op ≠ .pass now generation) : resumeTimes t [record] = [] := by
  obtain ⟨op, before, calls, rounds, events⟩ := record
  cases op with
  | pass now generation => exact absurd rfl (h now generation)
  | _ => rfl

/-- In every run with fixed settings whose steps keep the budget, the calls are budgeted at any
time that is not before the run. -/
theorem run_budgeted (t : WatchTarget) {settings : Settings} {limit : Nat} {e₀ e : WatchEngine}
    {log : List OpRecord} (h : EngineRun e₀ log e) (hclock : ClockMonotone log)
    (hfixed : ∀ record ∈ log, record.before.settings = settings)
    (hkeeps : ∀ record ∈ log, record.KeepsBudget t)
    (hlimit : ∀ policy ∈ appliedPolicies t log, policy.maxAttempts ≤ limit) {now : Int}
    (hnow : ∀ past ∈ times log, past ≤ now) :
    Budgeted t now settings.engine.attemptWindowSeconds limit (resumeTimes t log) e.state := by
  induction h generalizing now with
  | nil => exact ⟨fun _ _ => Nat.zero_le _, .nil _ _⟩
  | @snoc e' e'' log record hrun hb hx ih =>
    subst hb
    obtain ⟨hprior, hbefore⟩ := hclock.snoc
    rw [times_append] at hnow
    have hpast : ∀ past ∈ times log, past ≤ now := fun past hmem =>
      hnow past (List.mem_append.mpr (Or.inl hmem))
    have hlast : ∀ past, record.op.time = some past → past ≤ now := fun past htime =>
      hnow past (List.mem_append.mpr (Or.inr (by rw [htime]; exact List.mem_singleton.mpr rfl)))
    have hmem : record ∈ log ++ [record] :=
      List.mem_append.mpr (Or.inr (List.mem_singleton.mpr rfl))
    have hsettings := hfixed record hmem
    have hwindow : record.before.window = settings.engine.attemptWindowSeconds := by
      rw [WatchEngine.window, hsettings]
    have ih := fun {now : Int} (hnow : ∀ past ∈ times log, past ≤ now) =>
      ih hprior (fun r hr => hfixed r (List.mem_append.mpr (Or.inl hr)))
        (fun r hr => hkeeps r (List.mem_append.mpr (Or.inl hr)))
        (fun policy hp => hlimit policy (by
          rw [appliedPolicies, List.flatMap_append]
          exact List.mem_append.mpr (Or.inl hp))) hnow
    have hkeep := hkeeps record hmem
    rw [resumeTimes_snoc]
    cases hx with
    | @pass time generation e tr rounds r p _ hrounds =>
      obtain ⟨hprune, hround⟩ := hkeep
      rw [PruneKeepsBudget, hwindow] at hprune
      have hend := (budgeted_rounds t time settings limit).passRun hrounds
        (fun round hr => ⟨hround round hr, fun hkey policy hpolicy => hlimit policy (by
          simp only [appliedPolicies, List.flatMap_append, List.flatMap_cons, List.flatMap_nil,
            List.append_nil]
          refine List.mem_append.mpr (Or.inr (List.mem_filterMap.mpr ⟨round, ?_, ?_⟩))
          · exact List.mem_filter.mpr ⟨hr, beq_iff_eq.mpr hkey⟩
          · rw [hsettings]
            exact hpolicy)⟩)
        ⟨hsettings, (ih (hbefore time rfl)).prune hprune⟩
      rw [foldl_noteResume] at hend
      have htimes : resumeTimes t [⟨.pass time generation, e, tr, rounds, p.events⟩] =
          resumeTimesAt t time tr := List.append_nil _
      rw [htimes]
      exact hend.2.later (hlast time rfl)
    | @observe time e tr r p hr =>
      have hprune : PruneKeepsBudget t time e := hkeep
      rw [PruneKeepsBudget, hwindow] at hprune
      have hend := (budgeted_rounds t time settings limit).reconcilePendingOnly hr
        ⟨hsettings, (ih (hbefore time rfl)).prune hprune⟩
      obtain ⟨seen, post, rfl, hpost, hseen⟩ := reconcilePendingOnly_run hr
      rw [foldl_noteResume, resumeTimesAt_quiet t time
        (by rw [resumes_append, hseen.quiet, hpost]; rfl), List.append_nil] at hend
      rw [resumeTimes_other t (by intro _ _ hop; cases hop), List.append_nil]
      exact hend.2.later (hlast time rfl)
    | @retryNow _ _ time _ _ _ _ _ _ hr =>
      rw [resumeTimes_other t (by intro _ _ hop; cases hop), List.append_nil]
      refine ((ih (hbefore time rfl)).covers ?_).later (hlast time rfl)
      rw [← hwindow]
      exact (retryNow_round hr).covers t
    | replaceSettings hr =>
      rw [resumeTimes_other t (by intro _ _ hop; cases hop), List.append_nil]
      exact (ih hpast).of_attempts (congrArg RuntimeState.attempts
        ((replaceSettings_upkeep _ [] _).of_history hr).2)
    | replaceTargets =>
      rw [resumeTimes_other t (by intro _ _ hop; cases hop), List.append_nil]
      exact (ih hpast).of_attempts rfl
    | ensureProvider hr =>
      rw [resumeTimes_other t (by intro _ _ hop; cases hop), List.append_nil]
      exact (ih hpast).of_attempts (congrArg RuntimeState.attempts
        ((ensureProvider_upkeep _ [] _).of_history hr).2)

/-- In every run with fixed settings whose steps drop no attempt inside the window, the automatic
resume calls of a session in any window are within the limits of the policies applied. -/
theorem resumes_within_budget (t : WatchTarget) {settings : Settings} {limit : Nat}
    {e₀ e : WatchEngine} {log : List OpRecord} (h : EngineRun e₀ log e)
    (hclock : ClockMonotone log) (hfixed : ∀ record ∈ log, record.before.settings = settings)
    (hkeeps : ∀ record ∈ log, record.KeepsBudget t)
    (hlimit : ∀ policy ∈ appliedPolicies t log, policy.maxAttempts ≤ limit) (start : Int) :
    (resumeTimes t log).countP (fun at_ =>
      start ≤ at_ ∧ at_ ≤ start + seconds settings.engine.attemptWindowSeconds) ≤ limit := by
  obtain ⟨now, hnow⟩ := exists_after log
  exact (run_budgeted t h hclock hfixed hkeeps hlimit hnow).within start

/-! ## A lost acknowledgement -/

/-- One automatic attempt for a lost connection. -/
def singleAttempt : Settings where
  policies := Table.empty.insert "network.connection_failed" { maxAttempts := some 1 }

/-- A turn of a session and when it fails. -/
structure ScriptedTurn where
  turnId : String
  failsAt : Int

/-- The answer reports the newest of the turns if it has failed, and the status of the turns. -/
def answersTruly (turns : List ScriptedTurn) (now : Int) : Prog.Event Reply → Bool
  | ⟨.latestFailure _ _, answer⟩ =>
    match answer, turns.getLast? with
    | .ok none, some turn => now < turn.failsAt
    | .ok (some f), some turn => f.turnId == turn.turnId && turn.failsAt ≤ now
    | _, _ => false
  | ⟨.turnOutcome _ _ turnId, answer⟩ =>
    match answer, turns.find? fun turn => turn.turnId == turnId with
    | .ok .inProgress, some turn => now < turn.failsAt
    | .ok .failed, some turn => turn.failsAt ≤ now
    | _, _ => false
  | _ => true

/-- A resume call starts the next turn of the script, which runs for some time; its
acknowledgement names the turn or is lost. -/
def startsTurn (turn : ScriptedTurn) (now : Int) : Except Error ResumeReceipt → Bool
  | .ok receipt => receipt.turnId == turn.turnId && now < turn.failsAt
  | .error e => e.acknowledgementIsUnknown && now < turn.failsAt

/-- The calls of a session whose turns are those of the script, the later ones started only by
resume calls. -/
def followsScript (script : List ScriptedTurn) : Nat → List (Int × Prog.Event Reply) → Bool
  | _, [] => true
  | started, (now, ⟨.resume _ _ _ _, answer⟩) :: rest =>
    ((script[started]?).any fun turn => startsTurn turn now answer) &&
      followsScript script (started + 1) rest
  | started, (now, e) :: rest =>
    answersTruly (script.take started) now e && followsScript script started rest

/-- The timed calls of a run. -/
def timedCalls (log : List OpRecord) : List (Int × Prog.Event Reply) :=
  log.flatMap fun record => record.op.time.toList.flatMap fun now =>
    record.calls.map fun e => (now, e)

theorem timedCalls_sample (log : List OpRecord) :
    timedCalls log = (log.map OpRecord.sample).flatMap fun r =>
      r.1.time.toList.flatMap fun now => r.2.2.map fun e => (now, e) := by
  rw [List.flatMap_map]
  rfl

theorem resumeTimes_sample (t : WatchTarget) (log : List OpRecord) :
    resumeTimes t log = (log.map OpRecord.sample).flatMap fun r =>
      match r.1 with
      | .pass now _ => resumeTimesAt t now r.2.2
      | _ => [] := by
  rw [List.flatMap_map]
  rfl

/-- The failures the provider reports all have the condition. -/
def reportsOnly (condition : String) (calls : List (Int × Prog.Event Reply)) : Bool :=
  calls.all fun call =>
    match latestAnswer call.2 with
    | some (.ok (some f)) => f.condition == condition
    | _ => true

/-- The turns of a session that keeps failing: each recovery turn runs two seconds or more. -/
def lostTurns : List ScriptedTurn := [⟨"t₀", 0⟩, ⟨"t₁", seconds 7⟩, ⟨"t₂", seconds 100⟩]

/-- The acknowledgement of the first recovery is lost; a poll sees its turn in progress before
it fails. -/
def lostScript : List (Int × SampleProvider) :=
  [(0, { latest := some (sampleFailure "t₀") }),
    (seconds 5, { latest := some (sampleFailure "t₀")
                  resumed := .error (.acknowledgementUnknown "timeout") }),
    (seconds 6, { latest := none }),
    (seconds 7, { latest := some (sampleFailure "t₁") }),
    (seconds 12, { latest := some (sampleFailure "t₁"), resumed := .ok (sampleReceipt "t₂") })]

/-- Under a limit of one attempt the session is resumed twice within seven seconds: no pending
recovery protects the attempt when the poll in between sees no failure. -/
theorem resumes_exceed_budget : ∃ (e : WatchEngine) (log : List OpRecord),
    singleAttempt.validate.isOk = true ∧ EngineRun (sampleEngine singleAttempt) log e ∧
      ClockMonotone log ∧ (∀ record ∈ log, record.before.settings = singleAttempt) ∧
      followsScript lostTurns 1 (timedCalls log) = true ∧
      reportsOnly "network.connection_failed" (timedCalls log) = true ∧
      (singleAttempt.policy "network.connection_failed").maxAttempts = 1 ∧
      (resumeTimes sampleTarget log).countP (fun at_ => seconds 5 ≤ at_ ∧
        at_ ≤ seconds 5 + seconds singleAttempt.engine.attemptWindowSeconds) = 2 := by
  obtain ⟨log, hrun, hlog⟩ :=
    SampleProvider.run_passes lostScript (.nil (sampleEngine singleAttempt))
  refine ⟨_, log, by decide, hrun, ?_, ?_, ?_, ?_, by decide, ?_⟩
  · rw [ClockMonotone, times_sample, hlog]
    decide
  · intro record hrecord
    have hsample := List.mem_map_of_mem (f := OpRecord.sample) hrecord
    rw [hlog] at hsample
    exact SampleProvider.passes_settings _ _ _ hsample
  · rw [timedCalls_sample, hlog]
    decide
  · rw [timedCalls_sample, hlog]
    decide
  · rw [resumeTimes_sample, hlog]
    decide

/-- The failure a round was told is among those the run reports. -/
theorem reported_of_told {e₀ e : WatchEngine} {log : List OpRecord} (h : EngineRun e₀ log e)
    {record : OpRecord} (hrecord : record ∈ log) {round : TargetRecord}
    (hround : round ∈ record.rounds) {answer : Except Error (Option Failure)}
    (htold : toldLatest round = some answer) :
    ∃ e ∈ record.calls, latestAnswer e = some answer := by
  obtain ⟨e', hx⟩ := h.executes record hrecord
  obtain ⟨event, hevent, hanswer⟩ := List.exists_of_findSome?_eq_some htold
  exact ⟨event, hx.round_calls hround hevent, hanswer⟩

/-- An answer about the latest turn reports a failure with the condition. -/
def reportsFailure (condition : String) (e : Prog.Event Reply) : Bool :=
  match latestAnswer e with
  | some (.ok none) => false
  | some (.ok (some f)) => f.condition == condition
  | _ => true

/-- The passes up to the lost acknowledgement. -/
def sentScript : List (Int × SampleProvider) := lostScript.take 2

theorem resumes_within_budget_sent : ∃ (e : WatchEngine) (log : List OpRecord),
    EngineRun (sampleEngine singleAttempt) log e ∧
      resumeTimes sampleTarget log = [seconds 5] ∧ ∀ start,
        (resumeTimes sampleTarget log).countP (fun at_ => start ≤ at_ ∧
          at_ ≤ start + seconds singleAttempt.engine.attemptWindowSeconds) ≤ 1 := by
  obtain ⟨log, hrun, hlog⟩ :=
    SampleProvider.run_passes sentScript (.nil (sampleEngine singleAttempt))
  have hsample : ∀ record ∈ log,
      record.sample ∈ (SampleProvider.passes sentScript (sampleEngine singleAttempt)).1 := by
    intro record hrecord
    rw [← hlog]
    exact List.mem_map_of_mem hrecord
  have hfresh : ∀ r ∈ (SampleProvider.passes sentScript (sampleEngine singleAttempt)).1,
      r.2.1.state.attemptsOf sampleTarget = [] ∧
        ∀ e ∈ r.2.2, reportsFailure "network.connection_failed" e = true := by decide
  have hsettings : ∀ record ∈ log, record.before.settings = singleAttempt :=
    fun record hrecord => SampleProvider.passes_settings _ _ _ (hsample record hrecord)
  -- What a round is told is a failure of the one condition.
  have htold : ∀ record ∈ log, ∀ round ∈ record.rounds, ∀ latest,
      toldLatest round = some (.ok latest) →
        ∃ f, latest = some f ∧ f.condition = "network.connection_failed" := by
    intro record hrecord round hround latest hlatest
    obtain ⟨e, he, hanswer⟩ := reported_of_told hrun hrecord hround hlatest
    have hreports := (hfresh _ (hsample record hrecord)).2 e he
    rw [reportsFailure, hanswer] at hreports
    cases latest with
    | none => cases hreports
    | some f => exact ⟨f, rfl, beq_iff_eq.mp hreports⟩
  refine ⟨_, log, hrun, ?_, resumes_within_budget sampleTarget hrun ?_ hsettings ?_ ?_⟩
  · rw [resumeTimes_sample, hlog]
    decide
  · rw [ClockMonotone, times_sample, hlog]
    decide
  · intro record hrecord
    have hprune : ∀ now, PruneKeepsBudget sampleTarget now record.before := by
      intro now a ha
      have hnone := (hfresh _ (hsample record hrecord)).1
      rw [OpRecord.sample] at hnone
      rw [hnone] at ha
      cases ha
    have hround : ∀ now, ∀ round ∈ record.rounds, KeepsBudget sampleTarget now round := by
      intro now round hround _ hnone
      obtain ⟨_, hsome, _⟩ := htold record hrecord round hround none hnone
      cases hsome
    rw [OpRecord.KeepsBudget]
    split
    · exact ⟨hprune _, hround _⟩
    · exact hprune _
    · trivial
  · intro policy hpolicy
    obtain ⟨record, hrecord, hpolicy⟩ := List.mem_flatMap.mp hpolicy
    obtain ⟨round, hround, happlied⟩ := List.mem_filterMap.mp hpolicy
    have hround := List.mem_of_mem_filter hround
    rw [hsettings record hrecord, appliedPolicy] at happlied
    split at happlied
    · cases happlied
    · split at happlied
      · rename_i f hlatest
        obtain ⟨_, hsome, hcondition⟩ := htold record hrecord round hround (some f) hlatest
        cases hsome
        cases happlied
        rw [hcondition]
        decide
      · cases happlied

end Watchcat
