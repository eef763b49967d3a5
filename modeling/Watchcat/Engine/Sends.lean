import Watchcat.Engine.Runs

/-!
# The calls that lead to a resume

A round that makes its resume call has made exactly the calls listed here before
it, each with the one answer that lets it go on. A round has no second resume
call.
-/

namespace Watchcat

open Watchcat.Core Method

/-- The calls of a round up to the send boundary: the latest turn was asked for twice. -/
def checkedCalls (generation : Nat) (d : Due) (latest : Failure) : List (Prog.Event Reply) :=
  [⟨.permitAllows d.target generation, true⟩,
    ⟨.latestFailure d.target.provider d.target.sessionId, .ok (some d.failure)⟩,
    ⟨.permitAllows d.target generation, true⟩,
    ⟨.latestFailure d.target.provider d.target.sessionId, .ok (some latest)⟩,
    ⟨.permitAllows d.target generation, true⟩]

theorem RuntimeState.firstSeen_attemptsOf (s : RuntimeState) (f : Failure) (now : Int)
    (t : WatchTarget) : (s.firstSeen f now).2.attemptsOf t = s.attemptsOf t := by
  rw [attemptsOf, firstSeen_attempts, attemptsOf]

/-- The runtime state that is saved before the failure is resumed. -/
def Due.recorded (d : Due) (now : Int) (p : Pass) : RuntimeState :=
  (p.state.considered d.failure d.target now p.window).recordAttempt d.target now

/-- A round of the target that made its resume call. -/
structure SendingRound (now : Int) (generation : Nat) (t : WatchTarget) (p : Pass)
    (tr : List (Prog.Event Reply)) (d : Due) (latest : Failure)
    (answer : Except Error ResumeReceipt) (post : List (Prog.Event Reply)) : Prop where
  target : d.target = t
  ready : d.Ready now p
  recheck : latest.turnId = d.failure.turnId
  calls : tr = checkedCalls generation d latest ++
    (sentCalls generation d (d.recorded now p) answer ++ post)
  quiet : resumes post = []

/-- The last checks end without a resume call or with the one they allow. -/
theorem resumeTarget_sends {now : Int} {generation : Nat} {d : Due} {p p' : Pass}
    {tr : List (Prog.Event Reply)} {r : Except Error Unit}
    (h : (resumeTarget now generation d).Returns p tr r p') :
    resumes tr = [] ∨ ∃ latest answer post, latest.turnId = d.failure.turnId ∧
      resumes post = [] ∧ tr = [⟨.permitAllows d.target generation, true⟩,
        ⟨.latestFailure d.target.provider d.target.sessionId, .ok (some latest)⟩,
        ⟨.permitAllows d.target generation, true⟩] ++
        (sentCalls generation d (p.state.recordAttempt d.target now) answer ++ post) := by
  refine Act.Follows.of_history (Q := fun tr _ _ => resumes tr = [] ∨
    ∃ latest answer post, latest.turnId = d.failure.turnId ∧ resumes post = [] ∧
      tr = [⟨.permitAllows d.target generation, true⟩,
        ⟨.latestFailure d.target.provider d.target.sessionId, .ok (some latest)⟩,
        ⟨.permitAllows d.target generation, true⟩] ++
        (sentCalls generation d (p.state.recordAttempt d.target now) answer ++ post)) ?_ h
  simp only [resumeTarget, Act.bind_eq, perform, Act.follows_andThen, Act.follows_modify,
    Act.follows_perform, Act.follows_ofExcept, Act.follows_ite, Act.follows_closing,
    Monitor.history, true_and, List.nil_append]
  refine fun first => ⟨fun _ => .inl rfl, fun hfirst latest => ?_⟩
  cases latest with
  | error e => exact .inl rfl
  | ok latest =>
    refine fun second => ⟨fun _ => .inl rfl, fun hsecond => ⟨fun _ => .inl rfl, fun hturn => ?_⟩⟩
    refine fun _ third => ⟨fun _ => ⟨trivial, fun _ => .inl rfl⟩, fun hthird => ?_⟩
    simp only [Bool.not_eq_true', Bool.not_eq_false] at hfirst hsecond hthird
    subst hfirst hsecond hthird
    have hlatest : latest.map Failure.turnId = some d.failure.turnId := not_not.mp hturn
    obtain ⟨f, rfl, hf⟩ := Option.map_eq_some_iff.mp hlatest
    refine Act.follows_history.mpr fun tr r p' hr => ⟨trivial, fun _ => ?_⟩
    cases sendRecovery_round hr with
    | unsaved htr => exact .inl (by simpa [resumes_cons, Call.isResume] using htr)
    | @sent post answer _ hpost =>
      refine .inr ⟨f, answer, post ++ [⟨.leaveSendBoundary, ()⟩], hf, ?_, rfl⟩
      simpa [resumes_cons, Call.isResume] using hpost

theorem retryFailure_sends {now : Int} {generation : Nat} {t : WatchTarget} {f : Failure}
    {p p' : Pass} {tr : List (Prog.Event Reply)} {r : Except Error Unit}
    (hhandled : p.state.Unhandled f)
    (haction : (p.engine.settings.policy f.condition).action ≠ .skip)
    (h : (retryFailure now generation t f (p.engine.settings.policy f.condition)).Returns p tr r
      p') :
    resumes tr = [] ∨ ∃ d latest answer post, SendingRound now generation t p
      (⟨.permitAllows t generation, true⟩ ::
        ⟨.latestFailure t.provider t.sessionId, .ok (some f)⟩ :: tr) d latest answer post := by
  refine Act.Follows.of_history (Q := fun tr _ _ => resumes tr = [] ∨
    ∃ d latest answer post, SendingRound now generation t p
      (⟨.permitAllows t generation, true⟩ ::
        ⟨.latestFailure t.provider t.sessionId, .ok (some f)⟩ :: tr) d latest answer post) ?_ h
  simp only [retryFailure, Act.bind_eq, Act.follows_andThen, Act.follows_update, Act.follows_get,
    Act.follows_modify, Act.follows_ite, follows_orPanic]
  have hnone : resumes [] = [] := rfl
  refine ⟨fun _ => .inl hnone, fun _ _ => ⟨fun _ => .inl hnone, fun hlimit => ?_⟩⟩
  refine ⟨fun _ => .inl hnone, fun readyAt hreadyAt => ⟨fun _ => .inl hnone, fun hdelay => ?_⟩⟩
  refine ⟨fun _ => .inl hnone, fun hdry => ?_⟩
  refine Act.follows_history.mpr fun tr r p' hr => ?_
  rw [List.nil_append]
  have hready := Int.not_lt.mp hdelay
  rw [gregorian.secondsAfter_eq_some hreadyAt, Nat.cast_min] at hready
  have hdue : Due.Ready
      { target := t
        failure := f
        policy := p.engine.settings.policy f.condition
        attempts := ((p.state.firstSeen f now).2.recentAttempts t now p.window).1
        prompt := renderPrompt (p.engine.settings.policy f.condition).prompt f
          (((p.state.firstSeen f now).2.recentAttempts t now p.window).1 + 1)
          (p.engine.settings.policy f.condition).maxAttempts } now p :=
    ⟨rfl, haction, hhandled, rfl, Nat.lt_of_not_le hlimit, hready, Bool.eq_false_iff.mpr hdry, rfl⟩
  rcases resumeTarget_sends hr with hquiet | ⟨latest, answer, post, hturn, hpost, rfl⟩
  · exact .inl hquiet
  · exact .inr ⟨_, latest, answer, post, rfl, hdue, hturn, rfl, hpost⟩

/-- The round of a target makes no resume call, or one with everything that has to lead to it. -/
theorem passTarget_sends {now : Int} {generation : Nat} {t : WatchTarget} {p p' : Pass}
    {tr : List (Prog.Event Reply)} {r : Except Error Unit}
    (h : (passTarget now generation t).Returns p tr r p') :
    resumes tr = [] ∨
      ∃ d latest answer post, SendingRound now generation t p tr d latest answer post := by
  refine Act.Follows.of_history (Q := fun tr _ _ => resumes tr = [] ∨
    ∃ d latest answer post, SendingRound now generation t p tr d latest answer post) ?_ h
  simp only [passTarget, Act.bind_eq, Act.pure_eq, perform, Act.follows_andThen, Act.follows_get,
    Act.follows_perform, Act.follows_ite, Act.follows_ret, Act.follows_modify, Monitor.history,
    true_and, List.nil_append]
  refine fun allowed => ⟨fun _ => .inl rfl, fun hallowed => ⟨fun _ => .inl rfl, fun _ latest => ?_⟩⟩
  simp only [Bool.not_eq_true', Bool.not_eq_false] at hallowed
  subst hallowed
  rcases latest with e | (_ | f)
  · exact .inl rfl
  · exact .inl rfl
  simp only [handleFailure, Act.bind_eq, Act.pure_eq, Act.follows_andThen, Act.follows_get,
    Act.follows_ite, Act.follows_ret, Act.follows_modify]
  refine ⟨fun _ => .inl rfl, fun hnot => ⟨fun _ => .inl rfl, fun haction => ?_⟩⟩
  simp only [Bool.or_eq_true, decide_eq_true_eq, not_or] at hnot
  refine Act.follows_history.mpr fun tr r p' hr => ?_
  rcases retryFailure_sends hnot.1 haction hr with hquiet | ⟨d, latest, answer, post, hsends⟩
  · exact .inl (by simpa [resumes_cons, Call.isResume] using hquiet)
  · exact .inr ⟨d, latest, answer, post, hsends.target,
      ⟨hsends.ready.policy, hsends.ready.action, hsends.ready.unhandled, hsends.ready.attempts,
        hsends.ready.limit, hsends.ready.delay, hsends.ready.live, hsends.ready.prompt⟩,
      hsends.recheck, hsends.calls, hsends.quiet⟩

/-! ## What a pass leaves of the engine -/

/-- An engine after some steps of a pass: only its runtime state and the unresolved keys move. -/
structure WatchEngine.Frame (e e' : WatchEngine) : Prop where
  settings : e'.settings = e.settings
  targets : e'.targets = e.targets
  providers : e'.providers = e.providers
  dryRun : e'.dryRun = e.dryRun

theorem WatchEngine.Frame.refl (e : WatchEngine) : e.Frame e := ⟨rfl, rfl, rfl, rfl⟩

theorem WatchEngine.Frame.trans {e e' e'' : WatchEngine} (h : e.Frame e') (h' : e'.Frame e'') :
    e.Frame e'' :=
  ⟨h'.settings.trans h.settings, h'.targets.trans h.targets, h'.providers.trans h.providers,
    h'.dryRun.trans h.dryRun⟩

theorem Pass.abandonPending_frame (p : Pass) (pending : PendingRecovery) (now : Int) :
    p.engine.Frame (p.abandonPending pending now).engine := by
  unfold abandonPending
  split <;> exact ⟨rfl, rfl, rfl, rfl⟩

theorem Pass.finishPending_frame (p : Pass) (pending : PendingRecovery) (success : Bool)
    (now : Int) : p.engine.Frame (p.finishPending pending success now).engine := by
  unfold finishPending
  split <;> exact ⟨rfl, rfl, rfl, rfl⟩

theorem Pass.missedObservation_frame (p : Pass) (pending : PendingRecovery) (now : Int) :
    p.engine.Frame (p.missedObservation pending now).engine := by
  have hrecorded : p.engine.Frame (p.withState fun _ =>
      (p.state.recordRecoveryObservationFailure pending.failureKey now).2).engine :=
    ⟨rfl, rfl, rfl, rfl⟩
  unfold missedObservation
  dsimp only
  split
  · exact hrecorded.trans (Pass.abandonPending_frame _ pending now)
  · exact hrecorded

/-- An observation leaves the engine but its runtime state. -/
theorem Pass.observed_frame (p : Pass) (pending : PendingRecovery) (now : Int)
    (answer : Except Error TurnOutcome) :
    p.engine.Frame (p.observed pending now answer).engine := by
  rcases answer with e | outcome
  · exact p.missedObservation_frame pending now
  · cases outcome with
    | completed => exact p.finishPending_frame pending true now
    | failed => exact p.finishPending_frame pending false now
    | unknown => exact p.missedObservation_frame pending now
    | inProgress =>
      simp only [observed]
      split
      · exact p.abandonPending_frame pending now
      · exact .refl _

theorem observations_frame {now : Int} {order : List PendingRecovery} {p p' : Pass}
    {rounds : List (Act.Round Reply Pass PendingRecovery)} {r : Except Error Unit}
    (h : Act.Rounds (observePending now) order p rounds r p') : p.engine.Frame p'.engine := by
  induction h with
  | done => exact .refl _
  | failed hb => cases observePending_round hb
  | @next pending _ _ _ _ _ _ _ hb _ ih =>
    cases observePending_round hb with
    | unavailable _ => exact ih
    | observed _ => exact (Pass.observed_frame _ pending now _).trans ih

theorem ObservationRun.frame {now : Int} {p p' : Pass} {tr : List (Prog.Event Reply)}
    (h : ObservationRun now p tr p') : p.engine.Frame p'.engine := by
  cases h with
  | intro hr => exact observations_frame hr

theorem passRounds_frame {now : Int} {generation : Nat} {ts : List WatchTarget} {p p' : Pass}
    {rounds : List TargetRecord} {r : Except Error Unit}
    (h : Act.Rounds (passTarget now generation) ts p rounds r p') :
    p.engine.Frame p'.engine := by
  have hround : ∀ {t : WatchTarget} {q q' : Pass} {tr : List (Prog.Event Reply)}
      {r : Except Error Unit}, (passTarget now generation t).Returns q tr r q' →
        q.engine.Frame q'.engine := fun hb =>
    have hkept := (passTarget_round hb).extends
    ⟨hkept.settings, hkept.targets, hkept.providers, hkept.dryRun⟩
  induction h with
  | done => exact .refl _
  | failed hb => exact hround hb
  | next hb _ ih => exact (hround hb).trans ih

theorem frame_rounds (e : WatchEngine) (now : Int) :
    KeptByRounds (fun _ _ => ()) now (fun _ => True) fun (_ : Unit) p => e.Frame p.engine where
  quiet _ hi := hi
  observed pending answer hi := hi.trans (Pass.observed_frame _ pending now answer)
  target hr _ hi :=
    hi.trans ⟨hr.extends.settings, hr.extends.targets, hr.extends.providers, hr.extends.dryRun⟩

/-- Every round of a pass works on the engine as it was and sends only under its guards. -/
theorem PassRun.round {now : Int} {generation : Nat} {e : WatchEngine} {p' : Pass}
    {tr : List (Prog.Event Reply)} {rounds : List TargetRecord}
    (h : PassRun now generation ⟨e, [], 0⟩ tr rounds p') {round : TargetRecord}
    (hround : round ∈ rounds) :
    e.Frame round.before.engine ∧ (resumes round.calls = [] ∨ ∃ d latest answer post,
      SendingRound now generation round.element round.before round.calls d latest answer post) := by
  obtain ⟨hseen, hrounds, _⟩ := h
  have hpruned : e.Frame (e.withState fun s => s.prune now) := ⟨rfl, rfl, rfl, rfl⟩
  obtain ⟨_, hframe⟩ := (frame_rounds e now).targets_before (g := ()) hrounds
    (fun _ _ => trivial) (hpruned.trans hseen.frame) round hround
  obtain ⟨_, _, hreturns⟩ := hrounds.returns_of_mem hround
  exact ⟨hframe, passTarget_sends hreturns⟩

end Watchcat
