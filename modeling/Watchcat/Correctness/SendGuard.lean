import Watchcat.Engine.Sends

/-!
# The guard of a resume call

Every resume call of a pass belongs to one entry of the target list, and each
condition under which the engine may write to a session holds where the call is
made. An entry gets no second call in the same pass.
-/

namespace Watchcat

open Watchcat.Core

/-- The pass over the engine has come to the target's entry in the state, with the calls made. -/
inductive AtTarget (now : Int) (generation : Nat) (e : WatchEngine) :
    WatchTarget → List (Prog.Event Reply) → Pass → Prop
  | intro {seen : List (Prog.Event Reply)} {rounds : List TargetRecord} {mid p : Pass}
      {t : WatchTarget} {ts us : List WatchTarget}
      (hseen : ObservationRun now ⟨e.withState fun s => s.prune now, [], 0⟩ seen mid)
      (htargets : e.targets = ts ++ t :: us)
      (hrounds : Act.Rounds (passTarget now generation) ts mid rounds (.ok ()) p) :
      AtTarget now generation e t (seen ++ rounds.flatMap Act.Round.calls) p

/-- The answers about the latest turn of a session, in order. -/
def latestAnswers (provider sessionId : String) (tr : List (Prog.Event Reply)) :
    List (Except Error (Option Failure)) :=
  tr.filterMap fun e => match e with
    | ⟨.latestFailure provider' sessionId', answer⟩ =>
      if provider' = provider ∧ sessionId' = sessionId then some answer else none
    | _ => none

/-- What holds where the failure `f` of an entry is resumed, after the calls `before`: the pass came
to the entry in the state `p`, was told `f` as its latest turn and has saved the state `s`. -/
structure SendGuard (now : Int) (generation : Nat) (e : WatchEngine) (t : WatchTarget) (f : Failure)
    (p : Pass) (s : RuntimeState) (before : List (Prog.Event Reply)) : Prop where
  reached : ∃ done own, AtTarget now generation e t done p ∧ before = done ++ own
  live : e.dryRun = false
  retry : (e.settings.policy f.condition).action = .retry
  unhandled : p.state.Unhandled f
  limit : (p.state.recentAttempts t now e.window).1 < (e.settings.policy f.condition).maxAttempts
  asked : ∃ earlier latest, latestAnswers t.provider t.sessionId before =
    earlier ++ [.ok (some f), .ok (some latest)] ∧ latest.turnId = f.turnId
  permitted : ∃ earlier, before = earlier ++ [⟨.enterSendBoundary, ()⟩,
    ⟨.permitAllows t generation, true⟩, ⟨.writeState s, .ok ()⟩]
  recorded : s.attemptsOf t =
    ((p.state.attemptsOf t).filter fun a => now - seconds e.window ≤ a) ++ [now]

/-- The session that a call resumes. -/
def resumedSession : Prog.Event Reply → Option (String × String)
  | ⟨.resume provider sessionId _ _, _⟩ => some (provider, sessionId)
  | _ => none

theorem AtTarget.frame {now : Int} {generation : Nat} {e : WatchEngine} {t : WatchTarget}
    {done : List (Prog.Event Reply)} {p : Pass} (h : AtTarget now generation e t done p) :
    e.Frame p.engine := by
  cases h with
  | intro hseen _ hrounds =>
    have hpruned : e.Frame (e.withState fun s => s.prune now) := ⟨rfl, rfl, rfl, rfl⟩
    exact hpruned.trans (hseen.frame.trans (passRounds_frame hrounds))

theorem latestAnswers_append (provider sessionId : String) (tr tr' : List (Prog.Event Reply)) :
    latestAnswers provider sessionId (tr ++ tr') =
      latestAnswers provider sessionId tr ++ latestAnswers provider sessionId tr' :=
  List.filterMap_append

/-! ## Where the resume call stands -/

theorem not_mem_of_quiet {tr : List (Prog.Event Reply)} {e : Prog.Event Reply}
    (htr : resumes tr = []) (he : e.1.isResume = true) : e ∉ tr := fun hmem =>
  absurd he (List.filter_eq_nil_iff.mp htr _ hmem)

/-- A resume call is not among the calls before that make none. -/
theorem split_after_quiet {pre tr before after : List (Prog.Event Reply)} {e : Prog.Event Reply}
    (hpre : resumes pre = []) (he : e.1.isResume = true) (h : pre ++ tr = before ++ e :: after) :
    ∃ before', before = pre ++ before' ∧ tr = before' ++ e :: after := by
  rcases List.append_eq_append_iff.mp h with ⟨as, rfl, has⟩ | ⟨bs, rfl, hbs⟩
  · exact ⟨as, rfl, has⟩
  · cases bs with
    | nil => exact ⟨[], by simp, hbs.symm⟩
    | cons b bs =>
      obtain ⟨rfl, _⟩ := List.cons.inj hbs
      exact absurd (List.mem_append_right before List.mem_cons_self) (not_mem_of_quiet hpre he)

/-- A resume call is not among the calls after that make none. -/
theorem split_before_quiet {tr post before after : List (Prog.Event Reply)} {e : Prog.Event Reply}
    (hpost : resumes post = []) (he : e.1.isResume = true) (h : tr ++ post = before ++ e :: after) :
    ∃ after', tr = before ++ e :: after' := by
  rcases List.append_eq_append_iff.mp h with ⟨as, rfl, has⟩ | ⟨bs, rfl, hbs⟩
  · rw [has] at hpost
    exact absurd (List.mem_append_right as List.mem_cons_self) (not_mem_of_quiet hpost he)
  · cases bs with
    | nil =>
      rw [← (show e :: after = post from hbs)] at hpost
      exact absurd List.mem_cons_self (not_mem_of_quiet hpost he)
    | cons b bs =>
      obtain ⟨rfl, _⟩ := List.cons.inj hbs
      exact ⟨bs, rfl⟩

/-- A trace splits at its only resume call. -/
theorem split_resume {pre post before after : List (Prog.Event Reply)} {e e' : Prog.Event Reply}
    (hpre : resumes pre = []) (hpost : resumes post = []) (he' : e'.1.isResume = true)
    (h : pre ++ e :: post = before ++ e' :: after) : before = pre ∧ e' = e := by
  obtain ⟨before', rfl, htr⟩ := split_after_quiet hpre he' h
  cases before' with
  | nil => exact ⟨List.append_nil _, (List.cons.inj htr).1.symm⟩
  | cons b before' =>
    obtain ⟨rfl, rfl⟩ := List.cons.inj htr
    exact absurd (List.mem_append_right before' List.mem_cons_self) (not_mem_of_quiet hpost he')

/-! ## One round -/

/-- The calls of a round before its resume call. -/
def guardedCalls (generation : Nat) (d : Due) (latest : Failure) (s : RuntimeState) :
    List (Prog.Event Reply) :=
  checkedCalls generation d latest ++ [⟨.enterSendBoundary, ()⟩,
    ⟨.permitAllows d.target generation, true⟩, ⟨.writeState s, .ok ()⟩]

theorem SendingRound.split {now : Int} {generation : Nat} {t : WatchTarget} {p : Pass}
    {tr : List (Prog.Event Reply)} {d : Due} {latest : Failure}
    {answer : Except Error ResumeReceipt} {post : List (Prog.Event Reply)}
    (h : SendingRound now generation t p tr d latest answer post) :
    tr = guardedCalls generation d latest (d.recorded now p) ++
      ⟨.resume d.target.provider d.target.sessionId d.prompt d.failure.key, answer⟩ :: post :=
  h.calls

/-- The attempts of a target whose failure is looked at are those in the window. -/
theorem Due.recorded_attemptsOf (d : Due) (now : Int) (p : Pass) :
    (d.recorded now p).attemptsOf d.target =
      ((p.state.attemptsOf d.target).filter fun a => now - seconds p.window ≤ a) ++ [now] := by
  rw [recorded, RuntimeState.recordAttempt_attemptsOf, if_pos rfl, RuntimeState.considered,
    RuntimeState.recentAttempts_attemptsOf, if_pos rfl, RuntimeState.firstSeen_attemptsOf]

theorem SendingRound.guard {now : Int} {generation : Nat} {e : WatchEngine} {t : WatchTarget}
    {p : Pass} {tr done : List (Prog.Event Reply)} {d : Due} {latest : Failure}
    {answer : Except Error ResumeReceipt} {post : List (Prog.Event Reply)}
    (h : SendingRound now generation t p tr d latest answer post)
    (hat : AtTarget now generation e t done p) :
    SendGuard now generation e t d.failure p (d.recorded now p)
      (done ++ guardedCalls generation d latest (d.recorded now p)) := by
  have hframe := hat.frame
  obtain rfl := h.target
  have hpolicy : d.policy = e.settings.policy d.failure.condition := by
    rw [h.ready.policy, hframe.settings]
  refine ⟨⟨done, _, hat, rfl⟩, hframe.dryRun.symm.trans h.ready.live, ?_, h.ready.unhandled, ?_,
    ?_, ?_, ?_⟩
  · have haction := h.ready.action
    rw [hpolicy] at haction
    cases hcase : (e.settings.policy d.failure.condition).action with
    | retry => rfl
    | skip => exact absurd hcase haction
  · have hlimit := h.ready.limit
    rw [h.ready.attempts, hpolicy, RuntimeState.recentAttempts,
      RuntimeState.firstSeen_attemptsOf, Pass.window, hframe.settings] at hlimit
    exact hlimit
  · refine ⟨latestAnswers d.target.provider d.target.sessionId done, latest, ?_, h.recheck⟩
    rw [latestAnswers_append]
    simp [guardedCalls, checkedCalls, latestAnswers]
  · exact ⟨done ++ checkedCalls generation d latest, by rw [List.append_assoc]; rfl⟩
  · rw [d.recorded_attemptsOf, Pass.window, hframe.settings]
    rfl

/-! ## A pass -/

theorem resumedSession_quiet {tr : List (Prog.Event Reply)} (htr : resumes tr = []) :
    tr.filterMap resumedSession = [] := by
  refine List.filterMap_eq_nil_iff.mpr fun e he => ?_
  have hquiet := List.filter_eq_nil_iff.mp htr e he
  obtain ⟨op, r⟩ := e
  cases op <;> first
    | rfl
    | exact absurd rfl hquiet

theorem SendingRound.sessions {now : Int} {generation : Nat} {t : WatchTarget} {p : Pass}
    {tr : List (Prog.Event Reply)} {d : Due} {latest : Failure}
    {answer : Except Error ResumeReceipt} {post : List (Prog.Event Reply)}
    (h : SendingRound now generation t p tr d latest answer post) :
    tr.filterMap resumedSession = [(t.provider, t.sessionId)] := by
  rw [h.split, List.filterMap_append, resumedSession_quiet (by rfl), List.filterMap_cons,
    resumedSession_quiet h.quiet, ← h.target]
  rfl

/-- Each entry of the list is resumed at most once, in the order of the list. -/
theorem passRounds_sessions {now : Int} {generation : Nat} {ts : List WatchTarget} {p p' : Pass}
    {rounds : List TargetRecord} {r : Except Error Unit}
    (h : Act.Rounds (passTarget now generation) ts p rounds r p') :
    ((rounds.flatMap Act.Round.calls).filterMap resumedSession).Sublist
      (ts.map fun t => (t.provider, t.sessionId)) := by
  have hround : ∀ {t : WatchTarget} {q q' : Pass} {tr : List (Prog.Event Reply)}
      {r : Except Error Unit}, (passTarget now generation t).Returns q tr r q' →
        (tr.filterMap resumedSession).Sublist [(t.provider, t.sessionId)] := fun hb => by
    rcases passTarget_sends hb with hquiet | ⟨d, latest, answer, post, hsends⟩
    · rw [resumedSession_quiet hquiet]
      exact List.nil_sublist _
    · rw [hsends.sessions]
  induction h with
  | done => exact .refl _
  | @failed t ts q _ tr _ hb =>
    have hcalls : ([⟨t, q, tr⟩] : List TargetRecord).flatMap Act.Round.calls = tr := by simp
    rw [hcalls]
    exact (hround hb).trans (List.singleton_sublist.mpr List.mem_cons_self)
  | next hb _ ih =>
    rw [List.flatMap_cons, List.filterMap_append]
    exact (hround hb).append ih

/-- Every resume call of a pass is guarded, and the sessions resumed in a pass are those of
distinct entries of the target list. -/
theorem resume_guarded {now : Int} {generation : Nat} {e : WatchEngine} {p' : Pass}
    {tr : List (Prog.Event Reply)} {r : Except Error (List EngineEvent)}
    (h : (runOnceAuthorized now generation).Returns ⟨e, [], 0⟩ tr r p') :
    (∀ before provider sessionId prompt key answer after,
      tr = before ++ ⟨.resume provider sessionId prompt key, answer⟩ :: after →
        ∃ t f p s, SendGuard now generation e t f p s before ∧ t ∈ e.targets ∧
          provider = t.provider ∧ sessionId = t.sessionId ∧ key = f.key) ∧
    (tr.filterMap resumedSession).Sublist
      (e.targets.map fun t => (t.provider, t.sessionId)) := by
  obtain ⟨rounds, hrun⟩ := runOnceAuthorized_run h
  obtain ⟨hseen, hrounds, hpost⟩ := hrun
  rename_i seen post mid r'
  have htargets : mid.engine.targets = e.targets := hseen.frame.targets
  constructor
  · intro before provider sessionId prompt key answer after hsplit
    obtain ⟨before, rfl, hrest⟩ := split_after_quiet hseen.quiet rfl hsplit
    obtain ⟨after, hflat⟩ := split_before_quiet hpost rfl hrest
    obtain ⟨ys, t, zs, done, p, own, rest, _, _, hlist, hdone, rfl, hround, _⟩ :=
      hrounds.split_call hflat
    rw [htargets] at hlist
    have hat : AtTarget now generation e t (seen ++ done.flatMap Act.Round.calls) p :=
      .intro hseen hlist hdone
    rcases passTarget_sends hround with hquiet | ⟨d, latest, answer', post', hsends⟩
    · exact absurd (List.mem_append_right own List.mem_cons_self) (not_mem_of_quiet hquiet rfl)
    · have hcalls := hsends.split
      obtain ⟨rfl, heq⟩ := split_resume (by rfl) hsends.quiet rfl hcalls.symm
      have hop : Call.resume provider sessionId prompt key = _ := congrArg Sigma.fst heq
      obtain ⟨rfl, rfl, rfl, rfl⟩ := Call.resume.inj hop
      obtain rfl := hsends.target
      refine ⟨d.target, d.failure, p, d.recorded now p, ?_, ?_, rfl, rfl, rfl⟩
      · rw [← List.append_assoc]
        exact hsends.guard hat
      · rw [hlist]
        exact List.mem_append_right ys List.mem_cons_self
  · rw [List.filterMap_append, List.filterMap_append, resumedSession_quiet hseen.quiet,
      resumedSession_quiet hpost, List.nil_append, List.append_nil, ← htargets]
    exact passRounds_sessions hrounds

/-- The session has failed, the failure was first seen five seconds ago. -/
def guardSample : WatchEngine :=
  (SampleProvider.pass { latest := some (sampleFailure "t") } 0 (sampleEngine {})).2.2.engine

/-- The pass that resumes the session. -/
theorem resume_guarded_sample : ∃ t f p s before, t ∈ guardSample.targets ∧
    SendGuard (seconds 5) 0 guardSample t f p s before := by
  have hpass := resume_guarded (Prog.execute_returns
    (SampleProvider.answer { latest := some (sampleFailure "t")
                             resumed := .ok (sampleReceipt "r") })
    (runOnceAuthorized (seconds 5) 0 ⟨guardSample, [], 0⟩))
  obtain ⟨⟨op, answer⟩, hmem, hresume⟩ : ∃ event ∈ (Prog.execute
      (SampleProvider.answer { latest := some (sampleFailure "t")
                               resumed := .ok (sampleReceipt "r") })
      (runOnceAuthorized (seconds 5) 0 ⟨guardSample, [], 0⟩)).1, event.1.isResume = true := by
    decide
  obtain ⟨before, after, hsplit⟩ := List.append_of_mem hmem
  cases op with
  | resume provider sessionId prompt key =>
    obtain ⟨t, f, p, s, hguard, ht, _⟩ := hpass.1 _ _ _ _ _ _ _ hsplit
    exact ⟨t, f, p, s, before, ht, hguard⟩
  | _ => cases hresume

end Watchcat
