import Watchcat.Correctness.Budget
import Watchcat.Engine.Times

/-!
# The delay before a retry

The delay counts from the latest attempt of the session that is still in the
window, or from the first observation of the failure where there is none. It is
as long as documented where the reference point is the right one: not before the
first observation, and not before the previous attempt.
-/

namespace Watchcat

open Watchcat.Core RuntimeState

/-- The failure that a round resumes. -/
def resumedFailure (round : TargetRecord) : Option Failure :=
  if resumes round.calls = [] then none
  else match toldLatest round with
    | some (.ok latest) => latest
    | _ => none

/-- The attempts in the window that a pass counts for a round. -/
def countedAttempts (now : Int) (round : TargetRecord) : Nat :=
  (round.before.state.recentAttempts round.element now round.before.window).1

/-- The delay a failure has to wait in a round, under the settings of the pass. -/
def requiredDelay (settings : Settings) (now : Int) (round : TargetRecord) (f : Failure) : Nat :=
  retryDelaySeconds (settings.policy f.condition) (countedAttempts now round) f.retryAfterSeconds

/-- The time the engine recorded the failure as first observed, by the end of the round. -/
def firstSeenIn (now : Int) (round : TargetRecord) (f : Failure) : Int :=
  (round.before.state.firstSeen f now).1

/-- The resume call of a round comes only after the delay from the first observation. -/
def HonoursDelay (settings : Settings) (now : Int) (round : TargetRecord) : Prop :=
  ∀ f, resumedFailure round = some f →
    firstSeenIn now round f + seconds (requiredDelay settings now round f) ≤ now

/-- The latest attempt of the session that is still in the window is not from before the first
observation of the failure that is resumed. -/
def FromFirstSight (now : Int) (round : TargetRecord) : Prop :=
  ∀ f, resumedFailure round = some f → ∀ a,
    (round.before.state.recentAttempts round.element now round.before.window).2.latestAttempt
      round.element = some a → firstSeenIn now round f ≤ a

/-- The property of every round of the operation, where it is a pass. -/
def OpRecord.EachRound (record : OpRecord) (Q : Settings → Int → TargetRecord → Prop) : Prop :=
  ∀ now generation, record.op = .pass now generation →
    ∀ round ∈ record.rounds, Q record.before.settings now round

/-! ## One round -/

theorem SendingRound.toldLatest {now : Int} {generation : Nat} {round : TargetRecord} {d : Due}
    {latest : Failure} {answer : Except Error ResumeReceipt} {post : List (Prog.Event Reply)}
    (h : SendingRound now generation round.element round.before round.calls d latest answer post) :
    toldLatest round = some (.ok (some d.failure)) := by
  rw [Watchcat.toldLatest, h.calls]
  rfl

/-- A round that resumes a failure sends it under its guards. -/
theorem PassRun.resumed {now : Int} {generation : Nat} {e : WatchEngine} {p' : Pass}
    {tr : List (Prog.Event Reply)} {rounds : List TargetRecord}
    (h : PassRun now generation ⟨e, [], 0⟩ tr rounds p') {round : TargetRecord}
    (hround : round ∈ rounds) {f : Failure} (hf : resumedFailure round = some f) :
    e.Frame round.before.engine ∧ ∃ d latest answer post, d.failure = f ∧
      SendingRound now generation round.element round.before round.calls d latest answer post := by
  obtain ⟨hframe, hquiet | ⟨d, latest, answer, post, hsends⟩⟩ := h.round hround
  · rw [resumedFailure, if_pos hquiet] at hf
    cases hf
  · refine ⟨hframe, d, latest, answer, post, ?_, hsends⟩
    rw [resumedFailure, hsends.toldLatest] at hf
    split at hf
    · cases hf
    · exact Option.some.inj hf

/-- What a sending round has counted and how long its failure has waited. -/
theorem SendingRound.waited {now : Int} {generation : Nat} {round : TargetRecord} {d : Due}
    {latest : Failure} {answer : Except Error ResumeReceipt} {post : List (Prog.Event Reply)}
    {e : WatchEngine} (hframe : e.Frame round.before.engine)
    (h : SendingRound now generation round.element round.before round.calls d latest answer post) :
    (((round.before.state.recentAttempts round.element now round.before.window).2.latestAttempt
        round.element).getD (firstSeenIn now round d.failure)) +
      seconds (min (requiredDelay e.settings now round d.failure) i64Max) ≤ now := by
  have hdelay := h.ready.delay
  have hattempts : d.attempts = countedAttempts now round := by
    rw [h.ready.attempts, h.target, countedAttempts, RuntimeState.recentAttempts,
      firstSeen_attemptsOf]
    rfl
  have hlatest : (round.before.state.considered d.failure d.target now
      round.before.window).latestAttempt d.target =
        (round.before.state.recentAttempts round.element now
          round.before.window).2.latestAttempt round.element := by
    rw [h.target, latestAttempt, latestAttempt, considered_attemptsOf, if_pos rfl,
      recentAttempts_attemptsOf, if_pos rfl]
  rw [hlatest, hattempts, h.ready.policy, hframe.settings] at hdelay
  exact hdelay

/-- No delay that was waited for is longer than the largest number of seconds. -/
theorem waited_exactly {start now : Int} {delay : Nat} (hstart : IsInstant start)
    (hnow : IsInstant now) (h : start + seconds (min delay i64Max) ≤ now) :
    start + seconds delay ≤ now := by
  have hfar := hstart.lt_add_seconds_i64Max hnow
  by_cases hle : delay ≤ i64Max
  · rwa [min_eq_left (by exact_mod_cast hle)] at h
  · rw [min_eq_right (by exact_mod_cast (not_le.mp hle).le)] at h
    omega

/-! ## From the first observation -/

/-- In every run whose passes find no attempt in the window from before the first observation of
a failure they resume, each automatic resume call waits for the delay from that observation. -/
theorem delays_honoured {e₀ e : WatchEngine} {log : List OpRecord} (h : EngineRun e₀ log e)
    (h₀ : e₀.state.Timed IsInstant) (htimes : ∀ now ∈ times log, IsInstant now)
    (hsight : ∀ record ∈ log, record.EachRound fun _ => FromFirstSight) :
    ∀ record ∈ log, record.EachRound HonoursDelay := by
  intro record hrecord now generation hop round hround f hf
  obtain ⟨e', hx⟩ := h.executes record hrecord
  have htimed := (h.timed h₀ htimes).2 record hrecord round hround
  have hinstant : IsInstant now :=
    htimes now (List.mem_filterMap.mpr ⟨record, hrecord, by rw [hop]; rfl⟩)
  have hsighted := hsight record hrecord now generation hop round hround f
  cases hx with
  | @pass time _ _ _ _ _ _ _ hrun =>
    obtain ⟨rfl, rfl⟩ := EngineOp.pass.inj hop
    obtain ⟨hframe, d, latest, answer, post, rfl, hsends⟩ := hrun.resumed hround hf
    have hwaited := hsends.waited hframe
    refine waited_exactly (htimed.firstSeen_fst hinstant d.failure) hinstant ?_
    have hreference : firstSeenIn time round d.failure ≤
        (((round.before.state.recentAttempts round.element time
          round.before.window).2.latestAttempt round.element).getD
            (firstSeenIn time round d.failure)) := by
      cases hlast : (round.before.state.recentAttempts round.element time
          round.before.window).2.latestAttempt round.element with
      | none => exact le_refl _
      | some a => exact hsighted hf a hlast
    exact (Int.add_le_add_right hreference _).trans hwaited
  | _ => cases hop

/-- The failure is to be resumed five seconds after it is first observed, which the provider
refuses, and is resumed ten seconds later. -/
def resumedScript : List (Int × SampleProvider) :=
  [(0, { latest := some (sampleFailure "a") }),
    (seconds 5, { latest := some (sampleFailure "a") }),
    (seconds 15, { latest := some (sampleFailure "a"), resumed := .ok (sampleReceipt "r") })]

/-- The passes of the resumed script. -/
def resumedRun : List OpRecord × WatchEngine :=
  SampleProvider.records resumedScript (sampleEngine {})

/-- The first attempt comes after the failure is first observed, and the second one counts from
it. -/
theorem delays_honoured_resumed : (∀ record ∈ resumedRun.1, record.EachRound HonoursDelay) ∧
    (resumedRun.1.flatMap OpRecord.rounds).map resumedFailure =
      [none, some (sampleFailure "a"), some (sampleFailure "a")] := by
  have htimes : times resumedRun.1 = [0, seconds 5, seconds 15] := rfl
  have hresumed : ∀ round ∈ resumedRun.1.flatMap OpRecord.rounds,
      resumedFailure round = none ∨ resumedFailure round = some (sampleFailure "a") := by decide
  have hlater : ∀ now ∈ [0, seconds 5, seconds 15],
      ∀ round ∈ resumedRun.1.flatMap OpRecord.rounds,
        ((round.before.state.recentAttempts round.element now
          round.before.window).2.latestAttempt round.element).all
            (firstSeenIn now round (sampleFailure "a") ≤ ·) = true := by decide
  have hrun : EngineRun (sampleEngine {}) resumedRun.1 resumedRun.2 :=
    SampleProvider.run_records resumedScript (.nil _)
  refine ⟨delays_honoured hrun (.initial _) ?_ ?_, by decide⟩
  · rw [htimes]
    unfold IsInstant
    decide
  · intro record hrecord now generation hop round hround f hf a ha
    have htime : now ∈ times resumedRun.1 :=
      List.mem_filterMap.mpr ⟨record, hrecord, by rw [hop]; rfl⟩
    have hmem : round ∈ resumedRun.1.flatMap OpRecord.rounds :=
      List.mem_flatMap.mpr ⟨record, hrecord, hround⟩
    have hsighted := hlater now (htimes ▸ htime) round hmem
    rw [ha, Option.all_some, decide_eq_true_eq] at hsighted
    rcases hresumed round hmem with hnone | hsome
    · rw [hnone] at hf
      cases hf
    · obtain rfl : sampleFailure "a" = f := Option.some.inj (hsome.symm.trans hf)
      exact hsighted

/-- A second failure of the session, reported with a retry-after of a hundred seconds. -/
def limitedFailure : Failure :=
  { sampleFailure "b" with retryAfterSeconds := some 100 }

/-- The first failure is resumed; a later one asks for a hundred seconds. -/
def limitedScript : List (Int × SampleProvider) :=
  [(0, { latest := some (sampleFailure "a") }),
    (seconds 5, { latest := some (sampleFailure "a"), resumed := .ok (sampleReceipt "r") }),
    (seconds 200, { latest := some limitedFailure, resumed := .ok (sampleReceipt "q") })]

/-- The passes of the limited script. -/
def limitedRun : List OpRecord × WatchEngine :=
  SampleProvider.records limitedScript (sampleEngine {})

/-- The second failure is resumed in the pass that first observes it: the hundred seconds are
counted from the attempt for the first one. -/
theorem retry_after_cut_short : EngineRun (sampleEngine {}) limitedRun.1 limitedRun.2 ∧
    ClockMonotone limitedRun.1 ∧ (∀ now ∈ times limitedRun.1, IsInstant now) ∧
    ∃ record ∈ limitedRun.1, ∃ round ∈ record.rounds, record.op = .pass (seconds 200) 0 ∧
      resumedFailure round = some limitedFailure ∧
      requiredDelay record.before.settings (seconds 200) round limitedFailure = 100 ∧
      firstSeenIn (seconds 200) round limitedFailure = seconds 200 := by
  have htimes : times limitedRun.1 = [0, seconds 5, seconds 200] := rfl
  have hrounds : ∃ round ∈ (limitedRun.1.flatMap OpRecord.rounds).drop 2,
      resumedFailure round = some limitedFailure ∧
        requiredDelay {} (seconds 200) round limitedFailure = 100 ∧
        firstSeenIn (seconds 200) round limitedFailure = seconds 200 := by decide
  refine ⟨SampleProvider.run_records limitedScript (.nil _), ?_, ?_, ?_⟩
  · rw [ClockMonotone, htimes]
    decide
  · rw [htimes]
    unfold IsInstant
    decide
  · obtain ⟨round, hround, hsent⟩ := hrounds
    exact ⟨_, .tail _ (.tail _ (.head _)), round, hround, rfl, hsent⟩

/-! ## From the previous attempt -/

/-- The session is not reported without a failure in the round. -/
def StaysFailed (t : WatchTarget) (round : TargetRecord) : Prop :=
  round.element.key = t.key → toldLatest round ≠ some (.ok none)

/-- Two passes of a run resume failures of one session, and the session stays failed between the
two rounds. -/
inductive ResumedAgain (t₁ t₂ : Int) (round₁ round₂ : TargetRecord) (f₁ f₂ : Failure) :
    List OpRecord → Prop
  | intro {pre mid post : List OpRecord} {first second : OpRecord} {g₁ g₂ : Nat}
      {done₁ rest₁ done₂ rest₂ : List TargetRecord}
      (hfirst : first.op = .pass t₁ g₁) (hsecond : second.op = .pass t₂ g₂)
      (hrounds₁ : first.rounds = done₁ ++ round₁ :: rest₁)
      (hrounds₂ : second.rounds = done₂ ++ round₂ :: rest₂)
      (hsession : round₂.element.key = round₁.element.key)
      (hresumed₁ : resumedFailure round₁ = some f₁) (hresumed₂ : resumedFailure round₂ = some f₂)
      (hfailed : ∀ round ∈ rest₁ ++ mid.flatMap OpRecord.rounds ++ done₂,
        StaysFailed round₂.element round) :
      ResumedAgain t₁ t₂ round₁ round₂ f₁ f₂ (pre ++ first :: (mid ++ second :: post))

/-- A round keeps an attempt in the window in mind while the session stays failed. -/
theorem remembers_rounds (t : WatchTarget) {start now w : Int} (hstart : start ≤ now)
    (hwindow : now - seconds w ≤ start) :
    KeptByRounds (fun _ _ => ()) now (StaysFailed t) fun (_ : Unit) p =>
      p.window = w ∧ p.state.Remembers t start where
  quiet _ hi := hi
  observed {_ p} pending answer hi := by
    have hobserves := p.observed_observes pending now answer
    rw [Pass.window, hobserves.settings]
    exact ⟨hi.1, hi.2.of_attempts (attemptsOf_of_attempts hobserves.attempts t)⟩
  target {_ u _ p p' tr r} hr hc hi := by
    obtain ⟨rfl, hi⟩ := hi
    refine ⟨by rw [Pass.window, hr.extends.settings, Pass.window], ?_⟩
    cases hr with
    | idle _ hstate _ => rw [hstate]; exact hi
    | resolved =>
      show RuntimeState.Remembers (if p.engine.state.hasPendingFor u then p.engine.state
        else p.engine.state.clearAttempts u) t start
      split
      · exact hi
      · refine hi.of_attempts ?_
        rw [clearAttempts_attemptsOf, if_neg fun hkey => hc hkey.symm rfl]
        rfl
    | skipped _ _ hstate _ => rw [hstate]; exact hi.of_attempts rfl
    | @retried f _ _ q _ hq _ _ hround =>
      subst hq
      have hconsidered : (p.state.considered f u now p.window).Remembers t start :=
        (hi.of_attempts (p.state.firstSeen_attemptsOf f now t)).recentAttempts hwindow u
      cases hround with
      | undated _ hstate _ =>
        rw [hstate]
        exact hi.of_attempts (p.state.firstSeen_attemptsOf f now t)
      | considered _ hstate _ => rw [hstate]; exact hconsidered
      | unsaved _ hstate _ => rw [hstate]; exact hconsidered.recordAttempt hstart u
      | @sent d _ _ answer _ _ _ _ _ _ hstate _ =>
        rw [hstate]
        exact (hconsidered.recordAttempt hstart u).of_attempts
          (attemptsOf_of_attempts (d.settle_attempts now true answer _) t)

/-- A round that resumes a session remembers the attempt. -/
theorem TargetRound.remembers_sent {now : Int} {generation : Nat} {u : WatchTarget} {p p' : Pass}
    {tr : List (Prog.Event Reply)} {r : Except Error Unit}
    (h : TargetRound now generation u p tr r p') (hsent : resumes tr ≠ []) {t : WatchTarget}
    (hkey : t.key = u.key) : p'.state.Remembers t now := by
  cases h with
  | idle htr _ _ => exact absurd htr hsent
  | resolved => exact absurd rfl hsent
  | skipped _ _ _ _ => exact absurd rfl hsent
  | retried hq _ _ hround =>
    subst hq
    cases hround with
    | undated _ _ _ => exact absurd rfl hsent
    | considered htr _ _ => exact absurd htr hsent
    | unsaved htr _ _ => exact absurd htr hsent
    | @sent d _ _ answer _ _ _ _ _ _ hstate _ =>
      rw [hstate]
      exact (remembers_recordAttempt _ hkey now).of_attempts
        (attemptsOf_of_attempts (d.settle_attempts now true answer _) t)

/-- The time is not before the attempt, and the attempt is inside the window and the retention. -/
def InReach (start w now : Int) : Prop :=
  start ≤ now ∧ now - seconds w ≤ start ∧ now - retention ≤ start

/-- An operation keeps an attempt in its reach in mind while the session stays failed. -/
theorem OpRecord.Executes.remembers {record : OpRecord} {e' : WatchEngine}
    (h : record.Executes e') {t : WatchTarget} {start w : Int} (hw : record.before.window = w)
    (htime : ∀ now, record.op.time = some now → InReach start w now)
    (hfailed : ∀ round ∈ record.rounds, StaysFailed t round)
    (hs : record.before.state.Remembers t start) : e'.state.Remembers t start := by
  cases h with
  | @pass now _ e _ _ _ _ _ hrounds =>
    obtain ⟨hstart, hwindow, hkept⟩ := htime now rfl
    exact ((remembers_rounds t hstart hwindow).passRun (g := ()) hrounds hfailed
      ⟨hw, hs.prune hkept⟩).2
  | @observe now _ _ _ _ hr =>
    obtain ⟨hstart, hwindow, hkept⟩ := htime now rfl
    exact ((remembers_rounds t hstart hwindow).reconcilePendingOnly (g := ()) hr
      ⟨hw, hs.prune hkept⟩).2
  | @retryNow _ _ now _ _ e _ _ _ hr =>
    obtain ⟨hstart, hwindow, _⟩ := htime now rfl
    exact (((retried_retryNow _ _ now w _ _).returns hr).2 hw).remembers hstart hwindow hs
  | replaceSettings hr => exact ((replaceSettings_upkeep _ [] _).of_history hr).2.symm ▸ hs
  | replaceTargets => exact hs
  | ensureProvider hr => exact ((ensureProvider_upkeep _ [] _).of_history hr).2.symm ▸ hs

/-- A run keeps an attempt in the reach of all its operations in mind while the session stays
failed. -/
theorem EngineRun.remembers {e₀ e : WatchEngine} {log : List OpRecord} (h : EngineRun e₀ log e)
    {t : WatchTarget} {start w : Int} (hw : ∀ record ∈ log, record.before.window = w)
    (htimes : ∀ now ∈ times log, InReach start w now)
    (hfailed : ∀ round ∈ log.flatMap OpRecord.rounds, StaysFailed t round)
    (hs : e₀.state.Remembers t start) : e.state.Remembers t start := by
  induction h with
  | nil => exact hs
  | @snoc e' e'' log record _ hb hx ih =>
    subst hb
    rw [times_append] at htimes
    rw [List.flatMap_append] at hfailed
    have hprior := ih (fun r hr => hw r (List.mem_append_left _ hr))
      (fun now hnow => htimes now (List.mem_append_left _ hnow))
      fun round hround => hfailed round (List.mem_append_left _ hround)
    refine hx.remembers (hw record (List.mem_append_right _ (List.mem_singleton.mpr rfl)))
      (fun now hnow => htimes now (List.mem_append_right _ (by simp [hnow]))) ?_ hprior
    exact fun round hround => hfailed round (List.mem_append_right _ (by simpa using hround))

/-- A pass that resumes a session remembers the attempt at its end. -/
theorem PassRun.remembers_resumed {now : Int} {generation : Nat} {e : WatchEngine} {p' : Pass}
    {tr : List (Prog.Event Reply)} {done rest : List TargetRecord} {round : TargetRecord}
    (h : PassRun now generation ⟨e, [], 0⟩ tr (done ++ round :: rest) p')
    (hsent : resumes round.calls ≠ []) {t : WatchTarget} (hkey : t.key = round.element.key)
    (hfailed : ∀ round ∈ rest, StaysFailed t round)
    (hwindow : now - seconds e.window ≤ now) : p'.state.Remembers t now := by
  have hframe := (h.round (List.mem_append_right _ List.mem_cons_self)).1
  cases h with
  | intro hseen hrounds hpost =>
    obtain ⟨_, _, ⟨rfl, hb⟩ | ⟨_, after, hb, hrest⟩⟩ := hrounds.split
    · exact (passTarget_round hb).remembers_sent hsent hkey
    · have hround := passTarget_round hb
      refine ((remembers_rounds t (le_refl now) hwindow).targets (g := ()) hrest hfailed
        ⟨?_, hround.remembers_sent hsent hkey⟩).2
      rw [Pass.window, hround.extends.settings, hframe.settings, WatchEngine.window]

/-- A pass remembers an attempt in its reach up to a round while the session stays failed. -/
theorem PassRun.remembers_before {now : Int} {generation : Nat} {e : WatchEngine} {p' : Pass}
    {tr : List (Prog.Event Reply)} {done rest : List TargetRecord} {round : TargetRecord}
    (h : PassRun now generation ⟨e, [], 0⟩ tr (done ++ round :: rest) p') {t : WatchTarget}
    {start : Int} (hreach : InReach start e.window now)
    (hfailed : ∀ round ∈ done, StaysFailed t round) (hs : e.state.Remembers t start) :
    round.before.state.Remembers t start := by
  obtain ⟨hstart, hwindow, hkept⟩ := hreach
  have hrounds := remembers_rounds t hstart hwindow
  have hpruned : Pass.state ⟨e.withState fun s => s.prune now, [], 0⟩ |>.Remembers t start :=
    hs.prune hkept
  cases h with
  | intro hseen htargets hpost =>
    obtain ⟨_, hdone, _⟩ := htargets.split
    exact (hrounds.targets (g := ()) hdone hfailed
      (hrounds.observationRun (g := ()) hseen ⟨rfl, hpruned⟩)).2

/-- The times between two operations of a run lie between theirs. -/
theorem ClockMonotone.between {pre mid post : List OpRecord} {first second : OpRecord}
    (h : ClockMonotone (pre ++ first :: (mid ++ second :: post))) {t₁ t₂ : Int}
    (hfirst : first.op.time = some t₁) (hsecond : second.op.time = some t₂) :
    t₁ ≤ t₂ ∧ ∀ t ∈ times mid, t₁ ≤ t ∧ t ≤ t₂ := by
  simp only [ClockMonotone, times, List.filterMap_append, List.filterMap_cons, hfirst,
    hsecond] at h
  have hrest := (List.pairwise_append.mp h).2.1
  obtain ⟨hafter, hmid⟩ := List.pairwise_cons.mp hrest
  have hbefore := (List.pairwise_append.mp hmid).2.2
  refine ⟨hafter t₂ (List.mem_append_right _ List.mem_cons_self), fun t ht => ⟨?_, ?_⟩⟩
  · exact hafter t (List.mem_append_left _ ht)
  · exact hbefore t ht t₂ List.mem_cons_self

/-- Where the first of two attempts is still in mind, the second one waits for its delay from it or
from a later attempt. -/
theorem ResumedAgain.waited {e₀ e : WatchEngine} {log : List OpRecord} {settings : Settings}
    {t₁ t₂ : Int} {round₁ round₂ : TargetRecord} {f₁ f₂ : Failure}
    (htwice : ResumedAgain t₁ t₂ round₁ round₂ f₁ f₂ log) (h : EngineRun e₀ log e)
    (h₀ : e₀.state.Timed IsInstant) (htimes : ∀ now ∈ times log, IsInstant now)
    (hclock : ClockMonotone log) (hfixed : ∀ record ∈ log, record.before.settings = settings)
    (hwindow : t₂ - seconds settings.engine.attemptWindowSeconds ≤ t₁)
    (hretained : t₂ - retention ≤ t₁) :
    ∃ a, t₁ ≤ a ∧ a + seconds (requiredDelay settings t₂ round₂ f₂) ≤ t₂ := by
  have hrecorded := (h.timed h₀ htimes).2
  cases htwice with
  | @intro pre mid post first second g₁ g₂ done₁ rest₁ done₂ rest₂ hfirst hsecond hrounds₁
      hrounds₂ hsession hresumed₁ hresumed₂ hfailed =>
    have hmem₁ : first ∈ pre ++ first :: (mid ++ second :: post) := by simp
    have hmem₂ : second ∈ pre ++ first :: (mid ++ second :: post) := by simp
    obtain ⟨horder, hbetween⟩ := hclock.between
      (show first.op.time = some t₁ by rw [hfirst]; rfl)
      (show second.op.time = some t₂ by rw [hsecond]; rfl)
    have hw : ∀ record ∈ pre ++ first :: (mid ++ second :: post),
        record.before.window = settings.engine.attemptWindowSeconds := fun record hrecord => by
      rw [WatchEngine.window, hfixed record hrecord]
    obtain ⟨e₁, _, hx₁, hrest⟩ := h.split_at
    obtain ⟨e₂, hmid, hx₂, _⟩ := hrest.split_at
    obtain ⟨p₁, hrun₁, rfl⟩ := hx₁.passRun hfirst
    obtain ⟨p₂, hrun₂, rfl⟩ := hx₂.passRun hsecond
    have hsent : resumes round₁.calls ≠ [] := fun hquiet => by
      rw [resumedFailure, if_pos hquiet] at hresumed₁
      cases hresumed₁
    have hround₂ : round₂ ∈ second.rounds := by simp [hrounds₂]
    obtain ⟨hframe, d, latest, answer, rest, rfl, hsends⟩ := hrun₂.resumed hround₂ hresumed₂
    -- the attempt of the first round is in mind up to the second one
    rw [hrounds₁] at hrun₁
    rw [hrounds₂] at hrun₂
    have hend := hrun₁.remembers_resumed hsent hsession
      (fun round hround => hfailed round (by simp [hround]))
      (by rw [hw first hmem₁]; omega)
    have hreach : ∀ now, t₁ ≤ now → now ≤ t₂ →
        InReach t₁ settings.engine.attemptWindowSeconds now := fun now hlow hhigh =>
      ⟨hlow, by omega, by omega⟩
    have hstill := hmid.remembers
      (fun record hrecord => hw record (by simp [hrecord]))
      (fun now hnow => hreach now (hbetween now hnow).1 (hbetween now hnow).2)
      (fun round hround => hfailed round
        (List.mem_append_left _ (List.mem_append_right _ hround))) hend
    have hbefore := hrun₂.remembers_before
      (by rw [hw second hmem₂]; exact hreach t₂ horder (le_refl _))
      (fun round hround => hfailed round (List.mem_append_right _ hround)) hstill
    have hwindow₂ : round₂.before.window = settings.engine.attemptWindowSeconds := by
      rw [Pass.window, hframe.settings, hfixed second hmem₂]
    rw [← hwindow₂] at hwindow
    obtain ⟨a, ha, hlate⟩ := (hbefore.recentAttempts hwindow round₂.element).latest
    -- so the second delay counts from it or from a later attempt
    have hwaited := hsends.waited hframe
    rw [ha, Option.getD_some, hfixed second hmem₂] at hwaited
    have htimed := @RuntimeState.Timed.recentAttempts _ _ t₂ (hrecorded second hmem₂ round₂ hround₂)
      round₂.element round₂.before.window
    have hinstant : IsInstant t₂ := htimes t₂
      (List.mem_filterMap.mpr ⟨second, hmem₂, by rw [hsecond]; rfl⟩)
    exact ⟨a, hlate, waited_exactly
      (htimed.attempts round₂.element a (List.mem_of_getLast? ha)) hinstant hwaited⟩

/-- In every run under fixed settings, a second automatic resume of a session that stays failed
comes only after the delay from the first one, where the delay is not longer than the window and
the retention, or the first attempt is still in them, and the delay has not become shorter. -/
theorem attempts_spaced {e₀ e : WatchEngine} {log : List OpRecord} {settings : Settings}
    (h : EngineRun e₀ log e) (h₀ : e₀.state.Timed IsInstant)
    (htimes : ∀ now ∈ times log, IsInstant now) (hclock : ClockMonotone log)
    (hfixed : ∀ record ∈ log, record.before.settings = settings) {t₁ t₂ : Int}
    {round₁ round₂ : TargetRecord} {f₁ f₂ : Failure}
    (htwice : ResumedAgain t₁ t₂ round₁ round₂ f₁ f₂ log)
    (hwindow : (requiredDelay settings t₁ round₁ f₁ : Int) ≤
      settings.engine.attemptWindowSeconds ∨
        t₂ - seconds settings.engine.attemptWindowSeconds ≤ t₁)
    (hretained : seconds (requiredDelay settings t₁ round₁ f₁) ≤ retention ∨
      t₂ - retention ≤ t₁)
    (hdelay : requiredDelay settings t₁ round₁ f₁ ≤ requiredDelay settings t₂ round₂ f₂) :
    t₁ + seconds (requiredDelay settings t₁ round₁ f₁) ≤ t₂ := by
  by_contra hearly
  -- two resumes that are too close to each other are close enough for the first to be in mind
  have hwindow : t₂ - seconds settings.engine.attemptWindowSeconds ≤ t₁ := by
    rcases hwindow with hshort | hwindow
    · unfold seconds at hearly ⊢
      omega
    · exact hwindow
  have hretained : t₂ - retention ≤ t₁ := by
    rcases hretained with hshort | hretained
    · omega
    · exact hretained
  obtain ⟨a, hlate, hspaced⟩ :=
    htwice.waited h h₀ htimes hclock hfixed hwindow hretained
  have hlonger : seconds (requiredDelay settings t₁ round₁ f₁) ≤
      seconds (requiredDelay settings t₂ round₂ f₂) := by
    unfold seconds
    omega
  omega

/-- The failure is first observed at the beginning and resumed five seconds later and once more at
the given time; the provider refuses both. -/
def busyScript (again : Int) : List (Int × SampleProvider) :=
  [(0, { latest := some (sampleFailure "a") }),
    (seconds 5, { latest := some (sampleFailure "a") }),
    (again, { latest := some (sampleFailure "a") })]

/-- The passes of the busy script. -/
def busyRun (settings : Settings) (again : Int) : List OpRecord × WatchEngine :=
  SampleProvider.records (busyScript again) (sampleEngine settings)

/-- Attempts are forgotten after one second. -/
def shortWindow : Settings := { engine := { attemptWindowSeconds := 1 } }

/-- The second attempt should wait for five seconds after the first one, but that one is
forgotten after two. -/
theorem attempts_unspaced : shortWindow.validate.isOk = true ∧
    EngineRun (sampleEngine shortWindow) (busyRun shortWindow (seconds 7)).1
      (busyRun shortWindow (seconds 7)).2 ∧
    ClockMonotone (busyRun shortWindow (seconds 7)).1 ∧
    (∀ record ∈ (busyRun shortWindow (seconds 7)).1, record.before.settings = shortWindow) ∧
    ∃ round₁ round₂, ResumedAgain (seconds 5) (seconds 7) round₁ round₂ (sampleFailure "a")
        (sampleFailure "a") (busyRun shortWindow (seconds 7)).1 ∧
      requiredDelay shortWindow (seconds 5) round₁ (sampleFailure "a") = 5 := by
  have htimes : times (busyRun shortWindow (seconds 7)).1 = [0, seconds 5, seconds 7] := rfl
  have hfixed : (busyRun shortWindow (seconds 7)).1.map (fun record => record.before.settings) =
      [shortWindow, shortWindow, shortWindow] := rfl
  refine ⟨by decide, SampleProvider.run_records (busyScript (seconds 7)) (.nil _), ?_, ?_, ?_⟩
  · rw [ClockMonotone, htimes]
    decide
  · intro record hrecord
    have hmem := List.mem_map_of_mem (f := fun record : OpRecord => record.before.settings) hrecord
    rw [hfixed] at hmem
    simpa using hmem
  · refine ⟨_, _, @ResumedAgain.intro _ _ _ _ _ _ [_] [] [] _ _ _ _ [] [] [] _ rfl rfl rfl rfl
      rfl rfl rfl ?_, by decide⟩
    simp

/-- The second attempt waits for the ten seconds of a second attempt. -/
theorem attempts_spaced_busy : ∃ round₁ round₂,
    ResumedAgain (seconds 5) (seconds 15) round₁ round₂ (sampleFailure "a") (sampleFailure "a")
      (busyRun {} (seconds 15)).1 ∧
    seconds 5 + seconds (requiredDelay {} (seconds 5) round₁ (sampleFailure "a")) ≤
      seconds 15 := by
  have hrun : EngineRun (sampleEngine {}) (busyRun {} (seconds 15)).1
      (busyRun {} (seconds 15)).2 := SampleProvider.run_records (busyScript (seconds 15)) (.nil _)
  have htimes : times (busyRun {} (seconds 15)).1 = [0, seconds 5, seconds 15] := rfl
  have hfixed : (busyRun {} (seconds 15)).1.map (fun record => record.before.settings) =
      [{}, {}, {}] := rfl
  have htwice : ∃ round₁ round₂, ResumedAgain (seconds 5) (seconds 15) round₁ round₂
      (sampleFailure "a") (sampleFailure "a") (busyRun {} (seconds 15)).1 ∧
      requiredDelay {} (seconds 5) round₁ (sampleFailure "a") = 5 ∧
      requiredDelay {} (seconds 15) round₂ (sampleFailure "a") = 10 := by
    refine ⟨_, _, @ResumedAgain.intro _ _ _ _ _ _ [_] [] [] _ _ _ _ [] [] [] _ rfl rfl rfl rfl
      rfl rfl rfl ?_, by decide, by decide⟩
    simp
  obtain ⟨round₁, round₂, htwice, hfirst, hsecond⟩ := htwice
  refine ⟨round₁, round₂, htwice, attempts_spaced hrun (.initial _) ?_ ?_ ?_ htwice
    (.inr (by decide)) (.inr (by decide)) (by omega)⟩
  · rw [htimes]
    unfold IsInstant
    decide
  · rw [ClockMonotone, htimes]
    decide
  · intro record hrecord
    have hmem := List.mem_map_of_mem (f := fun record : OpRecord => record.before.settings) hrecord
    rw [hfixed] at hmem
    simpa using hmem

end Watchcat
