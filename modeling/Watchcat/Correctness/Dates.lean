import Watchcat.Base.Calendar
import Watchcat.Correctness.Delays
import Watchcat.Daemon.Cycles

/-!
# Dates that leave the calendar

A reconcile cycle computes the expiry cutoff (which is also the cutoff of
discovery), the retention cutoff, the window cutoff and the ready time of every
failure it considers, and the expiry cutoff once more for the commit. None of the
numbers of seconds that go into them is bounded by the validation.
-/

namespace Watchcat

open Watchcat.Core RuntimeState

/-! ## The dates of a cycle -/

/-- The failure that a round considers for a retry. -/
def consideredFailure (round : TargetRecord) : Option Failure :=
  match toldLatest round with
  | some (.ok (some f)) =>
    if round.before.state.handledAction f = some .resumed ∨
        round.before.state.handledAction f = some .unconfirmed ∨
        (round.before.engine.settings.policy f.condition).action = .skip then none
    else some f
  | _ => none

/-- The time a delay counts from: the latest attempt in the window or the first observation. -/
def delayFrom (now : Int) (round : TargetRecord) (f : Failure) : Int :=
  ((round.before.state.recentAttempts round.element now round.before.window).2.latestAttempt
    round.element).getD (firstSeenIn now round f)

/-- The attempts in the window leave another one. -/
def BelowLimit (settings : Settings) (now : Int) (round : TargetRecord) (f : Failure) : Prop :=
  countedAttempts now round < (settings.policy f.condition).maxAttempts

instance (settings : Settings) (now : Int) (round : TargetRecord) (f : Failure) :
    Decidable (BelowLimit settings now round f) := Nat.decLt _ _

namespace Calendar

variable (c : Calendar)

/-- The cutoff before which sessions are stale; discovery asks for activity since it. -/
def staleCutoff (now : Int) (settings : Settings) : Option Int :=
  c.secondsBefore now settings.lifecycle.staleAfterSeconds

/-- The cutoff of the attempts. -/
def windowCutoff (now : Int) (round : TargetRecord) : Option Int :=
  c.secondsBefore now round.before.window

/-- `ready_at`. -/
def readyAt (settings : Settings) (now : Int) (round : TargetRecord) (f : Failure) : Option Int :=
  c.secondsAfter (delayFrom now round f)
    (min (requiredDelay settings now round f) i64Max : Nat)

/-- The dates that a round computes. -/
def roundDates (settings : Settings) (now : Int) (round : TargetRecord) : List (Option Int) :=
  match consideredFailure round with
  | none => []
  | some f => c.windowCutoff now round ::
      if BelowLimit settings now round f then [c.readyAt settings now round f] else []

/-- The dates that a cycle computes; the commit takes place under the settings of that time, if
it does. -/
def cycleDates (plan : ReconcilePlan) (rounds : List TargetRecord) (committed : Option Settings) :
    List (Option Int) :=
  [c.staleCutoff plan.now plan.settings, c.daysBefore plan.now 30] ++
    rounds.flatMap (c.roundDates plan.settings plan.now) ++
    committed.toList.map (c.staleCutoff plan.now)

variable {c}

/-- A failure that is handled or skipped needs no date. -/
theorem roundDates_settled {now : Int} {t : WatchTarget} {p : Pass} {f : Failure}
    {calls : List (Prog.Event Reply)} (htold : toldLatest ⟨t, p, calls⟩ = some (.ok (some f)))
    (hsettled : ¬p.state.Unhandled f ∨ (p.engine.settings.policy f.condition).action = .skip) :
    c.roundDates p.engine.settings now ⟨t, p, calls⟩ = [] := by
  have hnone : consideredFailure ⟨t, p, calls⟩ = none := by
    rw [consideredFailure, htold]
    refine if_pos ?_
    rw [RuntimeState.Unhandled, not_and_or, not_not, not_not] at hsettled
    exact or_assoc.mp hsettled
  rw [roundDates, hnone]

/-- The dates of a failure that is considered for a retry. -/
theorem roundDates_considered {now : Int} {t : WatchTarget} {p : Pass} {f : Failure}
    {calls : List (Prog.Event Reply)} (htold : toldLatest ⟨t, p, calls⟩ = some (.ok (some f)))
    (hunhandled : p.state.Unhandled f)
    (haction : (p.engine.settings.policy f.condition).action ≠ .skip) {attempts : Nat}
    (hattempts : attempts =
      ((p.state.firstSeen f now).2.recentAttempts t now p.window).1) :
    c.roundDates p.engine.settings now ⟨t, p, calls⟩ = c.secondsBefore now p.window ::
      if attempts < (p.engine.settings.policy f.condition).maxAttempts then
        [c.secondsAfter (((p.state.considered f t now p.window).latestAttempt t).getD
          (p.state.firstSeen f now).1) (min (retryDelaySeconds
            (p.engine.settings.policy f.condition) attempts f.retryAfterSeconds) i64Max : Nat)]
      else [] := by
  have hsome : consideredFailure ⟨t, p, calls⟩ = some f := by
    rw [consideredFailure, htold]
    exact if_neg fun h => h.elim hunhandled.1 fun h => h.elim hunhandled.2 haction
  have hcounted : countedAttempts now ⟨t, p, calls⟩ = attempts := by
    rw [hattempts, countedAttempts, recentAttempts, recentAttempts, firstSeen_attemptsOf]
  have hlatest : (p.state.recentAttempts t now p.window).2.latestAttempt t =
      (p.state.considered f t now p.window).latestAttempt t := by
    rw [latestAttempt, latestAttempt, considered_attemptsOf, if_pos rfl,
      recentAttempts_attemptsOf, if_pos rfl]
  rw [roundDates, hsome]
  simp only [windowCutoff, BelowLimit, readyAt, delayFrom, requiredDelay, hcounted, hlatest,
    firstSeenIn]

theorem staleCutoff_iff {now : Int} {settings : Settings} (hnow : Ordinary now)
    (hvalid : settings.validate = .ok ()) : c.staleCutoff now settings ≠ none ↔
      c.first ≤ now - seconds settings.lifecycle.staleAfterSeconds :=
  secondsBefore_iff hnow (Settings.validate_ok.mp hvalid).stale

/-- The retention cutoff is always a date. -/
theorem retentionCutoff {now : Int} (hnow : Ordinary now) : c.daysBefore now 30 ≠ none := by
  refine (secondsBefore_iff hnow (by decide)).mpr ?_
  have hfirst := c.first_le
  obtain ⟨hpast, _⟩ := hnow
  unfold seconds at *
  omega

end Calendar

/-! ## When every date is in the calendar -/

/-- The cutoff and the ready time of a considered failure are dates. -/
def RoundInCalendar (c : Calendar) (settings : Settings) (now : Int) (round : TargetRecord) :
    Prop :=
  ∀ f, consideredFailure round = some f →
    c.first ≤ now - seconds settings.engine.attemptWindowSeconds ∧
      (BelowLimit settings now round f →
        delayFrom now round f + seconds (requiredDelay settings now round f) ≤ c.last)

theorem delayFrom_ordinary {now : Int} {round : TargetRecord} (f : Failure)
    (hnow : Ordinary now) (htimed : round.before.state.Timed Ordinary) :
    Ordinary (delayFrom now round f) := by
  unfold delayFrom
  cases hlast : (round.before.state.recentAttempts round.element now
      round.before.window).2.latestAttempt round.element with
  | none => exact htimed.firstSeen_fst hnow f
  | some a =>
    exact (htimed.recentAttempts round.element round.before.window).attempts round.element a
      (List.mem_of_getLast? hlast)

/-- The dates of a round. -/
theorem roundDates_iff {c : Calendar} {settings : Settings} {now : Int} {round : TargetRecord}
    (hnow : Ordinary now) (hvalid : settings.validate = .ok ())
    (hsettings : round.before.engine.settings = settings)
    (htimed : round.before.state.Timed Ordinary) :
    none ∉ c.roundDates settings now round ↔ RoundInCalendar c settings now round := by
  unfold Calendar.roundDates RoundInCalendar
  cases hconsidered : consideredFailure round with
  | none => simp
  | some f =>
    have hwindow : c.windowCutoff now round ≠ none ↔
        c.first ≤ now - seconds settings.engine.attemptWindowSeconds := by
      rw [Calendar.windowCutoff, Pass.window, hsettings]
      exact Calendar.secondsBefore_iff hnow (Settings.attemptWindow_pos hvalid)
    have hready : c.readyAt settings now round f ≠ none ↔
        delayFrom now round f + seconds (requiredDelay settings now round f) ≤ c.last :=
      Calendar.secondsAfter_iff (delayFrom_ordinary f hnow htimed)
    by_cases hlimit : BelowLimit settings now round f
    · simp [hlimit, eq_comm, ← hwindow, ← hready]
    · simp [hlimit, eq_comm, ← hwindow]

/-- The plan of a first cycle. -/
def samplePlan : ReconcilePlan where
  now := 0
  revision := 0
  targets := [sampleTarget]
  settings := {}

/-- The discovery of a cycle against the provider. -/
def SampleProvider.discovered (provider : SampleProvider) (plan : ReconcilePlan)
    (order : List String) (e : WatchEngine) :
    List (Prog.Event Reply) × Except Error Discovery × WatchEngine :=
  (discoverTargets plan order e).execute provider.answer

/-- The rounds of a cycle against the provider. -/
def SampleProvider.cycle (provider : SampleProvider) (plan : ReconcilePlan) (order : List String)
    (e : WatchEngine) : List TargetRecord :=
  provider.rounds plan.now (provider.discovered plan order e).2.2

theorem SampleProvider.cycle_rounds (provider : SampleProvider) {now : Int}
    {targets : List WatchTarget} {settings : Settings} {e : WatchEngine}
    (hsettings : (replaceSettings settings).Returns e [] (.ok ()) e)
    (order : Arrangement
      ((ReconcilePlan.providers ⟨now, 0, targets, settings⟩ e.pendingProviderNames).sort
        (· ≤ ·)))
    (hdiscovered : ∃ discovery,
      (provider.discovered ⟨now, 0, targets, settings⟩ order.1 e).2.1 = .ok discovery) :
    ∃ tr, CycleRounds ⟨now, 0, targets, settings⟩ e tr
      (provider.cycle ⟨now, 0, targets, settings⟩ order.1 e) := by
  have hdiscover : (discoverTargets ⟨now, 0, targets, settings⟩ order.1).Returns e
      (provider.discovered ⟨now, 0, targets, settings⟩ order.1 e).1
      (provider.discovered ⟨now, 0, targets, settings⟩ order.1 e).2.1
      (provider.discovered ⟨now, 0, targets, settings⟩ order.1 e).2.2 :=
    Prog.execute_returns provider.answer _
  have hprepared := prepareEngine_returns hsettings order hdiscover
  obtain ⟨discovery, hok⟩ := hdiscovered
  rw [hok] at hprepared
  obtain ⟨rounds, hpass⟩ := runOnceAuthorized_run (Prog.execute_returns provider.answer
    (runOnceAuthorized now 0 ⟨(provider.discovered ⟨now, 0, targets, settings⟩ order.1 e).2.2,
      [], 0⟩))
  obtain rfl : rounds = provider.cycle ⟨now, 0, targets, settings⟩ order.1 e :=
    provider.rounds_eq now _ hpass
  exact ⟨_, .intro hprepared hpass⟩

/-- An order in which the cycle asks the providers. -/
def sampleOrder : Arrangement ((samplePlan.providers (sampleEngine {}).pendingProviderNames).sort
    (· ≤ ·)) :=
  ⟨["claude", "codex"], Multiset.coe_eq_coe.mp
    (Eq.trans (by decide) (Finset.sort_eq _ (· ≤ ·)).symm)⟩

theorem sampleSettings_returns : (replaceSettings {}).Returns (sampleEngine {}) [] (.ok ())
    (sampleEngine {}) := ⟨rfl, rfl⟩

/-- The provider asks to wait for the largest number of seconds there is. -/
def endlessProvider : SampleProvider where
  latest := some { sampleFailure "a" with retryAfterSeconds := some u64Max }

end Watchcat
