import Watchcat.Engine.Manual

/-!
# What one round can do

Each loop body of a pass is run once here, over all answers. What it can do to
the runtime state is listed with the guards that led there; later results read
these lists and never the programs.
-/

namespace Watchcat

open Watchcat.Core Method

/-- The call that starts a recovery turn. -/
def Call.isResume : Call → Bool
  | .resume _ _ _ _ => true
  | _ => false

/-- The calls of a trace that start a recovery turn. -/
def resumes (tr : List (Prog.Event Reply)) : List (Prog.Event Reply) :=
  tr.filter fun e => e.1.isResume

@[simp] theorem resumes_nil : resumes [] = [] := rfl

@[simp] theorem resumes_append (tr tr' : List (Prog.Event Reply)) :
    resumes (tr ++ tr') = resumes tr ++ resumes tr' := List.filter_append _ _

theorem resumes_cons (e : Prog.Event Reply) (tr : List (Prog.Event Reply)) :
    resumes (e :: tr) = if e.1.isResume then e :: resumes tr else resumes tr :=
  List.filter_cons

@[simp] theorem Pass.withState_state (p : Pass) (f : RuntimeState → RuntimeState) :
    (p.withState f).state = f p.state := rfl

@[simp] theorem Pass.withState_events (p : Pass) (f : RuntimeState → RuntimeState) :
    (p.withState f).events = p.events := rfl

@[simp] theorem Pass.push_state (p : Pass) (e : EngineEvent) : (p.push e).state = p.state := rfl

@[simp] theorem Pass.push_events (p : Pass) (e : EngineEvent) :
    (p.push e).events = p.events ++ [e] := rfl

@[simp] theorem Pass.push_engine (p : Pass) (e : EngineEvent) : (p.push e).engine = p.engine := rfl

@[simp] theorem Pass.markUnresolved_state (p : Pass) (t : WatchTarget) :
    (p.markUnresolved t).state = p.state := rfl

@[simp] theorem Pass.markUnresolved_events (p : Pass) (t : WatchTarget) :
    (p.markUnresolved t).events = p.events := rfl

/-! ## What a round leaves alone -/

/-- The event tells what became of a pending recovery. -/
def EngineEvent.isRecovery (e : EngineEvent) : Bool :=
  e.kind == "recovery.completed" || e.kind == "recovery.failed" || e.kind == "recovery.unconfirmed"

/-- The engine's settings, targets and providers are as before, and the new events tell of no
pending recovery. -/
structure Pass.Extends (p p' : Pass) : Prop where
  settings : p'.engine.settings = p.engine.settings
  targets : p'.engine.targets = p.engine.targets
  providers : p'.engine.providers = p.engine.providers
  dryRun : p'.engine.dryRun = p.engine.dryRun
  events : ∃ new, p'.events = p.events ++ new ∧ ∀ e ∈ new, e.isRecovery = false

namespace Pass.Extends

theorem refl (p : Pass) : p.Extends p := ⟨rfl, rfl, rfl, rfl, [], by simp⟩

theorem trans {p q r : Pass} (h : p.Extends q) (h' : q.Extends r) : p.Extends r := by
  obtain ⟨new, hnew, hrec⟩ := h.events
  obtain ⟨new', hnew', hrec'⟩ := h'.events
  refine ⟨h'.settings.trans h.settings, h'.targets.trans h.targets,
    h'.providers.trans h.providers, h'.dryRun.trans h.dryRun, new ++ new', ?_, ?_⟩
  · rw [hnew', hnew, List.append_assoc]
  · intro e he
    rcases List.mem_append.mp he with he | he
    · exact hrec e he
    · exact hrec' e he

theorem withState (p : Pass) (f : RuntimeState → RuntimeState) : p.Extends (p.withState f) :=
  ⟨rfl, rfl, rfl, rfl, [], by simp⟩

theorem push (p : Pass) {e : EngineEvent} (he : e.isRecovery = false) : p.Extends (p.push e) :=
  ⟨rfl, rfl, rfl, rfl, [e], by simpa using he⟩

theorem persisted {p q : Pass} (h : p.Extends q) {n : Nat} :
    p.Extends { q with persistedEvents := n } :=
  ⟨h.settings, h.targets, h.providers, h.dryRun, h.events⟩

theorem markUnresolved (p : Pass) (t : WatchTarget) : p.Extends (p.markUnresolved t) :=
  ⟨rfl, rfl, rfl, rfl, [], by simp⟩

theorem markResolved (p : Pass) (t : WatchTarget) : p.Extends (p.markResolved t) :=
  ⟨rfl, rfl, rfl, rfl, [], by simp [Pass.markResolved]⟩

end Pass.Extends

theorem Due.settleEvent_isRecovery (d : Due) (now : Int) (answer : Except Error ResumeReceipt) :
    (d.settleEvent now answer).isRecovery = false := by
  cases answer with
  | ok receipt => rfl
  | error e =>
    simp only [Due.settleEvent]
    split <;> rfl

@[simp] theorem Due.settle_attempts (d : Due) (now : Int) (automatic : Bool)
    (answer : Except Error ResumeReceipt) (s : RuntimeState) :
    (d.settle now automatic answer s).attempts = s.attempts := by
  cases answer with
  | ok receipt => rfl
  | error e =>
    simp only [Due.settle]
    split <;> rfl

@[simp] theorem Due.settle_observed (d : Due) (now : Int) (automatic : Bool)
    (answer : Except Error ResumeReceipt) (s : RuntimeState) :
    (d.settle now automatic answer s).observed = s.observed := by
  cases answer with
  | ok receipt => rfl
  | error e =>
    simp only [Due.settle]
    split <;> rfl

@[simp] theorem Due.settle_recoveryOutcomes (d : Due) (now : Int) (automatic : Bool)
    (answer : Except Error ResumeReceipt) (s : RuntimeState) :
    (d.settle now automatic answer s).recoveryOutcomes = s.recoveryOutcomes := by
  cases answer with
  | ok receipt => rfl
  | error e =>
    simp only [Due.settle]
    split <;> rfl

/-! ## Sending -/

/-- The calls of a sent recovery, up to its answer. -/
def sentCalls (generation : Nat) (d : Due) (s : RuntimeState)
    (answer : Except Error ResumeReceipt) :
    List (Prog.Event Reply) :=
  [⟨.enterSendBoundary, ()⟩, ⟨.permitAllows d.target generation, true⟩, ⟨.writeState s, .ok ()⟩,
    ⟨.resume d.target.provider d.target.sessionId d.prompt d.failure.key, answer⟩]

/-- How the sending of a due recovery can end: the attempt could not be saved, or the resume
call was answered. -/
inductive SendRound (now : Int) (d : Due) (p : Pass) :
    List (Prog.Event Reply) → Except Error Unit → Pass → Prop
  | unsaved {tr : List (Prog.Event Reply)} {e : Error} {p' : Pass} (htr : resumes tr = [])
      (hstate : p'.state = p.state.recordAttempt d.target now) (hkept : p.Extends p') :
      SendRound now d p tr (.error e) p'
  | sent {post : List (Prog.Event Reply)} {answer : Except Error ResumeReceipt} {p' : Pass}
      (hpost : resumes post = [])
      (hstate : p'.state = d.settle now true answer (p.state.recordAttempt d.target now))
      (hkept : p.Extends p') :
      SendRound now d p (⟨.writeState (p.state.recordAttempt d.target now), .ok ()⟩ ::
        ⟨.resume d.target.provider d.target.sessionId d.prompt d.failure.key, answer⟩ :: post)
        (.ok ()) p'

/-- Flushing only appends to the log. -/
theorem flushEvents_follows {h : List (Prog.Event Reply)} {p : Pass}
    {Q : List (Prog.Event Reply) → Except Error Unit → Pass → Prop}
    (hq : ∀ tr, resumes tr = [] → Q (h ++ tr) (.ok ()) p) :
    flushEvents.Follows (Monitor.history Reply) h p Q := by
  simp only [flushEvents, Act.bind_eq, Act.pure_eq, perform, Act.follows_andThen, Act.follows_get,
    Act.follows_perform, Act.follows_ret, Act.follows_ite, Monitor.history, true_and]
  refine ⟨fun _ r => hq [⟨.appendLog _ _, r⟩] rfl, fun _ => ?_⟩
  simpa only [List.append_nil] using hq [] rfl

theorem sendRecovery_round {now : Int} {d : Due} {p p' : Pass} {tr : List (Prog.Event Reply)}
    {r : Except Error Unit} (h : (sendRecovery now d).Returns p tr r p') :
    SendRound now d p tr r p' := by
  refine Act.Follows.of_history ?_ h
  have hkept : ∀ answer, p.Extends
      (((p.withState fun s => s.recordAttempt d.target now).withState
        (d.settle now true answer)).push (d.settleEvent now answer)) := fun answer =>
    ((Pass.Extends.withState p _).trans (.withState _ _)).trans
      (.push _ (d.settleEvent_isRecovery now answer))
  simp only [sendRecovery, saveState, Act.bind_eq, perform, Act.follows_andThen,
    Act.follows_modify, Act.follows_get, Act.follows_perform, Act.follows_ofExcept,
    Act.follows_ite, Monitor.history, true_and, List.nil_append]
  intro saved
  cases saved with
  | error e => exact .unsaved rfl rfl (.withState p _)
  | ok _ =>
    intro answer
    refine ⟨fun _ resaved => flushEvents_follows fun tr htr => ?_,
      fun _ => flushEvents_follows fun tr htr => ?_⟩
    · have hpost : resumes (⟨.writeState _, resaved⟩ :: tr) = [] := htr
      exact .sent hpost rfl (hkept answer).persisted
    · exact .sent htr rfl (hkept answer).persisted

/-- How the last checks and the sending can end. -/
inductive ResumeRound (now : Int) (generation : Nat) (d : Due) (p : Pass) :
    List (Prog.Event Reply) → Except Error Unit → Pass → Prop
  | idle {tr : List (Prog.Event Reply)} {r : Except Error Unit} {p' : Pass}
      (htr : resumes tr = []) (hstate : p'.state = p.state) (hkept : p.Extends p') :
      ResumeRound now generation d p tr r p'
  | unsaved {tr : List (Prog.Event Reply)} {r : Except Error Unit} {p' : Pass}
      (htr : resumes tr = []) (hstate : p'.state = p.state.recordAttempt d.target now)
      (hkept : p.Extends p') : ResumeRound now generation d p tr r p'
  | sent {pre post : List (Prog.Event Reply)} {answer : Except Error ResumeReceipt} {p' : Pass}
      (hpre : resumes pre = []) (hpost : resumes post = [])
      (hstate : p'.state = d.settle now true answer (p.state.recordAttempt d.target now))
      (hkept : p.Extends p') :
      ResumeRound now generation d p
        (pre ++ (sentCalls generation d (p.state.recordAttempt d.target now) answer ++ post))
        (.ok ()) p'

theorem resumeTarget_round {now : Int} {generation : Nat} {d : Due} {p p' : Pass}
    {tr : List (Prog.Event Reply)} {r : Except Error Unit}
    (h : (resumeTarget now generation d).Returns p tr r p') :
    ResumeRound now generation d p tr r p' := by
  refine Act.Follows.of_history ?_ h
  simp only [resumeTarget, Act.bind_eq, perform, Act.follows_andThen, Act.follows_modify,
    Act.follows_perform, Act.follows_ofExcept, Act.follows_ite, Act.follows_closing,
    Monitor.history, true_and, List.nil_append]
  refine fun first => ⟨fun _ => .idle rfl rfl (.push p rfl), fun _ latest => ?_⟩
  cases latest with
  | error e => exact .idle rfl rfl (.refl p)
  | ok latest =>
    refine fun second => ⟨fun _ => .idle rfl rfl (.push p rfl), fun _ => ?_⟩
    refine ⟨fun _ => .idle rfl rfl (.push p rfl), fun _ _ third => ?_⟩
    refine ⟨fun _ => ⟨trivial, fun _ => .idle rfl rfl (.push p rfl)⟩, fun hthird => ?_⟩
    simp only [Bool.not_eq_true', Bool.not_eq_false] at hthird
    subst hthird
    refine Act.follows_history.mpr fun tr r p' hr => ⟨trivial, fun _ => ?_⟩
    cases sendRecovery_round hr with
    | unsaved htr hstate hkept =>
      exact .unsaved (by simpa [resumes_cons, Call.isResume] using htr) hstate hkept
    | @sent post answer _ hpost hstate hkept =>
      have hpre : resumes [⟨.permitAllows d.target generation, first⟩,
          ⟨.latestFailure d.target.provider d.target.sessionId, .ok latest⟩,
          ⟨.permitAllows d.target generation, second⟩] = [] := rfl
      have hleft : resumes (post ++ [⟨.leaveSendBoundary, ()⟩]) = [] := by
        simpa [resumes_cons, Call.isResume] using hpost
      exact .sent hpre hleft hstate hkept

/-! ## One target -/

/-- The state once a failure has been looked at for a retry. -/
def RuntimeState.considered (s : RuntimeState) (f : Failure) (t : WatchTarget) (now : Int)
    (windowSeconds : Int) : RuntimeState :=
  ((s.firstSeen f now).2.recentAttempts t now windowSeconds).2

@[simp] theorem RuntimeState.considered_pendingRecoveries (s : RuntimeState) (f : Failure)
    (t : WatchTarget) (now w : Int) :
    (s.considered f t now w).pendingRecoveries = s.pendingRecoveries := by
  simp only [considered, recentAttempts_pendingRecoveries, firstSeen_pendingRecoveries]

@[simp] theorem RuntimeState.considered_handled (s : RuntimeState) (f : Failure)
    (t : WatchTarget) (now w : Int) : (s.considered f t now w).handled = s.handled := by
  simp only [considered, recentAttempts_handled, firstSeen_handled]

theorem RuntimeState.firstSeen_recoveryOutcomes (s : RuntimeState) (f : Failure) (now : Int) :
    (s.firstSeen f now).2.recoveryOutcomes = s.recoveryOutcomes := by
  unfold firstSeen
  split <;> rfl

theorem RuntimeState.considered_recoveryOutcomes (s : RuntimeState) (f : Failure)
    (t : WatchTarget) (now w : Int) :
    (s.considered f t now w).recoveryOutcomes = s.recoveryOutcomes :=
  s.firstSeen_recoveryOutcomes f now

/-- The attempt window of the engine of a pass. -/
def Pass.window (p : Pass) : Int := p.engine.settings.engine.attemptWindowSeconds

/-- The failure has not been resumed, as far as the engine remembers. -/
def RuntimeState.Unhandled (s : RuntimeState) (f : Failure) : Prop :=
  s.handledAction f ≠ some .resumed ∧ s.handledAction f ≠ some .unconfirmed

/-- Everything that makes a failure due in a pass. -/
structure Due.Ready (d : Due) (now : Int) (p : Pass) : Prop where
  policy : d.policy = p.engine.settings.policy d.failure.condition
  action : d.policy.action ≠ .skip
  unhandled : p.state.Unhandled d.failure
  attempts : d.attempts = ((p.state.firstSeen d.failure now).2.recentAttempts d.target now
    p.window).1
  limit : d.attempts < d.policy.maxAttempts
  delay : ((p.state.considered d.failure d.target now p.window).latestAttempt d.target).getD
      (p.state.firstSeen d.failure now).1 +
    seconds (min (retryDelaySeconds d.policy d.attempts d.failure.retryAfterSeconds) i64Max) ≤ now
  live : p.engine.dryRun = false
  prompt : d.prompt =
    renderPrompt d.policy.prompt d.failure (d.attempts + 1) d.policy.maxAttempts

/-- How the retry of a failure can end. -/
inductive RetryRound (now : Int) (generation : Nat) (t : WatchTarget) (f : Failure) (p : Pass) :
    List (Prog.Event Reply) → Except Error Unit → Pass → Prop
  | undated {p' : Pass} (hwindow : gregorian.secondsBefore now p.window = none)
      (hstate : p'.state = (p.state.firstSeen f now).2) (hkept : p.Extends p') :
      RetryRound now generation t f p [] (.error .panicked) p'
  | considered {tr : List (Prog.Event Reply)} {r : Except Error Unit} {p' : Pass}
      (htr : resumes tr = []) (hstate : p'.state = p.state.considered f t now p.window)
      (hkept : p.Extends p') : RetryRound now generation t f p tr r p'
  | unsaved {tr : List (Prog.Event Reply)} {r : Except Error Unit} {p' : Pass}
      (htr : resumes tr = [])
      (hstate : p'.state = (p.state.considered f t now p.window).recordAttempt t now)
      (hkept : p.Extends p') : RetryRound now generation t f p tr r p'
  | sent {d : Due} {pre post : List (Prog.Event Reply)} {answer : Except Error ResumeReceipt}
      {p' : Pass} (hready : d.Ready now p) (htarget : d.target = t) (hfailure : d.failure = f)
      (hpre : resumes pre = []) (hpost : resumes post = [])
      (hstate : p'.state = d.settle now true answer
        ((p.state.considered f t now p.window).recordAttempt t now))
      (hkept : p.Extends p') :
      RetryRound now generation t f p
        (pre ++ (sentCalls generation d
          ((p.state.considered f t now p.window).recordAttempt t now) answer ++ post))
        (.ok ()) p'

theorem retryFailure_round {now : Int} {generation : Nat} {t : WatchTarget} {f : Failure}
    {p p' : Pass} {tr : List (Prog.Event Reply)} {r : Except Error Unit}
    (hhandled : p.state.Unhandled f)
    (haction : (p.engine.settings.policy f.condition).action ≠ .skip)
    (h : (retryFailure now generation t f (p.engine.settings.policy f.condition)).Returns p tr r
      p') : RetryRound now generation t f p tr r p' := by
  refine Act.Follows.of_history ?_ h
  have hkept : p.Extends (p.withState fun s => s.considered f t now p.window) := .withState p _
  simp only [retryFailure, Act.bind_eq, Act.follows_andThen, Act.follows_update, Act.follows_get,
    Act.follows_modify, Act.follows_ite, follows_orPanic]
  refine ⟨fun hwindow => .undated hwindow rfl (.withState p _), fun _ _ => ?_⟩
  refine ⟨fun _ => .considered rfl rfl (hkept.trans (.push _ rfl)), fun hlimit => ?_⟩
  refine ⟨fun _ => .considered rfl rfl hkept, fun readyAt hreadyAt => ?_⟩
  refine ⟨fun _ => .considered rfl rfl (hkept.trans (.push _ rfl)), fun hdelay => ?_⟩
  refine ⟨fun _ => .considered rfl rfl (hkept.trans (.push _ rfl)), fun hdry => ?_⟩
  refine Act.follows_history.mpr fun tr r p' hr => ?_
  rw [List.nil_append]
  cases resumeTarget_round hr with
  | idle htr hstate hk => exact .considered htr hstate (hkept.trans hk)
  | unsaved htr hstate hk => exact .unsaved htr hstate (hkept.trans hk)
  | sent hpre hpost hstate hk =>
    refine .sent ⟨rfl, haction, hhandled, rfl, Nat.lt_of_not_le hlimit, ?_, ?_, rfl⟩ rfl rfl
      hpre hpost hstate (hkept.trans hk)
    · have hready := Int.not_lt.mp hdelay
      rw [gregorian.secondsAfter_eq_some hreadyAt, Nat.cast_min] at hready
      exact hready
    · exact Bool.eq_false_iff.mpr hdry

/-- How the round of a target can end. -/
inductive TargetRound (now : Int) (generation : Nat) (t : WatchTarget) (p : Pass) :
    List (Prog.Event Reply) → Except Error Unit → Pass → Prop
  | idle {tr : List (Prog.Event Reply)} {p' : Pass} (htr : resumes tr = [])
      (hstate : p'.state = p.state) (hkept : p.Extends p') :
      TargetRound now generation t p tr (.ok ()) p'
  | resolved :
      TargetRound now generation t p [⟨.permitAllows t generation, true⟩,
        ⟨.latestFailure t.provider t.sessionId, .ok none⟩] (.ok ()) (p.markResolved t)
  | skipped {f : Failure} {p' : Pass} (hunhandled : p.state.Unhandled f)
      (hskip : (p.engine.settings.policy f.condition).action = .skip)
      (hstate : p'.state = p.state.markHandled f .skipped now) (hkept : p.Extends p') :
      TargetRound now generation t p [⟨.permitAllows t generation, true⟩,
        ⟨.latestFailure t.provider t.sessionId, .ok (some f)⟩] (.ok ()) p'
  | retried {f : Failure} {tr : List (Prog.Event Reply)} {r : Except Error Unit} {q p' : Pass}
      (hq : q = p.markUnresolved t) (hunhandled : p.state.Unhandled f)
      (hretry : (p.engine.settings.policy f.condition).action ≠ .skip)
      (hround : RetryRound now generation t f q tr r p') :
      TargetRound now generation t p (⟨.permitAllows t generation, true⟩ ::
        ⟨.latestFailure t.provider t.sessionId, .ok (some f)⟩ :: tr) r p'

theorem RetryRound.extends {now : Int} {generation : Nat} {t : WatchTarget} {f : Failure}
    {p p' : Pass} {tr : List (Prog.Event Reply)} {r : Except Error Unit}
    (h : RetryRound now generation t f p tr r p') : p.Extends p' := by
  cases h with
  | undated _ _ hkept => exact hkept
  | considered _ _ hkept => exact hkept
  | unsaved _ _ hkept => exact hkept
  | sent _ _ _ _ _ _ hkept => exact hkept

/-- A round leaves the settings, the targets and the providers. -/
theorem TargetRound.extends {now : Int} {generation : Nat} {t : WatchTarget} {p p' : Pass}
    {tr : List (Prog.Event Reply)} {r : Except Error Unit}
    (h : TargetRound now generation t p tr r p') : p.Extends p' := by
  cases h with
  | idle _ _ hkept => exact hkept
  | resolved => exact .markResolved p t
  | skipped _ _ _ hkept => exact hkept
  | retried hq _ _ hround =>
    subst hq
    exact (Pass.Extends.markUnresolved p t).trans hround.extends

/-- A round of a target records no outcome. -/
theorem TargetRound.recoveryOutcomes {now : Int} {generation : Nat} {t : WatchTarget}
    {p p' : Pass} {tr : List (Prog.Event Reply)} {r : Except Error Unit}
    (h : TargetRound now generation t p tr r p') :
    p'.state.recoveryOutcomes = p.state.recoveryOutcomes := by
  cases h with
  | idle _ hstate _ => rw [hstate]
  | resolved =>
    simp only [Pass.markResolved, Pass.state]
    split <;> rfl
  | skipped _ _ hstate _ =>
    rw [hstate]
    rfl
  | @retried f _ _ _ _ hq _ _ hround =>
    subst hq
    have hconsidered := p.state.considered_recoveryOutcomes f t now p.window
    cases hround with
    | undated _ hstate _ => exact hstate ▸ p.state.firstSeen_recoveryOutcomes f now
    | considered _ hstate _ => exact hstate ▸ hconsidered
    | unsaved _ hstate _ => exact hstate ▸ hconsidered
    | @sent d _ _ answer _ _ _ _ _ _ hstate _ =>
      rw [hstate, d.settle_recoveryOutcomes]
      exact hconsidered

theorem handleFailure_follows {now : Int} {generation : Nat} {t : WatchTarget} {f : Failure}
    {p : Pass} {h : List (Prog.Event Reply)}
    {Q : List (Prog.Event Reply) → Except Error Unit → Pass → Prop}
    (hhandled : Q h (.ok ()) p)
    (hskipped : p.state.Unhandled f → (p.engine.settings.policy f.condition).action = .skip →
      ∀ p', p'.state = p.state.markHandled f .skipped now → p.Extends p' → Q h (.ok ()) p')
    (hretried : p.state.Unhandled f → (p.engine.settings.policy f.condition).action ≠ .skip →
      ∀ tr r p', RetryRound now generation t f p tr r p' → Q (h ++ tr) r p') :
    (handleFailure now generation t f).Follows (Monitor.history Reply) h p Q := by
  simp only [handleFailure, Act.bind_eq, Act.pure_eq, Act.follows_andThen, Act.follows_get,
    Act.follows_ite, Act.follows_ret, Act.follows_modify]
  refine ⟨fun _ => hhandled, fun hnot => ?_⟩
  simp only [Bool.or_eq_true, decide_eq_true_eq, not_or] at hnot
  refine ⟨fun hskip => ?_, fun haction => ?_⟩
  · exact hskipped hnot.1 hskip _ rfl ((Pass.Extends.withState p _).trans (.push _ rfl))
  · refine Act.follows_history.mpr fun tr r p' hr => ?_
    exact hretried hnot.1 haction tr r p' (retryFailure_round hnot.1 haction hr)

theorem passTarget_round {now : Int} {generation : Nat} {t : WatchTarget} {p p' : Pass}
    {tr : List (Prog.Event Reply)} {r : Except Error Unit}
    (h : (passTarget now generation t).Returns p tr r p') :
    TargetRound now generation t p tr r p' := by
  refine Act.Follows.of_history ?_ h
  simp only [passTarget, Act.bind_eq, Act.pure_eq, perform, Act.follows_andThen, Act.follows_get,
    Act.follows_perform, Act.follows_ite, Act.follows_ret, Act.follows_modify, Monitor.history,
    true_and, List.nil_append]
  refine fun allowed => ⟨fun _ => .idle rfl rfl (.refl p), fun hallowed => ?_⟩
  simp only [Bool.not_eq_true', Bool.not_eq_false] at hallowed
  subst hallowed
  refine ⟨fun _ => .idle rfl rfl (.push p rfl), fun _ latest => ?_⟩
  cases latest with
  | error e => exact .idle rfl rfl (.push p rfl)
  | ok latest =>
    cases latest with
    | none => exact .resolved
    | some f =>
      refine handleFailure_follows ?_ ?_ ?_
      · exact .idle rfl rfl (.markUnresolved p t)
      · intro hunhandled hskip p' hstate hkept
        exact .skipped hunhandled hskip hstate ((Pass.Extends.markUnresolved p t).trans hkept)
      · intro hunhandled hretry tr r p' hround
        exact .retried rfl hunhandled hretry hround

/-! ## One pending recovery -/

/-- How the observation of a pending recovery can end. -/
inductive PendingRound (now : Int) (pending : PendingRecovery) (p : Pass) :
    List (Prog.Event Reply) → Except Error Unit → Pass → Prop
  | unavailable (hp : pending.provider ∉ p.engine.providers) :
      PendingRound now pending p [] (.ok ()) p
  | observed {answer : Except Error TurnOutcome} (hp : pending.provider ∈ p.engine.providers) :
      PendingRound now pending p
        [⟨.turnOutcome pending.provider pending.sessionId pending.recoveryTurnId, answer⟩] (.ok ())
        (p.observed pending now answer)

theorem observePending_round {now : Int} {pending : PendingRecovery} {p p' : Pass}
    {tr : List (Prog.Event Reply)} {r : Except Error Unit}
    (h : (observePending now pending).Returns p tr r p') : PendingRound now pending p tr r p' := by
  refine Act.Follows.of_history ?_ h
  simp only [observePending, Act.bind_eq, Act.pure_eq, perform, Act.follows_andThen,
    Act.follows_get, Act.follows_perform, Act.follows_ite, Act.follows_ret, Act.follows_modify,
    Monitor.history, true_and, List.nil_append]
  exact ⟨fun hp _ => .observed hp, fun hp => .unavailable hp⟩

/-- An observation leaves the settings, the targets, what was handled and the attempts. -/
structure Pass.Observes (p p' : Pass) : Prop where
  settings : p'.engine.settings = p.engine.settings
  targets : p'.engine.targets = p.engine.targets
  handled : p'.state.handled = p.state.handled
  attempts : p'.state.attempts = p.state.attempts

namespace Pass

theorem abandonPending_observes (p : Pass) (pending : PendingRecovery) (now : Int) :
    p.Observes (p.abandonPending pending now) := by
  have hh := p.state.abandonRecovery_handled pending.failureKey
  have ha := p.state.abandonRecovery_attempts pending.failureKey
  unfold abandonPending
  split
  · exact ⟨rfl, rfl, rfl, rfl⟩
  · rename_i heq
    rw [heq] at hh ha
    exact ⟨rfl, rfl, hh, ha⟩

theorem finishPending_observes (p : Pass) (pending : PendingRecovery) (success : Bool)
    (now : Int) : p.Observes (p.finishPending pending success now) := by
  have hh := p.state.finishRecovery_handled now pending.failureKey success
  have ha := p.state.finishRecovery_attempts now pending.failureKey success
  unfold finishPending
  split
  · exact ⟨rfl, rfl, rfl, rfl⟩
  · rename_i heq
    rw [heq] at hh ha
    exact ⟨rfl, rfl, hh, ha⟩

theorem missedObservation_observes (p : Pass) (pending : PendingRecovery) (now : Int) :
    p.Observes (p.missedObservation pending now) := by
  have hh := p.state.recordRecoveryObservationFailure_handled now pending.failureKey
  have ha := p.state.recordRecoveryObservationFailure_attempts now pending.failureKey
  unfold missedObservation
  dsimp only
  split
  · have habandon := abandonPending_observes (p.withState fun _ =>
      (p.state.recordRecoveryObservationFailure pending.failureKey now).2) pending now
    exact ⟨habandon.settings, habandon.targets, habandon.handled.trans hh,
      habandon.attempts.trans ha⟩
  · exact ⟨rfl, rfl, hh, ha⟩

theorem observed_observes (p : Pass) (pending : PendingRecovery) (now : Int)
    (answer : Except Error TurnOutcome) : p.Observes (p.observed pending now answer) := by
  rcases answer with e | outcome
  · exact p.missedObservation_observes pending now
  · cases outcome with
    | completed => exact p.finishPending_observes pending true now
    | failed => exact p.finishPending_observes pending false now
    | unknown => exact p.missedObservation_observes pending now
    | inProgress =>
      simp only [observed]
      split
      · exact p.abandonPending_observes pending now
      · exact ⟨rfl, rfl, rfl, rfl⟩

end Pass

/-! ## A manual retry -/

/-- A change of the runtime state from a manual retry that was not sent yet: the pending and
handled entries and the outcomes are as before, and no attempt inside the window is lost. -/
structure RuntimeState.Prepares (now windowSeconds : Int) (s s' : RuntimeState) : Prop where
  pending : s'.pendingRecoveries = s.pendingRecoveries
  handled : s'.handled = s.handled
  outcomes : s'.recoveryOutcomes = s.recoveryOutcomes
  attempts (u : WatchTarget) : Covers (now - seconds windowSeconds) (s'.attemptsOf u)
    (s.attemptsOf u)

namespace RuntimeState.Prepares

theorem refl (now w : Int) (s : RuntimeState) : s.Prepares now w s :=
  ⟨rfl, rfl, rfl, fun _ => .refl _ _⟩

theorem trans {now w : Int} {s mid s' : RuntimeState} (h : s.Prepares now w mid)
    (h' : mid.Prepares now w s') : s.Prepares now w s' :=
  ⟨h'.pending.trans h.pending, h'.handled.trans h.handled, h'.outcomes.trans h.outcomes,
    fun u => (h'.attempts u).trans (h.attempts u)⟩

theorem recordAttempt (now w : Int) (s : RuntimeState) (t : WatchTarget) :
    s.Prepares now w (s.recordAttempt t now) :=
  ⟨rfl, rfl, rfl, fun u => s.recordAttempt_covers t now _ u⟩

theorem recentAttempts (now w : Int) (s : RuntimeState) (t : WatchTarget) :
    s.Prepares now w (s.recentAttempts t now w).2 :=
  ⟨rfl, rfl, rfl, fun u => s.recentAttempts_covers t now w u⟩

end RuntimeState.Prepares

/-- The attempt window of an engine. -/
def WatchEngine.window (e : WatchEngine) : Int := e.settings.engine.attemptWindowSeconds

/-- How a manual retry can end. -/
inductive ManualRound (now : Int) (automatic : Bool) (generation : Nat) (e : WatchEngine) :
    List (Prog.Event Reply) → Except Error ResumeReceipt → WatchEngine → Prop
  | refused {tr : List (Prog.Event Reply)} {r : Except Error ResumeReceipt} {e' : WatchEngine}
      (htr : resumes tr = []) (hstate : e.state.Prepares now e.window e'.state) :
      ManualRound now automatic generation e tr r e'
  | sent {d : Due} {pre post : List (Prog.Event Reply)} {answer : Except Error ResumeReceipt}
      {e' : WatchEngine} {s : RuntimeState} (hpre : resumes pre = []) (hpost : resumes post = [])
      (hprepared : e.state.Prepares now e.window s)
      (hstate : e'.state = d.settle now automatic answer s) :
      ManualRound now automatic generation e
        (pre ++ (sentCalls generation d s answer ++ post)) answer e'

/-- Calls made before, without a resume, belong to the retry. -/
theorem ManualRound.prepend {now : Int} {automatic : Bool} {generation : Nat}
    {e mid e' : WatchEngine} {tr : List (Prog.Event Reply)} {r : Except Error ResumeReceipt}
    (h : ManualRound now automatic generation mid tr r e')
    (hstate : e.state.Prepares now e.window mid.state) (hwindow : mid.window = e.window)
    (first : List (Prog.Event Reply)) (hfirst : resumes first = []) :
    ManualRound now automatic generation e (first ++ tr) r e' := by
  cases h with
  | refused htr hprepared =>
    rw [hwindow] at hprepared
    exact .refused (by rw [resumes_append, hfirst, htr]; rfl) (hstate.trans hprepared)
  | sent hpre hpost hprepared hend =>
    rw [hwindow] at hprepared
    rw [← List.append_assoc]
    exact .sent (by rw [resumes_append, hfirst, hpre]; rfl) hpost (hstate.trans hprepared) hend

theorem sendManualRetry_round {now : Int} {automatic : Bool} {generation : Nat} {d : Due}
    {e e' : WatchEngine} {tr : List (Prog.Event Reply)} {r : Except Error ResumeReceipt}
    (h : (sendManualRetry now automatic d).Returns e tr r e') :
    ManualRound now automatic generation e (⟨.enterSendBoundary, ()⟩ ::
      ⟨.permitAllows d.target generation, true⟩ :: (tr ++ [⟨.leaveSendBoundary, ()⟩])) r e' := by
  refine Act.Follows.of_history (Q := fun tr r e' =>
    ManualRound now automatic generation e (⟨.enterSendBoundary, ()⟩ ::
      ⟨.permitAllows d.target generation, true⟩ :: (tr ++ [⟨.leaveSendBoundary, ()⟩])) r e') ?_ h
  simp only [sendManualRetry, Act.bind_eq, perform, Act.follows_andThen, Act.follows_modify,
    Act.follows_get, Act.follows_perform, Act.follows_ofExcept, Act.follows_ite, Act.follows_fail,
    Monitor.history, true_and, List.nil_append]
  intro saved
  cases saved with
  | error e => exact .refused rfl (.recordAttempt now _ _ _)
  | ok _ =>
    refine ⟨fun _ => .refused rfl (.recordAttempt now _ _ _), fun _ answer =>
      ⟨fun _ resaved logged => ?_, fun _ => ?_⟩⟩
    · have hpost : resumes [⟨.writeState _, resaved⟩, ⟨.appendLog _ _, logged⟩,
        ⟨.leaveSendBoundary, ()⟩] = [] := rfl
      exact .sent resumes_nil hpost (.recordAttempt now _ _ _) rfl
    · have hpost : resumes [⟨.leaveSendBoundary, ()⟩] = [] := rfl
      exact .sent resumes_nil hpost (.recordAttempt now _ _ _) rfl

theorem retryFailureNow_round {now : Int} {automatic : Bool} {generation : Nat} {t : WatchTarget}
    {f : Failure} {e e' : WatchEngine} {tr : List (Prog.Event Reply)}
    {r : Except Error ResumeReceipt}
    (h : (retryFailureNow now automatic generation t f).Returns e tr r e') :
    ManualRound now automatic generation e tr r e' := by
  refine Act.Follows.of_history ?_ h
  simp only [retryFailureNow, Act.bind_eq, perform, Act.follows_andThen, Act.follows_get,
    Act.follows_perform, Act.follows_ite, Act.follows_fail, Act.follows_update,
    Act.follows_closing, follows_orPanic, Monitor.history, true_and, List.nil_append]
  have hprepared := RuntimeState.Prepares.recentAttempts now e.window e.state t
  refine ⟨fun _ => .refused rfl (.refl _ _ _), fun _ => ?_⟩
  refine ⟨fun _ => .refused rfl (.refl _ _ _), fun _ _ => ?_⟩
  refine ⟨fun _ => .refused rfl hprepared, fun _ _ allowed => ?_⟩
  refine ⟨fun _ => ⟨trivial, fun _ => .refused rfl hprepared⟩, fun hallowed => ?_⟩
  simp only [Bool.not_eq_true', Bool.not_eq_false] at hallowed
  subst hallowed
  refine Act.follows_history.mpr fun tr r e' hr => ⟨trivial, fun _ => ?_⟩
  exact (sendManualRetry_round hr).prepend hprepared rfl [] rfl

theorem retryNow_round {providerName sessionId : String} {now : Int} {automatic : Bool}
    {generation : Nat} {e e' : WatchEngine} {tr : List (Prog.Event Reply)}
    {r : Except Error ResumeReceipt}
    (h : (retryNow providerName sessionId now automatic generation).Returns e tr r e') :
    ManualRound now automatic generation e tr r e' := by
  refine Act.Follows.of_history ?_ h
  simp only [retryNow, Act.bind_eq, Act.follows_andThen, Act.follows_get]
  split
  · exact .refused rfl (.refl _ _ _)
  simp only [perform, Act.follows_andThen, Act.follows_perform, Act.follows_ite,
    Act.follows_fail, Act.follows_ofExcept, Monitor.history, true_and, List.nil_append]
  refine fun first => ⟨fun _ => .refused rfl (.refl _ _ _), fun _ => ?_⟩
  refine ⟨fun _ => .refused rfl (.refl _ _ _), fun _ latest => ?_⟩
  cases latest with
  | error e => exact .refused rfl (.refl _ _ _)
  | ok latest =>
    cases latest with
    | none => exact .refused rfl (.refl _ _ _)
    | some f =>
      simp only [Act.follows_andThen, Act.follows_modify]
      refine Act.follows_history.mpr fun tr r e' hr => ?_
      exact (retryFailureNow_round hr).prepend (e := e) (.refl _ _ _) rfl
        [⟨.permitAllows _ generation, first⟩,
          ⟨.latestFailure providerName sessionId, .ok (some f)⟩] rfl

/-! ## Panics -/

/-- What the call has reached has panicked. -/
def panics : Prog.Event Reply → Bool
  | ⟨.latestFailure _ _, .error .panicked⟩ | ⟨.writeState _, .error .panicked⟩ => true
  | ⟨.resume _ _ _ _, .error .panicked⟩ => true
  | _ => false

theorem sendManualRetry_panics {now : Int} {automatic : Bool} {d : Due} {e e' : WatchEngine}
    {tr : List (Prog.Event Reply)}
    (h : (sendManualRetry now automatic d).Returns e tr (.error .panicked) e') :
    ∃ event ∈ tr, panics event = true := by
  refine Act.Follows.of_history (Q := fun tr r _ => r = .error .panicked →
    ∃ event ∈ tr, panics event = true) ?_ h rfl
  simp only [sendManualRetry, Act.bind_eq, perform, Act.follows_andThen, Act.follows_modify,
    Act.follows_get, Act.follows_perform, Act.follows_ofExcept, Act.follows_ite, Act.follows_fail,
    Monitor.history, true_and, List.nil_append]
  intro saved
  cases saved with
  | error error =>
    rintro ⟨⟩
    exact ⟨_, List.mem_cons_self, rfl⟩
  | ok _ =>
    refine ⟨fun _ => by rintro ⟨⟩, fun _ answer => ⟨fun _ resaved logged => ?_, fun _ => ?_⟩⟩
    · rintro rfl
      exact ⟨_, List.mem_cons_of_mem _ List.mem_cons_self, rfl⟩
    · rintro rfl
      exact ⟨_, List.mem_cons_of_mem _ List.mem_cons_self, rfl⟩

/-- A manual retry panics only where the cutoff of its attempts is no date, or where a call of it
has panicked. -/
theorem retryNow_panics {providerName sessionId : String} {now : Int} {automatic : Bool}
    {generation : Nat} {e e' : WatchEngine} {tr : List (Prog.Event Reply)}
    (h : (retryNow providerName sessionId now automatic generation).Returns e tr
      (.error .panicked) e') :
    gregorian.secondsBefore now e.window = none ∨ ∃ event ∈ tr, panics event = true := by
  refine Act.Follows.of_history (Q := fun tr r _ => r = .error .panicked →
    gregorian.secondsBefore now e.window = none ∨ ∃ event ∈ tr, panics event = true) ?_ h rfl
  simp only [retryNow, Act.bind_eq, Act.follows_andThen, Act.follows_get]
  split
  · rintro ⟨⟩
  · rename_i target _
    simp only [perform, Act.follows_andThen, Act.follows_perform, Act.follows_ite, Act.follows_fail,
      Act.follows_ofExcept, Monitor.history, true_and, List.nil_append]
    refine fun _ => ⟨fun _ => by rintro ⟨⟩, fun _ => ⟨fun _ => by rintro ⟨⟩, fun _ found => ?_⟩⟩
    rcases found with error | _ | f
    · rintro ⟨⟩
      exact .inr ⟨_, List.mem_cons_of_mem _ List.mem_cons_self, rfl⟩
    · rintro ⟨⟩
    simp only [retryFailureNow, Act.bind_eq, perform, Act.follows_andThen, Act.follows_modify,
      Act.follows_get, Act.follows_perform, Act.follows_ite, Act.follows_fail, Act.follows_update,
      Act.follows_closing, follows_orPanic, true_and]
    refine ⟨fun _ => by rintro ⟨⟩, fun _ => ⟨fun hwindow _ => .inl hwindow, fun _ _ => ?_⟩⟩
    refine ⟨fun _ => by rintro ⟨⟩, fun _ _ allowed =>
      ⟨fun _ => ⟨trivial, fun _ => by rintro ⟨⟩⟩, fun _ => ?_⟩⟩
    refine Act.follows_history.mpr fun tr r e' hr => ⟨trivial, fun _ => ?_⟩
    rintro rfl
    obtain ⟨event, hevent, hpanics⟩ := sendManualRetry_panics hr
    exact .inr ⟨event, by simp [hevent], hpanics⟩

end Watchcat
