import Watchcat.Correctness.Dates
import Watchcat.Correctness.Expiry

/-!
# The events of a pass in the log

The events are appended in batches: after each resume call, and at the end of the
pass. A pass that stops, at a failing re-check or where a date leaves the calendar,
appends nothing more and looks at no further target.
-/

namespace Watchcat

open Watchcat.Core Method

/-! ## What is in the log -/

/-- The events that a call appends to the log. -/
def appended : Prog.Event Reply → List EngineEvent
  | ⟨.appendLog _ events, _⟩ => events
  | _ => []

/-- The events that the calls append to the log, in their order. -/
def loggedEvents (tr : List (Prog.Event Reply)) : List EngineEvent := tr.flatMap appended

@[simp] theorem loggedEvents_append (tr tr' : List (Prog.Event Reply)) :
    loggedEvents (tr ++ tr') = loggedEvents tr ++ loggedEvents tr' := List.flatMap_append

/-- The call is no write of the state or the log, or it succeeds. -/
def writeSucceeds : Prog.Event Reply → Prop
  | ⟨.writeState _, saved⟩ => saved = .ok ()
  | ⟨.appendLog _ _, logged⟩ => logged = .ok ()
  | _ => True

/-- The log has the events up to the count. -/
structure Pass.Logged (tr : List (Prog.Event Reply)) (p : Pass) : Prop where
  logged : loggedEvents tr = p.events.take p.persistedEvents
  bound : p.persistedEvents ≤ p.events.length

namespace Pass.Logged

variable {tr : List (Prog.Event Reply)} {p p' : Pass}

/-- More events do not change what is in the log. -/
theorem extend (h : Logged tr p) {new : List EngineEvent} (hevents : p'.events = p.events ++ new)
    (hcount : p'.persistedEvents = p.persistedEvents) : Logged tr p' := by
  refine ⟨?_, ?_⟩
  · rw [h.logged, hevents, hcount, List.take_append_of_le_length h.bound]
  · rw [hevents, hcount, List.length_append]
    exact h.bound.trans (Nat.le_add_right _ _)

theorem same (h : Logged tr p) (hevents : p'.events = p.events)
    (hcount : p'.persistedEvents = p.persistedEvents) : Logged tr p' :=
  h.extend (hevents.trans (List.append_nil _).symm) hcount

theorem push (h : Logged tr p) (e : EngineEvent) : Logged tr (p.push e) := h.extend rfl rfl

theorem withState (h : Logged tr p) (f : RuntimeState → RuntimeState) :
    Logged tr (p.withState f) := h.same rfl rfl

/-- A call that is no append. -/
theorem call (h : Logged tr p) {e : Prog.Event Reply} (he : appended e = []) :
    Logged (tr ++ [e]) p := by
  refine ⟨?_, h.bound⟩
  rw [loggedEvents_append, h.logged, loggedEvents, List.flatMap_singleton, he, List.append_nil]

end Pass.Logged

/-! ## The log after a round -/

/-- After a flush the log has all events. -/
theorem flushEvents_logs {h : List (Prog.Event Reply)} {p : Pass}
    {Q : List (Prog.Event Reply) → Except Error Unit → Pass → Prop}
    (hq : ∀ tr, loggedEvents tr = p.events.drop p.persistedEvents → Q (h ++ tr) (.ok ()) p) :
    flushEvents.Follows (Monitor.history Reply) h p Q := by
  simp only [flushEvents, Act.bind_eq, Act.pure_eq, perform, Act.follows_andThen, Act.follows_get,
    Act.follows_perform, Act.follows_ret, Act.follows_ite, Monitor.history, true_and]
  refine ⟨fun _ r => hq [⟨.appendLog _ _, r⟩] ?_, fun hempty => ?_⟩
  · exact List.flatMap_singleton _ _
  · have hnone : p.events.drop p.persistedEvents = [] := by simpa using hempty
    simpa only [List.append_nil] using hq [] hnone.symm

theorem sendRecovery_logs {h : List (Prog.Event Reply)} {p : Pass} (hp : p.Logged h) (now : Int)
    (d : Due) :
    (sendRecovery now d).Follows (Monitor.history Reply) h p fun h' _ p' => p'.Logged h' := by
  simp only [sendRecovery, saveState, Act.bind_eq, perform, Act.follows_andThen,
    Act.follows_modify, Act.follows_get, Act.follows_perform, Act.follows_ofExcept,
    Act.follows_ite, Monitor.history, true_and]
  intro saved
  have hsaved := (hp.withState fun s => s.recordAttempt d.target now).call
    (e := ⟨.writeState _, saved⟩) rfl
  cases saved with
  | error e => exact hsaved
  | ok _ =>
    intro answer
    have hanswered := ((hsaved.call (e := ⟨.resume _ _ _ _, answer⟩) rfl).withState
      (d.settle now true answer)).push (d.settleEvent now answer)
    have hflushed : ∀ {h : List (Prog.Event Reply)} {q : Pass}, q.Logged h → ∀ tr,
        loggedEvents tr = q.events.drop q.persistedEvents →
          Pass.Logged (h ++ tr) { q with persistedEvents := q.events.length } :=
      fun hq tr htr => ⟨by
        rw [loggedEvents_append, hq.logged, htr, List.take_append_drop, List.take_length], le_rfl⟩
    refine ⟨fun _ resaved => ?_, fun _ => ?_⟩
    · have hresaved := hanswered.call (e := ⟨.writeState _, resaved⟩) rfl
      exact flushEvents_logs fun tr htr => hflushed hresaved tr htr
    · exact flushEvents_logs fun tr htr => hflushed hanswered tr htr

theorem resumeTarget_logs {h : List (Prog.Event Reply)} {p : Pass} (hp : p.Logged h) (now : Int)
    (generation : Nat) (d : Due) :
    (resumeTarget now generation d).Follows (Monitor.history Reply) h p
      fun h' _ p' => p'.Logged h' := by
  simp only [resumeTarget, Act.bind_eq, perform, Act.follows_andThen, Act.follows_modify,
    Act.follows_perform, Act.follows_ofExcept, Act.follows_ite, Act.follows_closing,
    Monitor.history, true_and]
  intro first
  have hfirst := hp.call (e := ⟨.permitAllows d.target generation, first⟩) rfl
  refine ⟨fun _ => hfirst.push _, fun _ latest => ?_⟩
  have hlatest := hfirst.call (e := ⟨.latestFailure _ _, latest⟩) rfl
  cases latest with
  | error e => exact hlatest
  | ok latest =>
    intro second
    have hsecond := hlatest.call (e := ⟨.permitAllows d.target generation, second⟩) rfl
    refine ⟨fun _ => hsecond.push _, fun _ => ⟨fun _ => hsecond.push _, fun _ _ third => ?_⟩⟩
    have hthird := (hsecond.call (e := ⟨.enterSendBoundary, ()⟩) rfl).call
      (e := ⟨.permitAllows d.target generation, third⟩) rfl
    refine ⟨fun _ => ⟨trivial, fun _ => ?_⟩, fun _ => ?_⟩
    · exact (hthird.push _).call (e := ⟨.leaveSendBoundary, ()⟩) rfl
    · refine (sendRecovery_logs hthird now d).mono fun h' r p' hsent => ⟨trivial, fun _ => ?_⟩
      exact hsent.call (e := ⟨.leaveSendBoundary, ()⟩) rfl

theorem handleFailure_logs {h : List (Prog.Event Reply)} {p : Pass} (hp : p.Logged h) (now : Int)
    (generation : Nat) (t : WatchTarget) (f : Failure) :
    (handleFailure now generation t f).Follows (Monitor.history Reply) h p
      fun h' _ p' => p'.Logged h' := by
  simp only [handleFailure, retryFailure, Act.bind_eq, Act.pure_eq, Act.follows_andThen,
    Act.follows_get, Act.follows_ite, Act.follows_ret, Act.follows_modify, Act.follows_update,
    follows_orPanic]
  have hconsidered : ∀ s, (p.withState fun _ => s).Logged h := fun s => hp.withState _
  refine ⟨fun _ => hp, fun _ => ⟨fun _ => (hp.withState _).push _, fun _ => ?_⟩⟩
  refine ⟨fun _ => hconsidered _, fun _ _ => ⟨fun _ => (hconsidered _).push _, fun _ => ?_⟩⟩
  refine ⟨fun _ => hconsidered _, fun _ _ => ⟨fun _ => (hconsidered _).push _, fun _ => ?_⟩⟩
  exact ⟨fun _ => (hconsidered _).push _, fun _ => resumeTarget_logs (hconsidered _) now _ _⟩

/-- A round leaves the log with the events up to the count. -/
theorem passTarget_logs {h : List (Prog.Event Reply)} {p : Pass} (hp : p.Logged h) (now : Int)
    (generation : Nat) (t : WatchTarget) :
    (passTarget now generation t).Follows (Monitor.history Reply) h p
      fun h' _ p' => p'.Logged h' := by
  simp only [passTarget, Act.bind_eq, Act.pure_eq, perform, Act.follows_andThen, Act.follows_get,
    Act.follows_perform, Act.follows_ite, Act.follows_ret, Act.follows_modify, Monitor.history,
    true_and]
  intro allowed
  have hallowed := hp.call (e := ⟨.permitAllows t generation, allowed⟩) rfl
  refine ⟨fun _ => hallowed, fun _ => ⟨fun _ => hallowed.push _, fun _ latest => ?_⟩⟩
  have hlatest := hallowed.call (e := ⟨.latestFailure _ _, latest⟩) rfl
  cases latest with
  | error e => exact hlatest.push _
  | ok latest =>
    cases latest with
    | none => exact hlatest.same rfl rfl
    | some f =>
      have hmarked : (p.markUnresolved t).Logged _ := hlatest.same rfl rfl
      exact handleFailure_logs hmarked now generation t f

/-! ## How a round ends -/

/-- The second question about the latest turn fails. -/
def recheckFails (tr : List (Prog.Event Reply)) : Bool :=
  match tr.filterMap latestAnswer with
  | [_, .error _] => true
  | _ => false

/-- The permit allows the round its target. -/
def Authorized (generation : Nat) (round : TargetRecord) : Prop :=
  ∃ rest, round.calls = ⟨.permitAllows round.element generation, true⟩ :: rest

/-- The latest turn of the round's session is asked for. -/
def Asked (round : TargetRecord) : Prop :=
  ∃ answer, ⟨.latestFailure round.element.provider round.element.sessionId, answer⟩ ∈ round.calls

/-- The round stops the pass: its re-check fails, or a date it computes leaves the calendar. -/
def Stops (now : Int) (round : TargetRecord) : Prop :=
  recheckFails round.calls = true ∨
    none ∈ gregorian.roundDates round.before.engine.settings now round

instance (now : Int) (round : TargetRecord) : Decidable (Stops now round) :=
  inferInstanceAs (Decidable (_ ∨ _))

/-- How a round ends: as it should, where it stops the pass, or at a failing write. -/
inductive RoundEnd (now : Int) (round : TargetRecord) : Except Error Unit → Pass → Prop
  | passed {p' : Pass} (hpassed : ¬Stops now round) : RoundEnd now round (.ok ()) p'
  | stopped {e : Error} {p' : Pass} (hstops : Stops now round)
      (hevents : p'.events = round.before.events)
      (hcount : p'.persistedEvents = round.before.persistedEvents) :
      RoundEnd now round (.error e) p'
  | unwritten {e : Error} {p' : Pass} (hwrite : ∃ event ∈ round.calls, ¬writeSucceeds event) :
      RoundEnd now round (.error e) p'

theorem sendRecovery_end {now : Int} {d : Due} {p p' : Pass} {tr : List (Prog.Event Reply)}
    {r : Except Error Unit} (h : (sendRecovery now d).Returns p tr r p') :
    tr.filterMap latestAnswer = [] ∧ (r = .ok () ∨ ∃ event ∈ tr, ¬writeSucceeds event) := by
  refine Act.Follows.of_history (Q := fun tr r _ => tr.filterMap latestAnswer = [] ∧
    (r = .ok () ∨ ∃ event ∈ tr, ¬writeSucceeds event)) ?_ h
  simp only [sendRecovery, saveState, flushEvents, Act.bind_eq, Act.pure_eq, perform,
    Act.follows_andThen, Act.follows_modify, Act.follows_get, Act.follows_perform,
    Act.follows_ofExcept, Act.follows_ite, Act.follows_ret, Monitor.history, true_and,
    List.nil_append]
  intro saved
  cases saved with
  | error e => exact ⟨rfl, .inr ⟨_, List.mem_singleton.mpr rfl, fun h => nomatch h⟩⟩
  | ok _ => exact fun _ =>
      ⟨fun _ _ => ⟨fun _ _ => ⟨rfl, .inl trivial⟩, fun _ => ⟨rfl, .inl trivial⟩⟩,
      fun _ => ⟨fun _ _ => ⟨rfl, .inl trivial⟩, fun _ => ⟨rfl, .inl trivial⟩⟩⟩

/-- The calls of a round that is told of a failure, up to its checks. -/
def toldCalls (generation : Nat) (t : WatchTarget) (f : Failure) (tr : List (Prog.Event Reply)) :
    List (Prog.Event Reply) :=
  ⟨.permitAllows t generation, true⟩ ::
    ⟨.latestFailure t.provider t.sessionId, .ok (some f)⟩ :: tr

/-- The last checks of a round whose dates are in the calendar. -/
theorem resumeTarget_end {now : Int} {generation : Nat} {d : Due} {p p' q : Pass}
    {tr : List (Prog.Event Reply)} {r : Except Error Unit}
    (h : (resumeTarget now generation d).Returns p tr r p') (hevents : p.events = q.events)
    (hcount : p.persistedEvents = q.persistedEvents)
    (hdates : none ∉ gregorian.roundDates q.engine.settings now
      ⟨d.target, q, toldCalls generation d.target d.failure tr⟩) :
    RoundEnd now ⟨d.target, q, toldCalls generation d.target d.failure tr⟩ r p' := by
  have hpassed : recheckFails (toldCalls generation d.target d.failure tr) = false →
      ¬Stops now ⟨d.target, q, toldCalls generation d.target d.failure tr⟩ := fun hchecked =>
    not_or.mpr ⟨Bool.eq_false_iff.mp hchecked, hdates⟩
  suffices hend : recheckFails (toldCalls generation d.target d.failure tr) = false ∧ r = .ok () ∨
      recheckFails (toldCalls generation d.target d.failure tr) = true ∧ (∃ e, r = .error e) ∧
        p'.events = p.events ∧ p'.persistedEvents = p.persistedEvents ∨
      (∃ e, r = .error e) ∧ ∃ event ∈ tr, ¬writeSucceeds event by
    rcases hend with ⟨hchecked, rfl⟩ | ⟨hfails, ⟨e, rfl⟩, hsame, hsameCount⟩ | ⟨⟨e, rfl⟩, hwrite⟩
    · exact .passed (hpassed hchecked)
    · exact .stopped (.inl hfails) (hsame.trans hevents) (hsameCount.trans hcount)
    · obtain ⟨event, hevent, hfailed⟩ := hwrite
      exact .unwritten ⟨event, List.mem_cons_of_mem _ (List.mem_cons_of_mem _ hevent), hfailed⟩
  clear hdates hpassed
  refine Act.Follows.of_history (Q := fun tr r p' =>
    recheckFails (toldCalls generation d.target d.failure tr) = false ∧ r = .ok () ∨
      recheckFails (toldCalls generation d.target d.failure tr) = true ∧ (∃ e, r = .error e) ∧
        p'.events = p.events ∧ p'.persistedEvents = p.persistedEvents ∨
      (∃ e, r = .error e) ∧ ∃ event ∈ tr, ¬writeSucceeds event) ?_ h
  simp only [resumeTarget, Act.bind_eq, perform, Act.follows_andThen, Act.follows_modify,
    Act.follows_perform, Act.follows_ofExcept, Act.follows_ite, Act.follows_closing,
    Monitor.history, true_and, List.nil_append]
  refine fun first => ⟨fun _ => .inl ⟨rfl, trivial⟩, fun _ latest => ?_⟩
  cases latest with
  | error e => exact .inr (.inl ⟨rfl, ⟨e, rfl⟩, trivial⟩)
  | ok latest =>
    refine fun second => ⟨fun _ => .inl ⟨rfl, trivial⟩, fun _ => ?_⟩
    refine ⟨fun _ => .inl ⟨rfl, trivial⟩, fun _ _ third => ?_⟩
    refine ⟨fun _ => ⟨trivial, fun _ => .inl ⟨rfl, trivial⟩⟩, fun _ => ?_⟩
    refine Act.follows_history.mpr fun tr r p' hr => ⟨trivial, fun _ => ?_⟩
    obtain ⟨hquiet, hend⟩ := sendRecovery_end hr
    have hrest : (tr ++ [(⟨.leaveSendBoundary, ()⟩ : Prog.Event Reply)]).filterMap latestAnswer =
        [] := by
      rw [List.filterMap_append, hquiet]
      rfl
    have hchecked : recheckFails (toldCalls generation d.target d.failure
        (⟨.permitAllows d.target generation, first⟩ ::
        ⟨.latestFailure d.target.provider d.target.sessionId, .ok latest⟩ ::
        ⟨.permitAllows d.target generation, second⟩ :: ⟨.enterSendBoundary, ()⟩ ::
        ⟨.permitAllows d.target generation, third⟩ ::
        (tr ++ [⟨.leaveSendBoundary, ()⟩]))) = false := by
      show (match (.ok (some d.failure) : Except Error (Option Failure)) :: .ok latest ::
        (tr ++ [(⟨.leaveSendBoundary, ()⟩ : Prog.Event Reply)]).filterMap latestAnswer with
        | [_, .error _] => true
        | _ => false) = false
      rw [hrest]
    cases r with
    | ok _ => exact .inl ⟨by simpa using hchecked, rfl⟩
    | error e =>
      obtain ⟨event, hevent, hwrite⟩ := hend.resolve_left (by rintro ⟨⟩)
      exact .inr (.inr ⟨⟨e, rfl⟩, event, by simp [hevent], hwrite⟩)

theorem handleFailure_end {now : Int} {generation : Nat} {t : WatchTarget} {f : Failure}
    {q p' : Pass} {tr : List (Prog.Event Reply)} {r : Except Error Unit}
    (h : (handleFailure now generation t f).Returns (q.markUnresolved t) tr r p') :
    RoundEnd now ⟨t, q, toldCalls generation t f tr⟩ r p' := by
  refine Act.Follows.of_history (Q := fun tr r p' =>
    RoundEnd now ⟨t, q, toldCalls generation t f tr⟩ r p') ?_ h
  have hsettled : ¬q.state.Unhandled f ∨ (q.engine.settings.policy f.condition).action = .skip →
      ¬Stops now ⟨t, q, toldCalls generation t f []⟩ := fun hsettled => by
    rw [Stops, Calendar.roundDates_settled rfl hsettled]
    exact not_or.mpr ⟨nofun, List.not_mem_nil⟩
  simp only [handleFailure, retryFailure, Act.bind_eq, Act.pure_eq, Act.follows_andThen,
    Act.follows_get, Act.follows_ite, Act.follows_ret, Act.follows_modify, Act.follows_update,
    follows_orPanic]
  refine ⟨fun hhandled => .passed (hsettled ?_), fun hnot => ?_⟩
  · simp only [Bool.or_eq_true, decide_eq_true_eq, Bool.and_eq_true] at hhandled
    rcases hhandled with (hresumed | hunconfirmed) | ⟨hskip, _⟩
    · exact .inl fun h => h.1 hresumed
    · exact .inl fun h => h.2 hunconfirmed
    · exact .inr hskip
  simp only [Bool.or_eq_true, decide_eq_true_eq, not_or] at hnot
  refine ⟨fun hskip => .passed (hsettled (.inr hskip)), fun haction => ?_⟩
  have hconsidered := fun tr => @Calendar.roundDates_considered gregorian now t q f
    (toldCalls generation t f tr) rfl hnot.1 haction _ rfl
  have hpassed : none ∉ gregorian.roundDates q.engine.settings now
      ⟨t, q, toldCalls generation t f []⟩ → ¬Stops now ⟨t, q, toldCalls generation t f []⟩ :=
    fun hdates => not_or.mpr ⟨nofun, hdates⟩
  refine ⟨fun hwindow => .stopped (.inr ?_) rfl rfl, fun cutoff hcutoff => ?_⟩
  · rw [hconsidered]
    exact List.mem_cons.mpr (.inl hwindow.symm)
  have hdated : none ≠ gregorian.secondsBefore now q.window := fun heq =>
    Option.some_ne_none cutoff (heq.trans hcutoff).symm
  refine ⟨fun hmax => .passed (hpassed fun hmem => ?_), fun hlimit => ?_⟩
  · have hover : ¬((q.state.firstSeen f now).2.recentAttempts t now q.window).1 <
        (q.engine.settings.policy f.condition).maxAttempts := Nat.not_lt.mpr hmax
    rw [hconsidered, if_neg hover] at hmem
    exact hdated (List.mem_singleton.mp hmem)
  have hbelow : ((q.state.firstSeen f now).2.recentAttempts t now q.window).1 <
      (q.engine.settings.policy f.condition).maxAttempts := Nat.lt_of_not_le hlimit
  refine ⟨fun hready => .stopped (.inr ?_) rfl rfl, fun readyAt hready => ?_⟩
  · rw [hconsidered, if_pos hbelow]
    exact List.mem_cons_of_mem _ (List.mem_singleton.mpr hready.symm)
  have hdates : ∀ tr, none ∉ gregorian.roundDates q.engine.settings now
      ⟨t, q, toldCalls generation t f tr⟩ := fun tr hmem => by
    rw [hconsidered, if_pos hbelow] at hmem
    rcases List.mem_cons.mp hmem with hnone | hmem
    · exact hdated hnone
    · exact Option.some_ne_none readyAt ((List.mem_singleton.mp hmem).trans hready).symm
  refine ⟨fun _ => .passed (hpassed (hdates [])), fun _ => ?_⟩
  refine ⟨fun _ => .passed (hpassed (hdates [])), fun _ => ?_⟩
  exact Act.follows_history.mpr fun tr r p' hr => resumeTarget_end hr rfl rfl (hdates tr)

/-- Every round of a pass ends in one of the three ways, and asks for the latest turn of an
authorized target exactly if its provider is there. -/
theorem passTarget_end {now : Int} {generation : Nat} {t : WatchTarget} {p p' : Pass}
    {tr : List (Prog.Event Reply)} {r : Except Error Unit}
    (h : (passTarget now generation t).Returns p tr r p') : RoundEnd now ⟨t, p, tr⟩ r p' ∧
      (Authorized generation ⟨t, p, tr⟩ →
        (Asked ⟨t, p, tr⟩ ↔ t.provider ∈ p.engine.providers)) := by
  have hquiet : ∀ {tr}, recheckFails tr = false →
      consideredFailure ⟨t, p, tr⟩ = none → ¬Stops now ⟨t, p, tr⟩ := fun hchecked hnone => by
    rw [Stops, Calendar.roundDates, hnone]
    exact not_or.mpr ⟨Bool.eq_false_iff.mp hchecked, List.not_mem_nil⟩
  refine Act.Follows.of_history (Q := fun tr r p' => RoundEnd now ⟨t, p, tr⟩ r p' ∧
    (Authorized generation ⟨t, p, tr⟩ → (Asked ⟨t, p, tr⟩ ↔ t.provider ∈ p.engine.providers))) ?_ h
  simp only [passTarget, Act.bind_eq, Act.pure_eq, perform, Act.follows_andThen, Act.follows_get,
    Act.follows_perform, Act.follows_ite, Act.follows_ret, Act.follows_modify, Monitor.history,
    true_and, List.nil_append]
  refine fun allowed => ⟨fun hrefused => ⟨.passed (hquiet rfl rfl), ?_⟩, fun hallowed => ?_⟩
  · rintro ⟨rest, hcalls⟩
    obtain ⟨hcall, _⟩ := List.cons.inj hcalls
    cases hcall
    cases hrefused
  simp only [Bool.not_eq_true', Bool.not_eq_false] at hallowed
  subst hallowed
  refine ⟨fun hprovider => ⟨.passed (hquiet rfl rfl), fun _ => iff_of_false ?_ hprovider⟩,
    fun hprovider latest => ?_⟩
  · rintro ⟨answer, hmem⟩
    cases List.mem_singleton.mp hmem
  have hasked : ∀ rest, Asked ⟨t, p, ⟨.permitAllows t generation, true⟩ ::
      ⟨.latestFailure t.provider t.sessionId, latest⟩ :: rest⟩ ↔
        t.provider ∈ p.engine.providers := fun rest =>
    iff_of_true ⟨latest, List.mem_cons_of_mem _ List.mem_cons_self⟩ (not_not.mp hprovider)
  cases latest with
  | error e => exact ⟨.passed (hquiet rfl rfl), fun _ => hasked []⟩
  | ok latest =>
    cases latest with
    | none => exact ⟨.passed (hquiet rfl rfl), fun _ => hasked []⟩
    | some f =>
      simp only [Act.follows_andThen, Act.follows_modify]
      refine Act.follows_history.mpr fun tr r p' hr => ?_
      exact ⟨handleFailure_end hr, fun _ => hasked tr⟩

/-! ## The rounds of a pass -/

theorem passRounds_logs {now : Int} {generation : Nat} {ts : List WatchTarget} {p p' : Pass}
    {rounds : List TargetRecord} {r : Except Error Unit}
    (h : Act.Rounds (passTarget now generation) ts p rounds r p')
    {tr : List (Prog.Event Reply)} (hp : p.Logged tr) :
    p'.Logged (tr ++ rounds.flatMap Act.Round.calls) := by
  induction h generalizing tr with
  | done => simpa using hp
  | @failed t _ _ _ _ _ hb =>
    simpa using Act.follows_history.mp (passTarget_logs hp now generation t) _ _ _ hb
  | @next t _ _ _ _ _ _ _ hb _ ih =>
    have hround := Act.follows_history.mp (passTarget_logs hp now generation t) _ _ _ hb
    simpa [List.append_assoc] using ih hround

/-- How the rounds of a pass end: each target had its round, or the last round is the one that
stopped the pass. -/
inductive RoundsEnd (now : Int) (ts : List WatchTarget) (rounds : List TargetRecord) :
    Except Error Unit → Pass → Prop
  | passed {p' : Pass} (hall : rounds.map Act.Round.element = ts)
      (hpassed : ∀ round ∈ rounds, ¬Stops now round) : RoundsEnd now ts rounds (.ok ()) p'
  | stopped {e : Error} {p' : Pass} {last : TargetRecord} {rest : List WatchTarget}
      (hlast : last ∈ rounds) (hall : ts = rounds.map Act.Round.element ++ rest)
      (hstops : Stops now last)
      (honly : ∀ round ∈ rounds, Stops now round → round = last)
      (hevents : p'.events = last.before.events)
      (hcount : p'.persistedEvents = last.before.persistedEvents) :
      RoundsEnd now ts rounds (.error e) p'

theorem passRounds_end {now : Int} {generation : Nat} {ts : List WatchTarget} {p p' : Pass}
    {rounds : List TargetRecord} {r : Except Error Unit}
    (h : Act.Rounds (passTarget now generation) ts p rounds r p')
    (hwrites : ∀ event ∈ rounds.flatMap Act.Round.calls, writeSucceeds event) :
    RoundsEnd now ts rounds r p' := by
  induction h with
  | done => exact .passed rfl (by simp)
  | @failed t ts p p' tr e hb =>
    rw [List.flatMap_singleton] at hwrites
    cases (passTarget_end hb).1 with
    | stopped hstops hevents hcount =>
      exact .stopped (List.mem_singleton.mpr rfl) rfl hstops
        (fun _ hround _ => List.mem_singleton.mp hround) hevents hcount
    | unwritten hwrite =>
      obtain ⟨event, hevent, hfailed⟩ := hwrite
      exact absurd (hwrites event hevent) hfailed
  | @next t ts p mid p' tr rounds r hb _ ih =>
    rw [List.flatMap_cons] at hwrites
    have hrest := ih fun event hevent => hwrites event (List.mem_append_right _ hevent)
    cases (passTarget_end hb).1 with
    | passed hpassed =>
      cases hrest with
      | passed hall hrest =>
        refine .passed (by rw [List.map_cons, hall]) fun round hround => ?_
        rcases List.mem_cons.mp hround with rfl | hround
        · exact hpassed
        · exact hrest round hround
      | stopped hlast hall hstops honly hevents hcount =>
        refine .stopped (List.mem_cons_of_mem _ hlast) (by rw [List.map_cons, hall]; rfl) hstops
          (fun round hround hround_stops => ?_) hevents hcount
        rcases List.mem_cons.mp hround with rfl | hround
        · exact absurd hround_stops hpassed
        · exact honly round hround hround_stops

/-! ## The end of a pass -/

theorem Pass.observed_count (p : Pass) (pending : PendingRecovery) (now : Int)
    (answer : Except Error TurnOutcome) :
    (p.observed pending now answer).persistedEvents = p.persistedEvents := by
  have habandon : ∀ q : Pass, (q.abandonPending pending now).persistedEvents =
      q.persistedEvents := fun q => by
    unfold Pass.abandonPending
    split <;> rfl
  have hfinish : ∀ success, (p.finishPending pending success now).persistedEvents =
      p.persistedEvents := fun success => by
    unfold Pass.finishPending
    split <;> rfl
  have hmissed : (p.missedObservation pending now).persistedEvents = p.persistedEvents := by
    unfold Pass.missedObservation
    dsimp only
    split
    · exact habandon _
    · rfl
  rcases answer with e | outcome
  · exact hmissed
  · cases outcome with
    | completed => exact hfinish true
    | failed => exact hfinish false
    | unknown => exact hmissed
    | inProgress =>
      simp only [observed]
      split
      · exact habandon p
      · rfl

/-- The observations append nothing. -/
theorem observations_log {now : Int} {order : List PendingRecovery} {p p' : Pass}
    {rounds : List (Act.Round Reply Pass PendingRecovery)} {r : Except Error Unit}
    (h : Act.Rounds (observePending now) order p rounds r p') :
    loggedEvents (rounds.flatMap Act.Round.calls) = [] ∧
      p'.persistedEvents = p.persistedEvents := by
  induction h with
  | done => exact ⟨rfl, rfl⟩
  | failed hb => cases observePending_round hb
  | next hb _ ih =>
    rw [List.flatMap_cons, loggedEvents_append, ih.1, List.append_nil]
    cases observePending_round hb with
    | unavailable _ => exact ⟨rfl, ih.2⟩
    | observed _ => exact ⟨rfl, ih.2.trans (Pass.observed_count _ _ _ _)⟩

theorem ObservationRun.logged {now : Int} {e : WatchEngine} {mid : Pass}
    {tr : List (Prog.Event Reply)} (h : ObservationRun now ⟨e, [], 0⟩ tr mid) :
    mid.Logged tr := by
  cases h with
  | intro hr =>
    obtain ⟨hnone, hcount⟩ := observations_log hr
    refine ⟨?_, ?_⟩
    · rw [hcount, List.take_zero]
      exact hnone
    · rw [hcount]
      exact Nat.zero_le _

/-- A pass split at its rounds, to its end or to the error of a round. -/
inductive PassExit (now : Int) (generation : Nat) (e : WatchEngine) :
    List (Prog.Event Reply) → List TargetRecord → Except Error (List EngineEvent) → Pass → Prop
  | stopped {seen : List (Prog.Event Reply)} {mid p' : Pass} {rounds : List TargetRecord}
      {error : Error}
      (hseen : ObservationRun now ⟨e.withState fun s => s.prune now, [], 0⟩ seen mid)
      (hrounds : Act.Rounds (passTarget now generation) mid.engine.targets mid rounds
        (.error error) p') :
      PassExit now generation e (seen ++ rounds.flatMap Act.Round.calls) rounds (.error error) p'
  | finished {seen post : List (Prog.Event Reply)} {mid p' : Pass} {rounds : List TargetRecord}
      (hseen : ObservationRun now ⟨e.withState fun s => s.prune now, [], 0⟩ seen mid)
      (hrounds : Act.Rounds (passTarget now generation) mid.engine.targets mid rounds (.ok ()) p')
      (hpost : loggedEvents post = p'.events.drop p'.persistedEvents) :
      PassExit now generation e (seen ++ rounds.flatMap Act.Round.calls ++ post) rounds
        (.ok p'.events) p'

theorem runOnceAuthorized_exit {now : Int} {generation : Nat} {e : WatchEngine} {p' : Pass}
    {tr : List (Prog.Event Reply)} {r : Except Error (List EngineEvent)}
    (h : (runOnceAuthorized now generation).Returns ⟨e, [], 0⟩ tr r p') :
    ∃ rounds, PassExit now generation e tr rounds r p' := by
  refine Act.Follows.of_history (Q := fun tr r p' => ∃ rounds, PassExit now generation e tr rounds
    r p') ?_ h
  simp only [runOnceAuthorized, Act.bind_eq, Act.pure_eq, perform, Act.follows_andThen,
    Act.follows_get, Act.follows_modify]
  refine Act.follows_history.mpr fun seen r mid hseen => ?_
  obtain ⟨rfl, hobserved⟩ := reconcilePendingRecoveries_run hseen
  refine Act.follows_history.mpr fun tr r p' hr => ?_
  obtain ⟨rounds, hrounds, rfl⟩ := Act.returns_forEach.mp hr
  cases r with
  | error error => exact ⟨rounds, by simpa using PassExit.stopped hobserved hrounds⟩
  | ok _ =>
    simp only [Act.follows_perform]
    refine ⟨trivial, fun saved => flushEvents_logs fun post hpost => ⟨rounds, ?_⟩⟩
    have hlogged : loggedEvents (⟨.writeState _, saved⟩ :: post) =
        p'.events.drop p'.persistedEvents := hpost
    simpa [Monitor.history] using PassExit.finished hobserved hrounds hlogged

/-- A round asks for the latest turn of an authorized target exactly if its provider is there. -/
theorem passRounds_asked {now : Int} {generation : Nat} {ts : List WatchTarget} {e : WatchEngine}
    {p p' : Pass} {rounds : List TargetRecord} {r : Except Error Unit}
    (h : Act.Rounds (passTarget now generation) ts p rounds r p') (hframe : e.Frame p.engine)
    {round : TargetRecord} (hround : round ∈ rounds) (hallowed : Authorized generation round) :
    Asked round ↔ round.element.provider ∈ e.providers := by
  obtain ⟨_, hbefore⟩ := (frame_rounds e now).targets_before (g := ()) h (fun _ _ => trivial)
    hframe round hround
  obtain ⟨_, _, hreturns⟩ := h.returns_of_mem hround
  rw [← hbefore.providers]
  exact (passTarget_end hreturns).2 hallowed

/-- Each recovery that the pass ended is told by its events as its answer says, and these are the
only ones about recoveries. -/
def EachTold (now : Int) (tr : List (Prog.Event Reply)) (s : RuntimeState) (p' : Pass) : Prop :=
  ∃ ended : List EndedRecovery, (ended.map EndedRecovery.key).Nodup ∧
    (∀ key, s.recoveryAt key ≠ none → p'.state.recoveryAt key = none →
      key ∈ ended.map EndedRecovery.key) ∧
    (ended.map EndedRecovery.call).Sublist tr ∧
    p'.events.filter EngineEvent.isRecovery = ended.map fun x => x.ending.event now x.asked

/-- A pass gives every target its round, asks for the latest turn of each that is authorized, and
has all its events in the log, among them those of the recoveries it ended. -/
structure Survives (now : Int) (generation : Nat) (e : WatchEngine)
    (tr : List (Prog.Event Reply)) (rounds : List TargetRecord) (p' : Pass) : Prop where
  reached : rounds.map Act.Round.element = e.targets
  asked : ∀ round ∈ rounds, Authorized generation round → Asked round
  logged : loggedEvents tr = p'.events
  told : EachTold now tr e.state p'

/-- A round that stops the pass is that of the last target and comes when all events are in the
log, and the provider of every authorized target is there. -/
structure Undisturbed (now : Int) (generation : Nat) (e : WatchEngine)
    (rounds : List TargetRecord) : Prop where
  last : ∀ round ∈ rounds, Stops now round → rounds.length = e.targets.length
  flushed : ∀ round ∈ rounds, Stops now round →
    round.before.persistedEvents = round.before.events.length
  built : ∀ round ∈ rounds, Authorized generation round → round.element.provider ∈ e.providers

theorem passRounds_extends {now : Int} {generation : Nat} {ts : List WatchTarget} {p p' : Pass}
    {rounds : List TargetRecord} {r : Except Error Unit}
    (h : Act.Rounds (passTarget now generation) ts p rounds r p') : p.Extends p' := by
  induction h with
  | done => exact .refl _
  | failed hb => exact (passTarget_round hb).extends
  | next hb _ ih => exact (passTarget_round hb).extends.trans ih

theorem Ending.event_isRecovery (now : Int) (pending : PendingRecovery) (ending : Ending) :
    (ending.event now pending).isRecovery = true := by cases ending <;> rfl

/-- The rounds of a pass after its observations tell of no recovery. -/
theorem told_of_rounds {now : Int} {generation : Nat} {e : WatchEngine} {mid p' : Pass}
    {seen : List (Prog.Event Reply)} {rounds : List TargetRecord} {r : Except Error Unit}
    (hseen : ObservationRun now ⟨e.withState fun s => s.prune now, [], 0⟩ seen mid)
    (hrounds : Act.Rounds (passTarget now generation) mid.engine.targets mid rounds r p') :
    EachTold now seen e.state p' := by
  obtain ⟨ended, hconcludes, _, hcalls, _⟩ := hseen.concludes
  obtain ⟨new, hnew, hother⟩ := (passRounds_extends hrounds).events
  refine ⟨ended, hconcludes.distinct, fun key hsome hend => ?_, hcalls, ?_⟩
  · by_contra hkept
    have hmid : mid.state.recoveryAt key = e.state.recoveryAt key := by
      rw [hconcludes.recoveries, if_neg hkept]
      rfl
    exact hsome (hmid.symm.trans ((passRounds_restarted hrounds key).1.gone hend))
  · have hnone : new.filter EngineEvent.isRecovery = [] :=
      List.filter_eq_nil_iff.mpr fun x hx => by simp [hother x hx]
    rw [hnew, hconcludes.events, List.filter_append, hnone, List.append_nil, List.nil_append,
      List.filter_eq_self]
    intro x hx
    obtain ⟨z, _, rfl⟩ := List.mem_map.mp hx
    exact z.ending.event_isRecovery now z.asked

theorem EachTold.append {now : Int} {tr : List (Prog.Event Reply)} {s : RuntimeState} {p' : Pass}
    (h : EachTold now tr s p') (later : List (Prog.Event Reply)) :
    EachTold now (tr ++ later) s p' := by
  obtain ⟨ended, hdistinct, hgone, hcalls, hevents⟩ := h
  exact ⟨ended, hdistinct, hgone, hcalls.trans (List.sublist_append_left tr later), hevents⟩

/-- One recovery is pending, and another failure of the session is due five seconds after the
beginning. -/
def recheckEngine : WatchEngine :=
  .new {} {"codex"} [sampleTarget, { sampleTarget with sessionId := "z" }]
    (recoveringState.firstSeen (sampleFailure "a") 0).2 10000 false

/-- The recovery turn has completed; the session is asked for twice, the second time in vain. -/
def recheckCalls : List (Prog.Event Reply) :=
  [⟨.pendingOrder recheckEngine.state.pendingRecoveries.values,
      (⟨_, .refl _⟩ : Arrangement recheckEngine.state.pendingRecoveries.values)⟩,
    ⟨.turnOutcome "codex" "s" "r", .ok .completed⟩,
    ⟨.permitAllows sampleTarget 0, true⟩,
    ⟨.latestFailure "codex" "s", .ok (some (sampleFailure "a"))⟩,
    ⟨.permitAllows sampleTarget 0, true⟩,
    ⟨.latestFailure "codex" "s", .error (.message "connection lost")⟩]

/-- A pass that begins with nothing to observe. -/
def offlinePass : Pass := ⟨(sampleEngine {}).withState fun s => s.prune 0, [], 0⟩

/-- The provider cannot be asked for the one session. -/
def offlineRound : TargetRecord :=
  ⟨sampleTarget, offlinePass, [⟨.permitAllows sampleTarget 0, true⟩,
    ⟨.latestFailure "codex" "s", .error (.message "connection lost")⟩]⟩

end Watchcat
