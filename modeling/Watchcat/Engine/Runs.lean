import Mathlib.Data.Finset.Order
import Watchcat.Engine.Rounds
import Watchcat.Service.Sample

/-!
# Runs of one engine

Any sequence of operations on one engine, each with the calls it made, the
rounds it went through and the events it produced. Answers and times are
arbitrary; a clock that never goes back is a separate condition on the times.
-/

namespace Watchcat

open Watchcat.Core Method

/-- The round of a target in a pass. -/
abbrev TargetRecord : Type := Act.Round Reply Pass WatchTarget

/-- One operation on an engine. -/
inductive EngineOp
  | pass (now : Int) (generation : Nat)
  | observe (now : Int)
  | retryNow (provider sessionId : String) (now : Int) (automatic : Bool) (generation : Nat)
  | replaceSettings (settings : Settings)
  | replaceTargets (targets : List WatchTarget)
  | ensureProvider (provider : String)

/-- The time an operation works with. -/
def EngineOp.time : EngineOp → Option Int
  | pass now _ => some now
  | observe now => some now
  | retryNow _ _ now _ _ => some now
  | _ => none

/-- An operation that was executed. -/
structure OpRecord where
  op : EngineOp
  before : WatchEngine
  calls : List (Prog.Event Reply)
  rounds : List TargetRecord := []
  events : List EngineEvent := []

/-! ## The rounds of a pass -/

/-- The observation of every pending recovery at the beginning of a pass. -/
inductive ObservationRun (now : Int) (p : Pass) : List (Prog.Event Reply) → Pass → Prop
  | intro {order : Arrangement p.state.pendingRecoveries.values}
      {rounds : List (Act.Round Reply Pass PendingRecovery)} {p' : Pass}
      (hr : Act.Rounds (observePending now) order.1 p rounds (.ok ()) p') :
      ObservationRun now p
        (⟨.pendingOrder p.state.pendingRecoveries.values, order⟩ ::
          rounds.flatMap Act.Round.calls) p'

/-- A pass split into its observations, its rounds and its end. -/
inductive PassRun (now : Int) (generation : Nat) (p : Pass) :
    List (Prog.Event Reply) → List TargetRecord → Pass → Prop
  | intro {seen post : List (Prog.Event Reply)} {rounds : List TargetRecord} {mid p' : Pass}
      {r : Except Error Unit}
      (hseen : ObservationRun now (p.withState fun s => s.prune now) seen mid)
      (hrounds : Act.Rounds (passTarget now generation) mid.engine.targets mid rounds r p')
      (hpost : resumes post = []) :
      PassRun now generation p (seen ++ (rounds.flatMap Act.Round.calls ++ post)) rounds p'

/-- Observing a pending recovery never fails. -/
theorem observations_ok {now : Int} {order : List PendingRecovery} {p p' : Pass}
    {rounds : List (Act.Round Reply Pass PendingRecovery)} {r : Except Error Unit}
    (h : Act.Rounds (observePending now) order p rounds r p') : r = .ok () := by
  induction h with
  | done => rfl
  | failed hb => cases observePending_round hb
  | next _ _ ih => exact ih

/-- Observing pending recoveries resumes nothing. -/
theorem observations_quiet {now : Int} {order : List PendingRecovery} {p p' : Pass}
    {rounds : List (Act.Round Reply Pass PendingRecovery)} {r : Except Error Unit}
    (h : Act.Rounds (observePending now) order p rounds r p') :
    resumes (rounds.flatMap Act.Round.calls) = [] := by
  induction h with
  | done => rfl
  | failed hb => cases observePending_round hb
  | next hb _ ih =>
    rw [List.flatMap_cons, resumes_append, ih]
    cases observePending_round hb <;> rfl

theorem ObservationRun.quiet {now : Int} {p p' : Pass} {tr : List (Prog.Event Reply)}
    (h : ObservationRun now p tr p') : resumes tr = [] := by
  cases h with
  | intro hr => exact observations_quiet hr

theorem reconcilePendingRecoveries_run {now : Int} {p p' : Pass} {tr : List (Prog.Event Reply)}
    {r : Except Error Unit} (h : (reconcilePendingRecoveries now).Returns p tr r p') :
    r = .ok () ∧ ObservationRun now p tr p' := by
  refine Act.Follows.of_history (Q := fun tr r p' => r = .ok () ∧ ObservationRun now p tr p') ?_ h
  simp only [reconcilePendingRecoveries, Act.bind_eq, perform, Act.follows_andThen,
    Act.follows_get, Act.follows_perform, Monitor.history, true_and, List.nil_append]
  refine fun order => Act.follows_history.mpr fun tr r p' hr => ?_
  obtain ⟨rounds, hrounds, rfl⟩ := Act.returns_forEach.mp hr
  obtain rfl := observations_ok hrounds
  exact ⟨rfl, .intro hrounds⟩

theorem runOnceAuthorized_run {now : Int} {generation : Nat} {p p' : Pass}
    {tr : List (Prog.Event Reply)} {r : Except Error (List EngineEvent)}
    (h : (runOnceAuthorized now generation).Returns p tr r p') :
    ∃ rounds, PassRun now generation p tr rounds p' := by
  refine Act.Follows.of_history
    (Q := fun tr _ p' => ∃ rounds, PassRun now generation p tr rounds p') ?_ h
  simp only [runOnceAuthorized, Act.bind_eq, Act.pure_eq, perform, Act.follows_andThen,
    Act.follows_get, Act.follows_modify]
  refine Act.follows_history.mpr fun seen r mid hseen => ?_
  obtain ⟨rfl, hobserved⟩ := reconcilePendingRecoveries_run hseen
  refine Act.follows_history.mpr fun tr r p' hr => ?_
  obtain ⟨rounds, hrounds, rfl⟩ := Act.returns_forEach.mp hr
  cases r with
  | error e =>
    refine ⟨rounds, ?_⟩
    simpa only [List.append_nil, List.nil_append] using
      PassRun.intro hobserved hrounds resumes_nil
  | ok _ =>
    simp only [Act.follows_perform]
    refine ⟨trivial, fun saved => flushEvents_follows fun post hpost => ⟨rounds, ?_⟩⟩
    have hquiet : resumes (⟨.writeState _, saved⟩ :: post) = [] := hpost
    have hrun := PassRun.intro hobserved hrounds hquiet
    simpa only [Monitor.history, List.nil_append, List.append_assoc, List.singleton_append]
      using hrun

theorem reconcilePendingOnly_run {now : Int} {p p' : Pass} {tr : List (Prog.Event Reply)}
    {r : Except Error (List EngineEvent)}
    (h : (reconcilePendingOnly now).Returns p tr r p') :
    ∃ seen post, tr = seen ++ post ∧ resumes post = [] ∧
      ObservationRun now (p.withState fun s => s.prune now) seen p' := by
  refine Act.Follows.of_history (Q := fun tr _ p' => ∃ seen post, tr = seen ++ post ∧
    resumes post = [] ∧ ObservationRun now (p.withState fun s => s.prune now) seen p') ?_ h
  simp only [reconcilePendingOnly, Act.bind_eq, Act.pure_eq, perform, Act.follows_andThen,
    Act.follows_get, Act.follows_modify]
  refine Act.follows_history.mpr fun seen r mid hseen => ?_
  obtain ⟨rfl, hobserved⟩ := reconcilePendingRecoveries_run hseen
  simp only [Act.follows_perform]
  refine ⟨trivial, fun saved => flushEvents_follows fun post hpost => ?_⟩
  refine ⟨seen, ⟨.writeState _, saved⟩ :: post, ?_, hpost, hobserved⟩
  simp only [Monitor.history, List.nil_append, List.append_assoc, List.singleton_append]

/-! ## Runs -/

/-- The record is one execution of its operation and leaves the engine. -/
inductive OpRecord.Executes : OpRecord → WatchEngine → Prop
  | pass {now : Int} {generation : Nat} {e : WatchEngine} {tr : List (Prog.Event Reply)}
      {rounds : List TargetRecord} {r : Except Error (List EngineEvent)} {p : Pass}
      (hr : (runOnceAuthorized now generation).Returns ⟨e, [], 0⟩ tr r p)
      (hrounds : PassRun now generation ⟨e, [], 0⟩ tr rounds p) :
      Executes ⟨.pass now generation, e, tr, rounds, p.events⟩ p.engine
  | observe {now : Int} {e : WatchEngine} {tr : List (Prog.Event Reply)}
      {r : Except Error (List EngineEvent)} {p : Pass}
      (hr : (reconcilePendingOnly now).Returns ⟨e, [], 0⟩ tr r p) :
      Executes ⟨.observe now, e, tr, [], p.events⟩ p.engine
  | retryNow {provider sessionId : String} {now : Int} {automatic : Bool} {generation : Nat}
      {e e' : WatchEngine} {tr : List (Prog.Event Reply)} {r : Except Error ResumeReceipt}
      (hr : (Watchcat.retryNow provider sessionId now automatic generation).Returns e tr r e') :
      Executes ⟨.retryNow provider sessionId now automatic generation, e, tr, [], []⟩ e'
  | replaceSettings {settings : Settings} {e e' : WatchEngine} {tr : List (Prog.Event Reply)}
      {r : Except Error Unit} (hr : (Watchcat.replaceSettings settings).Returns e tr r e') :
      Executes ⟨.replaceSettings settings, e, tr, [], []⟩ e'
  | replaceTargets {targets : List WatchTarget} {e : WatchEngine} :
      Executes ⟨.replaceTargets targets, e, [], [], []⟩ (e.replaceTargets targets)
  | ensureProvider {provider : String} {e e' : WatchEngine} {tr : List (Prog.Event Reply)}
      {r : Except Error Unit} (hr : (Watchcat.ensureProvider provider).Returns e tr r e') :
      Executes ⟨.ensureProvider provider, e, tr, [], []⟩ e'

/-- A run of operations on one engine, of any length. -/
inductive EngineRun : WatchEngine → List OpRecord → WatchEngine → Prop
  | nil (e : WatchEngine) : EngineRun e [] e
  | snoc {e e' e'' : WatchEngine} {log : List OpRecord} {record : OpRecord}
      (hr : EngineRun e log e') (hb : record.before = e') (hx : record.Executes e'') :
      EngineRun e (log ++ [record]) e''

/-- Every record of a run was executed. -/
theorem EngineRun.executes {e₀ e : WatchEngine} {log : List OpRecord} (h : EngineRun e₀ log e) :
    ∀ record ∈ log, ∃ e', record.Executes e' := by
  induction h with
  | nil => exact fun _ hmem => absurd hmem List.not_mem_nil
  | snoc _ _ hx ih =>
    intro record hmem
    rcases List.mem_append.mp hmem with hmem | hmem
    · exact ih record hmem
    · obtain rfl := List.mem_singleton.mp hmem
      exact ⟨_, hx⟩

/-- The last record of a run was executed after the others. -/
theorem EngineRun.last {e₀ e : WatchEngine} {log : List OpRecord} {record : OpRecord}
    (h : EngineRun e₀ (log ++ [record]) e) :
    EngineRun e₀ log record.before ∧ record.Executes e := by
  generalize hlog : log ++ [record] = whole at h
  cases h with
  | nil => exact absurd hlog (by simp)
  | snoc hr hb hx =>
    obtain ⟨rfl, hrecord⟩ := List.append_inj' hlog rfl
    obtain rfl := List.singleton_inj.mp hrecord
    subst hb
    exact ⟨hr, hx⟩

/-- A run is split anywhere into two runs. -/
theorem EngineRun.split {e₀ e : WatchEngine} {pre post : List OpRecord}
    (h : EngineRun e₀ (pre ++ post) e) : ∃ mid, EngineRun e₀ pre mid ∧ EngineRun mid post e := by
  induction post using List.reverseRecOn generalizing e with
  | nil => exact ⟨e, by rwa [List.append_nil] at h, .nil e⟩
  | append_singleton post record ih =>
    rw [← List.append_assoc] at h
    obtain ⟨hr, hx⟩ := h.last
    obtain ⟨mid, hpre, hpost⟩ := ih hr
    exact ⟨mid, hpre, .snoc hpost rfl hx⟩

/-- A run is split at one of its records. -/
theorem EngineRun.split_at {e₀ e : WatchEngine} {pre post : List OpRecord} {record : OpRecord}
    (h : EngineRun e₀ (pre ++ record :: post) e) :
    ∃ e', EngineRun e₀ pre record.before ∧ record.Executes e' ∧ EngineRun e' post e := by
  rw [List.append_cons] at h
  obtain ⟨e', hpre, hpost⟩ := h.split
  obtain ⟨hr, hx⟩ := hpre.last
  exact ⟨e', hr, hx, hpost⟩

/-- A pass went through the rounds of its record. -/
theorem OpRecord.Executes.passRun {record : OpRecord} {e' : WatchEngine}
    (h : record.Executes e') {now : Int} {generation : Nat}
    (hop : record.op = .pass now generation) :
    ∃ p, PassRun now generation ⟨record.before, [], 0⟩ record.calls record.rounds p ∧
      e' = p.engine := by
  cases h with
  | pass _ hrounds =>
    obtain ⟨rfl, rfl⟩ := EngineOp.pass.inj hop
    exact ⟨_, hrounds, rfl⟩
  | _ => cases hop

/-- The calls of a round are calls of its operation. -/
theorem OpRecord.Executes.round_calls {record : OpRecord} {e' : WatchEngine}
    (h : record.Executes e') {round : TargetRecord} (hround : round ∈ record.rounds)
    {e : Prog.Event Reply} (he : e ∈ round.calls) : e ∈ record.calls := by
  cases h with
  | pass _ hrounds =>
    cases hrounds with
    | intro _ _ _ =>
      refine List.mem_append.mpr (Or.inr (List.mem_append.mpr (Or.inl ?_)))
      exact List.mem_flatMap.mpr ⟨round, hround, he⟩
  | _ => cases hround

/-- The times of the operations of a run. -/
def times (log : List OpRecord) : List Int := log.filterMap fun record => record.op.time

/-- The clock of a run never goes back. -/
def ClockMonotone (log : List OpRecord) : Prop := (times log).Pairwise (· ≤ ·)

theorem times_append (log : List OpRecord) (record : OpRecord) :
    times (log ++ [record]) = times log ++ record.op.time.toList := by
  simp only [times, List.filterMap_append, List.filterMap_cons, List.filterMap_nil]
  cases record.op.time <;> rfl

/-- The times before the last operation of a run are no later than it. -/
theorem ClockMonotone.snoc {log : List OpRecord} {record : OpRecord}
    (h : ClockMonotone (log ++ [record])) : ClockMonotone log ∧
      ∀ now, record.op.time = some now → ∀ t ∈ times log, t ≤ now := by
  rw [ClockMonotone, times_append, List.pairwise_append] at h
  refine ⟨h.1, fun now hnow t ht => h.2.2 t ht now ?_⟩
  rw [hnow]
  exact List.mem_singleton.mpr rfl

/-- Some time is not before any operation of a run. -/
theorem exists_after (log : List OpRecord) : ∃ now, ∀ t ∈ times log, t ≤ now := by
  obtain ⟨now, hnow⟩ := (times log).toFinset.exists_le
  exact ⟨now, fun t ht => hnow t (List.mem_toFinset.mpr ht)⟩

/-! ## Upkeep keeps the runtime state -/

/-- Nothing was resumed and the runtime state is as before. -/
def Upkeep (h : List (Prog.Event Reply)) (e : WatchEngine) {α : Type}
    (h' : List (Prog.Event Reply)) (_ : Except Error α) (e' : WatchEngine) : Prop :=
  resumes h' = resumes h ∧ e'.state = e.state

theorem closeEngine_upkeep (h : List (Prog.Event Reply)) (e : WatchEngine) :
    closeEngine.Follows (Monitor.history Reply) h e (Upkeep h e) := by
  simp only [closeEngine, Act.bind_eq, perform, Act.follows_andThen, Act.follows_get,
    Act.follows_perform, Monitor.history, true_and]
  intro order
  refine (Act.follows_forEach (I := fun h' e' => resumes h' = resumes h ∧ e'.state = e.state)
    (E := fun h' _ e' => resumes h' = resumes h ∧ e'.state = e.state) ?_ ?_).mono ?_
  · intro name _ h' e' hi
    simp only [Act.pure_eq, Act.follows_andThen, Act.follows_perform, Act.follows_ret, true_and]
    refine fun _ => ⟨?_, hi.2⟩
    rw [resumes_append, hi.1, resumes_cons]
    simp [Call.isResume]
  · exact ⟨by simp [resumes_cons, Call.isResume], rfl⟩
  · intro h' r e' hr
    cases r <;> exact hr

theorem replaceSettings_upkeep (settings : Settings) (h : List (Prog.Event Reply))
    (e : WatchEngine) :
    (replaceSettings settings).Follows (Monitor.history Reply) h e (Upkeep h e) := by
  simp only [replaceSettings, Act.bind_eq, Act.follows_andThen, Act.follows_get,
    Act.follows_ite, Act.follows_modify]
  refine ⟨fun _ => (closeEngine_upkeep h e).mono fun h' r e' hup => ?_, fun _ => ⟨rfl, rfl⟩⟩
  cases r with
  | error e => exact hup
  | ok _ => exact hup

theorem buildProvider_upkeep (settings : ProviderSettings) (name : String)
    (h : List (Prog.Event Reply)) (e : WatchEngine) :
    (buildProvider settings name).Follows (Monitor.history Reply) h e (Upkeep h e) := by
  simp only [buildProvider, Act.bind_eq, perform, Act.follows_ite, Act.follows_andThen,
    Act.follows_perform, Act.follows_ofExcept, Act.follows_fail, Monitor.history, true_and]
  have hquiet : ∀ r : Except Error Unit, Upkeep (α := Unit) h e
      (h ++ [⟨.newProvider name, r⟩]) r e := fun r =>
    ⟨by simp [resumes_cons, Call.isResume], rfl⟩
  exact ⟨fun _ => ⟨fun _ => hquiet, fun _ => ⟨rfl, rfl⟩⟩,
    fun _ => ⟨fun _ => ⟨fun _ => hquiet, fun _ => ⟨rfl, rfl⟩⟩, fun _ => ⟨rfl, rfl⟩⟩⟩

theorem ensureProvider_upkeep (provider : String) (h : List (Prog.Event Reply))
    (e : WatchEngine) :
    (ensureProvider provider).Follows (Monitor.history Reply) h e (Upkeep h e) := by
  simp only [ensureProvider, Act.bind_eq, Act.pure_eq, perform, Act.follows_andThen,
    Act.follows_get, Act.follows_ite, Act.follows_ret]
  refine ⟨fun _ => ⟨rfl, rfl⟩, fun _ => ?_⟩
  refine (buildProvider_upkeep _ _ h e).mono fun h' r e' hup => ?_
  cases r with
  | error e => exact hup
  | ok _ =>
    simp only [Act.follows_perform, Act.follows_ofExcept, Act.follows_modify, Monitor.history,
      true_and]
    intro started
    have hcalls : resumes (h' ++ [⟨.startProvider provider, started⟩]) = resumes h := by
      rw [resumes_append, hup.1, resumes_cons]
      simp [Call.isResume]
    cases started with
    | error e => exact ⟨hcalls, hup.2⟩
    | ok _ => exact ⟨hcalls, hup.2⟩

/-! ## Invariants of rounds -/

/-- An invariant of a reading of the calls and of the pass that every round keeps, as long as the
rounds of the targets meet a condition. -/
structure KeptByRounds {G : Type} (note : G → Prog.Event Reply → G) (now : Int)
    (C : TargetRecord → Prop) (I : G → Pass → Prop) : Prop where
  quiet {g : G} {p : Pass} {tr : List (Prog.Event Reply)} (htr : resumes tr = []) (hi : I g p) :
    I (tr.foldl note g) p
  observed {g : G} {p : Pass} (pending : PendingRecovery) (answer : Except Error TurnOutcome)
    (hi : I g p) : I g (p.observed pending now answer)
  target {generation : Nat} {t : WatchTarget} {g : G} {p p' : Pass}
    {tr : List (Prog.Event Reply)} {r : Except Error Unit}
    (hr : TargetRound now generation t p tr r p') (hc : C ⟨t, p, tr⟩) (hi : I g p) :
    I (tr.foldl note g) p'

namespace KeptByRounds

variable {G : Type} {note : G → Prog.Event Reply → G} {now : Int} {C : TargetRecord → Prop}
  {I : G → Pass → Prop}

theorem observations (h : KeptByRounds note now C I) {order : List PendingRecovery} {g : G}
    {p p' : Pass} {rounds : List (Act.Round Reply Pass PendingRecovery)} {r : Except Error Unit}
    (hr : Act.Rounds (observePending now) order p rounds r p') (hi : I g p) :
    I ((rounds.flatMap Act.Round.calls).foldl note g) p' := by
  induction hr generalizing g with
  | done => exact hi
  | failed hb => cases observePending_round hb
  | @next pending _ _ _ _ _ _ _ hb _ ih =>
    rw [List.flatMap_cons, List.foldl_append]
    refine ih ?_
    cases observePending_round hb with
    | unavailable _ => exact hi
    | observed _ => exact h.quiet rfl (h.observed pending _ hi)

theorem observationRun (h : KeptByRounds note now C I) {g : G} {p p' : Pass}
    {tr : List (Prog.Event Reply)} (hr : ObservationRun now p tr p') (hi : I g p) :
    I (tr.foldl note g) p' := by
  cases hr with
  | @intro order _ _ hrounds =>
    have hquiet : resumes [⟨.pendingOrder _, order⟩] = [] := rfl
    exact h.observations hrounds (h.quiet hquiet hi)

theorem targets (h : KeptByRounds note now C I) {generation : Nat} {ts : List WatchTarget} {g : G}
    {p p' : Pass} {rounds : List TargetRecord} {r : Except Error Unit}
    (hr : Act.Rounds (passTarget now generation) ts p rounds r p')
    (hc : ∀ round ∈ rounds, C round) (hi : I g p) :
    I ((rounds.flatMap Act.Round.calls).foldl note g) p' := by
  induction hr generalizing g with
  | done => exact hi
  | failed hb =>
    simpa using h.target (passTarget_round hb) (hc _ (List.mem_singleton.mpr rfl)) hi
  | next hb _ ih =>
    rw [List.flatMap_cons, List.foldl_append]
    exact ih (fun round hround => hc round (List.mem_cons_of_mem _ hround))
      (h.target (passTarget_round hb) (hc _ List.mem_cons_self) hi)

/-- The invariant holds before every round. -/
theorem targets_before (h : KeptByRounds note now C I) {generation : Nat} {ts : List WatchTarget}
    {g : G} {p p' : Pass} {rounds : List TargetRecord} {r : Except Error Unit}
    (hr : Act.Rounds (passTarget now generation) ts p rounds r p')
    (hc : ∀ round ∈ rounds, C round) (hi : I g p) : ∀ round ∈ rounds, ∃ g', I g' round.before := by
  induction hr generalizing g with
  | done => exact fun _ hround => absurd hround List.not_mem_nil
  | failed hb =>
    intro round hround
    obtain rfl := List.mem_singleton.mp hround
    exact ⟨g, hi⟩
  | next hb _ ih =>
    intro round hround
    rcases List.mem_cons.mp hround with rfl | hround
    · exact ⟨g, hi⟩
    · exact ih (fun round hround => hc round (List.mem_cons_of_mem _ hround))
        (h.target (passTarget_round hb) (hc _ List.mem_cons_self) hi) round hround

/-- A pass keeps the invariant if it holds of the pruned state. -/
theorem passRun (h : KeptByRounds note now C I) {generation : Nat} {g : G} {p p' : Pass}
    {tr : List (Prog.Event Reply)} {rounds : List TargetRecord}
    (hr : PassRun now generation p tr rounds p') (hc : ∀ round ∈ rounds, C round)
    (hi : I g (p.withState fun s => s.prune now)) : I (tr.foldl note g) p' := by
  cases hr with
  | intro hseen hrounds hpost =>
    rw [List.foldl_append, List.foldl_append]
    exact h.quiet hpost (h.targets hrounds hc (h.observationRun hseen hi))

theorem reconcilePendingOnly (h : KeptByRounds note now C I) {g : G} {p p' : Pass}
    {tr : List (Prog.Event Reply)} {r : Except Error (List EngineEvent)}
    (hr : (Watchcat.reconcilePendingOnly now).Returns p tr r p')
    (hi : I g (p.withState fun s => s.prune now)) : I (tr.foldl note g) p' := by
  obtain ⟨seen, post, rfl, hpost, hseen⟩ := reconcilePendingOnly_run hr
  rw [List.foldl_append]
  exact h.quiet hpost (h.observationRun hseen hi)

end KeptByRounds

/-- A pass leaves the settings. -/
theorem runOnceAuthorized_settings {now : Int} {generation : Nat} {p p' : Pass}
    {tr : List (Prog.Event Reply)} {r : Except Error (List EngineEvent)}
    (h : (runOnceAuthorized now generation).Returns p tr r p') :
    p'.engine.settings = p.engine.settings := by
  have hkept : KeptByRounds (fun _ _ => ()) now (fun _ => True)
      fun _ q => q.engine.settings = p.engine.settings :=
    { quiet := fun _ hi => hi
      observed := fun {_ q} pending answer hi =>
        (q.observed_observes pending now answer).settings.trans hi
      target := fun hr _ hi => hr.extends.settings.trans hi }
  obtain ⟨rounds, hrun⟩ := runOnceAuthorized_run h
  exact hkept.passRun (g := ()) hrun (fun _ _ => trivial) rfl

/-! ## Sample runs -/

/-- A pass against the provider. -/
def SampleProvider.pass (provider : SampleProvider) (now : Int) (e : WatchEngine) :
    List (Prog.Event Reply) × Except Error (List EngineEvent) × Pass :=
  (runOnceAuthorized now 0 ⟨e, [], 0⟩).execute provider.answer

/-- A manual retry of the session against the provider. -/
def SampleProvider.retry (provider : SampleProvider) (now : Int) (e : WatchEngine) :
    List (Prog.Event Reply) × Except Error ResumeReceipt × WatchEngine :=
  (retryNow "codex" "s" now false 0 e).execute provider.answer

/-- The record of a manual retry against the provider. -/
def SampleProvider.retryRecord (provider : SampleProvider) (now : Int) (e : WatchEngine) :
    OpRecord :=
  ⟨.retryNow "codex" "s" now false 0, e, (provider.retry now e).1, [], []⟩

theorem SampleProvider.retry_executes (provider : SampleProvider) (now : Int) (e : WatchEngine) :
    (provider.retryRecord now e).Executes (provider.retry now e).2.2 :=
  .retryNow (Prog.execute_returns provider.answer _)

/-- A pass against the provider extends a run by a record with its calls and events. -/
theorem SampleProvider.run_pass (provider : SampleProvider) (now : Int) {e₀ e : WatchEngine}
    {log : List OpRecord} (h : EngineRun e₀ log e) :
    ∃ rounds, EngineRun e₀ (log ++ [⟨.pass now 0, e, (provider.pass now e).1, rounds,
      (provider.pass now e).2.2.events⟩]) (provider.pass now e).2.2.engine := by
  have hr : (runOnceAuthorized now 0).Returns ⟨e, [], 0⟩ (provider.pass now e).1
      (provider.pass now e).2.1 (provider.pass now e).2.2 :=
    Prog.execute_returns provider.answer _
  obtain ⟨rounds, hrounds⟩ := runOnceAuthorized_run hr
  exact ⟨rounds, .snoc h rfl (.pass hr hrounds)⟩

/-- What a run tells about one of its operations, less the rounds and events. -/
def OpRecord.sample (record : OpRecord) : EngineOp × WatchEngine × List (Prog.Event Reply) :=
  (record.op, record.before, record.calls)

/-- What passes at the given times do, each against the provider as it is then. -/
def SampleProvider.passes : List (Int × SampleProvider) → WatchEngine →
    List (EngineOp × WatchEngine × List (Prog.Event Reply)) × WatchEngine
  | [], e => ([], e)
  | (now, provider) :: script, e =>
    let rest := passes script (provider.pass now e).2.2.engine
    ((.pass now 0, e, (provider.pass now e).1) :: rest.1, rest.2)

theorem SampleProvider.run_passes (script : List (Int × SampleProvider)) {e₀ e : WatchEngine}
    {log : List OpRecord} (h : EngineRun e₀ log e) :
    ∃ log', EngineRun e₀ (log ++ log') (passes script e).2 ∧
      log'.map OpRecord.sample = (passes script e).1 := by
  induction script generalizing log e with
  | nil => exact ⟨[], by rwa [List.append_nil], rfl⟩
  | cons step script ih =>
    obtain ⟨now, provider⟩ := step
    obtain ⟨rounds, hpass⟩ := provider.run_pass now h
    obtain ⟨log', hrun, hlog⟩ := ih hpass
    refine ⟨_ :: log', by rwa [List.append_assoc] at hrun, ?_⟩
    rw [List.map_cons, hlog]
    rfl

theorem SampleProvider.passes_settings (script : List (Int × SampleProvider)) (e : WatchEngine) :
    ∀ r ∈ (passes script e).1, r.2.1.settings = e.settings := by
  induction script generalizing e with
  | nil => exact fun r hr => absurd hr List.not_mem_nil
  | cons step script ih =>
    obtain ⟨now, provider⟩ := step
    have hpass : (provider.pass now e).2.2.engine.settings = e.settings :=
      runOnceAuthorized_settings (Prog.execute_returns provider.answer _)
    intro r hr
    rcases List.mem_cons.mp hr with rfl | hr
    · rfl
    · exact (ih _ r hr).trans hpass

theorem times_sample (log : List OpRecord) :
    times log = (log.map OpRecord.sample).filterMap fun r => r.1.time := by
  rw [List.filterMap_map]
  rfl

/-- The rounds of a pass against the provider. -/
def SampleProvider.rounds (provider : SampleProvider) (now : Int) (e : WatchEngine) :
    List TargetRecord :=
  let p : Pass := ⟨e.withState fun s => s.prune now, [], 0⟩
  let mid := (Act.executeRounds provider.answer (observePending now)
    p.state.pendingRecoveries.values p).2
  (Act.executeRounds provider.answer (passTarget now 0) mid.engine.targets mid).1

theorem SampleProvider.rounds_eq (provider : SampleProvider) (now : Int) (e : WatchEngine)
    {rounds : List TargetRecord} {p : Pass}
    (h : PassRun now 0 ⟨e, [], 0⟩ (provider.pass now e).1 rounds p) :
    rounds = provider.rounds now e := by
  have hanswered : ∀ ev ∈ (provider.pass now e).1, ev.2 = provider.answer ev.1 :=
    Prog.execute_answered
  generalize (provider.pass now e).1 = tr at h hanswered
  cases h with
  | @intro _ _ _ mid _ _ hseen hrounds _ =>
    cases hseen with
    | @intro order seen _ hr =>
      have horder : order = (⟨_, .refl _⟩ : Arrangement _) :=
        hanswered ⟨.pendingOrder _, order⟩ List.mem_cons_self
      subst horder
      have hobserved := hr.eq_execute fun ev hev => hanswered ev (by simp [hev])
      have hmid : mid = (Act.executeRounds provider.answer (observePending now) _ _).2 :=
        congrArg Prod.snd hobserved.symm
      have htargets := hrounds.eq_execute fun ev hev => hanswered ev (by simp [hev])
      subst hmid
      exact congrArg Prod.fst htargets.symm

/-- The record of a pass against the provider. -/
def SampleProvider.passRecord (provider : SampleProvider) (now : Int) (e : WatchEngine) :
    OpRecord :=
  ⟨.pass now 0, e, (provider.pass now e).1, provider.rounds now e,
    (provider.pass now e).2.2.events⟩

theorem SampleProvider.pass_executes (provider : SampleProvider) (now : Int) (e : WatchEngine) :
    (provider.passRecord now e).Executes (provider.pass now e).2.2.engine := by
  have hr : (runOnceAuthorized now 0).Returns ⟨e, [], 0⟩ (provider.pass now e).1
      (provider.pass now e).2.1 (provider.pass now e).2.2 :=
    Prog.execute_returns provider.answer _
  obtain ⟨rounds, hrounds⟩ := runOnceAuthorized_run hr
  rw [passRecord, ← provider.rounds_eq now e hrounds]
  exact .pass hr hrounds

/-- The records of passes at the given times, each against the provider as it is then. -/
def SampleProvider.records : List (Int × SampleProvider) → WatchEngine → List OpRecord × WatchEngine
  | [], e => ([], e)
  | (now, provider) :: script, e =>
    let rest := records script (provider.pass now e).2.2.engine
    (provider.passRecord now e :: rest.1, rest.2)

theorem SampleProvider.run_records (script : List (Int × SampleProvider)) {e₀ e : WatchEngine}
    {log : List OpRecord} (h : EngineRun e₀ log e) :
    EngineRun e₀ (log ++ (records script e).1) (records script e).2 := by
  induction script generalizing log e with
  | nil => rwa [records, List.append_nil]
  | cons step script ih =>
    obtain ⟨now, provider⟩ := step
    have hrun := ih (.snoc h rfl (provider.pass_executes now e))
    rwa [List.append_assoc] at hrun

end Watchcat
