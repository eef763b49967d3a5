import Watchcat.Daemon.Uses
import Watchcat.State.RetryLedger

/-!
# What tasks owe to manual retries

The handler that opens an operation owes it to its client until it has withdrawn it
or has handed it to a task, which owes it until it has ended it. The monitor of this
duty also follows the registry while it is held, so that each critical section is
known by what it does to the active operations.
-/

namespace Watchcat

open Watchcat.Core Method RetryOperationRegistry

variable {σ α : Type}

/-! ## Critical sections of the registry -/

/-- How the last save of a trace has ended. -/
def lastSave (tr : List (Prog.Event Reply)) : Option (Except Error Unit) :=
  tr.foldl (fun saved e => match e with
    | ⟨.writeOperations _, r⟩ => some r
    | _ => saved) none

/-- What a section does, by a task that owes an operation or none: which operations may be active
after it. -/
inductive RegistryRound (owes : Option String) (r : RetryOperationRegistry)
    (tr : List (Prog.Event Reply)) : RegistrySection → RetryOperationRegistry → Prop
  | looked (answer : Option RetryOperation) : RegistryRound owes r tr (.lookup answer) r
  | refused : RegistryRound owes r tr (.accept none) r
  | known (o : RetryOperation) : RegistryRound owes r tr (.accept (some (o, false))) r
  | opened {o : RetryOperation} {r' : RetryOperationRegistry} (hfree : owes = none)
      (hactive : ∀ k, r'.Active k → k = o.operationId ∨ r.Active k) :
      RegistryRound owes r tr (.accept (some (o, true))) r'
  | begun {id : String} {r' : RetryOperationRegistry} (howes : owes = some id)
      (hactive : ∀ k, r'.Active k → k = id ∨ r.Active k) :
      RegistryRound owes r tr (.running id) r'
  | ended {id : String} {r' : RetryOperationRegistry} (howes : owes = some id)
      (hactive : ∀ k, r'.Active k → k ≠ id ∧ r.Active k) :
      RegistryRound owes r tr (.finish id) r'
  | notEnded {id : String} {e : Error} (howes : owes = some id)
      (hsave : lastSave tr = some (.error e)) : RegistryRound owes r tr (.finish id) r
  | withdrawn {id : String} {r' : RetryOperationRegistry} (howes : owes = some id)
      (hactive : ∀ k, r'.Active k → k ≠ id ∧ r.Active k) :
      RegistryRound owes r tr (.rollback id) r'
  | notWithdrawn {id : String} {e : Error} (howes : owes = some id)
      (hsave : lastSave tr = some (.error e)) : RegistryRound owes r tr (.rollback id) r

theorem active_of_store {r r' : RetryOperationRegistry} {o : RetryOperation}
    (h : ∀ {k p}, r'.operations.lookup k = some p → r.operations.lookup k = some p) {k : String}
    (hk : (r'.store o).Active k) : k = o.operationId ∨ r.Active k := by
  obtain ⟨p, hp, hactive⟩ := hk
  rw [lookup_store] at hp
  split at hp
  · rename_i hid
    exact Or.inl hid
  · exact Or.inr ⟨p, h hp, hactive⟩

theorem active_of_adjust {r : RetryOperationRegistry} {id : String}
    {f : RetryOperation → RetryOperation} {k : String} (hk : (r.adjust id f).Active k) :
    (k = id ∧ ∃ o, (f o).status.isActive = true) ∨ (k ≠ id ∧ r.Active k) := by
  obtain ⟨p, hp, hactive⟩ := hk
  rw [lookup_adjust] at hp
  split at hp
  · rename_i hid
    obtain ⟨o, _, rfl⟩ := Option.map_eq_some_iff.mp hp
    exact Or.inl ⟨hid, o, hactive⟩
  · rename_i hid
    exact Or.inr ⟨hid, p, hp, hactive⟩

theorem AcceptRound.registryRound {session : SessionRef} {requestKey : String}
    {r r' : RetryOperationRegistry} {tr : List (Prog.Event Reply)}
    {answer : RetryOperation × Bool}
    (h : AcceptRound session requestKey r tr (.ok answer) r') :
    RegistryRound none r tr (.accept (some answer)) r' := by
  cases h with
  | known _ => exact .known _
  | opened _ hsave =>
    cases hsave with
    | saved _ => exact .opened rfl fun k => active_of_store lookup_of_evict

theorem AcceptRound.unchanged {session : SessionRef} {requestKey : String}
    {r r' : RetryOperationRegistry} {tr : List (Prog.Event Reply)} {e : Error}
    (h : AcceptRound session requestKey r tr (.error e) r') : r' = r := by
  cases h with
  | refused _ => rfl
  | unsaved hsave =>
    cases hsave with
    | restored _ _ => rfl

theorem setRunning_registryRound {id : String} {r r' : RetryOperationRegistry}
    {tr : List (Prog.Event Reply)} {res : Except Error Unit}
    (h : (setRunning id).Returns r tr res r') :
    RegistryRound (some id) r tr (.running id) r' := by
  obtain ⟨now, clock, save, rfl, _, hsave⟩ := setRunning_saves h
  refine .begun rfl fun k hk => ?_
  cases hsave with
  | saved _ => exact (active_of_adjust hk).imp And.left And.right
  | restored _ _ => exact Or.inr hk

theorem finish_registryRound {id : String} {result : Except Error ResumeReceipt}
    {r r' : RetryOperationRegistry} {tr announced : List (Prog.Event Reply)}
    {res : Except Error (Option RetryOperation)} (h : (finish id result).Returns r tr res r')
    (hannounced : announced = [] ∨ ∃ o, res = .ok o) :
    RegistryRound (some id) r (tr ++ announced) (.finish id) r' := by
  rcases finish_saves h with ⟨hnone, rfl, rfl, rfl⟩ | ⟨now, save, o, saved, rfl, rfl, hsave⟩
  · refine .ended rfl fun k hk => ⟨?_, hk⟩
    rintro rfl
    obtain ⟨o, ho, _⟩ := hk
    rw [hnone] at ho
    cases ho
  · cases hsave with
    | saved _ =>
      refine .ended rfl fun k hk => ?_
      rcases active_of_adjust hk with ⟨_, p, hp⟩ | hother
      · rw [p.ended_settled result now] at hp
        cases hp
      · exact hother
    | restored order e =>
      rcases hannounced with rfl | ⟨o', ho'⟩
      · exact .notEnded rfl rfl
      · cases ho'

theorem rollback_registryRound {id : String} {r r' : RetryOperationRegistry}
    {tr : List (Prog.Event Reply)} {res : Except Error Unit}
    (h : (rollback id).Returns r tr res r') :
    RegistryRound (some id) r tr (.rollback id) r' := by
  cases rollback_saves h with
  | saved _ =>
    refine .withdrawn rfl fun k hk => ?_
    obtain ⟨o, ho, hactive⟩ := hk
    rw [lookup_discard] at ho
    split at ho
    · cases ho
    · rename_i hne
      exact ⟨hne, o, ho, hactive⟩
  | restored _ e => exact .notWithdrawn rfl rfl

/-! ## The duty of a task -/

/-- The operation a task has still to settle, and the registry it holds with the calls since. -/
structure Duty where
  owes : Option String := none
  held : Option (RetryOperationRegistry × List (Prog.Event Reply)) := none

/-- What is owed after a section. -/
def RegistrySection.owed (owes : Option String) : RegistrySection → Option String
  | .accept (some (o, true)) => some o.operationId
  | .finish _ | .rollback _ => none
  | _ => owes

/-- The duties of the tasks over their calls. -/
def retryDuties : Monitor Reply Duty where
  allowed d op := match op with
    | .lockRegistry => d.held = none
    | .unlockRegistry r' section_ =>
      ∃ r tr, d.held = some (r, tr) ∧ RegistryRound d.owes r tr section_ r'
    | .spawnRetry job => d.owes = some job.operationId
    | .retryPanicked id => d.owes = some id
    | _ => True
  next d op r := match (⟨op, r⟩ : Prog.Event Reply) with
    | ⟨.lockRegistry, registry⟩ => { d with held := some (registry, []) }
    | ⟨.unlockRegistry _ section_, _⟩ => ⟨section_.owed d.owes, none⟩
    | ⟨.spawnRetry _, _⟩ | ⟨.retryPanicked _, _⟩ => { d with owes := none }
    | e => { d with held := d.held.map fun held => (held.1, held.2 ++ [e]) }

theorem retryDuties_allowed {d : Duty} {op : Call} (h : op.ofRetries = false) :
    retryDuties.allowed d op := by
  cases op <;> trivial

theorem retryDuties_next {d : Duty} {op : Call} {r : Reply op} (h : op.ofRetries = false) :
    retryDuties.next d op r =
      { d with held := d.held.map fun held => (held.1, held.2 ++ [⟨op, r⟩]) } := by
  cases op <;> first | rfl | cases h

/-- What has nothing to do with manual retries leaves a duty. -/
theorem Apart.keeps {m : Method σ α} (h : Apart m) {owes : Option String} {s : σ}
    {Q : Duty → Except Error α → σ → Prop} (hq : ∀ r s', Q ⟨owes, none⟩ r s') :
    m.Follows retryDuties ⟨owes, none⟩ s Q :=
  h.follows (fun _ hop => retryDuties_allowed hop) (fun _ _ hop => retryDuties_next hop) hq

/-- The calls made while the registry is held are those of the method. -/
theorem Apart.follows_held {m : Method σ α} (h : Apart m) {owes : Option String}
    {r : RetryOperationRegistry} {s : σ} {Q : Duty → Except Error α → σ → Prop}
    {done : List (Prog.Event Reply)}
    (hq : ∀ tr res s', m.Returns s tr res s' → Q ⟨owes, some (r, done ++ tr)⟩ res s') :
    m.Follows retryDuties ⟨owes, some (r, done)⟩ s Q := by
  have hprog : ∀ (p : Prog Reply (Except Error α × σ)) (done : List (Prog.Event Reply)),
      p.Calls (fun op => op.ofRetries = false) →
      (∀ tr res s', p.Returns tr (res, s') → Q ⟨owes, some (r, done ++ tr)⟩ res s') →
      p.Follows retryDuties ⟨owes, some (r, done)⟩ fun d a => Q d a.1 a.2 := by
    intro p
    induction p with
    | pure a =>
      intro done _ hq
      have hend := hq [] a.1 a.2 ⟨rfl, rfl⟩
      rwa [List.append_nil] at hend
    | call op next ih =>
      rintro done ⟨hop, hnext⟩ hq
      refine ⟨retryDuties_allowed hop, fun answer => ?_⟩
      rw [retryDuties_next hop]
      refine ih answer (done ++ [⟨op, answer⟩]) (hnext answer) fun tr res s' hr => ?_
      rw [List.append_assoc]
      exact hq (⟨op, answer⟩ :: tr) res s' ⟨answer, tr, rfl, hr⟩
  exact hprog (m s) done (h s) hq

/-- A section of the registry is one of the rounds. -/
theorem follows_inRegistry {section_ : Except Error α → RegistrySection}
    {m : Method RetryOperationRegistry α} (hm : Apart m) {owes : Option String} {s : σ}
    {Q : Duty → Except Error α → σ → Prop}
    (h : ∀ r, m.Follows (Monitor.history Reply) [] r fun tr res r' =>
      RegistryRound owes r tr (section_ res) r' ∧ Q ⟨(section_ res).owed owes, none⟩ res s) :
    (inRegistry section_ m : Method σ α).Follows retryDuties ⟨owes, none⟩ s Q := by
  refine ⟨rfl, fun r => Prog.follows_bind.mpr ?_⟩
  have hheld : m.Follows retryDuties ⟨owes, some (r, [])⟩ r fun d res r' =>
      retryDuties.allowed d (.unlockRegistry r' (section_ res)) ∧ ∀ unlocked,
        Q (retryDuties.next d (.unlockRegistry r' (section_ res)) unlocked) res s := by
    refine hm.follows_held fun tr res r' hr => ?_
    obtain ⟨hround, hq⟩ := (h r).of_history hr
    exact ⟨⟨r, tr, rfl, hround⟩, fun _ => hq⟩
  exact hheld

/-! ## The tasks -/

theorem apart_sendRetry (job : RetryJob) : Apart (do
    replaceSettings job.settings
    replaceWatchTargets (← listTargets)
    ensureProvider job.session.provider
    let now ← perform .now
    retryNow job.session.provider job.session.sessionId now false job.generation) := by
  have hlist : Apart (listTargets : Method WatchEngine (List WatchTarget)) := uses_listTargets rfl
  refine (ofUpkeep_replaceSettings _).ofEngine.apart.andThen fun _ =>
    hlist.andThen fun targets => ?_
  refine (ofUpkeep_replaceWatchTargets targets).ofEngine.apart.andThen fun _ => ?_
  refine (ofUpkeep_ensureProvider _).ofEngine.apart.andThen fun _ =>
    .andThen (Act.uses_perform rfl) ?_
  exact fun now => (ofEngine_retryNow _ _ now false _).apart

theorem follows_runRetry {job : RetryJob} {e : WatchEngine}
    {Q : Duty → Except Error ResumeReceipt → WatchEngine → Prop}
    (hq : ∀ res e', Q ⟨some job.operationId, none⟩ res e') :
    (runRetry job).Follows retryDuties ⟨some job.operationId, none⟩ e Q := by
  have hstart : (inRegistry (fun _ => .running job.operationId) (setRunning job.operationId)
      : Method WatchEngine Unit).Follows retryDuties ⟨some job.operationId, none⟩ e
      fun d res e' => d = ⟨some job.operationId, none⟩ ∧ e' = e := by
    refine follows_inRegistry (ofRegistry_setRunning _).apart fun r => ?_
    exact Act.follows_history.mpr fun tr res r' hr => ⟨setRunning_registryRound hr, rfl, rfl⟩
  refine Act.follows_andThen.mpr (Act.follows_perform.mpr ⟨trivial, fun shuttingDown => ?_⟩)
  refine Act.follows_ite.mpr ⟨fun _ => hq _ _, fun _ => ?_⟩
  refine Act.follows_andThen.mpr (hstart.mono fun d res e' hd => ?_)
  obtain ⟨rfl, rfl⟩ := hd
  cases res with
  | error e => exact hq _ _
  | ok _ => exact (apart_sendRetry job).keeps hq

theorem follows_finishRetry {job : RetryJob} {result : Except Error ResumeReceipt} {s : Unit}
    {Q : Duty → Except Error Unit → Unit → Prop} (hq : ∀ res s', Q {} res s') :
    (finishRetry job result).Follows retryDuties ⟨some job.operationId, none⟩ s Q := by
  refine follows_inRegistry ?_ fun r => ?_
  · refine (ofRegistry_finish _ _).apart.andThen fun found => ?_
    split
    · exact Act.uses_perform rfl
    · exact Act.uses_ret _
  · refine Act.follows_andThen.mpr (Act.follows_history.mpr fun tr res r' hr => ?_)
    cases res with
    | error e =>
      have hround := finish_registryRound hr (.inl rfl)
      rw [List.append_nil] at hround
      exact ⟨hround, hq _ _⟩
    | ok found =>
      cases found with
      | none =>
        have hround := finish_registryRound hr (.inl rfl)
        rw [List.append_nil] at hround
        exact ⟨hround, hq _ _⟩
      | some o =>
        exact ⟨trivial, fun _ => ⟨finish_registryRound hr (.inr ⟨_, rfl⟩), hq _ _⟩⟩

/-- The task of a manual retry ends what it owes or panics. -/
theorem follows_retryTask {job : RetryJob} {s : Unit} {Q : Duty → Except Error Unit → Unit → Prop}
    (hq : ∀ res s', Q {} res s') :
    (retryTask job).Follows retryDuties ⟨some job.operationId, none⟩ s Q := by
  have hwork : (do
      if ← perform .isShuttingDown then
        Act.fail (.message "manual retry was cancelled because Watchcat is shutting down")
      else inEngine (runRetry job) : Task ResumeReceipt).Follows retryDuties
      ⟨some job.operationId, none⟩ s fun d _ _ => d = ⟨some job.operationId, none⟩ := by
    refine Act.follows_andThen.mpr (Act.follows_perform.mpr ⟨trivial, fun shuttingDown => ?_⟩)
    refine Act.follows_ite.mpr ⟨fun _ => rfl, fun _ => ⟨trivial, fun e => ?_⟩⟩
    refine Prog.follows_bind.mpr ?_
    have hrun : (runRetry job).Follows retryDuties ⟨some job.operationId, none⟩ e
        fun d _ _ => d = ⟨some job.operationId, none⟩ := follows_runRetry fun _ _ => rfl
    refine Prog.Follows.mono hrun fun d res hd => ?_
    subst hd
    exact ⟨trivial, fun _ => rfl⟩
  refine Act.follows_andThen.mpr (Act.follows_attempt.mpr (hwork.mono fun d result s' hd => ?_))
  subst hd
  refine Act.follows_ite.mpr ⟨fun _ => ?_, fun _ => follows_finishRetry hq⟩
  exact Act.follows_perform.mpr ⟨rfl, fun _ => hq _ _⟩

/-! ## The handlers -/

theorem follows_acceptRetry {request : RpcRequest} {retry : RetryRequest} {revision : Nat}
    {s : Unit} {Q : Duty → Except Error (Option (RetryOperation × Bool)) → Unit → Prop}
    (hnone : ∀ res, (∀ answer, res ≠ .ok (some answer)) → Q {} res s)
    (hknown : ∀ o, Q {} (.ok (some (o, false))) s)
    (hopened : ∀ o, Q ⟨some o.operationId, none⟩ (.ok (some (o, true))) s) :
    (acceptRetry request retry revision).Follows retryDuties {} s Q := by
  refine follows_inRegistry ?_ fun r => ?_
  · refine .andThen (ofRegistry_accept _ _).apart.attempt fun accepted => ?_
    split
    · exact Act.uses_ret _
    · exact (apart_respond _).andThen fun _ => Act.uses_ret _
  · refine Act.follows_andThen.mpr (Act.follows_attempt.mpr ?_)
    refine Act.follows_history.mpr fun tr res r' hr => ?_
    cases res with
    | error e =>
      obtain rfl := (accept_round hr).unchanged
      refine Act.follows_andThen.mpr (Act.follows_andThen.mpr ?_)
      refine Act.follows_perform.mpr ⟨trivial, fun written => ?_⟩
      cases written with
      | error e => exact ⟨.refused, hnone _ fun _ h => nomatch h⟩
      | ok _ => exact ⟨.refused, hnone _ fun _ h => nomatch h⟩
    | ok answer =>
      have hround := (accept_round hr).registryRound
      obtain ⟨o, starts⟩ := answer
      cases starts with
      | false => exact ⟨hround, hknown o⟩
      | true => exact ⟨hround, hopened o⟩

theorem follows_answerKnownRetry {request : RpcRequest} {retry : RetryRequest} {revision : Nat}
    {s : Unit} {Q : Duty → Except Error Bool → Unit → Prop} (hq : ∀ res, Q {} res s) :
    (answerKnownRetry request retry revision).Follows retryDuties {} s Q := by
  refine follows_inRegistry ?_ fun r => ?_
  · refine (ofRegistry_findRequest _ _).apart.andThen fun found => ?_
    split
    · exact (apart_respond _).andThen fun _ => Act.uses_ret _
    · exact Act.uses_ret _
  · refine Act.follows_andThen.mpr (Act.follows_history.mpr fun tr res r' hr => ?_)
    obtain ⟨rfl, _⟩ := findRequest_round hr
    cases res with
    | error e => exact ⟨.looked none, hq _⟩
    | ok found =>
      cases found with
      | none => exact ⟨.looked none, hq _⟩
      | some o =>
        refine Act.follows_andThen.mpr (Act.follows_andThen.mpr ?_)
        refine Act.follows_perform.mpr ⟨trivial, fun written => ?_⟩
        cases written with
        | error e => exact ⟨.looked none, hq _⟩
        | ok _ => exact ⟨.looked none, hq _⟩

theorem follows_withdrawRetry {id : String} {s : Unit} {Q : Duty → Except Error Unit → Unit → Prop}
    (hq : ∀ res, Q {} res s) :
    (withdrawRetry id).Follows retryDuties ⟨some id, none⟩ s Q := by
  refine Act.follows_andThen.mpr (Act.follows_attempt.mpr ?_)
  refine follows_inRegistry (ofRegistry_rollback id).apart fun r => ?_
  exact Act.follows_history.mpr fun tr res r' hr => ⟨rollback_registryRound hr, hq _⟩

theorem apart_prepareRetry (request : RpcRequest) : Apart (prepareRetry request) := by
  unfold prepareRetry
  split
  · exact Act.uses_fail _
  · refine .andThen (Act.uses_perform rfl) fun _ => Act.uses_ite (Act.uses_fail _) ?_
    refine .andThen (apart_inDaemon ?_) fun _ => Act.uses_ret _
    exact (ofDaemon_checkRevision request).apart.andThen fun _ =>
      .andThen Act.uses_get fun _ => Act.uses_ret _

/-- A retry request hands over or withdraws what it has opened. -/
theorem follows_serveRetryNow {request : RpcRequest} {s : Unit}
    {Q : Duty → Except Error Unit → Unit → Prop} (hq : ∀ res s', Q {} res s') :
    (serveRetryNow request).Follows retryDuties {} s Q := by
  refine Act.follows_andThen.mpr (apart_readDaemon.keeps fun d s => ?_)
  cases d with
  | error e => exact hq _ _
  | ok d =>
    refine Act.follows_ite.mpr ⟨fun _ => hq _ _, fun _ => ?_⟩
    refine Act.follows_andThen.mpr ?_
    cases decodeRetryRequest request.params with
    | error e => exact hq _ _
    | ok retry =>
      refine Act.follows_andThen.mpr (follows_answerKnownRetry fun known => ?_)
      cases known with
      | error e => exact hq _ _
      | ok known =>
        refine Act.follows_ite.mpr ⟨fun _ => hq _ _, fun _ => ?_⟩
        refine Act.follows_andThen.mpr (Act.follows_attempt.mpr ?_)
        refine (apart_prepareRetry request).keeps fun prepared s => ?_
        cases prepared with
        | error e => exact (apart_respond _).keeps hq
        | ok prepared =>
          refine Act.follows_andThen.mpr (follows_acceptRetry (fun res hres => ?_)
            (fun o => ?_) fun o => ?_)
          · cases res with
            | error e => exact hq _ _
            | ok answer =>
              cases answer with
              | none => exact hq _ _
              | some answer => exact absurd rfl (hres answer)
          · refine Act.follows_andThen.mpr (Act.follows_attempt.mpr ?_)
            refine (apart_respond _).keeps fun written s => ?_
            cases written with
            | error e => exact hq _ _
            | ok _ => exact hq _ _
          · refine Act.follows_andThen.mpr (Act.follows_attempt.mpr ?_)
            refine (apart_respond _).keeps fun written s => ?_
            cases written with
            | error e =>
              refine Act.follows_andThen.mpr (follows_withdrawRetry fun res => ?_)
              cases res with
              | error e => exact hq _ _
              | ok _ => exact hq _ _
            | ok _ =>
              refine Act.follows_andThen.mpr (Act.follows_perform.mpr ⟨trivial, fun _ => ?_⟩)
              refine Act.follows_andThen.mpr (Act.follows_perform.mpr ⟨rfl, fun _ => ?_⟩)
              exact Act.follows_perform.mpr ⟨trivial, fun _ => hq _ _⟩

theorem follows_serveRetryStatus {request : RpcRequest} {s : Unit}
    {Q : Duty → Except Error Unit → Unit → Prop} (hq : ∀ res s', Q {} res s') :
    (serveRetryStatus request).Follows retryDuties {} s Q := by
  refine Act.follows_ite.mpr ⟨fun _ => hq _ _, fun _ => ?_⟩
  split
  · exact hq _ _
  · rename_i id _
    refine Act.follows_andThen.mpr (apart_readDaemon.keeps fun d s => ?_)
    cases d with
    | error e => exact hq _ _
    | ok d =>
      refine Act.follows_andThen.mpr (follows_inRegistry ?_ fun r => ⟨.looked _, ?_⟩)
      · exact .andThen Act.uses_get fun _ => Act.uses_ret _
      · dsimp only
        split
        · exact (apart_respond _).keeps hq
        · exact (apart_respond _).keeps hq

/-- A client's request leaves nothing owed. -/
theorem follows_serveConnection {rounds : Nat} {s : Unit}
    {Q : Duty → Except Error Unit → Unit → Prop} (hq : ∀ res s', Q {} res s') :
    (serveConnection rounds).Follows retryDuties {} s Q := by
  refine Act.follows_andThen.mpr (Act.follows_perform.mpr ⟨trivial, fun request => ?_⟩)
  refine Act.follows_andThen.mpr ?_
  cases request with
  | error e => exact hq _ _
  | ok request =>
    refine Act.follows_ite.mpr
      ⟨fun _ => (apart_serveSubscribe rounds request).keeps hq, fun _ => ?_⟩
    refine Act.follows_ite.mpr ⟨fun _ => follows_serveRetryStatus hq, fun _ => ?_⟩
    refine Act.follows_ite.mpr ⟨fun _ => follows_serveRetryNow hq, fun _ => ?_⟩
    exact (apart_serveRequest request).keeps hq

end Watchcat
