import Watchcat.Service.Calls

/-!
# Accepting and settling manual retries

The methods of the registry behind its lock. Each change is saved at once and
undone where saving fails. What a method can do to the registry and to its file
is listed once, over all answers.
-/

namespace Watchcat

open Watchcat.Core Method RetryOperationRegistry

/-! ## The methods -/

/-- `RetryOperationRegistry::save`. -/
def saveOperations : Method RetryOperationRegistry Unit := do
  let order ← perform (.operationOrder (← Act.get).operations.values)
  Act.ofExcept (← perform (.writeOperations (document order.1)))

/-- Save, or put back the operations of before. -/
def saveOrRestore (previous : RetryOperationRegistry) : Method RetryOperationRegistry Unit := do
  match ← Act.attempt saveOperations with
  | .ok _ => return ()
  | .error e => do
    Act.modify fun _ => previous
    Act.fail e

/-- The loop body of `RetryOperationRegistry::load`. -/
def loadOperation (o : RetryOperation) : Method RetryOperationRegistry Unit :=
  if o.status.isActive then do
    let now ← perform .now
    Act.modify fun r => r.store (o.interrupted now)
  else Act.modify fun r => r.store o

/-- `RetryOperationRegistry::load`, on an empty registry. -/
def loadOperations : Method RetryOperationRegistry Unit := do
  match ← Act.ofExcept (← perform .readOperations) with
  | none => pure ()
  | some document => do
    if document.version ≠ 1 then
      Act.fail (.message ("unsupported retry operation state version " ++
        toString document.version))
    Act.forEach loadOperation document.operations
  saveOperations

/-- `RetryOperationRegistry::accept`. -/
def accept (session : SessionRef) (requestKey : String) :
    Method RetryOperationRegistry (RetryOperation × Bool) := do
  let order ← perform (.operationOrder (← Act.get).operations.values)
  match ← Act.ofExcept (admission order.1 session requestKey) with
  | some operation => return (operation, false)
  | none => do
    let previous ← Act.get
    Act.modify (evict order.1)
    let id ← perform .newUuid
    let now ← perform .now
    let operation := RetryOperation.fresh id session requestKey now
    Act.modify fun r => r.store operation
    saveOrRestore previous
    return (operation, true)

/-- `RetryOperationRegistry::find_request`. -/
def findRequest (session : SessionRef) (requestKey : String) :
    Method RetryOperationRegistry (Option RetryOperation) := do
  let order ← perform (.operationOrder (← Act.get).operations.values)
  Act.ofExcept (RetryOperationRegistry.findRequest order.1 session requestKey)

/-- `RetryOperationRegistry::set_running`. -/
def setRunning (id : String) : Method RetryOperationRegistry Unit := do
  let previous ← Act.get
  if (previous.operations.lookup id).isSome then
    let now ← perform .now
    Act.modify fun r => r.adjust id fun o => o.started now
  saveOrRestore previous

/-- `RetryOperationRegistry::finish`. -/
def finish (id : String) (result : Except Error ResumeReceipt) :
    Method RetryOperationRegistry (Option RetryOperation) := do
  let previous ← Act.get
  match previous.operations.lookup id with
  | none => return none
  | some operation => do
    let now ← perform .now
    Act.modify fun r => r.adjust id fun o => o.ended result now
    saveOrRestore previous
    return some (operation.ended result now)

/-- The removal of an acceptance whose response was not written. -/
def rollback (id : String) : Method RetryOperationRegistry Unit := do
  let previous ← Act.get
  Act.modify fun r => r.discard id
  saveOrRestore previous

/-! ## What a method can do -/

/-- How a save can end: the registry is as saved, or as before. -/
inductive SaveRound (previous r : RetryOperationRegistry) :
    List (Prog.Event Reply) → Except Error Unit → RetryOperationRegistry → Prop
  | saved (order : Arrangement r.operations.values) :
      SaveRound previous r [⟨.operationOrder r.operations.values, order⟩,
        ⟨.writeOperations (document order.1), .ok ()⟩] (.ok ()) r
  | restored (order : Arrangement r.operations.values) (e : Error) :
      SaveRound previous r [⟨.operationOrder r.operations.values, order⟩,
        ⟨.writeOperations (document order.1), .error e⟩] (.error e) previous

theorem follows_saveOperations {h : List (Prog.Event Reply)} {r : RetryOperationRegistry}
    {Q : List (Prog.Event Reply) → Except Error Unit → RetryOperationRegistry → Prop}
    (hq : ∀ tr res r', SaveRound r r tr res r' → Q (h ++ tr) res r') :
    saveOperations.Follows (Monitor.history Reply) h r Q := by
  simp only [saveOperations, Act.bind_eq, perform, Act.follows_andThen, Act.follows_get,
    Act.follows_perform, Act.follows_ofExcept, Monitor.history, true_and]
  intro order saved
  rw [List.append_assoc]
  cases saved with
  | ok _ => exact hq _ _ _ (.saved order)
  | error e => exact hq _ _ _ (.restored order e)

theorem follows_saveOrRestore {h : List (Prog.Event Reply)} {previous r : RetryOperationRegistry}
    {Q : List (Prog.Event Reply) → Except Error Unit → RetryOperationRegistry → Prop}
    (hq : ∀ tr res r', SaveRound previous r tr res r' → Q (h ++ tr) res r') :
    (saveOrRestore previous).Follows (Monitor.history Reply) h r Q := by
  simp only [saveOrRestore, Act.bind_eq, Act.follows_andThen, Act.follows_attempt]
  refine follows_saveOperations fun tr res r' hsave => ?_
  cases hsave with
  | saved order => exact hq _ _ _ (.saved order)
  | restored order e => exact hq _ _ _ (.restored order e)

/-- How a request can be accepted: it is refused, answered by a stored operation, or opens a new
one, which is kept if it could be saved. -/
inductive AcceptRound (session : SessionRef) (requestKey : String) (r : RetryOperationRegistry) :
    List (Prog.Event Reply) → Except Error (RetryOperation × Bool) → RetryOperationRegistry → Prop
  | refused {order : Arrangement r.operations.values} {e : Error}
      (hrefused : admission order.1 session requestKey = .error e) :
      AcceptRound session requestKey r [⟨.operationOrder r.operations.values, order⟩] (.error e) r
  | known {order : Arrangement r.operations.values} {o : RetryOperation}
      (hanswer : admission order.1 session requestKey = .ok (some o)) :
      AcceptRound session requestKey r [⟨.operationOrder r.operations.values, order⟩]
        (.ok (o, false)) r
  | opened {order : Arrangement r.operations.values} {id : String} {now : Int}
      {tr : List (Prog.Event Reply)} {r' : RetryOperationRegistry}
      (hanswer : admission order.1 session requestKey = .ok none)
      (hsave : SaveRound r ((evict order.1 r).store (.fresh id session requestKey now)) tr
        (.ok ()) r') :
      AcceptRound session requestKey r (⟨.operationOrder r.operations.values, order⟩ ::
        ⟨.newUuid, id⟩ :: ⟨.now, now⟩ :: tr) (.ok (.fresh id session requestKey now, true)) r'
  | unsaved {order : Arrangement r.operations.values} {id : String} {now : Int}
      {tr : List (Prog.Event Reply)} {e : Error} {r' : RetryOperationRegistry}
      (hsave : SaveRound r ((evict order.1 r).store (.fresh id session requestKey now)) tr
        (.error e) r') :
      AcceptRound session requestKey r (⟨.operationOrder r.operations.values, order⟩ ::
        ⟨.newUuid, id⟩ :: ⟨.now, now⟩ :: tr) (.error e) r'

theorem accept_round {session : SessionRef} {requestKey : String} {r r' : RetryOperationRegistry}
    {tr : List (Prog.Event Reply)} {res : Except Error (RetryOperation × Bool)}
    (h : (accept session requestKey).Returns r tr res r') :
    AcceptRound session requestKey r tr res r' := by
  refine Act.Follows.of_history ?_ h
  simp only [accept, Act.bind_eq, Act.pure_eq, perform, Act.follows_andThen, Act.follows_get,
    Act.follows_perform, Act.follows_ofExcept, Monitor.history, true_and, List.nil_append]
  intro order
  cases hanswer : admission order.1 session requestKey with
  | error e => exact .refused hanswer
  | ok answer =>
    cases answer with
    | some o => exact .known hanswer
    | none =>
      simp only [Act.follows_andThen, Act.follows_get, Act.follows_modify, Act.follows_perform,
        true_and]
      refine fun id now => follows_saveOrRestore fun tr res r' hsave => ?_
      cases res with
      | ok _ => exact .opened hanswer hsave
      | error e => exact .unsaved hsave

/-- The stored operation of an identifier was updated, or all is as before. -/
inductive AdjustRound (id : String) (r : RetryOperationRegistry) :
    List (Prog.Event Reply) → RetryOperationRegistry → Prop
  | unchanged : AdjustRound id r [] r
  | adjusted {f : RetryOperation → RetryOperation} {clock tr : List (Prog.Event Reply)}
      {res : Except Error Unit} {r' : RetryOperationRegistry}
      (hclock : clock = [] ∨ ∃ now : Int, clock = [⟨.now, now⟩])
      (hf : ∀ o, (f o).identity = o.identity)
      (hsave : SaveRound r (r.adjust id f) tr res r') : AdjustRound id r (clock ++ tr) r'

/-- An update of the registry that is saved, after a look at the clock where there is something to
update. -/
theorem setRunning_saves {id : String} {r r' : RetryOperationRegistry}
    {tr : List (Prog.Event Reply)} {res : Except Error Unit}
    (h : (setRunning id).Returns r tr res r') :
    ∃ (now : Int) (clock save : List (Prog.Event Reply)), tr = clock ++ save ∧
      (clock = [] ∨ clock = [⟨.now, now⟩]) ∧
      SaveRound r (r.adjust id fun o => o.started now) save res r' := by
  refine Act.Follows.of_history (Q := fun tr res r' =>
    ∃ (now : Int) (clock save : List (Prog.Event Reply)), tr = clock ++ save ∧
      (clock = [] ∨ clock = [⟨.now, now⟩]) ∧
      SaveRound r (r.adjust id fun o => o.started now) save res r') ?_ h
  simp only [setRunning, Act.bind_eq, perform, Act.follows_andThen, Act.follows_get,
    Act.follows_ite, Act.follows_perform, Act.follows_modify, Monitor.history, true_and,
    List.nil_append]
  refine ⟨fun _ now => ?_, fun hnone => ?_⟩
  · exact follows_saveOrRestore fun tr res r' hsave => ⟨now, _, tr, rfl, .inr rfl, hsave⟩
  · -- without a stored operation the update leaves the registry
    have hsame : r.adjust id (fun o => o.started 0) = r := by
      rw [Bool.not_eq_true, Option.isSome_eq_false_iff, Option.isNone_iff_eq_none] at hnone
      rw [RetryOperationRegistry.adjust, hnone]
    refine follows_saveOrRestore fun tr res r' hsave => ⟨0, [], tr, rfl, .inl rfl, ?_⟩
    rwa [hsame]

theorem finish_saves {id : String} {result : Except Error ResumeReceipt}
    {r r' : RetryOperationRegistry} {tr : List (Prog.Event Reply)}
    {res : Except Error (Option RetryOperation)} (h : (finish id result).Returns r tr res r') :
    (r.operations.lookup id = none ∧ tr = [] ∧ res = .ok none ∧ r' = r) ∨
    ∃ (now : Int) (save : List (Prog.Event Reply)) (o : RetryOperation)
        (saved : Except Error Unit),
      tr = ⟨.now, now⟩ :: save ∧ res = saved.map (fun _ => some o) ∧
        SaveRound r (r.adjust id fun o => o.ended result now) save saved r' := by
  refine Act.Follows.of_history (Q := fun tr res r' =>
    (r.operations.lookup id = none ∧ tr = [] ∧ res = .ok none ∧ r' = r) ∨
    ∃ (now : Int) (save : List (Prog.Event Reply)) (o : RetryOperation)
        (saved : Except Error Unit),
      tr = ⟨.now, now⟩ :: save ∧ res = saved.map (fun _ => some o) ∧
        SaveRound r (r.adjust id fun o => o.ended result now) save saved r') ?_ h
  simp only [finish, Act.bind_eq, Act.pure_eq, perform, Act.follows_andThen, Act.follows_get]
  split
  · rename_i hnone
    exact .inl ⟨hnone, rfl, rfl, rfl⟩
  · rename_i o _
    simp only [Act.follows_andThen, Act.follows_perform, Act.follows_modify, Monitor.history,
      true_and, List.nil_append]
    refine fun now => follows_saveOrRestore fun tr saved r' hsave => ?_
    cases saved <;> exact .inr ⟨now, tr, o.ended result now, _, rfl, rfl, hsave⟩

theorem rollback_saves {id : String} {r r' : RetryOperationRegistry}
    {tr : List (Prog.Event Reply)} {res : Except Error Unit}
    (h : (rollback id).Returns r tr res r') : SaveRound r (r.discard id) tr res r' := by
  refine Act.Follows.of_history (Q := fun tr res r' => SaveRound r (r.discard id) tr res r') ?_ h
  simp only [rollback, Act.bind_eq, Act.follows_andThen, Act.follows_get, Act.follows_modify]
  exact follows_saveOrRestore fun tr res r' hsave => hsave

theorem setRunning_round {id : String} {r r' : RetryOperationRegistry}
    {tr : List (Prog.Event Reply)} {res : Except Error Unit}
    (h : (setRunning id).Returns r tr res r') : AdjustRound id r tr r' := by
  obtain ⟨now, clock, save, rfl, hclock, hsave⟩ := setRunning_saves h
  refine .adjusted ?_ (fun o => o.started_identity now) hsave
  exact hclock.imp_right fun hnow => ⟨now, hnow⟩

theorem finish_round {id : String} {result : Except Error ResumeReceipt}
    {r r' : RetryOperationRegistry} {tr : List (Prog.Event Reply)}
    {res : Except Error (Option RetryOperation)} (h : (finish id result).Returns r tr res r') :
    AdjustRound id r tr r' := by
  rcases finish_saves h with ⟨_, rfl, _, rfl⟩ | ⟨now, save, _, saved, rfl, _, hsave⟩
  · exact .unchanged
  · have hadjusted : AdjustRound id r ([⟨.now, now⟩] ++ save) r' :=
      .adjusted (.inr ⟨now, rfl⟩) (fun o => o.ended_identity result now) hsave
    exact hadjusted

theorem findRequest_round {session : SessionRef} {requestKey : String}
    {r r' : RetryOperationRegistry} {tr : List (Prog.Event Reply)}
    {res : Except Error (Option RetryOperation)}
    (h : (findRequest session requestKey).Returns r tr res r') :
    r' = r ∧ ∃ order : Arrangement r.operations.values,
      tr = [⟨.operationOrder r.operations.values, order⟩] ∧
        res = RetryOperationRegistry.findRequest order.1 session requestKey := by
  refine Act.Follows.of_history (Q := fun tr res r' => r' = r ∧
    ∃ order : Arrangement r.operations.values,
      tr = [⟨.operationOrder r.operations.values, order⟩] ∧
        res = RetryOperationRegistry.findRequest order.1 session requestKey) ?_ h
  simp only [findRequest, Act.bind_eq, perform, Act.follows_andThen, Act.follows_get,
    Act.follows_perform, Act.follows_ofExcept, Monitor.history, true_and, List.nil_append]
  exact fun order => ⟨order, rfl, rfl⟩

/-- The operation as it is found again: active ones are interrupted. -/
inductive Restored (o : RetryOperation) : RetryOperation → Prop
  | settled (h : o.status.isActive = false) : Restored o o
  | interrupted (h : o.status.isActive = true) (now : Int) : Restored o (o.interrupted now)

theorem Restored.settled_after {o o' : RetryOperation} (h : Restored o o') :
    o'.status.isActive = false := by
  cases h with
  | settled hsettled => exact hsettled
  | interrupted _ _ => rfl

/-- What is found was stored. -/
theorem Restored.of_mem {ops found : List RetryOperation} (h : List.Forall₂ Restored ops found)
    {o' : RetryOperation} (ho' : o' ∈ found) : ∃ o ∈ ops, Restored o o' := by
  induction h with
  | nil => exact absurd ho' List.not_mem_nil
  | @cons o p _ _ ho _ ih =>
    rcases List.mem_cons.mp ho' with rfl | ho'
    · exact ⟨o, List.mem_cons_self, ho⟩
    · obtain ⟨q, hq, hrestored⟩ := ih ho'
      exact ⟨q, List.mem_cons_of_mem _ hq, hrestored⟩

/-- The loop of a load stores the operations in turn. -/
theorem loadLoop_returns {ops : List RetryOperation} {r r' : RetryOperationRegistry}
    {tr : List (Prog.Event Reply)} {res : Except Error Unit}
    (h : (Act.forEach loadOperation ops).Returns r tr res r') :
    res = .ok () ∧ (∀ e ∈ tr, e.1 = Call.now) ∧
      ∃ restored, List.Forall₂ Restored ops restored ∧ r' = restored.foldl store r := by
  induction ops generalizing r tr with
  | nil =>
    obtain ⟨rfl, heq⟩ := h
    obtain ⟨rfl, rfl⟩ := Prod.mk.inj heq
    exact ⟨rfl, fun e he => absurd he List.not_mem_nil, [], .nil, rfl⟩
  | cons o ops ih =>
    have hfirst : ∀ {first : List (Prog.Event Reply)} {res : Except Error Unit}
        {mid : RetryOperationRegistry}, (loadOperation o).Returns r first res mid →
        res = .ok () ∧ (∀ e ∈ first, e.1 = Call.now) ∧ ∃ o', Restored o o' ∧ mid = r.store o' := by
      intro first res mid hr
      refine Act.Follows.of_history (Q := fun first res mid => res = .ok () ∧
        (∀ e ∈ first, e.1 = Call.now) ∧ ∃ o', Restored o o' ∧ mid = r.store o') ?_ hr
      simp only [loadOperation, Act.bind_eq, perform, Act.follows_ite, Act.follows_andThen,
        Act.follows_perform, Act.follows_modify, Monitor.history, true_and, List.nil_append]
      refine ⟨fun hactive now => ⟨by simp, _, .interrupted hactive now, rfl⟩,
        fun hsettled => ⟨by simp, o, .settled (Bool.eq_false_iff.mpr hsettled), rfl⟩⟩
    rw [Act.forEach, Act.returns_andThen] at h
    rcases h with ⟨e, _, hr⟩ | ⟨first, second, _, mid, rfl, hr, hrest⟩
    · cases (hfirst hr).1
    · obtain ⟨_, hquiet, o', ho', rfl⟩ := hfirst hr
      obtain ⟨hres, hquiet', restored, hrestored, rfl⟩ := ih hrest
      refine ⟨hres, fun e he => ?_, o' :: restored, .cons ho' hrestored, rfl⟩
      rcases List.mem_append.mp he with he | he
      · exact hquiet e he
      · exact hquiet' e he

/-- How a load can succeed: there is no file, or its operations are found again. -/
inductive LoadRound : List (Prog.Event Reply) → RetryOperationRegistry → Prop
  | created {tr : List (Prog.Event Reply)} {r' : RetryOperationRegistry}
      (hsave : SaveRound {} {} tr (.ok ()) r') :
      LoadRound (⟨.readOperations, .ok none⟩ :: tr) r'
  | loaded {document : RetryOperationDocument} {clock tr : List (Prog.Event Reply)}
      {restored : List RetryOperation} {r r' : RetryOperationRegistry}
      (hversion : document.version = 1) (hclock : ∀ e ∈ clock, e.1 = Call.now)
      (hrestored : List.Forall₂ Restored document.operations restored)
      (hr : r = restored.foldl store {}) (hsave : SaveRound r r tr (.ok ()) r') :
      LoadRound (⟨.readOperations, .ok (some document)⟩ :: (clock ++ tr)) r'

/-- How a load can fail: the file cannot be read, is of another version, or cannot be written. -/
inductive LoadFailure : List (Prog.Event Reply) → Prop
  | unread {e : Error} : LoadFailure [⟨.readOperations, .error e⟩]
  | unsupported {document : RetryOperationDocument} (hversion : document.version ≠ 1) :
      LoadFailure [⟨.readOperations, .ok (some document)⟩]
  | unsaved {content : Option RetryOperationDocument} {clock tr : List (Prog.Event Reply)}
      {r r' : RetryOperationRegistry} {e : Error} (hclock : ∀ e ∈ clock, e.1 = Call.now)
      (hsave : SaveRound r r tr (.error e) r') :
      LoadFailure (⟨.readOperations, .ok content⟩ :: (clock ++ tr))

theorem loadOperations_cases {r' : RetryOperationRegistry} {tr : List (Prog.Event Reply)}
    {res : Except Error Unit} (h : loadOperations.Returns {} tr res r') :
    (res = .ok () ∧ LoadRound tr r') ∨ ((∃ e, res = .error e) ∧ LoadFailure tr) := by
  refine Act.Follows.of_history (Q := fun tr res r' =>
    (res = .ok () ∧ LoadRound tr r') ∨ ((∃ e, res = .error e) ∧ LoadFailure tr)) ?_ h
  simp only [loadOperations, Act.bind_eq, perform, Act.follows_andThen, Act.follows_perform,
    Act.follows_ofExcept, Monitor.history, true_and, List.nil_append]
  intro content
  cases content with
  | error e => exact .inr ⟨⟨e, rfl⟩, .unread⟩
  | ok content =>
    cases content with
    | none =>
      refine follows_saveOperations fun tr res r' hsave => ?_
      cases res with
      | ok _ => exact .inl ⟨rfl, .created hsave⟩
      | error e =>
        have hunsaved : LoadFailure (⟨.readOperations, .ok none⟩ :: ([] ++ tr)) :=
          .unsaved (fun _ he => absurd he List.not_mem_nil) hsave
        exact .inr ⟨⟨e, rfl⟩, hunsaved⟩
    | some document =>
      simp only [Act.follows_andThen, Act.follows_ite, Act.follows_fail]
      refine ⟨fun hversion => .inr ⟨⟨_, rfl⟩, .unsupported hversion⟩, fun hversion => ?_⟩
      refine Act.follows_history.mpr fun clock res mid hloop => ?_
      obtain ⟨rfl, hclock, restored, hrestored, rfl⟩ := loadLoop_returns hloop
      refine follows_saveOperations fun tr res r' hsave => ?_
      cases res with
      | ok _ => exact .inl ⟨rfl, .loaded (not_not.mp hversion) hclock hrestored rfl hsave⟩
      | error e => exact .inr ⟨⟨e, rfl⟩, .unsaved hclock hsave⟩

theorem loadOperations_round {r' : RetryOperationRegistry} {tr : List (Prog.Event Reply)}
    (h : loadOperations.Returns {} tr (.ok ()) r') : LoadRound tr r' := by
  rcases loadOperations_cases h with ⟨_, hround⟩ | ⟨⟨e, he⟩, _⟩
  · exact hround
  · cases he

theorem mem_of_lookup_foldl_store {ops : List RetryOperation} {r : RetryOperationRegistry}
    {id : String} {o : RetryOperation}
    (h : (ops.foldl store r).operations.lookup id = some o) :
    o ∈ ops ∨ r.operations.lookup id = some o := by
  induction ops generalizing r with
  | nil => exact Or.inr h
  | cons p ops ih =>
    rcases ih h with hmem | hbefore
    · exact Or.inl (List.mem_cons_of_mem p hmem)
    · have hinsert : (r.operations.insert p.operationId p).lookup id = some o := hbefore
      rw [Table.lookup_insert] at hinsert
      split at hinsert
      · cases hinsert
        exact Or.inl List.mem_cons_self
      · exact Or.inr hinsert

/-- After a load no operation is active. -/
theorem LoadRound.settled {tr : List (Prog.Event Reply)} {r' : RetryOperationRegistry}
    (h : LoadRound tr r') {id : String} {o : RetryOperation}
    (ho : r'.operations.lookup id = some o) : o.status.isActive = false := by
  cases h with
  | created hsave =>
    cases hsave with
    | saved _ => cases ho
  | loaded _ _ hrestored heq hsave =>
    cases hsave with
    | saved _ =>
      subst heq
      rcases mem_of_lookup_foldl_store ho with hmem | hnone
      · obtain ⟨p, _, hp⟩ := Restored.of_mem hrestored hmem
        exact hp.settled_after
      · cases hnone

end Watchcat
