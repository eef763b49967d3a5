import Watchcat.Daemon.Effects

/-!
# The revision over a section of the daemon

A method behind the daemon's lock leaves the revision or makes it the next one,
whatever its calls are answered.
-/

namespace Watchcat

open Watchcat.Core Method

variable {σ α : Type}

/-! ## The revision in a section -/

/-- The revision stays. -/
def Steady (d d' : WatchcatDaemon) : Prop := d'.controlState = d.controlState

/-- The revision stays or becomes the next one. -/
def Advances (d d' : WatchcatDaemon) : Prop :=
  Steady d d' ∨ d'.controlState = d.controlState.next

theorem Steady.advances {d d' : WatchcatDaemon} (h : Steady d d') : Advances d d' := .inl h

theorem Steady.refl (d : WatchcatDaemon) : Steady d d := rfl

theorem Steady.revision {d d' : WatchcatDaemon} (h : Steady d d') : d'.revision = d.revision :=
  congrArg ControlState.revision h

/-- A machine revision does not fall. -/
theorem Advances.revision {d d' : WatchcatDaemon} (h : Advances d d')
    (hbound : d.revision ≤ u64Max) : d.revision ≤ d'.revision ∧ d'.revision ≤ u64Max := by
  rcases h with h | h
  · rw [h.revision]
    exact ⟨le_refl _, hbound⟩
  · have hnext : d'.revision = max (min (d.revision + 1) u64Max) 1 :=
      congrArg ControlState.revision h
    have hpos : 1 ≤ u64Max := by decide
    omega

theorem steady_andThen {β : Type} {m : Method WatchcatDaemon α} {f : α → Method WatchcatDaemon β}
    (hm : m.Moves Steady) (hf : ∀ a, (f a).Moves Steady) : (Act.andThen m f).Moves Steady :=
  hm.andThen hf (fun h => h) fun h h' => h'.trans h

theorem Steady.andThen_advances {d d' d'' : WatchcatDaemon} (h : Steady d d')
    (h' : Advances d' d'') : Advances d d'' := by
  rcases h' with h' | h'
  · exact .inl (h'.trans h)
  · exact .inr (h'.trans (congrArg ControlState.next h))

theorem Advances.andThen_steady {d d' d'' : WatchcatDaemon} (h : Advances d d')
    (h' : Steady d' d'') : Advances d d'' := by
  rcases h with h | h
  · exact .inl (h'.trans h)
  · exact .inr (h'.trans h)

theorem steady_then_advances {β : Type} {m : Method WatchcatDaemon α}
    {f : α → Method WatchcatDaemon β} (hm : m.Moves Steady) (hf : ∀ a, (f a).Moves Advances) :
    (Act.andThen m f).Moves Advances :=
  hm.andThen hf Steady.advances Steady.andThen_advances

theorem advances_then_steady {β : Type} {m : Method WatchcatDaemon α}
    {f : α → Method WatchcatDaemon β} (hm : m.Moves Advances) (hf : ∀ a, (f a).Moves Steady) :
    (Act.andThen m f).Moves Advances :=
  hm.andThen hf (fun h => h) Advances.andThen_steady

theorem steady_perform (op : Call) :
    (perform op : Method WatchcatDaemon (Reply op)).Moves Steady :=
  Act.moves_perform Steady.refl op

theorem steady_ofExcept (r : Except Error α) :
    (Act.ofExcept r : Method WatchcatDaemon α).Moves Steady :=
  Act.moves_ofExcept Steady.refl r

theorem steady_ret (a : α) : (Act.ret a : Method WatchcatDaemon α).Moves Steady :=
  Act.moves_ret Steady.refl a

theorem steady_fail (e : Error) : (Act.fail e : Method WatchcatDaemon α).Moves Steady :=
  Act.moves_fail Steady.refl e

theorem steady_get : (Act.get : Method WatchcatDaemon WatchcatDaemon).Moves Steady :=
  Act.moves_get Steady.refl

theorem steady_loadWatchlist : (loadWatchlist : Method WatchcatDaemon _).Moves Steady :=
  steady_andThen (steady_perform _) fun _ => steady_andThen (steady_ofExcept _) fun _ =>
    Act.moves_ite (steady_fail _) (steady_ret _)

theorem steady_listTargets : (listTargets : Method WatchcatDaemon _).Moves Steady :=
  steady_andThen steady_loadWatchlist fun _ => steady_ret _

theorem steady_addTarget (target : WatchTarget) :
    (addTarget target : Method WatchcatDaemon Bool).Moves Steady :=
  steady_andThen steady_loadWatchlist fun _ => steady_andThen (steady_perform _) fun _ =>
    steady_andThen (steady_ofExcept _) fun _ => steady_ret _

theorem steady_removeTarget (key : String) :
    (removeTarget key : Method WatchcatDaemon Bool).Moves Steady :=
  steady_andThen steady_loadWatchlist fun _ => steady_andThen (steady_perform _) fun _ =>
    steady_andThen (steady_ofExcept _) fun _ => steady_ret _

theorem steady_updateRecoveryPermit (targets : List WatchTarget) :
    (updateRecoveryPermit targets).Moves Steady :=
  steady_andThen steady_get fun _ => steady_perform _

theorem steady_checkRevision (request : RpcRequest) : (checkRevision request).Moves Steady := by
  refine steady_andThen steady_get fun d => ?_
  split
  · exact steady_ret _
  · exact Act.moves_ite (steady_fail _) (steady_ret _)

theorem advances_bumpRevision : bumpRevision.Moves Advances := by
  refine steady_then_advances steady_listTargets fun targets => ?_
  refine advances_then_steady (fun g d => ?_) fun _ => steady_updateRecoveryPermit targets
  simp only [nextRevision, perform, Act.bind_eq, Act.pure_eq, Act.follows_zoom, Act.follows_andThen,
    Act.follows_get, Act.follows_modify, Act.follows_perform]
  refine ⟨trivial, fun r => ?_⟩
  cases r with
  | error e => exact .inl rfl
  | ok _ => exact .inr rfl

theorem advances_storeSettings (settings : Settings) (configure : Bool) :
    (storeSettings settings configure).Moves Advances := by
  have hend : (do
      let modified ← perform .configModified
      Act.modify fun d => { d with settings := settings, configModified := modified }
      : Method WatchcatDaemon Unit).Moves Steady :=
    steady_andThen (steady_perform _) fun _ => Act.moves_modify fun _ => rfl
  refine advances_then_steady advances_bumpRevision fun _ => ?_
  refine steady_andThen (steady_andThen (steady_ofExcept _) fun _ =>
    steady_andThen (steady_perform _) fun _ => steady_ofExcept _) fun _ => ?_
  exact Act.moves_ite (steady_andThen (steady_perform _) fun _ => hend) hend

/-! ## Control requests -/

theorem advances_addSession (request : RpcRequest) : (addSession request).Moves Advances := by
  refine steady_then_advances (steady_checkRevision request) fun _ =>
    steady_then_advances (steady_ofExcept _) fun add =>
      Act.moves_ite ((steady_fail _).mono Steady.advances) ?_
  refine steady_then_advances (steady_perform _) fun now =>
    advances_then_steady advances_bumpRevision fun _ => ?_
  exact steady_andThen (steady_addTarget _) fun _ => steady_andThen steady_listTargets fun _ =>
    steady_andThen (steady_updateRecoveryPermit _) fun _ => steady_ret _

theorem advances_removeSession (request : RpcRequest) :
    (removeSession request).Moves Advances := by
  refine steady_then_advances (steady_checkRevision request) fun _ =>
    steady_then_advances (steady_ofExcept _) fun session =>
      advances_then_steady advances_bumpRevision fun _ => ?_
  exact steady_andThen (steady_removeTarget _) fun _ => steady_andThen steady_listTargets fun _ =>
    steady_andThen (steady_updateRecoveryPermit _) fun _ => steady_ret _

theorem advances_store_ret (settings : Settings) (configure : Bool) (result : RpcResult) :
    (do
      storeSettings settings configure
      return result : Method WatchcatDaemon RpcResult).Moves Advances :=
  advances_then_steady (advances_storeSettings settings configure) fun _ => steady_ret _

theorem advances_setPolicy (request : RpcRequest) : (setPolicy request).Moves Advances :=
  steady_then_advances (steady_checkRevision request) fun _ =>
    steady_then_advances (steady_ofExcept _) fun _ =>
      Act.moves_ite ((steady_fail _).mono Steady.advances)
        (steady_then_advances steady_get fun _ => advances_store_ret _ _ _)

theorem advances_resetPolicies (request : RpcRequest) :
    (resetPolicies request).Moves Advances := by
  refine steady_then_advances (steady_checkRevision request) fun _ =>
    steady_then_advances steady_get fun d => ?_
  dsimp only
  split
  · rename_i condition _
    by_cases hknown : (!isKnown condition) = true
    · rw [if_pos hknown]
      exact (steady_andThen (steady_fail _) fun _ => steady_ret _).mono Steady.advances
    · rw [if_neg hknown]
      exact advances_store_ret _ _ _
  · exact advances_store_ret _ _ _

theorem advances_setDialogs (request : RpcRequest) : (setDialogs request).Moves Advances :=
  steady_then_advances (steady_checkRevision request) fun _ =>
    steady_then_advances (steady_ofExcept _) fun _ => steady_then_advances steady_get fun _ =>
      steady_then_advances (steady_ofExcept _) fun _ => advances_store_ret _ _ _

theorem advances_setLifecycle (request : RpcRequest) : (setLifecycle request).Moves Advances :=
  steady_then_advances (steady_checkRevision request) fun _ =>
    steady_then_advances (steady_ofExcept _) fun _ => steady_then_advances steady_get fun _ =>
      steady_then_advances (steady_ofExcept _) fun _ => advances_store_ret _ _ _

theorem steady_snapshot : snapshot.Moves Steady :=
  steady_andThen steady_listTargets fun _ => steady_andThen (steady_perform _) fun _ =>
    steady_andThen steady_get fun _ => steady_ret _

theorem steady_listSessions (params : Value) : (listSessions params).Moves Steady :=
  steady_andThen (steady_ofExcept _) fun _ => Act.moves_ite (steady_fail _)
    (steady_andThen steady_listTargets fun _ => steady_ret _)

/-- The revision stays, or the request is a mutation and it becomes the next one. -/
def Mutates (request : RpcRequest) (d d' : WatchcatDaemon) : Prop :=
  Steady d d' ∨ isMutation request.method = true ∧ Advances d d'

theorem Steady.mutates {request : RpcRequest} {d d' : WatchcatDaemon} (h : Steady d d') :
    Mutates request d d' := .inl h

theorem mutates_dispatchControl (request : RpcRequest) :
    (dispatchControl request).Moves (Mutates request) := by
  have hmutation : ∀ {m : Method WatchcatDaemon RpcResult}, isMutation request.method = true →
      m.Moves Advances → m.Moves (Mutates request) :=
    fun h hm => hm.mono fun hd => .inr ⟨h, hd⟩
  unfold dispatchControl
  split <;> rename_i hm
  · exact (steady_ret _).mono Steady.mutates
  · exact (steady_andThen steady_snapshot fun _ => steady_ret _).mono Steady.mutates
  · exact (steady_listSessions _).mono Steady.mutates
  · exact hmutation (by rw [hm]; rfl) (advances_addSession request)
  · exact hmutation (by rw [hm]; rfl) (advances_removeSession request)
  · exact (steady_andThen steady_get fun _ => steady_ret _).mono Steady.mutates
  · exact hmutation (by rw [hm]; rfl) (advances_setPolicy request)
  · exact hmutation (by rw [hm]; rfl) (advances_resetPolicies request)
  · exact hmutation (by rw [hm]; rfl) (advances_setDialogs request)
  · exact (steady_andThen steady_get fun _ => steady_ret _).mono Steady.mutates
  · exact hmutation (by rw [hm]; rfl) (advances_setLifecycle request)
  · exact (steady_fail _).mono Steady.mutates

/-- A control request is answered with the revision it leaves. -/
theorem handleControl_revision {request : RpcRequest} {d d' : WatchcatDaemon}
    {tr : List (Prog.Event Reply)} {res : Except Error RpcResponse}
    (h : (handleControl request).Returns d tr res d') :
    Mutates request d d' ∧ ∃ response, res = .ok response ∧ response.revision = d'.revision := by
  have hfollows : (handleControl request).Follows (Monitor.history Reply) [] d fun _ res d' =>
      Mutates request d d' ∧ ∃ response, res = .ok response ∧ response.revision = d'.revision := by
    refine Act.follows_ite.mpr ⟨fun _ => ⟨.inl rfl, _, rfl, rfl⟩, fun _ => ?_⟩
    refine Act.follows_andThen.mpr (Act.follows_attempt.mpr ?_)
    refine (mutates_dispatchControl request [] d).mono fun _ r d' hd => ?_
    cases r with
    | ok result => exact ⟨hd, _, rfl, rfl⟩
    | error e => exact ⟨hd, _, rfl, rfl⟩
  exact hfollows.of_history h

/-! ## Cycles -/

theorem advances_commitReconcile (engine : WatchEngine) (plan : ReconcilePlan)
    (outcome : ReconcileOutcome) : (commitReconcile engine plan outcome).Moves Advances := by
  refine steady_then_advances steady_get fun d =>
    Act.moves_ite ((steady_ret _).mono Steady.advances) ?_
  refine steady_then_advances (steady_perform _) fun _ =>
    Act.moves_ite ((steady_ret _).mono Steady.advances) ?_
  have hreconcile : ∀ now stale keys,
      (reconcileTargets outcome.sessions now stale keys : Method WatchcatDaemon _).Moves Steady :=
    fun _ _ _ => steady_andThen steady_loadWatchlist fun _ =>
      steady_andThen (steady_ofExcept _) fun _ => Act.moves_ite
      (steady_andThen (steady_perform _) fun _ => steady_andThen (steady_ofExcept _) fun _ =>
        steady_ret _) (steady_ret _)
  refine steady_then_advances steady_get fun _ =>
    steady_then_advances (hreconcile _ _ _) fun targets =>
      steady_then_advances (steady_updateRecoveryPermit targets) fun _ => ?_
  have hend : (do
      updateRecoveryPermit targets
      Act.modify fun d => d.observe (engine.replaceTargets targets) targets plan.now
      return engine.replaceTargets targets : Method WatchcatDaemon WatchEngine).Moves Steady :=
    steady_andThen (steady_updateRecoveryPermit targets) fun _ =>
      steady_andThen (Act.moves_modify fun _ => rfl) fun _ => steady_ret _
  exact Act.moves_ite (advances_then_steady advances_bumpRevision fun _ => hend)
    (hend.mono Steady.advances)

end Watchcat
