import Watchcat.Daemon.Effects

/-!
# A revision identifies the control state

Clients see the revision together with the watchlist and the active settings.
A control request stores the next revision before it changes one of these, and
changes nothing else where it stores none.
-/

namespace Watchcat

open Watchcat.Core Method

/-! ## Control requests -/

theorem unbumped_storeSettings_rest (settings : Settings) (configure : Bool) :
    Relates Unbumped (do
      saveSettings settings
      if configure then perform (.configureDialogs settings.dialogs)
      let modified ← perform .configModified
      Act.modify fun d => { d with settings := settings, configModified := modified }) := by
  have hsave : Relates Unbumped (saveSettings settings) := by
    have hwrite : Relates Unbumped (perform (.writeConfig settings)) :=
      relates_perform fun _ _ _ _ _ ⟨_, _, h⟩ => h ▸ ⟨rfl, rfl, rfl⟩
    exact unbumped_andThen ((kept_ofExcept _).mono Kept.unbumped) fun _ =>
      unbumped_andThen hwrite fun _ => (kept_ofExcept _).mono Kept.unbumped
  have hmodified : Relates Unbumped (perform .configModified) :=
    relates_perform fun _ _ _ _ _ ⟨_, _, h⟩ => h ▸ ⟨rfl, rfl, rfl⟩
  have hconfigure : Relates Unbumped (perform (.configureDialogs settings.dialogs)) :=
    relates_perform fun _ _ _ _ _ h => h ▸ ⟨rfl, rfl, rfl⟩
  have hstore : Relates Unbumped (do
      let modified ← perform .configModified
      Act.modify fun d => { d with settings := settings, configModified := modified }) :=
    unbumped_andThen hmodified fun _ _ _ _ =>
      Act.wp_modify.mpr ⟨rfl, rfl, rfl⟩
  exact unbumped_andThen hsave fun _ => relates_ite
    (unbumped_andThen hconfigure fun _ => hstore) hstore

theorem tied_storeSettings (settings : Settings) (configure : Bool) :
    Relates Tied (storeSettings settings configure) :=
  tied_bump_andThen (unbumped_storeSettings_rest settings configure)

theorem tied_storeSettings_andThen (settings : Settings) (configure : Bool) (r : RpcResult) :
    Relates Tied (do
      storeSettings settings configure
      return r) :=
  relates_andThen (tied_storeSettings settings configure) (fun _ => kept_ret r) (fun h => h)
    fun h h' => by
      rcases h with h | h
      · exact .inl (h.trans h')
      · exact .inr (h.trans h'.unbumped)

theorem tied_addSession (request : RpcRequest) : Relates Tied (addSession request) := by
  refine tied_andThen (kept_checkRevision request) fun _ =>
    tied_andThen (kept_ofExcept _) fun add =>
    relates_ite ((kept_fail _).mono .inl) ?_
  refine tied_andThen (kept_perform fun _ _ _ _ h => h) fun now => tied_bump_andThen ?_
  refine unbumped_andThen (fun t w d => wp_addTarget ⟨rfl, rfl, rfl⟩ fun _ => ⟨rfl, rfl, rfl⟩)
    fun added => Relates.mono ?_ Kept.unbumped
  exact kept_andThen kept_listTargets fun targets =>
    kept_andThen (kept_updateRecoveryPermit targets) fun _ => kept_ret _

theorem tied_removeSession (request : RpcRequest) : Relates Tied (removeSession request) := by
  refine tied_andThen (kept_checkRevision request) fun _ =>
    tied_andThen (kept_ofExcept _) fun session => tied_bump_andThen ?_
  refine unbumped_andThen (fun t w d => wp_removeTarget ⟨rfl, rfl, rfl⟩ fun _ => ⟨rfl, rfl, rfl⟩)
    fun removed => Relates.mono ?_ Kept.unbumped
  exact kept_andThen kept_listTargets fun targets =>
    kept_andThen (kept_updateRecoveryPermit targets) fun _ => kept_ret _

theorem tied_setPolicy (request : RpcRequest) : Relates Tied (setPolicy request) := by
  refine tied_andThen (kept_checkRevision request) fun _ => tied_andThen (kept_ofExcept _)
    fun update => relates_ite ((kept_fail _).mono .inl) (tied_andThen kept_get fun d => ?_)
  exact tied_storeSettings_andThen _ _ _

theorem tied_resetPolicies (request : RpcRequest) : Relates Tied (resetPolicies request) := by
  refine tied_andThen (kept_checkRevision request) fun _ => tied_andThen kept_get fun d => ?_
  dsimp only
  cases (request.params.get "condition").bind Value.asStr with
  | none => exact tied_storeSettings_andThen _ _ _
  | some condition =>
    dsimp only
    by_cases hknown : (!isKnown condition) = true
    · rw [if_pos hknown]
      exact tied_andThen (kept_fail _) fun _ => (kept_ret _).mono .inl
    · rw [if_neg hknown]
      exact tied_storeSettings_andThen _ _ _

theorem tied_setDialogs (request : RpcRequest) : Relates Tied (setDialogs request) := by
  refine tied_andThen (kept_checkRevision request) fun _ => tied_andThen (kept_ofExcept _)
    fun dialogs => tied_andThen kept_get fun d => tied_andThen (kept_ofExcept _) fun _ => ?_
  exact tied_storeSettings_andThen _ _ _

theorem tied_setLifecycle (request : RpcRequest) : Relates Tied (setLifecycle request) := by
  refine tied_andThen (kept_checkRevision request) fun _ => tied_andThen (kept_ofExcept _)
    fun lifecycle => tied_andThen kept_get fun d => tied_andThen (kept_ofExcept _) fun _ => ?_
  exact tied_storeSettings_andThen _ _ _

theorem kept_snapshot : Relates Kept snapshot :=
  kept_andThen kept_listTargets fun _ => kept_andThen (kept_perform fun _ _ _ _ h => h)
    fun _ => kept_andThen kept_get fun _ => kept_ret _

theorem kept_listSessions (params : Value) : Relates Kept (listSessions params) :=
  kept_andThen (kept_ofExcept _) fun _ => relates_ite (kept_fail _)
    (kept_andThen kept_listTargets fun _ => kept_ret _)

/-- A control request advances the revision or leaves alone what it stands for. -/
theorem tied_dispatchControl (request : RpcRequest) : Relates Tied (dispatchControl request) := by
  unfold dispatchControl
  split
  · exact (kept_ret _).mono .inl
  · exact (kept_andThen kept_snapshot fun _ => kept_ret _).mono .inl
  · exact (kept_listSessions _).mono .inl
  · exact tied_addSession request
  · exact tied_removeSession request
  · exact (kept_andThen kept_get fun _ => kept_ret _).mono .inl
  · exact tied_setPolicy request
  · exact tied_resetPolicies request
  · exact tied_setDialogs request
  · exact (kept_andThen kept_get fun _ => kept_ret _).mono .inl
  · exact tied_setLifecycle request
  · exact (kept_fail _).mono .inl

/-- A control request, answered or refused, whatever its files and providers answer, stores the
next revision or leaves the watchlist, the settings and the revision alone: who sees the revision
that was seen before sees the state that was seen with it. -/
theorem tied_handleControl (request : RpcRequest) : Relates Tied (handleControl request) := by
  refine relates_ite ((kept_andThen kept_get fun _ => kept_ret _).mono .inl) ?_
  refine relates_andThen (relates_attempt (tied_dispatchControl request))
    (fun answer => show Relates Kept _ from ?_) (fun h => h) fun h h' => ?_
  · cases answer with
    | ok result => exact kept_andThen kept_get fun _ => kept_ret _
    | error e => exact kept_andThen kept_get fun _ => kept_ret _
  · rcases h with h | h
    · exact .inl (h.trans h')
    · exact .inr (h.trans h'.unbumped)

end Watchcat
