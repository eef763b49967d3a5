import Watchcat.Daemon.Reconcile
import Watchcat.Engine.Runs

/-!
# The pass of a reconcile cycle

Discovery cannot fail as a whole, only panic: it leaves the runtime state as it
was and puts the settings of the plan into force. A cycle is this preparation and
one pass.
-/

namespace Watchcat

open Watchcat.Core Method

/-- The discovery of a cycle, and the targets it leaves. -/
def discoverTargets (plan : ReconcilePlan) (order : List String) :
    Method WatchEngine Discovery := do
  let discovery ← discoverSessions plan order
  replaceWatchTargets
    (← orPanic (plan.liveTargets discovery.sessions discovery.lifecycleProtected))
  return discovery

/-- What `reconcile_engine` does before its pass. -/
def prepareEngine (plan : ReconcilePlan) : Method WatchEngine Discovery := do
  replaceSettings plan.settings
  let names := (plan.providers (← Act.get).pendingProviderNames).sort (· ≤ ·)
  let order ← perform (.providerOrder names)
  discoverTargets plan order.1

/-- A cycle is its preparation, the pass and the outcome. -/
theorem reconcileEngine_eq (plan : ReconcilePlan) :
    reconcileEngine plan = Act.andThen (prepareEngine plan) fun discovery =>
      Act.andThen (onPass (runOnceAuthorized plan.now plan.revision)) fun events =>
        Act.ret ⟨events, discovery.sessions, discovery.lifecycleProtected⟩ := by
  simp only [reconcileEngine, prepareEngine, discoverTargets, Act.bind_eq, Act.pure_eq,
    Act.andThen_assoc, Act.ret_andThen]

/-- The settings and the runtime state are as before. -/
def Retains (e e' : WatchEngine) : Prop := e'.settings = e.settings ∧ e'.state = e.state

theorem Retains.refl (e : WatchEngine) : Retains e e := ⟨rfl, rfl⟩

theorem Retains.trans {e mid e' : WatchEngine} (h : Retains e mid) (h' : Retains mid e') :
    Retains e e' := ⟨h'.1.trans h.1, h'.2.trans h.2⟩

/-! ## The preparation -/

theorem closeEngine_follows (h : List (Prog.Event Reply)) (e : WatchEngine) :
    closeEngine.Follows (Monitor.history Reply) h e fun _ r e' => r = .ok () ∧ e' = e := by
  simp only [closeEngine, Act.bind_eq, perform, Act.follows_andThen, Act.follows_get,
    Act.follows_perform, Monitor.history, true_and]
  refine fun order => (Act.follows_forEach (I := fun _ e' => e' = e) (E := fun _ _ _ => False)
    ?_ rfl).mono ?_
  · intro name _ _ e' he
    simp only [Act.pure_eq, Act.follows_andThen, Act.follows_perform, Act.follows_ret]
    exact ⟨trivial, fun _ => he⟩
  · intro _ r e' hr
    cases r with
    | error e => exact hr.elim
    | ok _ => exact ⟨rfl, hr⟩

/-- New settings are put into force and the runtime state stays. -/
theorem replaceSettings_follows (settings : Settings) (h : List (Prog.Event Reply))
    (e : WatchEngine) :
    (replaceSettings settings).Follows (Monitor.history Reply) h e fun _ r e' =>
      r = .ok () ∧ e'.settings = settings ∧ e'.state = e.state := by
  simp only [replaceSettings, Act.bind_eq, Act.follows_andThen, Act.follows_get,
    Act.follows_ite, Act.follows_modify]
  refine ⟨fun _ => (closeEngine_follows h e).mono ?_, fun _ => ⟨trivial, trivial, trivial⟩⟩
  rintro _ r e' ⟨rfl, rfl⟩
  exact ⟨trivial, trivial, rfl⟩

/-- Asking a provider, even one that has to be started first, keeps settings and state. -/
theorem retains_discovery (provider : String) (cutoff : Option Int) :
    (do ensureProvider provider
        recentSessions provider (← orPanic cutoff)
        : Method WatchEngine (List Session)).Moves Retains := by
  have hthen : ∀ {α β : Type} {m : Method WatchEngine α} {f : α → Method WatchEngine β},
      m.Moves Retains → (∀ a, (f a).Moves Retains) → (Act.andThen m f).Moves Retains :=
    fun hm hf => Act.Moves.andThen hm hf (fun h => h) Retains.trans
  have hcall : ∀ op, (perform op : Method WatchEngine _).Moves Retains :=
    Act.moves_perform Retains.refl
  have hfail : ∀ {α : Type} (e : Error), (Act.fail e : Method WatchEngine α).Moves Retains :=
    fun e => Act.moves_fail Retains.refl e
  have hresult : ∀ {α : Type} (r : Except Error α),
      (Act.ofExcept r : Method WatchEngine α).Moves Retains := Act.moves_ofExcept Retains.refl
  have hget : (Act.get : Method WatchEngine WatchEngine).Moves Retains :=
    Act.moves_get Retains.refl
  have hbuild : ∀ settings, (buildProvider settings provider :
      Method WatchEngine Unit).Moves Retains := fun settings => by
    refine Act.moves_ite (Act.moves_ite (hthen (hcall _) hresult) (hfail _)) ?_
    exact Act.moves_ite (Act.moves_ite (hthen (hcall _) hresult) (hfail _)) (hfail _)
  have hensure : (ensureProvider provider).Moves Retains := by
    refine hthen hget fun e => Act.moves_ite (Act.moves_ret Retains.refl _) ?_
    refine hthen (hbuild _) fun _ => hthen (hcall _) fun r => hthen (hresult r) fun _ => ?_
    exact Act.moves_modify fun e => ⟨rfl, rfl⟩
  refine hthen hensure fun _ => hthen (hresult _) fun _ => hthen hget fun e => ?_
  exact Act.moves_ite (hfail _) (hthen (hcall _) hresult)

/-- The method has done its work or panicked. -/
def DoneOrPanicked {α : Type} (r : Except Error α) : Prop :=
  (∃ a, r = .ok a) ∨ r = .error .panicked

/-- A round of the discovery loop does not fail. -/
theorem discoverProvider_follows (targets : List WatchTarget) (cutoff : Option Int)
    (provider : String) (h : List (Prog.Event Reply)) (d : Discovery) :
    (discoverProvider targets cutoff provider).Follows (Monitor.history Reply) h d
      fun _ r d' => DoneOrPanicked r ∧ Retains d.engine d'.engine := by
  rw [discoverProvider, Act.bind_eq, Act.follows_andThen, attempted, Act.follows_attemptUnless,
    Act.follows_zoom]
  refine (retains_discovery provider cutoff h d.engine).mono fun _ r e hr => ?_
  refine ⟨fun _ _ => ⟨.inl ⟨_, rfl⟩, hr⟩, fun error _ => ?_⟩
  cases error with
  | panicked => exact ⟨.inr rfl, hr⟩
  | _ => exact ⟨.inl ⟨_, rfl⟩, hr⟩

theorem discoverSessions_follows (plan : ReconcilePlan) (order : List String)
    (h : List (Prog.Event Reply)) (e : WatchEngine) :
    (discoverSessions plan order).Follows (Monitor.history Reply) h e
      fun _ r e' => DoneOrPanicked r ∧ Retains e e' := by
  rw [discoverSessions, Act.follows_zoom, Act.bind_eq, Act.follows_andThen]
  refine (Act.follows_forEach (I := fun _ d => Retains e d.engine)
    (E := fun _ error d => error = .panicked ∧ Retains e d.engine) ?_ (Retains.refl e)).mono ?_
  · intro provider _ g d hd
    refine (discoverProvider_follows plan.targets plan.cutoff provider g d).mono ?_
    rintro _ r d' ⟨⟨_, rfl⟩ | rfl, hr⟩
    · exact hd.trans hr
    · exact ⟨rfl, hd.trans hr⟩
  · intro g r d hr
    cases r with
    | error _ => exact ⟨.inr (congrArg Except.error hr.1), hr.2⟩
    | ok _ => exact ⟨.inl ⟨d, rfl⟩, hr⟩

/-- The preparation ends with the settings of the plan and the same runtime state. -/
theorem prepareEngine_follows (plan : ReconcilePlan) (h : List (Prog.Event Reply))
    (e : WatchEngine) :
    (prepareEngine plan).Follows (Monitor.history Reply) h e fun _ r e' =>
      DoneOrPanicked r ∧ e'.settings = plan.settings ∧ e'.state = e.state := by
  rw [prepareEngine, Act.bind_eq, Act.follows_andThen]
  refine (replaceSettings_follows plan.settings h e).mono ?_
  rintro _ r e₁ ⟨rfl, hsettings, hstate⟩
  simp only [discoverTargets, Act.bind_eq, Act.pure_eq, perform, Act.follows_andThen,
    Act.follows_get, Act.follows_perform, follows_orPanic, Monitor.history, true_and]
  refine fun order => (discoverSessions_follows plan order.1 _ e₁).mono ?_
  rintro _ r e₂ ⟨⟨discovery, rfl⟩ | rfl, hkept⟩
  · have hend := And.intro (hkept.1.trans hsettings) (hkept.2.trans hstate)
    exact ⟨fun _ => ⟨.inr rfl, hend⟩, fun live _ => ⟨.inl ⟨discovery, rfl⟩, hend⟩⟩
  · exact ⟨.inr rfl, hkept.1.trans hsettings, hkept.2.trans hstate⟩

/-- The preparation asks the providers in any order. -/
theorem prepareEngine_returns {plan : ReconcilePlan} {e mid e' : WatchEngine}
    {tr tr' : List (Prog.Event Reply)} {r : Except Error Discovery}
    (hsettings : (replaceSettings plan.settings).Returns e tr (.ok ()) mid)
    (order : Arrangement ((plan.providers mid.pendingProviderNames).sort (· ≤ ·)))
    (hdiscover : (discoverTargets plan order.1).Returns mid tr' r e') :
    (prepareEngine plan).Returns e (tr ++ ⟨.providerOrder _, order⟩ :: tr') r e' := by
  have hget : (Act.get : Method WatchEngine WatchEngine).Returns mid [] (.ok mid) mid := ⟨rfl, rfl⟩
  have horder : (perform (.providerOrder _) : Method WatchEngine _).Returns mid
      [⟨.providerOrder _, order⟩] (.ok order) mid := ⟨order, [], rfl, rfl, rfl⟩
  refine hsettings.andThen (hget.andThen ?_)
  simp only [Act.bind_eq]
  exact horder.andThen hdiscover

/-! ## The cycle -/

/-- The rounds of the pass of a reconcile cycle; there are none where it panics before. -/
inductive CycleRounds (plan : ReconcilePlan) (e : WatchEngine) :
    List (Prog.Event Reply) → List TargetRecord → Prop
  | intro {seen calls : List (Prog.Event Reply)} {discovery : Discovery} {e' : WatchEngine}
      {rounds : List TargetRecord} {p : Pass}
      (hseen : (prepareEngine plan).Returns e seen (.ok discovery) e')
      (hpass : PassRun plan.now plan.revision ⟨e', [], 0⟩ calls rounds p) :
      CycleRounds plan e (seen ++ calls) rounds
  | panicked {seen : List (Prog.Event Reply)} {e' : WatchEngine}
      (hseen : (prepareEngine plan).Returns e seen (.error .panicked) e') :
      CycleRounds plan e seen []

/-- Every reconcile cycle goes through the rounds of a pass: what holds of all `CycleRounds` holds
of `reconcile_engine`. -/
theorem reconcileEngine_rounds {plan : ReconcilePlan} {e e' : WatchEngine}
    {tr : List (Prog.Event Reply)} {r : Except Error ReconcileOutcome}
    (h : (reconcileEngine plan).Returns e tr r e') : ∃ rounds, CycleRounds plan e tr rounds := by
  refine Act.Follows.of_history (Q := fun tr _ _ => ∃ rounds, CycleRounds plan e tr rounds) ?_ h
  rw [reconcileEngine_eq, Act.follows_andThen]
  refine Act.follows_history.mpr fun seen r e₁ hseen => ?_
  obtain ⟨⟨discovery, rfl⟩ | rfl, _⟩ := (prepareEngine_follows plan [] e).of_history hseen
  rotate_left
  · exact ⟨[], .panicked hseen⟩
  rw [onPass]
  refine Act.follows_andThen.mpr (Act.follows_zoom.mpr ?_)
  refine Act.follows_history.mpr fun calls r p hpass => ?_
  obtain ⟨rounds, hrounds⟩ := runOnceAuthorized_run hpass
  have hcycle : CycleRounds plan e (seen ++ calls) rounds := .intro hseen hrounds
  cases r with
  | error _ => exact ⟨rounds, hcycle⟩
  | ok _ => exact ⟨rounds, hcycle⟩

/-- The pass of a cycle begins with the settings of the plan and the state before the cycle. -/
theorem CycleRounds.pass {plan : ReconcilePlan} {e : WatchEngine} {tr : List (Prog.Event Reply)}
    {rounds : List TargetRecord} (h : CycleRounds plan e tr rounds) :
    rounds = [] ∨ ∃ e' calls p, e'.settings = plan.settings ∧ e'.state = e.state ∧
      PassRun plan.now plan.revision ⟨e', [], 0⟩ calls rounds p := by
  cases h with
  | intro hseen hpass =>
    obtain ⟨_, hsettings, hstate⟩ := (prepareEngine_follows plan [] e).of_history hseen
    exact .inr ⟨_, _, _, hsettings, hstate, hpass⟩
  | panicked _ => exact .inl rfl

end Watchcat
