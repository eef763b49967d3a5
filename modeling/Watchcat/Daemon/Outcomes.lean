import Watchcat.Daemon.Effects

/-!
# What a control request can do

The calls by which a request changes more than the revision: the files it
replaces, the window rules it puts in force, and the watchlist reads that fail.
Over all answers there are five outcomes.
-/

namespace Watchcat

open Watchcat.Core Method

/-! ## Effects -/

/-- The store accepts what was read of the watchlist. -/
def readable : Except Error (Option WatchlistDocument) → Bool
  | .ok found => (found.getD {}).version == 4
  | .error _ => false

/-- The calls that change more than the revision, and the watchlist reads that fail. -/
def isEffect : Prog.Event Reply → Bool
  | ⟨.writeWatchlist _, r⟩ => r.isOk
  | ⟨.readWatchlist, r⟩ => !readable r
  | ⟨.writeConfig _, r⟩ => r.isOk
  | ⟨.readConfig, _⟩ | ⟨.configModified, _⟩ | ⟨.configureDialogs _, _⟩ => true
  | _ => false

/-- The monitor of the effects. -/
def effects : Monitor Reply (List (Prog.Event Reply)) := .noting isEffect

variable {σ : Type} {fx : List (Prog.Event Reply)} {s : σ}

theorem effects_noted {f : List (Prog.Event Reply)} {e : Prog.Event Reply}
    (h : isEffect e = true) : effects.next f e.1 e.2 = f ++ [e] := if_pos h

theorem effects_quiet {f : List (Prog.Event Reply)} {e : Prog.Event Reply}
    (h : isEffect e = false) : effects.next f e.1 e.2 = f := if_neg (by simp [h])

/-- Nothing was done; a read of the watchlist may have failed. -/
def Stalled (fx fx' : List (Prog.Event Reply)) : Prop :=
  fx' = fx ∨ ∃ r, readable r = false ∧ fx' = fx ++ [⟨.readWatchlist, r⟩]

theorem Stalled.refl (fx : List (Prog.Event Reply)) : Stalled fx fx := .inl rfl

theorem follows_loadWatchlist
    {Q : List (Prog.Event Reply) → Except Error WatchlistDocument → σ → Prop}
    (hok : ∀ document, document.version = 4 → Q fx (.ok document) s)
    (herror : ∀ r e, readable r = false → Q (fx ++ [⟨.readWatchlist, r⟩]) (.error e) s) :
    loadWatchlist.Follows effects fx s Q := by
  simp only [loadWatchlist, perform, Act.bind_eq, Act.pure_eq, Act.follows_andThen,
    Act.follows_perform, Act.follows_ofExcept]
  refine ⟨trivial, fun r => ?_⟩
  cases r with
  | error e => exact herror (.error e) e rfl
  | ok found =>
    refine Act.follows_ite.mpr ⟨fun hv => ?_, fun hv => ?_⟩
    · have hr : readable (.ok found) = false := by simpa [readable] using hv
      have hq := fun e => herror (.ok found) e hr
      rw [← effects_noted (e := ⟨.readWatchlist, .ok found⟩) (by simp [isEffect, hr])] at hq
      exact hq _
    · have hq := hok _ (not_not.mp hv)
      rw [← effects_quiet (f := fx) (e := ⟨.readWatchlist, .ok found⟩)
        (by simpa [isEffect, readable] using hv)] at hq
      exact hq

theorem follows_listTargets
    {Q : List (Prog.Event Reply) → Except Error (List WatchTarget) → σ → Prop}
    (hok : ∀ targets, Q fx (.ok targets) s)
    (herror : ∀ r e, readable r = false → Q (fx ++ [⟨.readWatchlist, r⟩]) (.error e) s) :
    listTargets.Follows effects fx s Q := by
  simp only [listTargets, Act.bind_eq, Act.follows_andThen]
  exact follows_loadWatchlist (fun document _ => hok document.targets) herror

theorem follows_bumpRevision {d : WatchcatDaemon}
    {Q : List (Prog.Event Reply) → Except Error Unit → WatchcatDaemon → Prop}
    (hok : Q fx (.ok ()) d.bumped) (herror : ∀ fx' e, Stalled fx fx' → Q fx' (.error e) d) :
    bumpRevision.Follows effects fx d Q := by
  simp only [bumpRevision, Act.bind_eq, Act.follows_andThen]
  refine follows_listTargets (fun targets => ?_) fun r e hr => herror _ e (.inr ⟨r, hr, rfl⟩)
  simp only [nextRevision, updateRecoveryPermit, perform, Act.bind_eq, Act.pure_eq,
    Act.follows_andThen, Act.follows_zoom, Act.follows_get, Act.follows_modify,
    Act.follows_perform]
  refine ⟨trivial, fun r => ?_⟩
  cases r with
  | error e =>
    simp only [Act.follows_andThen, Act.follows_modify, Act.follows_fail]
    exact herror fx e (.refl fx)
  | ok _ =>
    simp only [Act.follows_andThen, Act.follows_get, Act.follows_ret]
    exact ⟨trivial, fun _ => hok⟩

theorem follows_checkRevision {request : RpcRequest} {d : WatchcatDaemon}
    {Q : List (Prog.Event Reply) → Except Error Unit → WatchcatDaemon → Prop}
    (h : ∀ r, Q fx r d) : (checkRevision request).Follows effects fx d Q := by
  simp only [checkRevision, Act.bind_eq, Act.pure_eq, Act.follows_andThen, Act.follows_get]
  cases request.expectedRevision with
  | none => exact h _
  | some expected => exact Act.follows_ite.mpr ⟨fun _ => h _, fun _ => h _⟩

/-! ## Changes of the configuration -/

/-- The change of the configuration that a request asks for. -/
inductive ConfigChange
  | setPolicy (condition : String) (policy : PolicyOverride)
  | resetPolicy (condition : String)
  | resetPolicies
  | setDialogs (dialogs : DialogSettings)
  | setLifecycle (lifecycle : LifecycleSettings)

/-- The settings after a change. -/
def ConfigChange.apply : ConfigChange → Settings → Settings
  | .setPolicy condition policy, s =>
    let entry := (s.policies.lookup condition).getD {}
    { s with policies := s.policies.insert condition (entry.merge policy) }
  | .resetPolicy condition, s => { s with policies := s.policies.erase condition }
  | .resetPolicies, s => { s with policies := .empty }
  | .setDialogs dialogs, s => { s with dialogs := dialogs }
  | .setLifecycle lifecycle, s => { s with lifecycle := lifecycle }

/-- The change a request asks for, where its parameters are well formed. -/
def RpcRequest.change? (request : RpcRequest) : Option ConfigChange :=
  match request.method with
  | "config.policies.set" => (decodePolicyUpdate request.params).toOption.map fun update =>
      .setPolicy update.condition update.policy
  | "config.policies.reset" => match (request.params.get "condition").bind Value.asStr with
    | some condition => some (.resetPolicy condition)
    | none => some .resetPolicies
  | "config.dialogs.set" => (decodeDialogSettings request.params).toOption.map .setDialogs
  | "config.set_lifecycle" =>
    (decodeLifecycleSettings request.params).toOption.map .setLifecycle
  | _ => none

/-- Whether the change puts window rules in force. -/
def ConfigChange.configures : ConfigChange → Bool
  | .setDialogs _ => true
  | _ => false

/-- The effects of stored settings, up to the modification time. -/
def storing (settings : Settings) (configure : Bool) : List (Prog.Event Reply) :=
  ⟨.writeConfig settings, .ok ()⟩ ::
    if configure then [⟨.configureDialogs settings.dialogs, ()⟩] else []

/-! ## Outcomes -/

/-- What a control request has done, with its result and the daemon it left. -/
inductive ControlOutcome (request : RpcRequest) (d : WatchcatDaemon) :
    List (Prog.Event Reply) → Except Error RpcResult → WatchcatDaemon → Prop
  /-- Nothing, and it failed. -/
  | failed {fx : List (Prog.Event Reply)} {e : Error} {d' : WatchcatDaemon}
      (hfx : Stalled [] fx) (hs : d'.settings = d.settings)
      (hm : d'.configModified = d.configModified) : ControlOutcome request d fx (.error e) d'
  /-- It was answered from what there is. -/
  | answered {result : RpcResult} (hc : request.change? = none) :
      ControlOutcome request d [] (.ok result) d
  /-- The watchlist was replaced. -/
  | listed {document : WatchlistDocument} {result : RpcResult} {d' : WatchcatDaemon}
      (hc : request.change? = none) (hs : d'.settings = d.settings)
      (hm : d'.configModified = d.configModified) :
      ControlOutcome request d [⟨.writeWatchlist document, .ok ()⟩] (.ok result) d'
  /-- The watchlist was replaced and could not be read again. -/
  | unread {document : WatchlistDocument} {r : Except Error (Option WatchlistDocument)}
      {e : Error} {d' : WatchcatDaemon} (hv : document.version = 4) (hr : readable r = false)
      (hs : d'.settings = d.settings) (hm : d'.configModified = d.configModified) :
      ControlOutcome request d [⟨.writeWatchlist document, .ok ()⟩, ⟨.readWatchlist, r⟩]
        (.error e) d'
  /-- The configuration was replaced, put in force, and dated. -/
  | stored {change : ConfigChange} {settings : Settings} {modified : Option Int}
      {result : RpcResult} {d' : WatchcatDaemon} (hc : request.change? = some change)
      (happly : settings = change.apply d.settings) (hv : settings.validate = .ok ())
      (hs : d'.settings = settings) (hm : d'.configModified = modified) :
      ControlOutcome request d
        (storing settings change.configures ++ [⟨.configModified, modified⟩]) (.ok result) d'

/-- The outcome of a method of the daemon that carries out a request. -/
def Ends (request : RpcRequest) (d : WatchcatDaemon) (m : Method WatchcatDaemon RpcResult) : Prop :=
  m.Follows effects [] d (ControlOutcome request d)

variable {request : RpcRequest} {d : WatchcatDaemon}

/-- A failure before anything was done. -/
theorem ControlOutcome.refused {fx : List (Prog.Event Reply)} {e : Error}
    (h : Stalled [] fx) : ControlOutcome request d fx (.error e) d := .failed h rfl rfl

theorem follows_storeSettings {settings : Settings} {configure : Bool}
    {Q : List (Prog.Event Reply) → Except Error Unit → WatchcatDaemon → Prop}
    (hok : ∀ modified, settings.validate = .ok () →
      Q (storing settings configure ++ [⟨.configModified, modified⟩]) (.ok ())
        { d.bumped with settings := settings, configModified := modified })
    (herror : ∀ fx e, Stalled [] fx → ∀ d', d'.settings = d.settings →
      d'.configModified = d.configModified → Q fx (.error e) d') :
    (storeSettings settings configure).Follows effects [] d Q := by
  simp only [storeSettings, saveSettings, Act.bind_eq, Act.follows_andThen]
  refine follows_bumpRevision ?_ fun fx e hfx => herror fx e hfx d rfl rfl
  simp only [perform, Act.follows_ofExcept]
  cases hv : settings.validate with
  | error e => exact herror [] e (.refl _) _ rfl rfl
  | ok _ =>
    refine ⟨trivial, fun r => ?_⟩
    cases r with
    | error e => exact herror [] e (.refl _) _ rfl rfl
    | ok _ =>
      refine Act.follows_ite.mpr ⟨fun hc => ?_, fun hc => ?_⟩
      · simp only [storing, if_pos hc] at hok
        exact ⟨trivial, fun _ => ⟨trivial, fun modified => hok modified hv⟩⟩
      · simp only [storing, if_neg hc] at hok
        exact ⟨trivial, fun modified => hok modified hv⟩

/-- A method that replaces the watchlist, or does nothing. -/
def Replaces (m : Method WatchcatDaemon Bool) : Prop :=
  ∀ (d : WatchcatDaemon) (Q : List (Prog.Event Reply) → Except Error Bool → WatchcatDaemon → Prop),
    (∀ document b, document.version = 4 → Q [⟨.writeWatchlist document, .ok ()⟩] (.ok b) d) →
    (∀ fx e, Stalled [] fx → Q fx (.error e) d) → m.Follows effects [] d Q

/-- Loading the watchlist, updating it and replacing the file. -/
theorem replaces_update {update : WatchlistDocument → Bool × WatchlistDocument}
    (hversion : ∀ document, (update document).2.version = document.version) :
    Replaces (do
      let r := update (← loadWatchlist)
      Act.ofExcept (← perform (.writeWatchlist r.2))
      return r.1) := by
  intro d Q hok herror
  simp only [Act.bind_eq, Act.follows_andThen]
  refine follows_loadWatchlist (fun document hv => ?_) fun r e hr =>
    herror _ e (.inr ⟨r, hr, rfl⟩)
  refine ⟨trivial, fun r => ?_⟩
  cases r with
  | error e => exact herror [] e (.refl _)
  | ok _ => exact hok _ _ (by rw [hversion, hv])

theorem replaces_addTarget (target : WatchTarget) : Replaces (addTarget target) :=
  replaces_update fun document => WatchlistDocument.add_version document target

theorem replaces_removeTarget (key : String) : Replaces (removeTarget key) :=
  replaces_update fun document => WatchlistDocument.remove_version document key

/-- The end of a change of membership: bump, replace the watchlist, read it again. -/
theorem ends_replaces {m : Method WatchcatDaemon Bool} (hm : Replaces m)
    (answer : Bool → RpcResult) (hc : request.change? = none) : Ends request d (do
      bumpRevision
      let b ← m
      updateRecoveryPermit (← listTargets)
      return answer b) := by
  simp only [Ends, Act.bind_eq, Act.follows_andThen]
  refine follows_bumpRevision ?_ fun fx e hfx => .refused hfx
  refine hm _ _ (fun document b hv => ?_) fun fx e hfx => .failed hfx rfl rfl
  exact follows_listTargets (fun targets => ⟨trivial, fun _ => .listed hc rfl rfl⟩)
    fun r e hr => .unread hv hr rfl rfl

theorem ends_checkRevision {f : Unit → Method WatchcatDaemon RpcResult}
    (h : Ends request d (f ())) : Ends request d (Act.andThen (checkRevision request) f) := by
  refine Act.follows_andThen.mpr (follows_checkRevision fun r => ?_)
  cases r with
  | error e => exact .refused (.refl _)
  | ok _ => exact h

theorem ends_ofExcept {α : Type} {r : Except Error α} {f : α → Method WatchcatDaemon RpcResult}
    (h : ∀ a, r = .ok a → Ends request d (f a)) :
    Ends request d (Act.andThen (Act.ofExcept r) f) := by
  refine Act.follows_andThen.mpr (Act.follows_ofExcept.mpr ?_)
  cases r with
  | error e => exact .refused (.refl _)
  | ok a => exact h a rfl

theorem ends_get {f : WatchcatDaemon → Method WatchcatDaemon RpcResult}
    (h : Ends request d (f d)) : Ends request d (Act.andThen Act.get f) := h

theorem ends_refused {c : Prop} [Decidable c] {e : Error} {m : Method WatchcatDaemon RpcResult}
    (h : Ends request d m) : Ends request d (if c then Act.fail e else m) :=
  Act.follows_ite.mpr ⟨fun _ => .refused (.refl _), fun _ => h⟩

theorem ends_addSession (hc : request.change? = none) : Ends request d (addSession request) :=
  ends_checkRevision <| ends_ofExcept fun _ _ => ends_refused <|
    Act.follows_andThen.mpr ⟨trivial, fun _ =>
      ends_replaces (replaces_addTarget _) (fun added => .added added _) hc⟩

theorem ends_removeSession (hc : request.change? = none) :
    Ends request d (removeSession request) :=
  ends_checkRevision <| ends_ofExcept fun _ _ =>
    ends_replaces (replaces_removeTarget _) .removed hc

/-- Storing the settings of a change. -/
theorem ends_stores {change : ConfigChange} (hc : request.change? = some change)
    {settings : Settings} (happly : settings = change.apply d.settings) {configure : Bool}
    (hconfigure : configure = change.configures) (result : RpcResult) : Ends request d (do
      storeSettings settings configure
      return result) := by
  subst hconfigure
  refine Act.follows_andThen.mpr (follows_storeSettings (fun modified hv => ?_) ?_)
  · exact .stored hc happly hv rfl rfl
  · exact fun fx e hfx d' hs hm => .failed hfx hs hm

theorem ends_setPolicy (hm : request.method = "config.policies.set") :
    Ends request d (setPolicy request) := by
  refine ends_checkRevision (ends_ofExcept fun update hp => ends_refused (ends_get ?_))
  have hchange : request.change? = some (.setPolicy update.condition update.policy) := by
    simp [RpcRequest.change?, hm, hp, Except.toOption]
  exact ends_stores hchange rfl rfl .updated

theorem ends_resetPolicies (hm : request.method = "config.policies.reset") :
    Ends request d (resetPolicies request) := by
  refine ends_checkRevision (ends_get ?_)
  dsimp only
  cases hp : (request.params.get "condition").bind Value.asStr with
  | some condition =>
    have hchange : request.change? = some (.resetPolicy condition) := by
      simp [RpcRequest.change?, hm, hp]
    exact Act.follows_ite.mpr
      ⟨fun _ => .refused (.refl _), fun _ => ends_stores hchange rfl rfl .reset⟩
  | none =>
    have hchange : request.change? = some .resetPolicies := by
      simp [RpcRequest.change?, hm, hp]
    exact ends_stores hchange rfl rfl .reset

theorem ends_setDialogs (hm : request.method = "config.dialogs.set") :
    Ends request d (setDialogs request) := by
  refine ends_checkRevision (ends_ofExcept fun dialogs hp => ?_)
  have hchange : request.change? = some (.setDialogs dialogs) := by
    simp [RpcRequest.change?, hm, hp, Except.toOption]
  exact ends_get (ends_ofExcept fun _ _ => ends_stores hchange rfl rfl .updated)

theorem ends_setLifecycle (hm : request.method = "config.set_lifecycle") :
    Ends request d (setLifecycle request) := by
  refine ends_checkRevision (ends_ofExcept fun lifecycle hp => ?_)
  have hchange : request.change? = some (.setLifecycle lifecycle) := by
    simp [RpcRequest.change?, hm, hp, Except.toOption]
  exact ends_get (ends_ofExcept fun _ _ => ends_stores hchange rfl rfl .updated)

/-- Reading the watchlist and answering from it. -/
theorem ends_listTargets {f : List WatchTarget → Method WatchcatDaemon RpcResult}
    (h : ∀ targets, Ends request d (f targets)) :
    Ends request d (Act.andThen listTargets f) :=
  Act.follows_andThen.mpr (follows_listTargets h fun r _ hr => .refused (.inr ⟨r, hr, rfl⟩))

theorem ends_ret (result : RpcResult) (hc : request.change? = none) :
    Ends request d (Act.ret result) :=
  .answered hc

theorem ends_snapshot (hc : request.change? = none) :
    Ends request d (do return .snapshot (← snapshot)) := by
  simp only [Ends, snapshot, Act.bind_eq, Act.follows_andThen]
  exact follows_listTargets (fun targets => ⟨trivial, fun _ => ends_ret _ hc⟩)
    fun r _ hr => .refused (.inr ⟨r, hr, rfl⟩)

theorem ends_listSessions (params : Value) (hc : request.change? = none) :
    Ends request d (listSessions params) :=
  ends_ofExcept fun _ _ => ends_refused (ends_listTargets fun _ => ends_ret _ hc)

/-- A request ends in one of its outcomes. -/
theorem ends_dispatchControl (request : RpcRequest) (d : WatchcatDaemon) :
    Ends request d (dispatchControl request) := by
  unfold dispatchControl
  split <;> rename_i hm
  · exact ends_ret _ (by simp [RpcRequest.change?, hm])
  · exact ends_snapshot (by simp [RpcRequest.change?, hm])
  · exact ends_listSessions _ (by simp [RpcRequest.change?, hm])
  · exact ends_addSession (by simp [RpcRequest.change?, hm])
  · exact ends_removeSession (by simp [RpcRequest.change?, hm])
  · exact ends_get (ends_ret _ (by simp [RpcRequest.change?, hm]))
  · exact ends_setPolicy hm
  · exact ends_resetPolicies hm
  · exact ends_setDialogs hm
  · exact ends_get (ends_ret _ (by simp [RpcRequest.change?, hm]))
  · exact ends_setLifecycle hm
  · exact .refused (.refl _)

/-- What a response says of the outcome: it carries an error exactly for a failure. -/
def Answers (response : RpcResponse) (r : Except Error RpcResult) : Prop :=
  response.error.isSome = true ↔ ∃ e, r = .error e

/-- A control request is answered according to its outcome. -/
theorem handleControl_outcome {request : RpcRequest} {d d' : WatchcatDaemon}
    {tr : List (Prog.Event Reply)} {res : Except Error RpcResponse}
    (h : (handleControl request).Returns d tr res d') :
    ∃ response r, res = .ok response ∧ Answers response r ∧
      ControlOutcome request d (tr.filter isEffect) r d' := by
  have hfollows : (handleControl request).Follows effects [] d fun fx res d' =>
      ∃ response r, res = .ok response ∧ Answers response r ∧
        ControlOutcome request d fx r d' := by
    unfold handleControl
    refine Act.follows_ite.mpr ⟨fun _ => ?_, fun _ => ?_⟩
    · exact ⟨_, .error (.message ""), rfl, ⟨fun _ => ⟨_, rfl⟩, fun _ => rfl⟩, .refused (.refl _)⟩
    · refine Act.follows_andThen.mpr (Act.follows_attempt.mpr ?_)
      refine (ends_dispatchControl request d).mono fun fx r d' hr => ?_
      cases r with
      | ok result => exact ⟨_, _, rfl, ⟨fun h => Bool.noConfusion h, fun ⟨_, h⟩ => nomatch h⟩, hr⟩
      | error e => exact ⟨_, _, rfl, ⟨fun _ => ⟨e, rfl⟩, fun _ => rfl⟩, hr⟩
  have houtcome := hfollows.returns h
  rwa [effects, Monitor.noting_after, List.nil_append] at houtcome

/-! ## Loading and reloading the configuration -/

/-- What `load_settings` makes of what it read. -/
def loads : Except Error (Option Settings) → Except Error Settings
  | .ok none => .ok {}
  | .ok (some settings) => settings.validate.map fun _ => settings
  | .error e => .error e

theorem follows_loadSettings {Q : List (Prog.Event Reply) → Except Error Settings → σ → Prop}
    (h : ∀ r, Q (fx ++ [⟨.readConfig, r⟩]) (loads r) s) :
    loadSettings.Follows effects fx s Q := by
  simp only [loadSettings, perform, Act.bind_eq, Act.follows_andThen, Act.follows_perform,
    Act.follows_ofExcept]
  refine ⟨trivial, fun r => ?_⟩
  have hr := h r
  rcases r with e | _ | settings
  · exact hr
  · exact hr
  · simp only [loads] at hr
    refine Act.follows_andThen.mpr (Act.follows_ofExcept.mpr ?_)
    cases hv : settings.validate with
    | error e => rw [hv] at hr; exact hr
    | ok _ => rw [hv] at hr; exact hr

/-- What a reload has done. -/
inductive ReloadOutcome (d : WatchcatDaemon) :
    List (Prog.Event Reply) → WatchcatDaemon → Prop
  /-- The modification time was the one remembered. -/
  | current : ReloadOutcome d [⟨.configModified, d.configModified⟩] d
  /-- The file was read, and the revision could not be stored. -/
  | stalled {modified : Option Int} {r : Except Error (Option Settings)}
      {fx : List (Prog.Event Reply)}
      (hfx : Stalled [⟨.configModified, modified⟩, ⟨.readConfig, r⟩] fx) : ReloadOutcome d fx d
  /-- The file holds no valid configuration. -/
  | rejected {modified : Option Int} {r : Except Error (Option Settings)} {e : Error}
      (hr : loads r = .error e) : ReloadOutcome d
        [⟨.configModified, modified⟩, ⟨.readConfig, r⟩] { d with configModified := modified }
  /-- The file was taken over. -/
  | loaded {modified : Option Int} {r : Except Error (Option Settings)} {settings : Settings}
      {d' : WatchcatDaemon} (hr : loads r = .ok settings) (hs : d'.settings = settings)
      (hm : d'.configModified = modified) : ReloadOutcome d
        [⟨.configModified, modified⟩, ⟨.readConfig, r⟩,
          ⟨.configureDialogs settings.dialogs, ()⟩] d'

theorem follows_reloadExternalConfig {d : WatchcatDaemon} :
    reloadExternalConfig.Follows effects [] d fun fx _ d' => ReloadOutcome d fx d' := by
  simp only [reloadExternalConfig, perform, Act.bind_eq, Act.follows_andThen,
    Act.follows_perform, Act.follows_get]
  refine ⟨trivial, fun modified => ?_⟩
  refine Act.follows_ite.mpr ⟨fun hm => ?_, fun _ => ?_⟩
  · subst hm
    exact .current
  · refine Act.follows_andThen.mpr (Act.follows_attempt.mpr (follows_loadSettings fun r => ?_))
    cases hr : loads r with
    | error e => exact .rejected hr
    | ok settings =>
      refine Act.follows_andThen.mpr (follows_bumpRevision ?_ fun fx e hfx => .stalled hfx)
      exact ⟨trivial, fun _ => .loaded hr rfl rfl⟩

/-- Preparing a cycle reloads the configuration and reads the watchlist. -/
theorem follows_prepareReconcile {d : WatchcatDaemon} :
    prepareReconcile.Follows effects [] d fun fx _ d' =>
      ∃ reload, ReloadOutcome d reload d' ∧ Stalled reload fx := by
  refine Act.follows_andThen.mpr (follows_reloadExternalConfig.mono fun reload r d' hreload => ?_)
  cases r with
  | error e => exact ⟨reload, hreload, .refl _⟩
  | ok _ =>
    refine Act.follows_andThen.mpr (follows_listTargets (fun targets => ?_) fun r e hr =>
      ⟨reload, hreload, .inr ⟨r, hr, rfl⟩⟩)
    exact ⟨trivial, fun _ => ⟨trivial, fun _ => ⟨reload, hreload, .refl _⟩⟩⟩

/-- What a start has done: the file is dated before it is read. -/
structure StartOutcome (fx : List (Prog.Event Reply)) (d : WatchcatDaemon) : Prop where
  calls : ∃ modified r, fx = [⟨.configModified, modified⟩, ⟨.readConfig, r⟩] ∧
    d.configModified = modified ∧ loads r = .ok d.settings

theorem follows_loadRuntimeState
    {Q : List (Prog.Event Reply) → Except Error RuntimeState → σ → Prop}
    (h : ∀ r, Q fx r s) : loadRuntimeState.Follows effects fx s Q := by
  simp only [loadRuntimeState, perform, Act.bind_eq, Act.follows_andThen, Act.follows_perform,
    Act.follows_ofExcept]
  refine ⟨trivial, fun r => ?_⟩
  cases r with
  | error e => exact h _
  | ok found => exact Act.follows_ite.mpr ⟨fun _ => h _, fun _ => h _⟩

theorem follows_loadControlState
    {Q : List (Prog.Event Reply) → Except Error ControlState → σ → Prop}
    (h : ∀ r, Q fx r s) : loadControlState.Follows effects fx s Q := by
  simp only [loadControlState, perform, Act.bind_eq, Act.follows_andThen, Act.follows_perform,
    Act.follows_ofExcept]
  refine ⟨trivial, fun r => ?_⟩
  cases r with
  | error e => exact h _
  | ok found =>
    refine Act.follows_ite.mpr ⟨fun _ => h _, fun _ => ?_⟩
    simp only [nextRevision, perform, Act.bind_eq, Act.pure_eq, Act.follows_andThen,
      Act.follows_within, Act.follows_get, Act.follows_modify, Act.follows_perform]
    refine ⟨trivial, fun r => ?_⟩
    cases r with
    | error e => exact h _
    | ok _ => exact h _

theorem follows_loadDaemon : loadDaemon.Follows effects [] () fun fx r _ =>
    ∀ d, r = .ok d → StartOutcome fx d := by
  unfold loadDaemon
  refine Act.follows_andThen.mpr (Act.follows_perform.mpr ⟨trivial, fun modified => ?_⟩)
  refine Act.follows_andThen.mpr (follows_loadSettings fun r => ?_)
  cases hr : loads r with
  | error e => exact nofun
  | ok settings =>
    refine Act.follows_andThen.mpr (follows_listTargets (fun targets => ?_) fun _ _ _ => nofun)
    refine Act.follows_andThen.mpr (follows_loadRuntimeState fun state => ?_)
    cases state with
    | error e => exact nofun
    | ok state =>
      refine Act.follows_andThen.mpr (Act.follows_perform.mpr ⟨trivial, fun now => ?_⟩)
      refine Act.follows_andThen.mpr (follows_loadControlState fun control => ?_)
      cases control with
      | error e => exact nofun
      | ok control =>
        refine Act.follows_andThen.mpr (Act.follows_perform.mpr ⟨trivial, fun _ => ?_⟩)
        rintro d ⟨⟩
        exact ⟨modified, r, rfl, rfl, hr⟩

/-! ## Methods that leave the configuration alone -/

/-- The calls about the configuration file. -/
def isConfigCall : Prog.Event Reply → Bool
  | ⟨.writeConfig _, _⟩ | ⟨.readConfig, _⟩ | ⟨.configModified, _⟩ => true
  | _ => false

/-- The method leaves the configuration file and what the daemon remembers of it. -/
def Aside {α : Type} (m : Method WatchcatDaemon α) : Prop :=
  ∀ fx d, m.Follows effects fx d fun fx' _ d' =>
    fx'.filter isConfigCall = fx.filter isConfigCall ∧ d'.settings = d.settings ∧
      d'.configModified = d.configModified

section Aside

variable {α β : Type}

theorem aside_andThen {m : Method WatchcatDaemon α} {f : α → Method WatchcatDaemon β}
    (hm : Aside m) (hf : ∀ a, Aside (f a)) : Aside (Act.andThen m f) := by
  intro fx d
  refine Act.follows_andThen.mpr ((hm fx d).mono fun fx' r d' h => ?_)
  cases r with
  | error e => exact h
  | ok a =>
    refine (hf a fx' d').mono fun fx'' _ d'' h' => ?_
    exact ⟨h'.1.trans h.1, h'.2.1.trans h.2.1, h'.2.2.trans h.2.2⟩

theorem aside_ret (a : α) : Aside (Act.ret a) := fun _ _ => ⟨rfl, rfl, rfl⟩

theorem aside_get : Aside (Act.get : Method WatchcatDaemon WatchcatDaemon) :=
  fun _ _ => ⟨rfl, rfl, rfl⟩

theorem aside_ofExcept (r : Except Error α) :
    Aside (Act.ofExcept r : Method WatchcatDaemon α) := fun _ _ => ⟨rfl, rfl, rfl⟩

theorem aside_ite {c : Prop} [Decidable c] {m m' : Method WatchcatDaemon α} (hm : Aside m)
    (hm' : Aside m') : Aside (if c then m else m') :=
  fun fx d => Act.follows_ite.mpr ⟨fun _ => hm fx d, fun _ => hm' fx d⟩

theorem filter_effects_next {fx : List (Prog.Event Reply)} {e : Prog.Event Reply}
    (h : isConfigCall e = false) :
    (effects.next fx e.1 e.2).filter isConfigCall = fx.filter isConfigCall := by
  cases he : isEffect e with
  | false => rw [effects_quiet he]
  | true => rw [effects_noted he, List.filter_append, List.filter_singleton, h]; simp

theorem aside_perform {op : Call} (h : ∀ r, isConfigCall ⟨op, r⟩ = false) :
    Aside (perform op : Method WatchcatDaemon (Reply op)) :=
  fun _ _ => ⟨trivial, fun r => ⟨filter_effects_next (h r), rfl, rfl⟩⟩

theorem Stalled.aside {fx fx' : List (Prog.Event Reply)} (h : Stalled fx fx') :
    fx'.filter isConfigCall = fx.filter isConfigCall := by
  rcases h with rfl | ⟨r, _, rfl⟩
  · rfl
  · rw [List.filter_append]
    exact List.append_nil _

theorem aside_loadWatchlist : Aside loadWatchlist := fun _ _ =>
  follows_loadWatchlist (fun _ _ => ⟨rfl, rfl, rfl⟩) fun r _ hr =>
    ⟨Stalled.aside (.inr ⟨r, hr, rfl⟩), rfl, rfl⟩

theorem aside_bumpRevision : Aside bumpRevision := fun _ _ =>
  follows_bumpRevision ⟨rfl, rfl, rfl⟩ fun _ _ h => ⟨h.aside, rfl, rfl⟩

theorem aside_updateRecoveryPermit (targets : List WatchTarget) :
    Aside (updateRecoveryPermit targets) :=
  aside_andThen aside_get fun _ => aside_perform fun _ => rfl

theorem aside_reconcileTargets (sessions : List Session) (now stale : Int)
    (keys : Finset String) : Aside (reconcileTargets sessions now stale keys) :=
  aside_andThen aside_loadWatchlist fun _ => aside_andThen (aside_ofExcept _) fun _ =>
    aside_ite (aside_andThen (aside_perform fun _ => rfl) fun _ =>
      aside_andThen (aside_ofExcept _) fun _ => aside_ret _) (aside_ret _)

/-- The commit of a cycle leaves the configuration alone. -/
theorem aside_commitReconcile (engine : WatchEngine) (plan : ReconcilePlan)
    (outcome : ReconcileOutcome) : Aside (commitReconcile engine plan outcome) := by
  refine aside_andThen aside_get fun d => aside_ite (aside_ret _) ?_
  refine aside_andThen (aside_perform fun _ => rfl) fun _ => aside_ite (aside_ret _) ?_
  refine aside_andThen aside_get fun _ => aside_andThen (aside_reconcileTargets _ _ _ _)
    fun targets => aside_andThen (aside_updateRecoveryPermit _) fun _ => ?_
  have hend : Aside (do
      updateRecoveryPermit targets
      Act.modify fun d => d.observe (engine.replaceTargets targets) targets plan.now
      return engine.replaceTargets targets) :=
    aside_andThen (aside_updateRecoveryPermit _) fun _ =>
      aside_andThen (fun _ _ => ⟨rfl, rfl, rfl⟩) fun _ => aside_ret _
  exact aside_ite (aside_andThen aside_bumpRevision fun _ => hend) hend

end Aside

end Watchcat
