import Watchcat.Daemon.Histories
import Watchcat.Daemon.Sample

/-!
# The active settings are valid

Whatever a daemon takes over it has validated. Valid settings resolve every
condition to a policy that can drive a retry, or to a skip.
-/

namespace Watchcat

open Watchcat.Core

/-! ## Every daemon -/

theorem loads_valid {r : Except Error (Option Settings)} {settings : Settings}
    (h : loads r = .ok settings) : settings.validate = .ok () := by
  rcases r with e | _ | found
  · cases h
  · obtain rfl := Except.ok.inj h
    decide
  · cases hv : found.validate with
    | error e => simp [loads, hv, Except.map] at h
    | ok _ =>
      obtain rfl : found = settings := by simpa [loads, hv, Except.map] using h
      exact hv

theorem ControlOutcome.valid {request : RpcRequest} {d d' : WatchcatDaemon}
    {fx : List (Prog.Event Reply)} {r : Except Error RpcResult}
    (h : ControlOutcome request d fx r d') (hd : d.settings.validate = .ok ()) :
    d'.settings.validate = .ok () := by
  cases h with
  | failed _ hs _ | listed _ hs _ | unread _ _ hs _ => rwa [hs]
  | answered => exact hd
  | stored _ _ hv hs _ => rwa [hs]

theorem ReloadOutcome.valid {d d' : WatchcatDaemon} {fx : List (Prog.Event Reply)}
    (h : ReloadOutcome d fx d') (hd : d.settings.validate = .ok ()) :
    d'.settings.validate = .ok () := by
  cases h with
  | current | stalled | rejected => exact hd
  | loaded hr hs _ =>
    rw [hs]
    exact loads_valid hr

theorem DaemonRun.valid {w : World} {d : WatchcatDaemon} (h : DaemonRun World.noisy w d) :
    d.settings.validate = .ok () := by
  induction h with
  | started _ _ hx =>
    obtain ⟨_, _, _, _, hr⟩ := (follows_loadDaemon.returns hx.returns _ rfl).calls
    exact loads_valid hr
  | prepared _ hx ih =>
    obtain ⟨_, hreload, _⟩ := follows_prepareReconcile.returns hx.returns
    exact hreload.valid ih
  | committed _ hx ih =>
    obtain ⟨_, hs, _⟩ := (aside_commitReconcile _ _ _ [] _).returns hx.returns
    rwa [hs]
  | controlled _ hx ih =>
    obtain ⟨_, _, _, _, houtcome⟩ := handleControl_outcome hx.returns
    exact houtcome.valid ih
  | edited _ _ ih => exact ih

/-! ## Resolved policies -/

/-- A policy that can drive a retry. -/
structure ResolvedPolicy.Retries (p : ResolvedPolicy) : Prop where
  action : p.action = .retry
  backoff : p.backoff.isSome = true
  initialDelay : 0 < p.initialDelaySeconds
  maxDelay : p.initialDelaySeconds ≤ p.maxDelaySeconds
  attempts : 0 < p.maxAttempts
  prompt : isBlank p.prompt = false

/-- An unregistered condition has no override and is skipped. -/
theorem Settings.Valid.policy_unknown {s : Settings} (h : s.Valid) {condition : String}
    (hunknown : isKnown condition = false) : (s.policy condition).action = .skip := by
  have hnone : s.policies.lookup condition = none := by
    cases hlookup : s.policies.lookup condition with
    | none => rfl
    | some policy =>
      rw [(h.overrides condition policy hlookup).1] at hunknown
      cases hunknown
  have hdefinition : definition condition = none := by simpa [isKnown] using hunknown
  simp only [policy, hnone, hdefinition]
  rfl

/-- A policy that retries has a kind of backoff. -/
theorem Settings.policy_backoff {s : Settings} {condition : String}
    (h : (s.policy condition).action = .retry) :
    (s.policy condition).backoff.isSome = true := by
  dsimp only [Settings.policy] at h ⊢
  rw [h]
  simp

/-- The prompt of a policy that retries is the default one or a validated one. -/
theorem Settings.Valid.policy_prompt {s : Settings} (h : s.Valid) {condition : String}
    (hretry : (s.policy condition).action = .retry) :
    isBlank (s.policy condition).prompt = false := by
  have hprompt : (s.policy condition).prompt = if (s.policy condition).action = .retry then
      ((s.policies.lookup condition).bind PolicyOverride.prompt).getD defaultPrompt else "" := rfl
  rw [hprompt, if_pos hretry]
  cases hlookup : s.policies.lookup condition with
  | none => exact defaultPrompt_not_blank
  | some policy =>
    have hoverride := (h.overrides condition policy hlookup).2
    cases hp : policy.prompt with
    | none =>
      simp only [Option.bind_some, hp]
      exact defaultPrompt_not_blank
    | some prompt =>
      by_contra hblank
      simp only [Option.bind_some, hp, Option.getD_some, Bool.not_eq_false] at hblank
      simp [validateOverride, hp, hblank] at hoverride

/-- Valid settings resolve every condition to a skip or to a policy that can drive a retry. -/
theorem Settings.Valid.policy {s : Settings} (h : s.Valid) (condition : String) :
    (s.policy condition).action = .skip ∨ (s.policy condition).Retries := by
  cases hknown : isKnown condition with
  | false => exact .inl (h.policy_unknown hknown)
  | true =>
    obtain ⟨c, hc⟩ := Option.isSome_iff_exists.mp hknown
    have hname : c.name = condition := by simpa using List.find?_some hc
    have hresolved := h.resolved c (List.mem_of_find?_eq_some hc)
    rw [hname] at hresolved
    cases haction : (s.policy condition).action with
    | skip => exact .inl rfl
    | retry =>
      simp only [ResolvedPolicy.retryInvalid, haction, decide_true, Bool.true_and,
        Bool.or_eq_false_iff, decide_eq_false_iff_not, not_lt] at hresolved
      exact .inr ⟨haction, policy_backoff haction, Nat.pos_of_ne_zero hresolved.1.1,
        hresolved.1.2, Nat.pos_of_ne_zero hresolved.2, h.policy_prompt haction⟩

/-- The settings of a daemon are valid between any two operations, and valid settings resolve
every condition to a skip or to a policy that can drive a retry, an unregistered one to a skip. -/
theorem settings_stay_valid : (∀ w d, DaemonRun World.noisy w d → d.settings.validate = .ok ()) ∧
    ∀ s : Settings, s.validate = .ok () → ∀ condition,
      ((s.policy condition).action = .skip ∨
        ((s.policy condition).action = .retry ∧ (s.policy condition).backoff.isSome = true ∧
          0 < (s.policy condition).initialDelaySeconds ∧
          (s.policy condition).initialDelaySeconds ≤ (s.policy condition).maxDelaySeconds ∧
          0 < (s.policy condition).maxAttempts ∧ isBlank (s.policy condition).prompt = false)) ∧
      (isKnown condition = false → (s.policy condition).action = .skip) := by
  refine ⟨fun w d h => h.valid, fun s h condition => ⟨?_, fun hunknown => ?_⟩⟩
  · rcases (Settings.validate_ok.mp h).policy condition with hskip | hretries
    · exact .inl hskip
    · exact .inr ⟨hretries.action, hretries.backoff, hretries.initialDelay, hretries.maxDelay,
        hretries.attempts, hretries.prompt⟩
  · exact (Settings.validate_ok.mp h).policy_unknown hunknown

/-- The sample daemon after a condition was set to be skipped. -/
def skippingSample : Except Error RpcResponse × WatchcatDaemon × World :=
  controlSample [] (skipRequest "network.timeout") (startedSample [] World.initial)
    (startSample [] World.initial).2

theorem settings_stay_valid_skipping : skippingSample.2.1.settings.validate = .ok () ∧
    (skippingSample.2.1.settings.policy "network.timeout").action = .skip ∧
    (skippingSample.2.1.settings.policy "network.unheard").action = .skip := by
  have hstart : DaemonRun World.noisy (startSample [] World.initial).2
      (startedSample [] World.initial) := .startSample nofun rfl (by decide) (by decide)
  have hrun : DaemonRun World.noisy skippingSample.2.2 skippingSample.2.1 :=
    hstart.controlSample (by decide)
  have hvalid := settings_stay_valid.1 _ _ hrun
  exact ⟨hvalid, by decide,
    (settings_stay_valid.2 _ hvalid "network.unheard").2 (by decide)⟩

end Watchcat
