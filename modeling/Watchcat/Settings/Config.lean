import Watchcat.Base.Clock
import Watchcat.Settings.Conditions
import Watchcat.Settings.Dialogs

/-!
# Configuration

The settings document, its validation and the resolution of a policy from the
registered default and the custom override of its condition.
-/

namespace Watchcat

open Watchcat.Core

/-- The `[engine]` section. -/
structure EngineSettings where
  pollIntervalSeconds : Nat := 10
  attemptWindowSeconds : Int := 3600
  logRetention : Nat := 10000
  deriving DecidableEq, Repr

/-- The `[lifecycle]` section. -/
structure LifecycleSettings where
  staleAfterSeconds : Int := 3 * 24 * 60 * 60
  deriving DecidableEq, Repr

/-- The `[providers.codex]` section. -/
structure CodexSettings where
  enabled : Bool := true
  command : List String := ["codex", "app-server", "--listen", "stdio://"]
  deriving DecidableEq, Repr

/-- The `[providers.claude]` section. -/
structure ClaudeSettings where
  enabled : Bool := true
  deriving DecidableEq, Repr

/-- The `[providers]` section. -/
structure ProviderSettings where
  codex : CodexSettings := {}
  claude : ClaudeSettings := {}
  deriving DecidableEq, Repr

/-- The fields a policy overrides. -/
structure PolicyOverride where
  action : Option PolicyAction := none
  backoff : Option BackoffKind := none
  initialDelaySeconds : Option Nat := none
  maxDelaySeconds : Option Nat := none
  maxAttempts : Option Nat := none
  prompt : Option String := none
  deriving DecidableEq, Repr

/-- A policy with every field resolved. -/
structure ResolvedPolicy where
  condition : String
  description : String
  action : PolicyAction
  backoff : Option BackoffKind
  initialDelaySeconds : Nat
  maxDelaySeconds : Nat
  maxAttempts : Nat
  prompt : String
  customized : Bool
  deriving DecidableEq, Repr

/-- The configuration document. -/
structure Settings where
  version : Nat := 4
  engine : EngineSettings := {}
  lifecycle : LifecycleSettings := {}
  providers : ProviderSettings := {}
  policies : Table String PolicyOverride := Table.empty
  dialogs : DialogSettings := {}

/-- A registered number, or the retry default where it is zero. -/
def positiveOr (n fallback : Nat) : Nat := if n > 0 then n else fallback

/-- `Settings::policy`: the override of a condition over its registered default. -/
def Settings.policy (s : Settings) (condition : String) : ResolvedPolicy :=
  let fallback := (definition condition).getD unknownCondition
  let custom := s.policies.lookup condition
  let action := (custom.bind PolicyOverride.action).getD fallback.action
  let backoff := match action with
    | .retry => ((custom.bind PolicyOverride.backoff).or fallback.backoff).or (some .exponential)
    | .skip => none
  let resolve (field : PolicyOverride → Option Nat) (registered default : Nat) : Nat :=
    (custom.bind field).getD (if action = .retry then positiveOr registered default else 0)
  { condition := condition
    description := fallback.description
    action := action
    backoff := backoff
    initialDelaySeconds := resolve PolicyOverride.initialDelaySeconds
      fallback.initialDelaySeconds retryDefaults.initialDelaySeconds
    maxDelaySeconds := resolve PolicyOverride.maxDelaySeconds
      fallback.maxDelaySeconds retryDefaults.maxDelaySeconds
    maxAttempts := resolve PolicyOverride.maxAttempts
      fallback.maxAttempts retryDefaults.maxAttempts
    prompt := if action = .retry then (custom.bind PolicyOverride.prompt).getD defaultPrompt else ""
    customized := custom.isSome }

/-- `Settings::policies`: the policy of every registered condition. -/
def Settings.resolvedPolicies (s : Settings) : List ResolvedPolicy :=
  conditions.map fun condition => s.policy condition.name

/-- `validate_command`. -/
def validateCommand (name : String) (enabled : Bool) (command : List String) : Except Error Unit :=
  if enabled && (command.isEmpty || command.any String.isEmpty) then
    .error (.message (name ++ " must be a non-empty array of strings"))
  else .ok ()

/-- `validate_override`. -/
def validateOverride (condition : String) (policy : PolicyOverride) : Except Error Unit :=
  if policy.prompt.any isBlank then
    .error (.message ("policy " ++ condition ++ " prompt cannot be empty"))
  else if policy.initialDelaySeconds = some 0 || policy.maxDelaySeconds = some 0 ||
      policy.maxAttempts = some 0 then
    .error (.message ("policy " ++ condition ++ " retry settings must be positive"))
  else if policy.initialDelaySeconds.any fun initial =>
      policy.maxDelaySeconds.any fun maximum => maximum < initial then
    .error (.message ("policy " ++ condition ++
      " max_delay_seconds cannot be less than initial_delay_seconds"))
  else if policy.action = some .skip && (policy.backoff.isSome ||
      policy.initialDelaySeconds.isSome || policy.maxDelaySeconds.isSome ||
      policy.maxAttempts.isSome) then
    .error (.message ("policy " ++ condition ++ " cannot set retry fields when action is skip"))
  else .ok ()

/-- A resolved retry policy whose numbers cannot drive a retry. -/
def ResolvedPolicy.retryInvalid (policy : ResolvedPolicy) : Bool :=
  policy.action = .retry && (policy.initialDelaySeconds = 0 ||
    policy.maxDelaySeconds < policy.initialDelaySeconds || policy.maxAttempts = 0)

/-- `Settings::validate`. -/
def Settings.validate (s : Settings) : Except Error Unit := do
  if s.version ≠ 4 then
    throw (.message ("unsupported config version " ++ toString s.version ++
      "; this release supports version 4"))
  if s.engine.pollIntervalSeconds = 0 || s.engine.attemptWindowSeconds ≤ 0 ||
      s.engine.logRetention = 0 then
    throw (.message "engine settings must be positive")
  if s.lifecycle.staleAfterSeconds ≤ 0 then
    throw (.message "lifecycle settings must be positive")
  validateCommand "providers.codex.command" s.providers.codex.enabled s.providers.codex.command
  s.dialogs.validate
  (inKeyOrder s.policies).forM fun entry => do
    if !isKnown entry.1 then throw (.message ("unknown policy condition: " ++ entry.1))
    validateOverride entry.1 entry.2
  conditions.forM fun condition =>
    if (s.policy condition.name).retryInvalid then
      throw (.message ("policy " ++ condition.name ++ " has invalid resolved retry settings"))
    else pure ()

/-- The default configuration is valid. -/
example : (Settings.validate {}).isOk = true := by decide

/-- What validation establishes. -/
structure Settings.Valid (s : Settings) : Prop where
  version : s.version = 4
  pollInterval : 0 < s.engine.pollIntervalSeconds
  attemptWindow : 0 < s.engine.attemptWindowSeconds
  logRetention : 0 < s.engine.logRetention
  stale : 0 < s.lifecycle.staleAfterSeconds
  command : validateCommand "providers.codex.command" s.providers.codex.enabled
    s.providers.codex.command = .ok ()
  dialogs : s.dialogs.validate = .ok ()
  overrides : ∀ condition policy, s.policies.lookup condition = some policy →
    isKnown condition = true ∧ validateOverride condition policy = .ok ()
  resolved : ∀ condition ∈ conditions, (s.policy condition.name).retryInvalid = false

theorem Settings.validate_ok {s : Settings} : s.validate = .ok () ↔ s.Valid := by
  unfold validate
  simp only [refuse_ok, refuse_last_ok, check_ok, checks_ok]
  constructor
  · rintro ⟨hversion, hengine, hstale, hcommand, hdialogs, hoverrides, hresolved⟩
    simp only [Bool.or_eq_true, decide_eq_true_eq, not_or, not_le] at hengine
    refine ⟨not_not.mp hversion, Nat.pos_of_ne_zero hengine.1.1, hengine.1.2,
      Nat.pos_of_ne_zero hengine.2, not_le.mp hstale, hcommand, hdialogs, ?_, ?_⟩
    · intro condition policy hlookup
      have hentry := hoverrides _ (mem_inKeyOrder.mpr hlookup)
      exact ⟨by simpa using hentry.1, hentry.2⟩
    · exact fun condition hc => Bool.eq_false_iff.mpr (hresolved condition hc)
  · rintro ⟨hversion, hpoll, hwindow, hretention, hstale, hcommand, hdialogs, hoverrides, hresolved⟩
    refine ⟨not_not.mpr hversion, ?_, not_le.mpr hstale, hcommand, hdialogs, ?_, ?_⟩
    · simp only [Bool.or_eq_true, decide_eq_true_eq, not_or, not_le]
      exact ⟨⟨hpoll.ne', hwindow⟩, hretention.ne'⟩
    · rintro ⟨condition, policy⟩ hentry
      obtain ⟨hknown, hoverride⟩ := hoverrides _ _ (mem_inKeyOrder.mp hentry)
      exact ⟨by simpa using hknown, hoverride⟩
    · exact fun condition hc => Bool.eq_false_iff.mp (hresolved condition hc)

/-- Validated settings have a positive attempt window. -/
theorem Settings.attemptWindow_pos {s : Settings} (h : s.validate = .ok ()) :
    0 < s.engine.attemptWindowSeconds :=
  (validate_ok.mp h).attemptWindow

end Watchcat
