import Watchcat.Base.Text

/-!
# Failure conditions

The registry of stable condition names with their default policy, as listed in
the source.
-/

namespace Watchcat

/-- What a policy does with a failure. -/
inductive PolicyAction
  | retry
  | skip
  deriving DecidableEq, Repr

/-- How the delay of a retry policy grows. -/
inductive BackoffKind
  | fixed
  | exponential
  deriving DecidableEq, Repr

/-- One registered condition with its default policy. -/
structure ConditionDefinition where
  name : String
  description : String
  action : PolicyAction
  backoff : Option BackoffKind
  initialDelaySeconds : Nat
  maxDelaySeconds : Nat
  maxAttempts : Nat
  deriving DecidableEq, Repr

/-- The prompt of a retry policy without a custom prompt. -/
def defaultPrompt : String :=
  "Continue the previous unfinished task. Inspect the latest checkpoint and persisted changes " ++
    "first. Do not repeat completed work."

theorem defaultPrompt_not_blank : isBlank defaultPrompt = false := by decide +kernel

namespace ConditionDefinition

/-- A condition retried by default, with exponential backoff and five attempts. -/
def retry (name description : String) (initialDelaySeconds maxDelaySeconds : Nat) :
    ConditionDefinition :=
  ⟨name, description, .retry, some .exponential, initialDelaySeconds, maxDelaySeconds, 5⟩

/-- A condition skipped by default. -/
def skip (name description : String) : ConditionDefinition :=
  ⟨name, description, .skip, none, 0, 0, 0⟩

end ConditionDefinition

open ConditionDefinition in
/-- `CONDITIONS`. -/
def conditions : List ConditionDefinition :=
  [retry "network.connection_failed" "Could not establish or maintain a provider connection" 5 120,
    retry "network.stream_failed" "The provider response stream failed or disconnected" 5 120,
    retry "network.timeout" "A provider request timed out" 10 180,
    retry "capacity.model_overloaded" "The selected model is temporarily overloaded" 15 300,
    retry "capacity.service_overloaded" "The provider service is temporarily overloaded" 15 300,
    retry "capacity.rate_limited" "The provider temporarily limited request throughput" 30 600,
    retry "capacity.server_throttled" "The provider temporarily throttled requests" 15 300,
    retry "service.server_error" "The provider returned a transient server error" 10 300,
    retry "service.conflict" "The provider rejected a transient conflicting request" 5 120,
    retry "retry.provider_exhausted" "The provider exhausted its internal retry attempts" 15 300,
    skip "auth.invalid" "Authentication is missing, invalid, or expired",
    skip "billing.required" "Billing or credits require user action",
    skip "capability.model_unavailable" "The requested model is unavailable to this account",
    skip "capability.access_denied" "The account or organization cannot use this capability",
    skip "capability.feature_unsupported"
      "The selected model does not support a requested feature",
    skip "capability.entitlement_required" "The requested capability requires another entitlement",
    skip "capability.verification_required"
      "The provider requires additional account verification",
    skip "context.window_exceeded" "The request exceeded the model context window",
    skip "context.output_limit" "The response reached the model output-token limit",
    skip "quota.usage_exhausted" "The account usage allowance is exhausted",
    skip "request.invalid" "The provider rejected the request as invalid",
    skip "request.too_large" "The request exceeded the provider size limit",
    skip "sandbox.failed" "The local execution sandbox failed",
    skip "failure.unknown" "The provider failure could not be classified safely"]

/-- `definition`: the registered condition of a name. -/
def definition (name : String) : Option ConditionDefinition :=
  conditions.find? fun condition => condition.name == name

/-- `is_known`. -/
def isKnown (name : String) : Bool := (definition name).isSome

/-- The condition that stands in for an unregistered name. -/
def unknownCondition : ConditionDefinition :=
  .skip "failure.unknown" "The provider failure could not be classified safely"

/-- The condition whose numbers complete a retry override of a skipped condition. -/
def retryDefaults : ConditionDefinition :=
  .retry "network.connection_failed" "Could not establish or maintain a provider connection" 5 120

/-- Both stand in the table under their names. -/
example : definition "failure.unknown" = some unknownCondition ∧
    definition "network.connection_failed" = some retryDefaults := by decide

/-- A registered condition retries with positive growing delays, or skips with no numbers. -/
theorem conditions_wellFormed : ∀ c ∈ conditions,
    (c.action = .retry → c.backoff.isSome ∧ 0 < c.initialDelaySeconds ∧
      c.initialDelaySeconds ≤ c.maxDelaySeconds ∧ 0 < c.maxAttempts) ∧
    (c.action = .skip → c.backoff = none) := by decide

/-- Condition names are registered once. -/
theorem conditions_names_nodup : (conditions.map ConditionDefinition.name).Nodup := by decide

end Watchcat
