import Watchcat.Base.Value

/-!
# Classifying Codex errors

The structured error of a failed Codex turn is mapped to a registered condition.
The code and the HTTP status are searched for independently: the code among the
keys of the error information, the status in it and then in all its entries.
-/

namespace Watchcat

/-- `ClassifiedError`. -/
structure ClassifiedError where
  condition : String
  providerCode : String
  retryAfterSeconds : Option Nat
  scope : Option String
  deriving DecidableEq, Repr

/-- The codes of the protocol with the names under which they are reported. -/
def knownErrorCodes : List (String × String) :=
  [("httpConnectionFailed", "HttpConnectionFailed"),
    ("responseStreamConnectionFailed", "ResponseStreamConnectionFailed"),
    ("responseStreamDisconnected", "ResponseStreamDisconnected"),
    ("responseTooManyFailedAttempts", "ResponseTooManyFailedAttempts"),
    ("contextWindowExceeded", "ContextWindowExceeded"),
    ("usageLimitExceeded", "UsageLimitExceeded"),
    ("badRequest", "BadRequest"),
    ("unauthorized", "Unauthorized"),
    ("sandboxError", "SandboxError"),
    ("internalServerError", "InternalServerError")]

/-- `canonical_error_code`. -/
def canonicalErrorCode (code : String) : String := (knownErrorCodes.lookup code).getD "Other"

/-- `codex_error_code`: a code, or an object with exactly one key that is a known code. -/
def codexErrorCode : Option Value → String
  | some (.str code) => canonicalErrorCode code
  | some (.obj fields) =>
    let known := (fields.map fun field => canonicalErrorCode field.1).filter (· ≠ "Other")
    match known with
    | [code] => code
    | _ => "Other"
  | _ => "Other"

/-- The HTTP status a value carries itself. -/
def Value.httpStatusCode (v : Value) : Option Nat := (v.get "httpStatusCode").bind Value.asU64

/-- `http_status`: the object's own status, or that of its first entry with one. -/
def httpStatus : Option Value → Option Nat
  | some (.obj fields) =>
    match (Value.obj fields).httpStatusCode with
    | some status => some status
    | none => fields.findSome? fun field => field.2.httpStatusCode
  | _ => none

/-- `retry_after`. -/
def retryAfter (error : Value) : Option Nat :=
  ((error.pointer ["additionalDetails", "retryAfterSeconds"]).bind Value.asU64).or
    ((error.pointer ["codexErrorInfo", "retryAfterSeconds"]).bind Value.asU64)

/-- The condition and scope of a failed HTTP connection. -/
def httpConnectionCondition : Option Nat → String × Option String
  | some 408 => ("network.timeout", none)
  | some 409 | some 425 => ("service.conflict", none)
  | some 429 => ("capacity.rate_limited", none)
  | some 529 => ("capacity.service_overloaded", some "service")
  | some 401 | some 403 => ("auth.invalid", none)
  | some 413 => ("request.too_large", none)
  | some status =>
    if 400 ≤ status && status < 500 then ("request.invalid", none)
    else if 500 ≤ status then ("service.server_error", none)
    else ("network.connection_failed", none)
  | none => ("network.connection_failed", none)

/-- The condition and scope of a code, with the status for a failed HTTP connection. -/
def codeCondition (code : String) (status : Option Nat) : String × Option String :=
  match code with
  | "ContextWindowExceeded" => ("context.window_exceeded", none)
  | "UsageLimitExceeded" => ("quota.usage_exhausted", none)
  | "HttpConnectionFailed" => httpConnectionCondition status
  | "ResponseStreamConnectionFailed" | "ResponseStreamDisconnected" =>
    ("network.stream_failed", none)
  | "ResponseTooManyFailedAttempts" => ("retry.provider_exhausted", none)
  | "BadRequest" => ("request.invalid", none)
  | "Unauthorized" => ("auth.invalid", none)
  | "SandboxError" => ("sandbox.failed", none)
  | "InternalServerError" => ("service.server_error", none)
  | _ => ("failure.unknown", none)

/-- `classify_codex_error`. -/
def classifyCodexError (error : Value) : ClassifiedError :=
  let info := error.get "codexErrorInfo"
  let code := codexErrorCode info
  let classified := codeCondition code (httpStatus info)
  { condition := classified.1
    providerCode := code
    retryAfterSeconds := retryAfter error
    scope := classified.2 }

/-- An overloaded service is told from a used-up quota. -/
example : (classifyCodexError (.obj [("codexErrorInfo",
    .obj [("httpConnectionFailed", .obj [("httpStatusCode", .int 529)])])])).condition =
    "capacity.service_overloaded" := by decide

end Watchcat
