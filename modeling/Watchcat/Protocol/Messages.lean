import Watchcat.Base.Value
import Watchcat.Settings.Config
import Watchcat.State.Runtime

/-!
# Local protocol messages

Requests carry their parameters as JSON and are decoded method by method, with
the defaults of the source. A response carries the record that the source
encodes as its result.
-/

namespace Watchcat

open Watchcat.Core Value

/-- `PROTOCOL_VERSION`. -/
def protocolVersion : Nat := 2

/-- `RpcRequest`. -/
structure RpcRequest where
  version : Nat
  id : String
  method : String
  params : Value := .null
  expectedRevision : Option Nat := none

/-- `SessionRef`. -/
structure SessionRef where
  provider : String
  sessionId : String
  deriving DecidableEq, Repr

/-- The key of the referenced session. -/
def SessionRef.key (s : SessionRef) : String := s.provider ++ ":" ++ s.sessionId

/-- `PolicyUpdate`. -/
structure PolicyUpdate where
  condition : String
  policy : PolicyOverride
  deriving DecidableEq, Repr

/-- `ManagedSessionQuery`. -/
structure ManagedSessionQuery where
  provider : Option String
  limit : Nat
  deriving DecidableEq, Repr

/-- `RetryRequest`. -/
structure RetryRequest where
  session : SessionRef
  requestKey : String
  deriving DecidableEq, Repr

/-- `SessionAdd`. -/
structure SessionAdd where
  session : SessionRef
  label : Option String
  validate : Bool
  deriving DecidableEq, Repr

/-- `SessionQuery`. -/
structure SessionQuery where
  provider : String
  limit : Nat
  query : String
  cursor : Option String
  deriving DecidableEq, Repr

/-- `SessionMessage`. -/
structure SessionMessage where
  session : SessionRef
  message : String
  deriving DecidableEq, Repr

/-- `ActivityQuery`. -/
structure ActivityQuery where
  session : SessionRef
  limit : Nat
  category : Option String
  reliabilityOnly : Bool
  deriving DecidableEq, Repr

/-- `MAX_ACTIVITY_ITEMS`. -/
def maxActivityItems : Nat := 500

/-- `ActivityQuery::validate`. -/
def ActivityQuery.validate (q : ActivityQuery) : Except Error Unit :=
  if q.limit = 0 ∨ maxActivityItems < q.limit then
    .error (.message ("activity limit must be between 1 and " ++ toString maxActivityItems))
  else .ok ()

/-- `Snapshot`, without the window-permission status. -/
structure Snapshot where
  generatedAt : Int
  revision : Nat
  watched : Nat
  attention : Nat
  attentionTargetKeys : List String
  automaticRecoveries : Nat
  handsFreePercent : Nat
  deriving DecidableEq, Repr

/-! ## Decoding of parameters -/

/-- The members of a session reference inside a flattened record. -/
def decodeSessionFields (fields : List (String × Value)) : Except Error SessionRef := do
  let provider ← defaulted fields "provider" "codex" decodeString
  let sessionId ← required fields "session_id" decodeString
  pure ⟨provider, sessionId⟩

/-- The members of a record with flattened parts: only an object has them. -/
def decodeFlattened (record : String) : Value → Except Error (List (String × Value))
  | .obj fields => .ok fields
  | v => .error (v.invalidType ("struct " ++ record))

/-- `decode::<SessionRef>`. -/
def decodeSessionRef (v : Value) : Except Error SessionRef := do
  let names := ["provider", "session_id"]
  let fields ← v.decodeFields "SessionRef" names
  let provider ← defaulted fields "provider" "codex" decodeString
  let sessionId ← requiredOf "SessionRef" names v fields "session_id" decodeString
  pure ⟨provider, sessionId⟩

/-- `decode::<RetryRequest>`. -/
def decodeRetryRequest (v : Value) : Except Error RetryRequest := do
  let fields ← decodeFlattened "RetryRequest" v
  let requestKey ← required fields "request_key" decodeString
  pure ⟨← decodeSessionFields fields, requestKey⟩

/-- `decode::<SessionAdd>`. -/
def decodeSessionAdd (v : Value) : Except Error SessionAdd := do
  let fields ← decodeFlattened "SessionAdd" v
  let label ← defaulted fields "label" none (decodeOption decodeString)
  let validate ← defaulted fields "validate" true decodeBool
  pure ⟨← decodeSessionFields fields, label, validate⟩

/-- `decode::<ManagedSessionQuery>`. -/
def decodeManagedSessionQuery (v : Value) : Except Error ManagedSessionQuery := do
  let fields ← v.decodeFields "ManagedSessionQuery" ["provider", "limit"]
  let provider ← defaulted fields "provider" none (decodeOption decodeString)
  let limit ← defaulted fields "limit" 100 decodeUsize
  pure ⟨provider, limit⟩

/-- `decode::<SessionQuery>`. -/
def decodeSessionQuery (v : Value) : Except Error SessionQuery := do
  let fields ← v.decodeFields "SessionQuery" ["provider", "limit", "query", "cursor"]
  let provider ← defaulted fields "provider" "codex" decodeString
  let limit ← defaulted fields "limit" 100 decodeUsize
  let query ← defaulted fields "query" "" decodeString
  let cursor ← defaulted fields "cursor" none (decodeOption decodeString)
  pure ⟨provider, limit, query, cursor⟩

/-- `decode::<SessionMessage>`. -/
def decodeSessionMessage (v : Value) : Except Error SessionMessage := do
  let fields ← decodeFlattened "SessionMessage" v
  let message ← required fields "message" decodeString
  pure ⟨← decodeSessionFields fields, message⟩

/-- `decode::<ActivityQuery>`. -/
def decodeActivityQuery (v : Value) : Except Error ActivityQuery := do
  let fields ← decodeFlattened "ActivityQuery" v
  let limit ← defaulted fields "limit" 50 decodeUsize
  let category ← defaulted fields "category" none (decodeOption decodeString)
  let reliabilityOnly ← defaulted fields "reliability_only" false decodeBool
  pure ⟨← decodeSessionFields fields, limit, category, reliabilityOnly⟩

/-- `decode::<PolicyOverride>`. -/
def decodePolicyOverride (v : Value) : Except Error PolicyOverride := do
  let fields ← v.decodeKnownFields "PolicyOverride" ["action", "backoff",
    "initial_delay_seconds", "max_delay_seconds", "max_attempts", "prompt"]
  let action ← defaulted fields "action" none (decodeOption decodePolicyAction)
  let backoff ← defaulted fields "backoff" none (decodeOption decodeBackoffKind)
  let initialDelaySeconds ←
    defaulted fields "initial_delay_seconds" none (decodeOption decodeU64)
  let maxDelaySeconds ← defaulted fields "max_delay_seconds" none (decodeOption decodeU64)
  let maxAttempts ← defaulted fields "max_attempts" none (decodeOption decodeUsize)
  let prompt ← defaulted fields "prompt" none (decodeOption decodeString)
  pure ⟨action, backoff, initialDelaySeconds, maxDelaySeconds, maxAttempts, prompt⟩

/-- `decode::<PolicyUpdate>`. -/
def decodePolicyUpdate (v : Value) : Except Error PolicyUpdate := do
  let names := ["condition", "policy"]
  let fields ← v.decodeFields "PolicyUpdate" names
  let condition ← requiredOf "PolicyUpdate" names v fields "condition" decodeString
  let policy ← requiredOf "PolicyUpdate" names v fields "policy" decodePolicyOverride
  pure ⟨condition, policy⟩

/-- `decode::<LifecycleSettings>`. -/
def decodeLifecycleSettings (v : Value) : Except Error LifecycleSettings := do
  let fields ← v.decodeKnownFields "LifecycleSettings" ["stale_after_seconds"]
  let default : LifecycleSettings := {}
  pure ⟨← defaulted fields "stale_after_seconds" default.staleAfterSeconds decodeI64⟩

/-- `decode::<DialogRule>`. -/
def decodeDialogRule (v : Value) : Except Error DialogRule := do
  let fields ← v.decodeKnownFields "DialogRule" ["enabled", "app", "title", "text", "button"]
  let enabled ← defaulted fields "enabled" true decodeBool
  let app ← defaulted fields "app" none (decodeOption decodeString)
  let title ← defaulted fields "title" none (decodeOption decodeString)
  let text ← defaulted fields "text" none (decodeOption decodeString)
  let button ← defaulted fields "button" none (decodeOption decodeString)
  pure ⟨enabled, app, title, text, button⟩

/-- A map from names to dialog rules. -/
def decodeDialogRules : Value → Except Error (Table String DialogRule)
  | .obj fields => fields.foldlM (fun table field => do
      pure (table.insert field.1 (← decodeDialogRule field.2))) .empty
  | v => .error (v.invalidType "a map")

/-- `decode::<DialogSettings>`. -/
def decodeDialogSettings (v : Value) : Except Error DialogSettings := do
  let fields ← v.decodeKnownFields "DialogSettings" ["rules"]
  let default : DialogSettings := {}
  pure ⟨← defaulted fields "rules" default.rules decodeDialogRules⟩

end Watchcat
