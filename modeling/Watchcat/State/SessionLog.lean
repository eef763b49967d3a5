import Watchcat.Base.Text
import Watchcat.Base.Value
import Watchcat.State.Models

/-!
# Session logs

What a provider or the event log tells about one session, one entry at a time.
-/

namespace Watchcat

/-- `SessionLog`. -/
structure SessionLog where
  timestamp : Option Int
  provider : String
  sessionId : String
  source : String
  kind : String
  role : Option String
  turnId : Option String
  condition : Option String
  message : String
  metadata : Value

/-- A value that may be absent, as JSON. -/
def Value.ofOption {α : Type} (encode : α → Value) : Option α → Value
  | some a => encode a
  | none => .null

/-- `MessageTransport` by name. -/
def MessageTransport.toValue : MessageTransport → Value
  | .appServer => .str "app_server"
  | .desktopIpc => .str "desktop_ipc"

/-- `ResumeReceipt` as JSON. -/
def ResumeReceipt.toValue (r : ResumeReceipt) : Value :=
  .obj [("provider", .str r.provider), ("session_id", .str r.sessionId),
    ("turn_id", .str r.turnId), ("transport", r.transport.toValue)]

/-- The metadata of the log entry of an event. -/
def EngineEvent.logMetadata (e : EngineEvent) : Value :=
  .obj [("attempt", .ofOption (fun n => .int (n : Nat)) e.attempt),
    ("max_attempts", .ofOption (fun n => .int (n : Nat)) e.maxAttempts),
    ("prompt", .ofOption .str e.prompt),
    ("receipt", .ofOption ResumeReceipt.toValue e.receipt),
    ("provider_code", .ofOption (fun f => .str f.providerCode) e.failure)]

/-- The log entry of an event for a provider and a session. -/
def EngineEvent.logOf (e : EngineEvent) (provider sessionId : String) : SessionLog where
  timestamp := some e.timestamp
  provider := provider
  sessionId := sessionId
  source := "watchcat"
  kind := e.kind
  role := none
  turnId := match e.failure with
    | some failure => some failure.turnId
    | none => e.receipt.map ResumeReceipt.turnId
  condition := e.condition
  message := e.message
  metadata := e.logMetadata

/-- `EngineEvent::as_session_log`. -/
def EngineEvent.asSessionLog (e : EngineEvent) : Option SessionLog :=
  (splitPair ':' e.target).map fun (provider, sessionId) => e.logOf provider sessionId

/-- `condition_category`. -/
def conditionCategory (condition : String) : String := textBefore '.' condition

/-- An entry of the category: by its condition or by the prefix of its kind. -/
def SessionLog.isOfCategory (entry : SessionLog) (category : String) : Bool :=
  entry.condition.any (fun condition => conditionCategory condition == category) ||
    textBefore '.' entry.kind == category

/-- The check of an optional category. -/
def SessionLog.passes (entry : SessionLog) (category : Option String) : Bool :=
  category.all entry.isOfCategory

/-- The entry is one of the session. -/
def SessionLog.isOf (entry : SessionLog) (provider sessionId : String) : Bool :=
  entry.provider == provider && entry.sessionId == sessionId

/-- The event is one of the session and of the category. -/
def EngineEvent.matchesQuery (provider sessionId : String) (category : Option String)
    (e : EngineEvent) : Bool :=
  e.target == provider ++ ":" ++ sessionId &&
    category.all fun c => e.condition.any (fun condition => conditionCategory condition == c) ||
      textBefore '.' e.kind == c

/-- The entry of an event passes a query where the event matches it: no provider name has a
colon. -/
theorem EngineEvent.filter_asSessionLog {provider sessionId : String} (category : Option String)
    (hcolon : ':' ∉ provider.toList) (e : EngineEvent) :
    (e.asSessionLog.filter fun entry => entry.isOf provider sessionId && entry.passes category) =
      if e.matchesQuery provider sessionId category then some (e.logOf provider sessionId)
      else none := by
  have hsplit : splitPair ':' e.target = some (provider, sessionId) ↔
      e.target = provider ++ ":" ++ sessionId := by
    rw [splitPair_eq_some, and_iff_left hcolon, ← String.toList_inj]
    simp
  rw [asSessionLog]
  by_cases htarget : e.target = provider ++ ":" ++ sessionId
  · rw [hsplit.mpr htarget, Option.map_some, Option.filter_some]
    simp only [SessionLog.isOf, logOf, beq_self_eq_true, Bool.and_self, Bool.true_and,
      matchesQuery, htarget]
    rfl
  · have hno : e.matchesQuery provider sessionId category = false := by
      simp [matchesQuery, htarget]
    rw [hno, if_neg Bool.false_ne_true]
    cases hs : splitPair ':' e.target with
    | none => rfl
    | some parts =>
      obtain ⟨p, s⟩ := parts
      have hne : ¬(p = provider ∧ s = sessionId) := by
        rintro ⟨rfl, rfl⟩
        exact htarget (hsplit.mp hs)
      rw [Option.map_some, Option.filter_some, if_neg]
      simp only [SessionLog.isOf, logOf, Bool.and_eq_true, beq_iff_eq]
      exact fun h => hne h.1

end Watchcat
