import Watchcat.Transport.Wire

/-!
# The Codex Desktop client

Requests over the frames of the local Desktop stream. While a request waits,
discovery requests of others are answered and everything else is skipped.
-/

namespace Watchcat

open Watchcat.Core Wire

/-- `CodexDesktopIpc`: the identifier under which the stream knows this client. -/
structure CodexDesktopIpc where
  clientId : String

/-- `MAX_FRAME_BYTES` of the Desktop protocol. -/
def maxDesktopFrameBytes : Nat := 256 * 1024 * 1024

/-- How the wait for a response ends. -/
inductive ResponseWait
  | response (message : Value)
  | failed (e : Error)
  | elapsed

/-- `read_frame` on what arrived. -/
def readFrame (length : Nat) (content : Option Value) : Except Error Value :=
  if length = 0 ∨ maxDesktopFrameBytes < length then
    .error (.message ("Codex Desktop IPC frame has invalid size: " ++ toString length))
  else match content with
    | some message => .ok message
    | none => .error (.context "Codex Desktop IPC returned invalid JSON" (.message "invalid JSON"))

/-- A message is the response to a request. -/
def isResponseTo (requestId : String) (message : Value) : Bool :=
  message.textMember "type" == some "response" && message.textMember "requestId" == some requestId

/-- A message that is to be answered while a request waits. -/
def isDiscoveryRequest (message : Value) : Bool :=
  message.textMember "type" == some "client-discovery-request" &&
    (message.textMember "requestId").isSome

/-- `read_response`. -/
def readResponse (requestId : String) : List FrameEvent → ResponseWait
  | [] => .elapsed
  | .failed e :: _ => .failed e
  | .frame length content replied :: events =>
    match readFrame length content with
    | .error e => .failed e
    | .ok message =>
      if isResponseTo requestId message then .response message
      else if isDiscoveryRequest message then
        match replied with
        | .error e => .failed e
        | .ok _ => readResponse requestId events
      else readResponse requestId events

/-- The checks of `request_inner` on a response. -/
def checkResponse (method : String) (response : Value) : Except Error Value :=
  if response.textMember "resultType" = some "error" then
    .error (.desktopRemote method ((response.textMember "error").getD "unknown-error"))
  else if response.textMember "resultType" ≠ some "success" then
    .error (.message ("Codex Desktop IPC returned an invalid response for " ++ method))
  else .ok response

/-- What `request_inner` makes of the wait for its response. -/
def settleResponse (method : String) (mayHaveStarted : Bool) : ResponseWait → Except Error Value
  | .response message => checkResponse method message
  | .failed e =>
    if mayHaveStarted then
      .error (.acknowledgementUnknown ("Codex Desktop IPC closed while waiting for " ++ method ++
        ": " ++ e.displayChain))
    else .error e
  | .elapsed =>
    if mayHaveStarted then
      .error (.acknowledgementUnknown ("Codex Desktop IPC request timed out: " ++ method))
    else .error (.message ("Codex Desktop IPC request timed out: " ++ method))

/-- `text_input`. -/
def textInput (message : String) : Value :=
  .arr [.obj [("type", .str "text"), ("text", .str message), ("text_elements", .arr [])]]

/-- The text of a started turn's response. -/
def startedTurnId (response : Value) : Option String :=
  response.textAt [["result", "result", "turn", "id"], ["result", "turn", "id"], ["turn", "id"]]

namespace CodexDesktopIpc

/-- `request_inner`. -/
def requestInner (method : String) (version : Nat) (params : Value) (target : Option String)
    (mayHaveStarted : Bool) : Wire CodexDesktopIpc Value := do
  let requestId ← perform .newRequestId
  let client ← Act.get
  let message := Value.obj ([("type", .str "request"), ("requestId", .str requestId),
    ("sourceClientId", .str client.clientId), ("version", .int version), ("method", .str method),
    ("params", params), ("timeoutMs", .int 10000)] ++
    (target.map fun t => ("targetClientId", Value.str t)).toList)
  Act.ofExcept (← perform (.writeFrame message))
  let frames ← perform (.awaitResponse requestId)
  Act.ofExcept (settleResponse method mayHaveStarted (readResponse requestId frames))

/-- `initialize`. -/
def initializeClient : Wire CodexDesktopIpc Unit := do
  let response ← requestInner "initialize" 0 (.obj [("clientType", .str "watchcat")]) none false
  match response.textAt [["result", "clientId"]] with
  | some id => Act.modify fun _ => ⟨id⟩
  | none => Act.fail (.message "Codex Desktop IPC initialize returned no client id")

/-- `connect_default`: none where Desktop exposes no router. -/
def connectDefault {σ : Type} : Wire σ (Option CodexDesktopIpc) := do
  if ← Act.ofExcept (← perform .connectDesktop) then
    let client ← Act.within ⟨"initializing-client"⟩
      (Act.mapError (Error.context "Codex Desktop IPC is present but incompatible")
        initializeClient)
    return some client.2
  else return none

/-- `discover_owner`. -/
def discoverOwner (sessionId : String) : Wire CodexDesktopIpc (Option String) := do
  match ← Act.attempt (requestInner "thread-owner-discovery" 1
      (.obj [("hostId", .str "local"), ("conversationId", .str sessionId)]) none false) with
  | .ok response =>
    match response.textAt [["result", "handledByClientId"], ["handledByClientId"]] with
    | some owner => return some owner
    | none => Act.fail (.message "Codex Desktop owner discovery returned no owner id")
  | .error e => if e.remoteErrorMessage = some "no-client-found" then return none else Act.fail e

/-- `start_turn`. -/
def startTurn (owner sessionId messageId message : String) : Wire CodexDesktopIpc String := do
  let response ← requestInner "thread-follower-start-turn" 1
    (.obj [("conversationId", .str sessionId),
      ("turnStartParams", .obj [("clientUserMessageId", .str messageId),
        ("input", textInput message), ("attachments", .arr []),
        ("useAppServerPermissionDefault", .bool true)]),
      ("mcpAppModelContextAttachments", .arr [])]) (some owner) true
  match startedTurnId response with
  | some turnId => return turnId
  | none => Act.fail (.message "Codex Desktop accepted turn start without a turn id")

/-- `start_recovery`: none where no Desktop window owns the session. -/
def startRecovery (sessionId message idempotencyKey : String) :
    Wire CodexDesktopIpc (Option String) := do
  match ← discoverOwner sessionId with
  | none => return none
  | some owner => return some (← startTurn owner sessionId idempotencyKey message)

end CodexDesktopIpc

end Watchcat
