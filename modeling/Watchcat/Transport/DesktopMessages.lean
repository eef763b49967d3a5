import Watchcat.Base.Text
import Watchcat.Transport.CodexDesktop

/-!
# Messages through the Codex Desktop

A message is steered into the running turn of its session, or starts one. Where
the window that owns the session refuses because the state of the turn has
changed, the other way is tried, and at most once more the first. A random
identifier is drawn the same way for a request and for a message.
-/

namespace Watchcat

open Watchcat.Core Wire

/-- `TurnStateConflict`. -/
inductive TurnStateConflict
  | inactive
  | active
  deriving DecidableEq, Repr

/-- What a remote says where no turn is active. -/
def inactiveTexts : List String :=
  ["no active turn", "without an active turn", "not being streamed", "not currently active",
    "is not active", "active turn already ended"]

/-- What a remote says where a turn is active. -/
def activeTexts : List String := ["active turn", "already active", "already in progress"]

/-- The conflict that the text of a remote error names. -/
def conflictOf (text : String) : Option TurnStateConflict :=
  if inactiveTexts.any (containsText (asciiLowercase text)) then some .inactive
  else if activeTexts.any (containsText (asciiLowercase text)) then some .active
  else none

/-- `turn_state_conflict`. -/
def turnStateConflict (e : Error) : Option TurnStateConflict := e.remoteErrorMessage.bind conflictOf

/-- `DesktopMessageReceipt`; a message is either started as a turn or steered into one. -/
structure DesktopMessageReceipt where
  turnId : String
  steered : Bool
  deriving DecidableEq, Repr

/-- `restore_message`, at a time in milliseconds. -/
def restoreMessage (messageId message cwd : String) (createdAt : Nat) : Value :=
  .obj [("id", .str messageId), ("text", .str message), ("cwd", .str cwd),
    ("createdAt", .int createdAt),
    ("context", .obj [("prompt", .str message), ("addedFiles", .arr []),
      ("fileAttachments", .arr []), ("pastedTextAttachments", .arr []),
      ("generatedPastedTextAttachmentPaths", .arr []), ("ideContext", .null),
      ("imageAttachments", .arr []), ("commentAttachments", .arr []),
      ("mcpAppModelContextAttachments", .arr []), ("appshotContexts", .arr []),
      ("workspaceRoots", .arr [.str cwd])])]

/-- The turn of a steered message's response. -/
def steeredTurnId (response : Value) : Option String :=
  response.textAt [["result", "result", "turnId"], ["result", "turnId"], ["turnId"]]

/-- The turn of an interrupt's response. -/
def interruptedTurnId (response : Value) : Option String :=
  response.textAt [["result", "result", "interruptedTurnId"], ["result", "interruptedTurnId"],
    ["interruptedTurnId"]]

namespace CodexDesktopIpc

/-- `steer`. -/
def steer (owner sessionId messageId message cwd : String) (createdAt : Nat) :
    Wire CodexDesktopIpc DesktopMessageReceipt := do
  let response ← requestInner "thread-follower-steer-turn" 1
    (.obj [("conversationId", .str sessionId), ("clientUserMessageId", .str messageId),
      ("input", textInput message), ("serviceTier", .null), ("attachments", .arr []),
      ("additionalContext", .obj []),
      ("restoreMessage", restoreMessage messageId message cwd createdAt)]) (some owner) false
  match steeredTurnId response with
  | some turnId => return ⟨turnId, true⟩
  | none => Act.fail (.message "Codex Desktop accepted steer without a turn id")

/-- A started message. -/
def startMessage (owner sessionId messageId message : String) :
    Wire CodexDesktopIpc DesktopMessageReceipt := do
  return ⟨← startTurn owner sessionId messageId message, false⟩

/-- The turns of a message: steer, start where no turn is active, and steer again where one is
active by now. The times are those of the two steers. -/
def deliver (owner sessionId messageId message cwd : String) (first second : Nat) :
    Wire CodexDesktopIpc DesktopMessageReceipt := do
  match ← Act.attempt (steer owner sessionId messageId message cwd first) with
  | .ok receipt => return receipt
  | .error e =>
    if turnStateConflict e = some .inactive then
      match ← Act.attempt (startMessage owner sessionId messageId message) with
      | .ok receipt => return receipt
      | .error e =>
        if turnStateConflict e = some .active then
          steer owner sessionId messageId message cwd second
        else Act.fail e
    else Act.fail e

/-- `send_message`: none where no Desktop window owns the session. -/
def sendMessage (sessionId message cwd : String) (first second : Nat) :
    Wire CodexDesktopIpc (Option DesktopMessageReceipt) := do
  match ← discoverOwner sessionId with
  | none => return none
  | some owner =>
    let messageId ← perform .newRequestId
    return some (← deliver owner sessionId messageId message cwd first second)

/-- `interrupt`: none where no Desktop window owns the session. -/
def interrupt (sessionId expectedTurnId : String) : Wire CodexDesktopIpc (Option String) := do
  match ← discoverOwner sessionId with
  | none => return none
  | some owner =>
    let response ← requestInner "thread-follower-interrupt-turn" 4
      (.obj [("conversationId", .str sessionId), ("mode", .str "user-stop"),
        ("expectedTurnId", .str expectedTurnId)]) (some owner) false
    match interruptedTurnId response with
    | some turnId => return some turnId
    | none => Act.fail (.message "Codex Desktop accepted interrupt without a turn id")

end CodexDesktopIpc

end Watchcat
