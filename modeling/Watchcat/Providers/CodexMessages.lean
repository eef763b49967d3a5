import Watchcat.Daemon.Types
import Watchcat.Providers.Codex
import Watchcat.Transport.DesktopMessages

/-!
# Messages to Codex sessions

A message or an interrupt goes through the Desktop window that owns the session,
or through the App Server where there is none.
-/

namespace Watchcat

open Watchcat.Core Wire

/-- `codex_message_params`. -/
def codexMessageParams (sessionId message : String) : Value :=
  .obj [("threadId", .str sessionId),
    ("input", .arr [.obj [("type", .str "text"), ("text", .str message)]]),
    ("clientUserMessageId", .null)]

/-- `codex_steer_params`. -/
def codexSteerParams (sessionId turnId message : String) : Value :=
  .obj [("threadId", .str sessionId), ("expectedTurnId", .str turnId),
    ("input", .arr [.obj [("type", .str "text"), ("text", .str message)]])]

/-- The identifier of a turn that is in progress. -/
def activeTurn (turn : Option Value) : Option String :=
  (turn.filter fun turn => turn.textMember "status" == some "inProgress").bind
    (·.textMember "id")

/-- The turn of a resumed thread that is in progress. -/
def resumedTurn (resumed : Value) : Option String :=
  activeTurn (((resumed.pointer ["thread", "turns"]).bind Value.asArray).bind List.getLast?)

/-- `codex_message_request`: the method, its parameters, and whether it steers. -/
def codexMessageRequest (resumed : Value) (sessionId message : String) : String × Value × Bool :=
  match resumedTurn resumed with
  | some turnId => ("turn/steer", codexSteerParams sessionId turnId message, true)
  | none => ("turn/start", codexMessageParams sessionId message, false)

namespace CodexProvider

/-- `session_cwd`, where the current directory of the process is known. -/
def sessionCwd (currentDirectory sessionId : String) : Wire CodexProvider String := do
  match ← Act.attempt (onClient (JsonRpcClient.request "thread/read"
      (.obj [("threadId", .str sessionId), ("includeTurns", .bool false)]))) with
  | .ok thread =>
    return ((thread.textAt [["thread", "cwd"]]).filter (· ≠ "")).getD currentDirectory
  | .error _ => return currentDirectory

/-- `active_turn_id`. -/
def activeTurnId (sessionId : String) : Wire CodexProvider (Option String) := do
  let result ← onClient (JsonRpcClient.request "thread/turns/list"
    (.obj [("threadId", .str sessionId), ("limit", .int 1), ("sortDirection", .str "desc"),
      ("itemsView", .str "notLoaded")]))
  return activeTurn (((result.get "data").bind Value.asArray).bind List.head?)

/-- The App Server part of `send_message`. -/
def sendAppServer (sessionId message : String) : Wire CodexProvider MessageReceipt := do
  let resumed ← onClient (JsonRpcClient.request "thread/resume"
    (.obj [("threadId", .str sessionId)]))
  let (method, params, steered) := codexMessageRequest resumed sessionId message
  let result ← onClient (JsonRpcClient.request method params)
  match result.textAt [if steered then ["turnId"] else ["turn", "id"]] with
  | some turnId => return ⟨"codex", sessionId, turnId, steered, .appServer⟩
  | none => Act.fail (.message ("Codex accepted " ++ method ++ " without returning a turn id"))

/-- `CodexProvider::send_message`; the times are those of the steers. -/
def sendMessage (version currentDirectory sessionId message : String) (first second : Nat) :
    Wire CodexProvider MessageReceipt := do
  ensureStarted version
  match ← CodexDesktopIpc.connectDefault with
  | none => sendAppServer sessionId message
  | some desktop =>
    let cwd ← sessionCwd currentDirectory sessionId
    match ← Act.within desktop
        (CodexDesktopIpc.sendMessage sessionId message cwd first second) with
    | (some receipt, _) =>
      return ⟨"codex", sessionId, receipt.turnId, receipt.steered, .desktopIpc⟩
    | (none, _) => sendAppServer sessionId message

/-- The App Server part of `interrupt`. -/
def interruptAppServer (sessionId turnId : String) : Wire CodexProvider InterruptReceipt := do
  let _ ← onClient (JsonRpcClient.request "thread/resume" (.obj [("threadId", .str sessionId)]))
  let _ ← onClient (JsonRpcClient.request "turn/interrupt"
    (.obj [("threadId", .str sessionId), ("turnId", .str turnId)]))
  return ⟨"codex", sessionId, turnId, .appServer⟩

/-- `CodexProvider::interrupt`. -/
def interrupt (version sessionId : String) : Wire CodexProvider InterruptReceipt := do
  ensureStarted version
  match ← activeTurnId sessionId with
  | none => Act.fail (.message ("Codex session " ++ sessionId ++ " has no active turn"))
  | some turnId =>
    match ← CodexDesktopIpc.connectDefault with
    | none => interruptAppServer sessionId turnId
    | some desktop =>
      match ← Act.within desktop (CodexDesktopIpc.interrupt sessionId turnId) with
      | (some interrupted, _) => return ⟨"codex", sessionId, interrupted, .desktopIpc⟩
      | (none, _) => interruptAppServer sessionId turnId

end CodexProvider

end Watchcat
