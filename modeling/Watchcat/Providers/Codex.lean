import Watchcat.State.Models
import Watchcat.Transport.CodexDesktop
import Watchcat.Transport.JsonRpc

/-!
# Resuming a Codex session

A recovery turn is started through the Desktop window that owns the session, or
through the App Server where there is none.
-/

namespace Watchcat

open Watchcat.Core Wire

/-- `CodexProvider`. -/
structure CodexProvider where
  client : JsonRpcClient
  started : Bool

namespace CodexProvider

/-- Use the App Server client. -/
def onClient {α : Type} (m : Wire JsonRpcClient α) : Wire CodexProvider α :=
  Act.zoom CodexProvider.client (fun c p => { p with client := c }) m

/-- `CodexProvider::start`; the parameters name the client and its version. -/
def start (version : String) : Wire CodexProvider Unit := do
  if (← Act.get).started then return ()
  onClient JsonRpcClient.start
  let _ ← Act.mapError (Error.context "cannot initialize Codex App Server")
    (onClient (JsonRpcClient.request "initialize" (.obj [
      ("clientInfo", .obj [("name", .str "watchcat"), ("title", .str "Watchcat"),
        ("version", .str version)]),
      ("capabilities", .obj [("experimentalApi", .bool true)])])))
  onClient (JsonRpcClient.notify "initialized" (.obj []))
  Act.modify fun p => { p with started := true }

/-- `ensure_started`. -/
def ensureStarted (version : String) : Wire CodexProvider Unit := do
  if (← Act.get).started then
    if ← onClient JsonRpcClient.isRunning then return ()
  Act.modify fun p => { p with started := false }
  start version

/-- `codex_message_params_with_id`. -/
def messageParams (sessionId message idempotencyKey : String) : Value :=
  .obj [("threadId", .str sessionId),
    ("input", .arr [.obj [("type", .str "text"), ("text", .str message)]]),
    ("clientUserMessageId", .str idempotencyKey)]

/-- The App Server part of `resume`. -/
def resumeAppServer (sessionId prompt idempotencyKey : String) :
    Wire CodexProvider ResumeReceipt := do
  let _ ← onClient (JsonRpcClient.request "thread/resume" (.obj [("threadId", .str sessionId)]))
  let result ← onClient (JsonRpcClient.requestWithUnknownAck "turn/start"
    (messageParams sessionId prompt idempotencyKey))
  match result.textAt [["turn", "id"]] with
  | some turnId => return ⟨"codex", sessionId, turnId, .appServer⟩
  | none => Act.fail (.message "Codex accepted turn/start without returning a turn id")

/-- `CodexProvider::resume`. -/
def resume (version sessionId prompt idempotencyKey : String) :
    Wire CodexProvider ResumeReceipt := do
  ensureStarted version
  match ← CodexDesktopIpc.connectDefault with
  | none => resumeAppServer sessionId prompt idempotencyKey
  | some desktop =>
    match ← Act.within desktop (CodexDesktopIpc.startRecovery sessionId prompt idempotencyKey) with
    | (some turnId, _) => return ⟨"codex", sessionId, turnId, .desktopIpc⟩
    | (none, _) => resumeAppServer sessionId prompt idempotencyKey

end CodexProvider

end Watchcat
