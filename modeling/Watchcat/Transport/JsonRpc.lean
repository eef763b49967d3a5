import Watchcat.Transport.Wire

/-!
# The App Server client

JSON-RPC over the lines of a child process. A request waits for the line with
its identifier; the end of the output answers every waiting request with an
error.
-/

namespace Watchcat

open Watchcat.Core Wire

/-- `JsonRpcClient`: whether the process and its input are there, and the next identifier. -/
structure JsonRpcClient where
  child : Bool
  stdin : Bool
  nextId : Nat

/-- How the wait for a reply ends. -/
inductive ReplyWait
  | answered (result : Except Error Value)
  | dropped
  | elapsed

/-- `parse_rpc_error`. -/
def parseRpcError (error : Value) : Error :=
  .jsonRpc (((error.get "code").bind Value.asI64).getD (-32000))
    ((error.textMember "message").getD "unknown error")

/-- What a reply answers its request with. -/
def replyResult (message : Value) : Except Error Value :=
  match message.get "error" with
  | some error => .error (parseRpcError error)
  | none => .ok ((message.get "result").getD .null)

/-- A line is the reply to a request if it has its identifier and names no method. -/
def isReplyTo (id : Nat) (message : Value) : Bool :=
  (message.textMember "method").isNone && ((message.get "id").bind Value.asU64 == some id)

/-- The reader task, as far as one waiting request sees it. -/
def readReply (id : Nat) : List ReaderEvent → ReplyWait
  | [] => .elapsed
  | .line none :: events => readReply id events
  | .line (some message) :: events =>
    if isReplyTo id message then .answered (replyResult message) else readReply id events
  | .closed :: _ => .answered (.error (.message "app-server stdout closed"))
  | .failed _ :: _ => .answered (.error (.message "app-server stdout closed"))
  | .dropped :: _ => .dropped

namespace JsonRpcClient

/-- `reset_process`; nothing else waits while a method has the client. -/
def resetProcess : Wire JsonRpcClient Unit :=
  Act.modify fun c => { c with child := false, stdin := false }

/-- `discard_unhealthy_process`. -/
def discardUnhealthyProcess : Wire JsonRpcClient Unit := do
  perform .discard
  resetProcess

/-- `is_running`. -/
def isRunning : Wire JsonRpcClient Bool := do
  if !(← Act.get).child then return false
  else if ← Act.ofExcept (← perform .childExited) then
    resetProcess
    return false
  else return true

/-- `JsonRpcClient::start`. -/
def start : Wire JsonRpcClient Unit := do
  if (← Act.get).child then
    if !(← Act.ofExcept (← perform .childExited)) then return ()
    resetProcess
  Act.ofExcept (← perform .spawn)
  Act.modify fun c => { c with child := true, stdin := true }

/-- `send`. -/
def send (message : Value) : Wire JsonRpcClient Unit := do
  if (← Act.get).stdin then Act.ofExcept (← perform (.writeLine message))
  else Act.fail (.message "JSON-RPC process is not running")

/-- An error of a request without an answer. -/
def unanswered (mayHaveStarted : Bool) (text : String) : Error :=
  if mayHaveStarted then .acknowledgementUnknown text else .message text

/-- `request_inner`. -/
def requestInner (method : String) (params : Value) (mayHaveStarted : Bool) :
    Wire JsonRpcClient Value := do
  let id ← Act.update fun c => (c.nextId, { c with nextId := c.nextId + 1 })
  let message : Value := .obj [("method", .str method), ("id", .int id), ("params", params)]
  match ← Act.attempt (send message) with
  | .error e => do
    discardUnhealthyProcess
    Act.fail e
  | .ok _ =>
    match readReply id (← perform (.awaitReply id)) with
    | .answered result => Act.ofExcept result
    | .dropped => do
      discardUnhealthyProcess
      Act.fail (unanswered mayHaveStarted ("app-server closed while waiting for " ++ method))
    | .elapsed => do
      discardUnhealthyProcess
      Act.fail (unanswered mayHaveStarted ("app-server request timed out: " ++ method))

/-- `request`. -/
def request (method : String) (params : Value) : Wire JsonRpcClient Value :=
  requestInner method params false

/-- `request_with_unknown_ack`. -/
def requestWithUnknownAck (method : String) (params : Value) : Wire JsonRpcClient Value :=
  requestInner method params true

/-- `notify`. -/
def notify (method : String) (params : Value) : Wire JsonRpcClient Unit :=
  send (.obj [("method", .str method), ("params", params)])

end JsonRpcClient

end Watchcat
