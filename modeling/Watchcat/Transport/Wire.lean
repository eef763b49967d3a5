import Watchcat.Base.Value
import Watchcat.Core.Imperative

/-!
# The calls of the Codex transports

What the two transports do outside their own values: the App Server process with
its input and output lines, and the Desktop stream with its frames. Waiting for
an answer is one call: it yields everything that arrives before the time limit
of the request, which the code then reads in order.
-/

namespace Watchcat

open Watchcat.Core

/-- What the reader of the App Server output meets. -/
inductive ReaderEvent
  /-- A line, parsed; none where it is not JSON. -/
  | line (message : Option Value)
  /-- The end of the output. -/
  | closed
  /-- A read that fails. -/
  | failed (e : Error)
  /-- The waiting end was dropped without an answer. -/
  | dropped

/-- What arrives on the Desktop stream. -/
inductive FrameEvent
  /-- A read that fails, also at the end of the stream. -/
  | failed (e : Error)
  /-- A frame with its length and its content, where it is JSON, and how the reply to it was
  written, where it is a discovery request. -/
  | frame (length : Nat) (content : Option Value) (replied : Except Error Unit)

/-- A call of a transport. -/
inductive WireCall
  -- the App Server process
  | childExited
  | spawn
  | discard
  | writeLine (message : Value)
  | awaitReply (id : Nat)
  -- the Desktop stream
  | connectDesktop
  | newRequestId
  | writeFrame (message : Value)
  | awaitResponse (requestId : String)

/-- The answer of a call of a transport. -/
@[reducible] def WireReply : WireCall → Type
  | .childExited => Except Error Bool
  | .spawn => Except Error Unit
  | .discard => Unit
  | .writeLine _ => Except Error Unit
  | .awaitReply _ => List ReaderEvent
  | .connectDesktop => Except Error Bool
  | .newRequestId => String
  | .writeFrame _ => Except Error Unit
  | .awaitResponse _ => List FrameEvent

/-- A method of a transport. -/
abbrev Wire (σ α : Type) : Type := Act WireReply σ Error α

namespace Wire

variable {σ : Type}

/-- Perform a call. -/
def perform (op : WireCall) : Wire σ (WireReply op) := Act.perform op

end Wire

/-- A text member of an object. -/
def Value.textMember (v : Value) (name : String) : Option String := (v.get name).bind Value.asStr

/-- The first of some paths that leads to a member, if it is a text. -/
def Value.textAt (v : Value) (paths : List (List String)) : Option String :=
  (paths.findSome? fun path => v.pointer path).bind Value.asStr

end Watchcat
