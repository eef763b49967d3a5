import Watchcat.Base.Clock
import Watchcat.Base.Jsonl
import Watchcat.Core.File
import Watchcat.Core.Recent
import Watchcat.OsPermissions.Accessibility

/-!
# The dialog event log

One file of event records with one writer. A write that fails is rolled back;
where that fails too, the log refuses every further event until the service
restarts, which cuts an unfinished last line off.
-/

namespace Watchcat

open Watchcat.Core

/-- `events::Event`. -/
structure LoggedEvent extends DialogEvent where
  timestamp : Int
  deriving DecidableEq, Repr

/-- A method on the file of the log. -/
abbrev EventsIo (σ α : Type) : Type := FileAct σ Error α

section Read

variable (codec : Codec LoggedEvent) (path : String)

/-- `serde_json::from_str` on a line with its newline. -/
def decodeEvent (line : Bytes) : Except Error LoggedEvent :=
  if isUtf8 line then
    (codec.decode (line ++ [newline])).mapError (Error.context ("invalid dialog event in " ++ path))
  else .error invalidUtf8

/-- The loop of `read` over the complete lines. -/
def scanEvents (clicksOnly : Bool) (limit : Nat) :
    List Bytes → List LoggedEvent → Except Error (List LoggedEvent)
  | [], entries => .ok entries
  | line :: lines, entries =>
    match decodeEvent codec path line with
    | .error e => .error e
    | .ok event =>
      if clicksOnly && (stripPrefix "click." event.kind).isNone then
        scanEvents clicksOnly limit lines entries
      else scanEvents clicksOnly limit lines (pushRecent limit entries event)

/-- `read` on the content of the file; an unfinished last line is left for the next call. -/
def readContent (clicksOnly : Bool) (limit : Nat) (content : Bytes) :
    Except Error (List LoggedEvent) :=
  match scanEvents codec path clicksOnly limit (linesOf newline content) [] with
  | .error e => .error e
  | .ok entries =>
    if isUtf8 (unfinished newline content) then .ok entries else .error invalidUtf8

/-- `read`. -/
def readEvents {σ : Type} (clicksOnly : Bool) (limit : Nat) : EventsIo σ (List LoggedEvent) := do
  match ← Act.ofExcept (← Act.perform .read) with
  | none => return []
  | some content => Act.ofExcept (readContent codec path clicksOnly limit content)

end Read

/-! ## The log -/

/-- `Log`. -/
structure Log where
  path : String
  count : Nat
  retention : Nat
  repairRequired : Bool
  deriving DecidableEq, Repr

namespace Log

/-- The length of the content up to its last newline. -/
def completeLength (content : Bytes) : Nat := (content.rdropWhile (· ≠ newline)).length

/-- Cut an unfinished last line off. -/
def trim (content : Bytes) : EventsIo Unit Unit :=
  if content ≠ [] ∧ content.getLast? ≠ some newline then do
    Act.ofExcept (← Act.perform .openExisting)
    Act.ofExcept (← Act.perform (.setLen (completeLength content)))
  else Act.ret ()

/-- `Log::new`; a missing file has nothing to cut off. -/
def new (codec : Codec LoggedEvent) (path : String) (retention : Nat) : EventsIo Unit Log := do
  let content ← Act.ofExcept (← Act.perform .read)
  trim (content.getD [])
  let entries ← readEvents codec path false u64Max
  return ⟨path, entries.length, retention, false⟩

/-- Replace the file by its last records. -/
def compactEvents (codec : Codec LoggedEvent) : EventsIo Log Unit := do
  let log ← Act.get
  let entries ← readEvents codec log.path false log.retention
  Act.ofExcept (← Act.perform (.replace (codec.records entries)))
  Act.modify fun log => { log with count := entries.length }

/-- The part of `append_with` after the write. -/
def settleWrite (codec : Codec LoggedEvent) (completeLength : Nat) :
    Except Error Unit → EventsIo Log Unit
  | .error e => do
    let restored : Except Error Unit ← Act.perform (FileCall.setLen completeLength)
    match restored with
    | .error repairError =>
      Act.modify fun log => { log with repairRequired := true }
      Act.fail (.context ("cannot restore dialog log: " ++ repairError.display) e)
    | .ok _ => Act.fail e
  | .ok _ => do
    Act.modify fun log => { log with count := log.count + 1 }
    let log ← Act.get
    if saturatingMul log.retention 2 < log.count then compactEvents codec else return ()

/-- `append`. -/
def append (codec : Codec LoggedEvent) (event : LoggedEvent) : EventsIo Log Unit := do
  let log ← Act.get
  if log.repairRequired then
    Act.fail (.message "dialog log needs repair; restart the service")
  else do
    Act.ofExcept (← Act.perform .createParent)
    Act.ofExcept (← Act.perform .openAppend)
    let bytes := codec.encode event ++ [newline]
    let completeLength ← Act.ofExcept (← Act.perform .length)
    let outcome ← Act.attempt
      (writeAll (.message "failed to write whole buffer") bytes.length bytes : EventsIo Log Unit)
    settleWrite codec completeLength outcome

end Log

end Watchcat
