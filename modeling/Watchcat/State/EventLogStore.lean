import Watchcat.Base.Clock
import Watchcat.Base.Jsonl
import Watchcat.Core.File
import Watchcat.Core.Recent
import Watchcat.State.SessionLog

/-!
# The event log

One file of event records. Appending writes each record and its newline part by
part and compacts the file once it holds more than twice the records to retain.
A query reads the whole file and keeps the last entries of one session.
-/

namespace Watchcat

open Watchcat.Core

/-- `EventLogStore`; the calls are on the file at its path. -/
structure EventLogStore where
  path : String
  retention : Nat

namespace EventLogStore

/-- `std::fs` on a missing file. -/
def notFound : Error := .message "No such file or directory (os error 2)"

/-- `Write::write_all`. -/
def writeBytes {σ : Type} (content : Bytes) : FileAct σ Error Unit :=
  writeAll (.message "failed to write whole buffer") content.length content

/-- One record of an append: the event and its newline. -/
def writeEvent (codec : Codec EngineEvent) (event : EngineEvent) : FileAct Unit Error Unit := do
  writeBytes (codec.encode event)
  writeBytes [newline]

/-- Open and read the file, which must be there. -/
def readExisting : FileAct Unit Error Bytes := do
  match ← Act.ofExcept (← Act.perform .read) with
  | some content => return content
  | none => Act.fail notFound

/-- `count_lines`. -/
def countLines : FileAct Unit Error Nat := do
  if ← Act.perform .isPresent then return (lineItems (← readExisting)).length
  else return 0

/-- What `compact` writes back. -/
def compacted (retention : Nat) (content : Bytes) : Bytes :=
  unlines newline ((lineItems content).rtake retention)

/-- `compact`. -/
def compact (store : EventLogStore) : FileAct Unit Error Unit := do
  let content ← readExisting
  if (lineItems content).all isUtf8 then
    Act.ofExcept (← Act.perform (.replace (compacted store.retention content)))
  else Act.fail invalidUtf8

/-- The end of `append`: compact the file where it has grown too long. -/
def compactIfLong (store : EventLogStore) : FileAct Unit Error Unit := do
  let lines ← countLines
  if saturatingMul store.retention 2 < lines then compact store else return ()

/-- `append`. -/
def append (codec : Codec EngineEvent) (store : EventLogStore) (events : List EngineEvent) :
    FileAct Unit Error Unit :=
  if events = [] then Act.ret ()
  else do
    Act.ofExcept (← Act.perform .createParent)
    Act.ofExcept (← Act.perform .openAppend)
    Act.forEach (writeEvent codec) events
    Act.ofExcept (← Act.perform .flush)
    compactIfLong store

/-! ## Queries -/

/-- The entry of an event where it is asked for. -/
def queried (provider sessionId : String) (category : Option String) (event : EngineEvent) :
    Option SessionLog :=
  event.asSessionLog.filter fun entry => entry.isOf provider sessionId && entry.passes category

/-- The loop of `session_logs` over the lines. -/
def scanLogs (codec : Codec EngineEvent) (path provider sessionId : String)
    (category : Option String) (limit : Nat) :
    List Bytes → List SessionLog → Except Error (List SessionLog)
  | [], logs => .ok logs
  | line :: lines, logs =>
    if isUtf8 line then
      match codec.decode line with
      | .error e => .error (.context ("invalid event log entry in " ++ path) e)
      | .ok event =>
        match queried provider sessionId category event with
        | none => scanLogs codec path provider sessionId category limit lines logs
        | some entry =>
          scanLogs codec path provider sessionId category limit lines (pushRecent limit logs entry)
    else .error invalidUtf8

/-- `session_logs`. -/
def sessionLogs (codec : Codec EngineEvent) (store : EventLogStore) (provider sessionId : String)
    (category : Option String) (limit : Nat) : FileAct Unit Error (List SessionLog) := do
  if ← Act.perform .isPresent then
    Act.ofExcept (scanLogs codec store.path provider sessionId category limit
      (lineItems (← readExisting)) [])
  else return []

/-! ## What a query answers -/

/-- Where every line is a record, the query answers the last entries asked for. -/
theorem scanLogs_ok {codec : Codec EngineEvent} {path provider sessionId : String}
    {category : Option String} {limit : Nat} {lines : List Bytes} {events : List EngineEvent}
    (hlines : List.Forall₂ (fun line event => isUtf8 line = true ∧ codec.decode line = .ok event)
      lines events)
    {logs : List SessionLog} (hlogs : logs.length ≤ limit) :
    scanLogs codec path provider sessionId category limit lines logs =
      .ok ((logs ++ events.filterMap (queried provider sessionId category)).rtake limit) := by
  induction hlines generalizing logs with
  | nil => rw [scanLogs, List.filterMap_nil, List.append_nil, rtake_of_length_le hlogs]
  | @cons line event lines events hline _ ih =>
    cases hq : queried provider sessionId category event with
    | none =>
      simp only [scanLogs, hline.1, if_true, hline.2, hq]
      rw [ih hlogs, List.filterMap_cons_none hq]
    | some entry =>
      simp only [scanLogs, hline.1, if_true, hline.2, hq]
      rw [ih (length_pushRecent_le hlogs entry), pushRecent_eq hlogs, rtake_rtake_append,
        List.filterMap_cons_some hq, List.append_assoc, List.singleton_append]

/-- Where some line is no record, the query fails. -/
theorem scanLogs_error {codec : Codec EngineEvent} {path provider sessionId : String}
    {category : Option String} {limit : Nat} {lines : List Bytes} {line : Bytes}
    (hline : line ∈ lines) (hbad : ∀ event, ¬(isUtf8 line = true ∧ codec.decode line = .ok event))
    (logs logs' : List SessionLog) :
    scanLogs codec path provider sessionId category limit lines logs ≠ .ok logs' := by
  induction lines generalizing logs with
  | nil => exact absurd hline List.not_mem_nil
  | cons first lines ih =>
    rw [scanLogs]
    split
    · rename_i htext
      split
      · exact nofun
      · rename_i event hevent
        have htail : line ∈ lines := by
          rcases List.mem_cons.mp hline with rfl | htail
          · exact absurd ⟨htext, hevent⟩ (hbad event)
          · exact htail
        split
        · exact ih htail logs
        · exact ih htail _
    · exact nofun

end EventLogStore

end Watchcat
