import Watchcat.Core.Recent
import Watchcat.Providers.ClaudeCatalog
import Watchcat.Providers.CodexCatalog
import Watchcat.Providers.CodexErrors
import Watchcat.State.SessionLog

/-!
# What the providers tell about a session

The App Server gives the turns of a thread, and each turn is told by its
messages and an entry of its own. The Claude transcript is read through, and its
last messages are told.
-/

namespace Watchcat

open Watchcat.Core Wire

/-- A member as JSON, null where it is absent. -/
def Value.memberOrNull (v : Value) (name : String) : Value := (v.get name).getD .null

/-- The elements of a member that is an array. -/
def Value.elements (v : Value) (name : String) : List Value :=
  ((v.get name).bind Value.asArray).getD []

/-! ## Codex -/

/-- The role and the text of a message of a thread. -/
def codexMessage (item : Value) : Option (String × String) :=
  match item.textMember "type" with
  | some "userMessage" =>
    let texts := (item.elements "content").filter fun content =>
      content.textMember "type" == some "text"
    some ("user", "\n".intercalate (texts.filterMap (·.textMember "text")))
  | some "agentMessage" => (item.textMember "text").map fun text => ("assistant", text)
  | _ => none

/-- `codex_item_log`. -/
def codexItemLog (sessionId : String) (turnId : Option String) (timestamp : Option Int)
    (item : Value) : Option SessionLog :=
  (codexMessage item).map fun (role, message) =>
    { timestamp := timestamp
      provider := "codex"
      sessionId := sessionId
      source := "provider"
      kind := "message"
      role := some role
      turnId := turnId
      condition := none
      message := message
      metadata := .obj [("item_id", item.memberOrNull "id")] }

/-- The condition and the message of a turn. -/
def codexTurnVerdict (status : String) (turn : Value) : Option String × String :=
  if status = "failed" then
    let error := (turn.get "error").getD
      (.obj [("message", .str "Codex turn failed without structured error details")])
    (some (classifyCodexError error).condition,
      (error.textMember "message").getD "Codex turn failed")
  else (none, "turn " ++ status)

section

variable [Rfc3339]

/-- The time of a turn. -/
def codexTurnTime (turn : Value) : Option Int :=
  (parseTimestamp (turn.get "completedAt")).or (parseTimestamp (turn.get "startedAt"))

/-- `codex_turn_logs`. -/
def codexTurnLogs (sessionId : String) (turn : Value) : List SessionLog :=
  let status := (turn.textMember "status").getD "unknown"
  let timestamp := codexTurnTime turn
  let turnId := turn.textMember "id"
  (turn.elements "items").filterMap (codexItemLog sessionId turnId timestamp) ++
    [{ timestamp := timestamp
       provider := "codex"
       sessionId := sessionId
       source := "provider"
       kind := "turn." ++ status
       role := none
       turnId := turnId
       condition := (codexTurnVerdict status turn).1
       message := (codexTurnVerdict status turn).2
       metadata := .obj [("model", turn.memberOrNull "model")] }]

/-- The entries of the last turns of a thread, cut to the last ones. -/
def codexLogs (sessionId : String) (limit : Nat) (turns : List Value) : List SessionLog :=
  ((turns.rtake limit).flatMap (codexTurnLogs sessionId)).rtake limit

/-- `CodexProvider::session_logs`. -/
def CodexProvider.sessionLogs (version sessionId : String) (limit : Nat) :
    Wire CodexProvider (List SessionLog) := do
  ensureStarted version
  let result ← onClient (JsonRpcClient.request "thread/read"
    (.obj [("threadId", .str sessionId), ("includeTurns", .bool true)]))
  match (result.pointer ["thread", "turns"]).bind Value.asArray with
  | none => Act.fail (.message "Codex thread/read returned invalid turns")
  | some turns => return codexLogs sessionId limit turns

/-- A turn has an entry of its own behind those of its messages. -/
theorem one_le_length_codexTurnLogs (sessionId : String) (turn : Value) :
    1 ≤ (codexTurnLogs sessionId turn).length := by
  rw [codexTurnLogs, List.length_append]
  exact Nat.le_add_left 1 _

/-- All entries of a turn have its time. -/
theorem timestamp_of_mem_codexTurnLogs {sessionId : String} {turn : Value} {entry : SessionLog}
    (h : entry ∈ codexTurnLogs sessionId turn) : entry.timestamp = codexTurnTime turn := by
  rcases List.mem_append.mp h with hitem | hturn
  · obtain ⟨item, _, hentry⟩ := List.mem_filterMap.mp hitem
    obtain ⟨_, _, rfl⟩ := Option.map_eq_some_iff.mp hentry
    rfl
  · rw [List.mem_singleton.mp hturn]

end

/-! ## Claude -/

/-- `message_text`. -/
def messageText (value : Value) : String :=
  match value.pointer ["message", "content"] with
  | some (.str text) => text
  | content => "\n".intercalate
      (((content.bind Value.asArray).getD []).filterMap fun block => block.text "text")

section

variable [TranscriptFormat]

/-- The entry of a record, if it is a message of the session itself. -/
def claudeLog (sessionId : String) (value : Value) : Option SessionLog :=
  (messageRole value).bind fun role =>
    if isSidechain value then none
    else some
      { timestamp := recordTime value
        provider := "claude"
        sessionId := sessionId
        source := "claude"
        kind := "message"
        role := some role
        turnId := none
        condition := none
        message := messageText value
        metadata := .null }

/-- The entry of a line of a transcript; a line that is no record has none. -/
def claudeEntry (sessionId : String) (line : Bytes) : Option SessionLog :=
  (parseJson line).bind (claudeLog sessionId)

/-- The loop of `session_logs` over the lines of a transcript. -/
def scanMessages (sessionId : String) (limit : Nat) :
    List Bytes → List SessionLog → Except Error (List SessionLog)
  | [], logs => .ok logs
  | line :: lines, logs =>
    if isUtf8 line then
      match claudeEntry sessionId line with
      | none => scanMessages sessionId limit lines logs
      | some entry => scanMessages sessionId limit lines (pushRecent limit logs entry)
    else .error invalidUtf8

namespace ClaudeProvider

/-- `transcript_path`; the paths are in the order in which the table yields them. -/
def transcriptPath (p : ClaudeProvider) (order : List TranscriptPath) (id : String) :
    Except Error TranscriptPath :=
  match order.find? fun path => (p.transcripts.lookup path).any (·.session.id == id) with
  | some path => .ok path
  | none => .error (.message "Claude session not found")

/-- `ClaudeProvider::session_logs`; the transcript is opened once more. -/
def sessionLogs (p : ClaudeProvider) (projects : ProjectsView) (order : List TranscriptPath)
    (reopened : TranscriptPath → Except Error Bytes) (sessionId : String) (limit : Nat) :
    ClaudeProvider × Except Error (List SessionLog) :=
  match p.refresh projects with
  | (p, .error e) => (p, .error e)
  | (p, .ok ()) => (p, do
      let path ← p.transcriptPath order sessionId
      scanMessages sessionId limit (lineItems (← reopened path)) [])

end ClaudeProvider

/-- Where every line is a text, the last of its messages are told. -/
theorem scanMessages_texts {sessionId : String} {limit : Nat} {lines : List Bytes}
    {logs : List SessionLog} (h : ∀ line ∈ lines, isUtf8 line = true)
    (hlogs : logs.length ≤ limit) :
    scanMessages sessionId limit lines logs =
      .ok ((logs ++ lines.filterMap (claudeEntry sessionId)).rtake limit) := by
  induction lines generalizing logs with
  | nil => rw [scanMessages, List.filterMap_nil, List.append_nil, rtake_of_length_le hlogs]
  | cons line lines ih =>
    obtain ⟨hline, hlines⟩ := List.forall_mem_cons.mp h
    cases hentry : claudeEntry sessionId line with
    | none =>
      simp only [scanMessages, hline, if_true, hentry]
      rw [ih hlines hlogs, List.filterMap_cons_none hentry]
    | some entry =>
      simp only [scanMessages, hline, if_true, hentry]
      rw [ih hlines (length_pushRecent_le hlogs entry), pushRecent_eq hlogs, rtake_rtake_append,
        List.filterMap_cons_some hentry, List.append_assoc, List.singleton_append]

end

end Watchcat
