import Watchcat.Base.Calendar
import Watchcat.Base.Text
import Watchcat.Daemon.Types
import Watchcat.Providers.Codex

/-!
# The catalog of Codex sessions

The App Server lists its threads in pages. A search reads up to five of them and
shows the sessions that match; its cursor holds the query and the cursor of the
App Server. Discovery follows the cursors of an empty search until a page has a
session older than the cutoff.
-/

namespace Watchcat

open Watchcat.Core Wire

/-- `DateTime::parse_from_rfc3339`. -/
class Rfc3339 where
  parseRfc3339 : String → Option Int

export Rfc3339 (parseRfc3339)

/-- A sample where no text is a timestamp. -/
@[reducible] def sampleRfc3339 : Rfc3339 := ⟨fun _ => none⟩

/-- `MAX_SEARCH_PAGES_PER_REQUEST`. -/
def maxSearchPagesPerRequest : Nat := 5

/-- `SOURCE_KINDS`. -/
def sourceKinds : Value :=
  .arr [.str "cli", .str "vscode", .str "exec", .str "appServer", .str "unknown"]

/-- `CodexSessionCursor`. -/
structure CodexSessionCursor where
  query : String
  providerCursor : Option String
  deriving DecidableEq

/-- How a cursor is written as JSON and read from it. -/
structure CursorCodec where
  encode : CodexSessionCursor → String
  decode : String → Except Error CodexSessionCursor

/-! ## Threads -/

/-- The title of a thread that has no name: the beginning of its preview. -/
def previewTitle (preview : String) : String :=
  String.ofList ((preview.toList.map fun c => if c = '\n' then ' ' else c).take 80)

/-- The state of a thread, by the type of its status. -/
def threadState : Option String → SessionState
  | some "active" => .active
  | some "idle" => .idle
  | some "notLoaded" => .idle
  | some "systemError" => .failed
  | _ => .unknown

section

variable [Rfc3339]

/-- `parse_timestamp`. -/
def parseTimestamp : Option Value → Option Int
  | some (.int n) => (Value.int n).asI64.bind fun timestamp => gregorian.date (seconds timestamp)
  | some (.str text) => parseRfc3339 text
  | _ => none

/-- `parse_session`. -/
def parseSession (raw : Value) : Except Error Session :=
  match raw.textMember "id" with
  | none => .error (.message "Codex thread/list returned a session without an id")
  | some id => .ok
    { provider := "codex"
      id := id
      title := (((raw.textMember "name").filter fun name => !isBlank name).or
        ((raw.textMember "preview").map previewTitle)).getD id
      state := threadState ((raw.pointer ["status", "type"]).bind Value.asStr)
      updatedAt := parseTimestamp (raw.get "updatedAt") }

end

/-- A session that a search for the lower-cased text shows. -/
def matchesNeedle (needle : String) (s : Session) : Bool :=
  needle == "" || containsText (asciiLowercase s.title) needle ||
    containsText (asciiLowercase s.id) needle

/-- The parameters of a `thread/list` request. -/
def listParams (cursor : Option String) (limit : Nat) : Value :=
  .obj [("cursor", match cursor with
      | some cursor => .str cursor
      | none => .null),
    ("limit", .int limit), ("sortKey", .str "updated_at"), ("sortDirection", .str "desc"),
    ("sourceKinds", sourceKinds)]

namespace CodexProvider

variable [Rfc3339]

/-- One page of threads: its sessions, and the cursor of the next page; none where the page is
empty. -/
def listThreads (cursor : Option String) (limit : Nat) :
    Wire CodexProvider (Option (List Session × Option String)) := do
  let page ← onClient (JsonRpcClient.request "thread/list" (listParams cursor limit))
  match (page.get "data").bind Value.asArray with
  | none => Act.fail (.message "Codex thread/list returned invalid data")
  | some [] => return none
  | some data => return some (← Act.ofExcept (data.mapM parseSession), page.textMember "nextCursor")

/-- The loop of `list_sessions`. A page that is not empty adds a session, so that the limit bounds
the number of rounds. -/
def listFrom (limit : Nat) : Nat → Option String → List Session → Wire CodexProvider (List Session)
  | 0, _, sessions => return sessions
  | rounds + 1, cursor, sessions =>
    if sessions.length < limit then do
      match ← listThreads cursor (min 100 (limit - sessions.length)) with
      | none => return sessions
      | some (found, none) => return sessions ++ found
      | some (found, some next) => listFrom limit rounds (some next) (sessions ++ found)
    else return sessions

/-- `CodexProvider::list_sessions`. -/
def listSessions (version : String) (limit : Nat) : Wire CodexProvider (List Session) := do
  ensureStarted version
  return (← listFrom limit limit none []).take limit

/-- The loop of `search_sessions`: the matches, and the cursor of the App Server behind them. -/
def searchFrom (needle : String) (limit : Nat) :
    Nat → Option String → List Session → Wire CodexProvider (List Session × Option String)
  | 0, cursor, sessions => return (sessions, cursor)
  | pages + 1, cursor, sessions =>
    if sessions.length < limit then do
      match ← listThreads cursor (min 100 (limit - sessions.length)) with
      | none => return (sessions, none)
      | some (found, none) => return (sessions ++ found.filter (matchesNeedle needle), none)
      | some (found, some next) =>
        searchFrom needle limit pages (some next) (sessions ++ found.filter (matchesNeedle needle))
    else return (sessions, cursor)

/-- Where a search goes on. -/
def searchPosition (codec : CursorCodec) (query : String) :
    Option String → Except Error (Option String)
  | none => .ok none
  | some cursor => match codec.decode cursor with
    | .error e => .error (.context "invalid Codex session cursor; refresh the search" e)
    | .ok position =>
      if position.query ≠ query then
        .error (.message "session cursor belongs to another search; refresh the search")
      else .ok position.providerCursor

/-- `CodexProvider::search_sessions`. -/
def searchSessions (codec : CursorCodec) (version query : String) (cursor : Option String)
    (limit : Nat) : Wire CodexProvider SessionSearchPage := do
  ensureStarted version
  let position ← Act.ofExcept (searchPosition codec query cursor)
  let (sessions, providerCursor) ←
    searchFrom (asciiLowercase query) limit maxSearchPagesPerRequest position []
  return ⟨sessions, providerCursor.map fun next => codec.encode ⟨query, some next⟩⟩

/-- The loop of `Provider::recent_sessions`; none where the rounds do not suffice. -/
def recentFrom (codec : CursorCodec) (version : String) (cutoff : Int) :
    Nat → Option String → List String → List Session → Wire CodexProvider (Option (List Session))
  | 0, _, _, _ => return none
  | rounds + 1, cursor, seen, sessions => do
    let page ← searchSessions codec version "" cursor 500
    let sessions := sessions ++ page.sessions
    if page.sessions.any fun s => s.updatedAt.any (· < cutoff) then return some sessions
    else match page.nextCursor with
      | none => return some sessions
      | some next =>
        if seen.contains next then Act.fail (.message "codex repeated a discovery cursor")
        else recentFrom codec version cutoff rounds (some next) (next :: seen) sessions

/-- `Provider::recent_sessions`. -/
def recentSessions (codec : CursorCodec) (version : String) (cutoff : Int) (rounds : Nat) :
    Wire CodexProvider (Option (List Session)) :=
  recentFrom codec version cutoff rounds none [] []

end CodexProvider

end Watchcat
