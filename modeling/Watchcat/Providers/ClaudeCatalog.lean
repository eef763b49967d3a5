import Watchcat.Base.Numeral
import Watchcat.Base.Text
import Watchcat.Daemon.Types
import Watchcat.Providers.Claude

/-!
# The catalog of Claude sessions

Every method refreshes the transcripts first. A catalog has its sessions newest
first; a search shows a page of those that a query selects, and its cursor is
the number of sessions before it.
-/

namespace Watchcat

open Watchcat.Core

/-- `b.cmp(&a)` is less or equal: dated entries come before undated ones, later before earlier. -/
def notEarlier : Option Int → Option Int → Bool
  | some a, some b => b ≤ a
  | some _, none => true
  | none, some _ => false
  | none, none => true

/-- The order of a catalog: newest first, then by identifier. -/
def newestFirst (a b : Session) : Bool :=
  notEarlier a.updatedAt b.updatedAt && (a.updatedAt != b.updatedAt || decide (a.id ≤ b.id))

/-- The session as it is listed: uncertain activity is unknown. -/
def Transcript.listed (t : Transcript) : Session :=
  if t.uncertain then { t.session with updatedAt := none } else t.session

namespace ClaudeProvider

/-- All sessions, in the order of a catalog. -/
def catalog (p : ClaudeProvider) : List Session :=
  (p.transcripts.values.map Transcript.listed).mergeSort newestFirst

variable [TranscriptFormat]

/-- `ClaudeProvider::list_sessions`. -/
def listSessions (p : ClaudeProvider) (projects : ProjectsView) (limit : Nat) :
    ClaudeProvider × Except Error (List Session) :=
  match p.refresh projects with
  | (p, .ok ()) => (p, .ok (p.catalog.take limit))
  | (p, .error e) => (p, .error e)

/-- `ClaudeProvider::recent_sessions`. -/
def recentSessions (p : ClaudeProvider) (projects : ProjectsView) (cutoff : Int) :
    ClaudeProvider × Except Error (List Session) :=
  match p.listSessions projects u64Max with
  | (p, .ok sessions) =>
    (p, .ok (sessions.filter fun s => s.updatedAt.all fun updated => cutoff ≤ updated))
  | (p, .error e) => (p, .error e)

/-- The start of a page, by its cursor. -/
def cursorStart : Option String → Except Error Nat
  | none => .ok 0
  | some cursor => match parseUsize cursor with
    | .ok start => .ok start
    | .error e => .error (.context "invalid Claude session cursor" e)

/-- The sessions that a query selects. -/
def selects [Lowercase] (query : String) (s : Session) : Bool :=
  containsText s.id (toLowercase query) || containsText (toLowercase s.title) (toLowercase query)

/-- A page of a list of sessions. -/
def pageOf (sessions : List Session) (start limit : Nat) : SessionSearchPage :=
  let stop := min (saturatingAdd start limit) sessions.length
  { sessions := (sessions.drop start).take limit
    nextCursor := if stop < sessions.length then some stop.repr else none }

/-- `ClaudeProvider::search_sessions`. -/
def searchSessions [Lowercase] (p : ClaudeProvider) (projects : ProjectsView) (query : String)
    (cursor : Option String) (limit : Nat) : ClaudeProvider × Except Error SessionSearchPage :=
  match p.listSessions projects u64Max with
  | (p, .error e) => (p, .error e)
  | (p, .ok sessions) => match cursorStart cursor with
    | .error e => (p, .error e)
    | .ok start => (p, .ok (pageOf (sessions.filter (selects query)) start limit))

end ClaudeProvider

end Watchcat
