import Watchcat.Correctness.Transcripts
import Watchcat.Providers.SessionLogs

/-!
# Two readers of a transcript

The catalog dates a session by what it has read of the transcript so far; the
logs of the session are read from the transcript as a whole. Both agree.
-/

namespace Watchcat

open Watchcat.Core

/-- The latest of some times. -/
def latestTime (times : List (Option Int)) : Option Int := times.foldl laterOf none

/-- Lines without an entry do not change the latest time. -/
theorem foldl_laterOf_filterMap {α : Type} (entry : α → Option SessionLog) (lines : List α)
    (last : Option Int) :
    ((lines.filterMap entry).map SessionLog.timestamp).foldl laterOf last =
      lines.foldl (fun last line =>
        laterOf last ((entry line).bind SessionLog.timestamp)) last := by
  induction lines generalizing last with
  | nil => rfl
  | cons line lines ih =>
    cases hentry : entry line with
    | none => rw [List.filterMap_cons_none hentry, ih, List.foldl_cons, hentry, Option.bind_none,
        laterOf_none]
    | some log => rw [List.filterMap_cons_some hentry, List.map_cons, List.foldl_cons, ih,
        List.foldl_cons, hentry, Option.bind_some]

section

variable [TranscriptFormat]

/-- All entries of a transcript. -/
def transcriptLogs (sessionId : String) (content : Bytes) : List SessionLog :=
  (lineItems content).filterMap (claudeEntry sessionId)

/-- A line tells the catalog the time that its entry has. -/
theorem activityIn_eq (sessionId : String) (line : Bytes) :
    activityIn line = (claudeEntry sessionId line).bind SessionLog.timestamp := by
  rw [activityIn, claudeEntry, Option.bind_assoc]
  refine Option.bind_congr fun value _ => ?_
  rw [claudeLog]
  cases messageRole value with
  | none => simp
  | some role => cases isSidechain value <;> rfl

/-- The complete lines of a text tell the latest time of its entries, if the parser takes no notice
of how a line ends. -/
theorem latestTime_transcriptLogs {sessionId : String} {content : Bytes}
    (hcomplete : unfinished newline content = [])
    (hparse : ∀ line ∈ linesOf newline content,
      parseJson (line ++ [newline]) = parseJson (stripReturn line)) :
    latestTime ((transcriptLogs sessionId content).map SessionLog.timestamp) =
      (brokenLines content).foldl (fun last line => laterOf last (activityIn line)) none := by
  rw [latestTime, transcriptLogs, foldl_laterOf_filterMap, lineItems, hcomplete, if_pos rfl,
    List.append_nil, brokenLines, List.foldl_map, List.foldl_map]
  refine List.foldl_ext _ _ _ fun last line hline => ?_
  rw [activityIn_eq sessionId, claudeEntry, claudeEntry, hparse line hline]

/-- The logs of a session are the last entries of its transcript. -/
theorem ClaudeProvider.sessionLogs_text {p : ClaudeProvider} {projects : ProjectsView}
    {order : List TranscriptPath} {reopened : TranscriptPath → Except Error Bytes}
    {sessionId : String} {path : TranscriptPath} {content : Bytes}
    (hrefresh : p.refresh projects = (p, .ok ()))
    (hpath : p.transcriptPath order sessionId = .ok path) (hreopened : reopened path = .ok content)
    (htext : isUtf8 content = true) (limit : Nat) :
    p.sessionLogs projects order reopened sessionId limit =
      (p, .ok ((transcriptLogs sessionId content).rtake limit)) := by
  obtain ⟨hlines, hunfinished⟩ := isUtf8_lines htext
  have hitems : ∀ line ∈ lineItems content, isUtf8 line = true := by
    intro line hline
    rcases List.mem_append.mp hline with hline | hline
    · obtain ⟨broken, hbroken, rfl⟩ := List.mem_map.mp hline
      exact isUtf8_stripReturn (hlines broken hbroken)
    · split at hline
      · exact absurd hline List.not_mem_nil
      · exact List.mem_singleton.mp hline ▸ hunfinished
  have hscan := @scanMessages_texts _ sessionId limit _ [] hitems (Nat.zero_le limit)
  rw [List.nil_append] at hscan
  rw [sessionLogs, hrefresh]
  refine congrArg (Prod.mk p) ?_
  rw [hpath]
  change (reopened path).bind (fun content =>
    scanMessages sessionId limit (lineItems content) []) = _
  rw [hreopened]
  exact hscan

open TranscriptHistory

end

section Sample

open TranscriptHistory

/-- A message of the session. -/
def sampleMessage : Bytes := JsonText.utf8
  "\x7b\"type\":\"user\",\"timestamp\":\"2026-09-09T02:00:00Z\"\x7d"

/-- What the libraries make of that message. -/
@[reducible] def messageFormat : TranscriptFormat where
  parseJson line :=
    if line = sampleMessage ∨ line = sampleMessage ++ [newline] then
      some (.obj [("type", .str "user"), ("timestamp", .str "2026-09-09T02:00:00Z")])
    else none
  parseTime text := if text = "2026-09-09T02:00:00Z" then some (seconds 1788919200) else none
  isUuid text := text == "c61e6439-6107-4a88-970f-94d548564049"

attribute [local instance] messageFormat

/-- The transcript with that message. -/
def messageFile : FileView := ⟨(1, 2), some 10, sampleMessage ++ [newline]⟩

/-- The provider that has read it. -/
def messageProvider : ClaudeProvider :=
  (ClaudeProvider.new.refresh (some (.ok (sampleProjects messageFile)))).1

end Sample

end Watchcat
