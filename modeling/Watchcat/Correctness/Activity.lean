import Watchcat.Correctness.LogReadability
import Watchcat.Correctness.LogRetention
import Watchcat.Daemon.Activity
import Watchcat.State.SampleLog
import Watchcat.Transport.Exchanges

/-!
# The activity of a Codex session

The App Server tells the turns of a thread and the event log what happened to
the session. Each is read only as far as the limit of the query asks for, and
yet the answer has the last of all the entries there are.
-/

namespace Watchcat

open Watchcat.Core

/-- The parameters of a `thread/read` request. -/
def threadParams (sessionId : String) : Value :=
  .obj [("threadId", .str sessionId), ("includeTurns", .bool true)]

/-- Every read of the thread that was answered was answered with its turns. -/
def ReadsThread (sessionId : String) (turns : List Value) (tr : List (Prog.Event WireReply)) :
    Prop :=
  ∀ result, Exchanged tr "thread/read" (threadParams sessionId) result →
    (result.pointer ["thread", "turns"]).bind Value.asArray = some turns

/-- The entries of the events that a query asks for. -/
def ActivityQuery.recorded (query : ActivityQuery) (events : List EngineEvent) : List SessionLog :=
  (events.filter (·.matchesQuery query.session.provider query.session.sessionId
    query.category)).map (·.logOf query.session.provider query.session.sessionId)

/-- What the event log tells is about reliability. -/
theorem isReliabilityLog_logOf (e : EngineEvent) (provider sessionId : String) :
    isReliabilityLog (e.logOf provider sessionId) = true := rfl

theorem ActivityQuery.shown_recorded (query : ActivityQuery) (events : List EngineEvent) (n : Nat) :
    query.shown ((query.recorded events).rtake n) = (query.recorded events).rtake n := by
  unfold shown
  split
  · refine List.filter_eq_self.mpr fun entry hentry => ?_
    obtain ⟨e, _, rfl⟩ := List.mem_map.mp (mem_of_mem_rtake hentry)
    exact isReliabilityLog_logOf e _ _
  · rfl

/-- Events in the order of time have entries in the order of time. -/
theorem ActivityQuery.pairwise_recorded (query : ActivityQuery) {events : List EngineEvent}
    (h : events.Pairwise fun a b => a.timestamp ≤ b.timestamp) :
    (query.recorded events).Pairwise inOrder := by
  refine List.pairwise_map.mpr ((h.sublist List.filter_sublist).imp fun hab => ?_)
  exact decide_eq_true hab

/-- The part of the entries of a thread that a query reads has the last ones that it shows. -/
theorem isWindow_shown {query : ActivityQuery} {logs : List SessionLog}
    (h : query.reliabilityOnly = true → logs.length ≤ providerLogLimit query ∨
      query.limit ≤ ((logs.rtake (providerLogLimit query)).filter isReliabilityLog).length) :
    IsWindow query.limit (query.shown (logs.rtake (providerLogLimit query)))
      (query.shown logs) := by
  cases hreliability : query.reliabilityOnly with
  | false =>
    simp only [ActivityQuery.shown, providerLogLimit, hreliability, Bool.false_eq_true, if_false]
    exact isWindow_rtake (Nat.le_refl _) logs
  | true =>
    simp only [ActivityQuery.shown, hreliability, if_true]
    refine ⟨(rtake_suffix _ _).filter _, ?_⟩
    rcases h hreliability with hall | henough
    · exact .inr (by rw [rtake_of_length_le hall])
    · exact .inl henough

section

variable [Rfc3339]

/-- The entries of the turns of a thread. -/
def threadLogs (sessionId : String) (turns : List Value) : List SessionLog :=
  turns.flatMap (codexTurnLogs sessionId)

/-- Turns in the order of time have entries in the order of time. -/
theorem pairwise_threadLogs (sessionId : String) {turns : List Value}
    (h : turns.Pairwise fun a b => notEarlier (codexTurnTime b) (codexTurnTime a) = true) :
    (threadLogs sessionId turns).Pairwise inOrder := by
  refine List.pairwise_flatMap.mpr
    ⟨fun turn _ => ?_, h.imp fun hab entry hentry entry' hentry' => ?_⟩
  · refine List.pairwise_of_forall_mem_list fun entry hentry entry' hentry' => ?_
    rw [inOrder, timestamp_of_mem_codexTurnLogs hentry, timestamp_of_mem_codexTurnLogs hentry']
    exact notEarlier_self _
  · rw [inOrder, timestamp_of_mem_codexTurnLogs hentry, timestamp_of_mem_codexTurnLogs hentry']
    exact hab

/-- The last turns suffice for the last entries. -/
theorem codexLogs_eq (sessionId : String) (limit : Nat) (turns : List Value) :
    codexLogs sessionId limit turns = (threadLogs sessionId turns).rtake limit :=
  rtake_flatMap_rtake (one_le_length_codexTurnLogs sessionId) limit turns

/-- The logs of a session are the last entries of its thread. -/
theorem CodexProvider.sessionLogs_returns {version sessionId : String} {limit : Nat}
    {turns : List Value} {p p' : CodexProvider} {tr : List (Prog.Event WireReply)}
    {logs : List SessionLog} (hturns : ReadsThread sessionId turns tr)
    (h : (sessionLogs version sessionId limit).Returns p tr (.ok logs) p') :
    logs = (threadLogs sessionId turns).rtake limit := by
  obtain ⟨first, second, _, mid, rfl, _, h⟩ := Act.returns_andThen_ok.mp h
  obtain ⟨third, fourth, result, last, rfl, hclient, hrest⟩ := Act.returns_andThen_ok.mp h
  obtain ⟨c, hrequest, _⟩ := Act.returns_zoom.mp hclient
  have hresult := hturns result (JsonRpcClient.request_returns hrequest).append_right.append_left
  rw [hresult] at hrest
  obtain ⟨_, hlogs, _⟩ := Act.returns_ret.mp hrest
  rw [Except.ok.inj hlogs, codexLogs_eq]

/-- The activity of a Codex session has the last of all entries of its thread and of its events,
merged by time, although only the last ones of each are read. A query for reliability alone reads
ten times as many entries of the thread, and has all that it asks for where these have enough or
are all there are. -/
theorem activity_has_last_entries {codec : Codec EngineEvent} {store : EventLogStore}
    {query : ActivityQuery} (hprovider : query.session.provider = "codex")
    {turns : List Value} {events : List EngineEvent}
    (hturns : turns.Pairwise fun a b => notEarlier (codexTurnTime b) (codexTurnTime a) = true)
    (hevents : events.Pairwise fun a b => a.timestamp ≤ b.timestamp)
    (hwindow : query.reliabilityOnly = true →
      (threadLogs query.session.sessionId turns).length ≤ providerLogLimit query ∨
      query.limit ≤ (((threadLogs query.session.sessionId turns).rtake
        (providerLogLimit query)).filter isReliabilityLog).length)
    {version : String} {p p' : CodexProvider} {tr : List (Prog.Event WireReply)}
    {provided : List SessionLog} (hthread : ReadsThread query.session.sessionId turns tr)
    (hprovided : (CodexProvider.sessionLogs version query.session.sessionId
      (providerLogLimit query)).Returns p tr (.ok provided) p')
    {w w' : FileContent} {calls : FileTrace Error} {recorded : Except Error (List SessionLog)}
    (hcodec : ∀ e ∈ events, codec.Writes e) (hw : w.getD [] = codec.records events)
    (hrecorded : (EventLogStore.sessionLogs codec store query.session.provider
      query.session.sessionId query.category query.limit).Returns () calls recorded ())
    (hfile : FilePath w calls w') (hreads : ReadsSucceed calls) (now : Int) :
    query.merge now (.ok provided) recorded =
      .ok (((query.shown (threadLogs query.session.sessionId turns) ++
        query.recorded events).insertionSort inOrder).rtake query.limit) := by
  have hcolon : ':' ∉ query.session.provider.toList := by rw [hprovider]; decide
  have hlocal : recorded = .ok ((query.recorded events).rtake query.limit) := by
    rw [EventLogStore.sessionLogs_records hcodec hw hcolon hrecorded hfile hreads, map_rtake]
    rfl
  rw [CodexProvider.sessionLogs_returns hthread hprovided, hlocal, ActivityQuery.merge]
  have hshown : (query.shown (threadLogs query.session.sessionId turns)).Pairwise inOrder := by
    unfold ActivityQuery.shown
    split
    · exact (pairwise_threadLogs _ hturns).sublist List.filter_sublist
    · exact pairwise_threadLogs _ hturns
  have hmerged := rtake_merged hshown (query.pairwise_recorded hevents) (isWindow_shown hwindow)
    (isWindow_rtake (Nat.le_refl query.limit) (query.recorded events))
  change Except.ok (((query.shown _ ++ query.shown _).insertionSort inOrder).rtake _) = _
  rw [query.shown_recorded, hmerged]

end

section Sample

attribute [local instance] sampleRfc3339

/-- The last two entries of a session. -/
def sampleActivity : ActivityQuery where
  session := ⟨"codex", "t1"⟩
  limit := 2
  category := none
  reliabilityOnly := false

/-- A turn that ended a second after the sample event. -/
def sampleTurn : Value :=
  .obj [("id", .str "turn"), ("status", .str "completed"), ("completedAt", .int 1789473601),
    ("items", .arr [.obj [("type", .str "agentMessage"), ("text", .str "done")]])]

/-- The answer to a read of the thread with that turn. -/
def sampleThreadResult : Value := .obj [("thread", .obj [("turns", .arr [sampleTurn])])]

/-- The logs of that thread. -/
def sampleThreadRun :
    List (Prog.Event WireReply) × Except Error (List SessionLog) × CodexProvider :=
  (CodexProvider.sessionLogs "0.1.0" "t1" 2 ⟨⟨true, true, 0⟩, true⟩).execute
    (sampleAppServer [sampleThreadResult])

/-- A log with the sample event. -/
def sampleLog : FileContent := some (sampleCodec.records [sampleEvent])

/-- The message and the end of the turn are the last two of three entries. -/
theorem activity_has_last_entries_sample :
    ∃ calls recorded,
      (EventLogStore.sessionLogs sampleCodec sampleStore "codex" "t1" none 2).Returns
        () calls recorded () ∧
      (sampleActivity.merge 0 (.ok (codexLogs "t1" 2 [sampleTurn])) recorded).map
        (List.map SessionLog.kind) = .ok ["message", "turn.completed"] := by
  have hthread : ReadsThread "t1" [sampleTurn] sampleThreadRun.1 := by
    intro result hexchanged
    have hrest : Exchanged sampleThreadRun.1.tail _ _ _ :=
      Exchanged.of_cons (e := ⟨.childExited, .ok false⟩) nofun hexchanged
    rcases hrest.of_exchange with ⟨_, _, hread⟩ | hnone
    · obtain rfl := Except.ok.inj (ReplyWait.answered.inj hread)
      rfl
    · exact absurd hnone not_exchanged_nil
  have hprovided : (CodexProvider.sessionLogs "0.1.0" "t1" 2).Returns ⟨⟨true, true, 0⟩, true⟩
      sampleThreadRun.1 (.ok (codexLogs "t1" 2 [sampleTurn])) sampleThreadRun.2.2 :=
    Prog.execute_returns (sampleAppServer [sampleThreadResult]) _
  obtain ⟨calls, recorded, hrecorded, hfile, hreads⟩ :=
    sessionLogs_runs sampleCodec sampleStore "codex" "t1" none 2 sampleLog
  refine ⟨calls, recorded, hrecorded, ?_⟩
  rw [@activity_has_last_entries _ sampleCodec sampleStore sampleActivity rfl [sampleTurn]
    [sampleEvent] (List.pairwise_singleton _ _) (List.pairwise_singleton _ _) nofun _ _ _ _ _
    hthread hprovided _ _ _ _ (fun e he => List.mem_singleton.mp he ▸ sampleCodec_writes)
    (Option.getD_some ..) hrecorded hfile hreads 0]
  rfl

end Sample

end Watchcat
