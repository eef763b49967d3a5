import Watchcat.Correctness.LogRetention

/-!
# When the event log can be read

An append may be cut off within a record. The record is then no line of the log,
and a later append continues it, so that a query fails on the line that the two
make. A log whose appends all begin behind a whole line is read wherever its
last line stands.
-/

namespace Watchcat

open Watchcat.Core

/-! ## Events that are completely appended -/

/-- The events whose records are within the first bytes of the records of a batch. -/
def completed (codec : Codec EngineEvent) : List EngineEvent → Nat → List EngineEvent
  | [], _ => []
  | e :: events, n =>
    if (codec.encode e).length + 1 ≤ n then
      e :: completed codec events (n - ((codec.encode e).length + 1))
    else []

variable {codec : Codec EngineEvent}

theorem completed_subset {events : List EngineEvent} {n : Nat} :
    ∀ e ∈ completed codec events n, e ∈ events := by
  induction events generalizing n with
  | nil => exact fun e he => he
  | cons first events ih =>
    intro e he
    rw [completed] at he
    split at he
    · rcases List.mem_cons.mp he with rfl | he
      · exact List.mem_cons_self
      · exact List.mem_cons_of_mem _ (ih e he)
    · exact absurd he List.not_mem_nil

theorem completed_zero (events : List EngineEvent) : completed codec events 0 = [] := by
  cases events with
  | nil => rfl
  | cons e events => rw [completed, if_neg (by omega)]

/-- All records of a batch have all of its bytes. -/
theorem completed_all (events : List EngineEvent) :
    completed codec events (codec.records events).length = events := by
  induction events with
  | nil => rfl
  | cons e events ih =>
    rw [Codec.records_cons, List.length_append, List.length_cons, completed, if_pos (by omega),
      show (codec.encode e).length + ((codec.records events).length + 1) -
        ((codec.encode e).length + 1) = (codec.records events).length by omega, ih]

/-- The first bytes of a batch are its completed records and a part of one line. -/
theorem take_records {events : List EngineEvent} (h : ∀ e ∈ events, codec.Writes e) (n : Nat) :
    ∃ rest, (codec.records events).take n = codec.records (completed codec events n) ++ rest ∧
      newline ∉ rest := by
  induction events generalizing n with
  | nil => exact ⟨[], by simp [completed], List.not_mem_nil⟩
  | cons e events ih =>
    have hline := (h e List.mem_cons_self).line
    rw [completed]
    split
    · rename_i hle
      obtain ⟨rest, heq, hrest⟩ :=
        ih (fun e he => h e (List.mem_cons_of_mem _ he)) (n - ((codec.encode e).length + 1))
      refine ⟨rest, ?_, hrest⟩
      rw [Codec.records_cons, Codec.records_cons, List.append_assoc, List.cons_append, ← heq,
        List.take_append, List.take_of_length_le (by omega),
        show n - (codec.encode e).length = n - ((codec.encode e).length + 1) + 1 by omega,
        List.take_succ_cons]
    · rename_i hlt
      refine ⟨(codec.encode e).take n, ?_, fun hmem => hline (List.mem_of_mem_take hmem)⟩
      rw [Codec.records_cons, List.take_append_of_le_length (by omega)]
      rfl

/-! ## Runs -/

/-- The events held after an append that was cut off or not. -/
def heldAfter (codec : Codec EngineEvent) (retention : Nat) (held batch : List EngineEvent)
    (tr : FileTrace Error) : List EngineEvent :=
  let all := held ++ completed codec batch (written tr)
  if replaced tr then all.rtake retention else all

/-- The log after appends, each from a state that meets a condition and cut off anywhere, with
the events offered to it and those that were completely appended and are retained. -/
inductive LogRun (codec : Codec EngineEvent) (meets : FileContent → Prop) :
    FileContent → List EngineEvent → List EngineEvent → Prop
  | start : LogRun codec meets none [] []
  | append {w w' : FileContent} {offered held batch : List EngineEvent}
      {store : EventLogStore} {tr : FileTrace Error}
      (hrun : LogRun codec meets w offered held)
      (hmeets : written tr = 0 ∨ meets w)
      (happend : (EventLogStore.append codec store batch).Performs () tr)
      (hp : FilePath w tr w') :
      LogRun codec meets w' (offered ++ batch) (heldAfter codec store.retention held batch tr)

/-- The last line of the log is finished. -/
def LineFinished (w : FileContent) : Prop := unfinished newline (w.getD []) = []

/-- The last line of the log is finished or a whole record without its newline. -/
def EndsInRecord (codec : Codec EngineEvent) (w : FileContent) : Prop :=
  LineFinished w ∨ isUtf8 (unfinished newline (w.getD [])) = true ∧
    ∃ e, codec.decode (unfinished newline (w.getD [])) = .ok e

/-- Every unlimited query without a category succeeds and has the entries of its session that are
completely appended and retained. -/
def Readable (codec : Codec EngineEvent) (w : FileContent) (held : List EngineEvent) : Prop :=
  ∀ (store : EventLogStore) (provider sessionId : String) (limit : Nat),
    (lineItems (w.getD [])).length ≤ limit →
    ∀ tr r w', (EventLogStore.sessionLogs codec store provider sessionId none limit).Returns
      () tr r () → FilePath w tr w' → ReadsSucceed tr →
      ∃ logs, r = .ok logs ∧ ∀ e ∈ held, ∀ entry, e.asSessionLog = some entry →
        entry.isOf provider sessionId = true → entry ∈ logs

/-- The events held are the complete lines of the log, and each of them can be written. -/
structure Holds (codec : Codec EngineEvent) (w : FileContent) (held : List EngineEvent) : Prop where
  content : ∃ tail, w.getD [] = codec.records held ++ tail ∧ newline ∉ tail
  writes : ∀ e ∈ held, codec.Writes e

/-- An append that begins behind a finished line keeps the lines whole records. -/
theorem Holds.append {w w' : FileContent} {held batch : List EngineEvent} {store : EventLogStore}
    {tr : FileTrace Error} (h : Holds codec w held) (hbatch : ∀ e ∈ batch, codec.Writes e)
    (hfinished : written tr = 0 ∨ LineFinished w)
    (happend : (EventLogStore.append codec store batch).Performs () tr) (hp : FilePath w tr w') :
    Holds codec w' (heldAfter codec store.retention held batch tr) := by
  obtain ⟨tail, hw, htail⟩ := h.content
  have hwrites : ∀ e ∈ held ++ completed codec batch (written tr), codec.Writes e := by
    intro e he
    rcases List.mem_append.mp he with he | he
    · exact h.writes e he
    · exact hbatch e (completed_subset e he)
  have htailNil : LineFinished w → tail = [] := by
    intro hline
    rw [LineFinished, hw, Codec.records, unfinished_unlines_append (Codec.notMem_encode h.writes),
      unfinished_of_notMem htail] at hline
    exact hline
  rcases EventLogStore.append_performs happend hp with ⟨hrep, hw'⟩ | ⟨hrep, hwritten, hw'⟩
  · rw [heldAfter, hrep, if_neg Bool.false_ne_true]
    refine ⟨?_, hwrites⟩
    rcases hfinished with hzero | hline
    · rw [hzero, List.take_zero, List.append_nil] at hw'
      rw [hzero, completed_zero, List.append_nil]
      exact ⟨tail, hw'.trans hw, htail⟩
    · obtain ⟨rest, hrest, hnotMem⟩ := take_records hbatch (written tr)
      rw [hw, htailNil hline, List.append_nil, hrest] at hw'
      exact ⟨rest, by rw [hw', Codec.records_append, List.append_assoc], hnotMem⟩
  · have hall : completed codec batch (written tr) = batch := hwritten ▸ completed_all batch
    rw [hall] at hwrites
    rw [heldAfter, hrep, if_pos rfl, hall]
    refine ⟨⟨[], ?_, List.not_mem_nil⟩, fun e he => hwrites e (mem_of_mem_rtake he)⟩
    have htailNil : tail = [] := by
      rcases hfinished with hzero | hline
      · -- A batch without bytes is empty and its append does not reach the file.
        have hnil : codec.records batch = [] := List.eq_nil_of_length_eq_zero (hwritten ▸ hzero)
        have hbatchNil : batch = [] := by
          cases batch with
          | nil => rfl
          | cons e batch => exact absurd hnil (by simp)
        subst hbatchNil
        rw [EventLogStore.append, if_pos rfl] at happend
        obtain rfl := Act.performs_ret.mp happend
        exact absurd hrep Bool.false_ne_true
      · exact htailNil hline
    rw [hw', hw, htailNil, List.append_nil, ← Codec.records_append,
      EventLogStore.compacted_records hwrites, List.append_nil]

/-- In a run whose appends begin behind finished lines the events held are the complete lines. -/
theorem LogRun.holds {w : FileContent} {offered held : List EngineEvent}
    (hrun : LogRun codec LineFinished w offered held)
    (hcodec : ∀ e ∈ offered, codec.Writes e) : Holds codec w held := by
  induction hrun with
  | start => exact ⟨⟨[], rfl, List.not_mem_nil⟩, fun e he => absurd he List.not_mem_nil⟩
  | append _ hmeets happend hp ih =>
    exact (ih fun e he => hcodec e (List.mem_append_left _ he)).append
      (fun e he => hcodec e (List.mem_append_right _ he)) hmeets happend hp

/-! ## Reading -/

/-- The lines that a reader finds, and the part after the last whole record. -/
theorem Holds.lines_read {w : FileContent} {held : List EngineEvent} (h : Holds codec w held) :
    lineItems (w.getD []) = held.map codec.encode ++
      if unfinished newline (w.getD []) = [] then [] else [unfinished newline (w.getD [])] := by
  obtain ⟨tail, hw, htail⟩ := h.content
  have hunfinished : unfinished newline (w.getD []) = tail := by
    rw [hw, Codec.records, unfinished_unlines_append (Codec.notMem_encode h.writes),
      unfinished_of_notMem htail]
  rw [hunfinished, hw, Codec.lineItems_records_append h.writes, lineItems,
    linesOf_of_notMem htail, unfinished_of_notMem htail, List.map_nil, List.nil_append]

/-- Every query can run on a file that can be read. -/
theorem sessionLogs_runs (codec : Codec EngineEvent) (store : EventLogStore)
    (provider sessionId : String) (category : Option String) (limit : Nat) (w : FileContent) :
    ∃ tr r, (EventLogStore.sessionLogs codec store provider sessionId category limit).Returns
      () tr r () ∧ FilePath w tr w ∧ ReadsSucceed tr := by
  cases w with
  | none =>
    exact ⟨[⟨.isPresent, false⟩], .ok [], ⟨false, [], rfl, rfl, rfl⟩,
      .cons ⟨rfl, rfl⟩ (.nil none), fun e he => by simp at he⟩
  | some content =>
    exact ⟨[⟨.isPresent, true⟩, ⟨.read, .ok (some content)⟩], _,
      ⟨true, _, rfl, .ok (some content), [], rfl, rfl, rfl⟩,
      .cons ⟨rfl, rfl⟩ (.cons ⟨rfl, fun _ heq => (Except.ok.inj heq).symm⟩ (.nil _)),
      fun e he => by simp at he⟩

/-- Where the last line is finished or a whole record, every query succeeds. -/
theorem Holds.readable {w : FileContent} {held : List EngineEvent} (h : Holds codec w held)
    (hends : EndsInRecord codec w) : Readable codec w held := by
  intro store provider sessionId limit hlimit tr r w' hquery hp hread
  have hlines : ∃ more, List.Forall₂
      (fun line event => isUtf8 line = true ∧ codec.decode line = .ok event)
      (lineItems (w.getD [])) (held ++ more) := by
    rw [h.lines_read]
    have hheld := EventLogStore.forall₂_records h.writes
    split
    · exact ⟨[], by simpa using hheld⟩
    · rename_i hne
      obtain ⟨htext, e, he⟩ := hends.resolve_left hne
      exact ⟨[e], List.rel_append hheld (.cons ⟨htext, he⟩ .nil)⟩
  obtain ⟨more, hlines⟩ := hlines
  have hresult := EventLogStore.sessionLogs_returns hquery hp hread
  rw [EventLogStore.scanLogs_ok hlines (Nat.zero_le _), List.nil_append] at hresult
  refine ⟨_, hresult, fun e he entry hentry hof => ?_⟩
  have hlen : ((held ++ more).filterMap
      (EventLogStore.queried provider sessionId none)).length ≤ limit :=
    (List.length_filterMap_le _ _).trans (hlines.length_eq ▸ hlimit)
  rw [rtake_of_length_le hlen]
  refine List.mem_filterMap.mpr ⟨e, List.mem_append_left _ he, ?_⟩
  rw [EventLogStore.queried, hentry, Option.filter_some, hof]
  rfl

/-- A query fails on a last line that is a part of a record. -/
theorem Holds.endsInRecord {w : FileContent} {held : List EngineEvent} (h : Holds codec w held)
    (hreadable : Readable codec w held) : EndsInRecord codec w := by
  by_contra hends
  rw [EndsInRecord, not_or] at hends
  have hne : unfinished newline (w.getD []) ≠ [] := hends.1
  have hmem : unfinished newline (w.getD []) ∈ lineItems (w.getD []) := by
    rw [h.lines_read, if_neg hne]
    exact List.mem_append_right _ (List.mem_singleton.mpr rfl)
  obtain ⟨tr, r, hquery, hp, hread⟩ := sessionLogs_runs codec ⟨"", 0⟩ "" "" none
    (lineItems (w.getD [])).length w
  obtain ⟨logs, rfl, _⟩ := hreadable ⟨"", 0⟩ "" "" _ le_rfl tr r w hquery hp hread
  have hresult := EventLogStore.sessionLogs_returns hquery hp hread
  exact EventLogStore.scanLogs_error hmem
    (fun e he => hends.2 ⟨he.1, e, he.2⟩) [] logs hresult.symm

/-- In a run whose appends all begin behind a finished line, whatever cuts them off, the log can
be read with every event that it holds at exactly the moments when its last line is finished or
a whole record. -/
theorem log_readable_iff {w : FileContent} {offered held : List EngineEvent}
    (hrun : LogRun codec LineFinished w offered held)
    (hcodec : ∀ e ∈ offered, codec.Writes e) :
    Readable codec w held ↔ EndsInRecord codec w :=
  ⟨(hrun.holds hcodec).endsInRecord, (hrun.holds hcodec).readable⟩

/-- A write that takes one byte of a record and then fails. -/
def tornScript : List (FileTurn Error) :=
  [.succeeds, .succeeds, .takes 1, .fails (.message "No space left on device (os error 28)")]

/-- The log after a whole append and a torn one. -/
def cutLog : FileContent := some (sampleCodec.records [sampleEvent] ++ sampleLine.take 1)

/-- After a whole append and a torn one the log holds the event of the first, and it can be read if
and only if its last line is finished or a whole record. -/
theorem log_readable_sample : ∃ offered held, LogRun sampleCodec LineFinished cutLog offered held ∧
    held = [sampleEvent] ∧
      (Readable sampleCodec cutLog held ↔ EndsInRecord sampleCodec cutLog) := by
  have hwhole := filePlayer_runs EventLogStore.notFound [] none
    (EventLogStore.append sampleCodec sampleStore [sampleEvent] ())
  have htorn := filePlayer_runs EventLogStore.notFound tornScript
    (some (sampleCodec.records [sampleEvent]))
    (EventLogStore.append sampleCodec sampleStore [sampleEvent] ())
  have hfinished : LineFinished (some (sampleCodec.records [sampleEvent])) := by
    rw [LineFinished]
    decide +kernel
  have hcut : ((filePlayer EventLogStore.notFound).play tornScript
      (some (sampleCodec.records [sampleEvent]))
      (EventLogStore.append sampleCodec sampleStore [sampleEvent] ())).2.2 = cutLog := by
    decide +kernel
  rw [play_append_sample] at hwhole
  rw [hcut] at htorn
  have hrun : LogRun sampleCodec LineFinished _ (([] ++ [sampleEvent]) ++ [sampleEvent]) _ :=
    .append (.append .start (Or.inr rfl) hwhole.1.performs hwhole.2)
      (Or.inr hfinished) htorn.1.performs htorn.2
  refine ⟨_, _, hrun, by decide +kernel, log_readable_iff hrun fun e he => ?_⟩
  obtain rfl : e = sampleEvent := by simpa using he
  exact sampleCodec_writes

/-- The log after a torn append and a whole one. -/
def tornLog : FileContent := some (sampleLine.take 1 ++ sampleCodec.records [sampleEvent])

/-- After a torn append a whole one is retained and no query succeeds. -/
theorem log_unreadable_after_torn_append : ∃ offered held, LogRun sampleCodec (fun _ => True)
    tornLog offered held ∧ (∀ e ∈ offered, sampleCodec.Writes e) ∧ sampleEvent ∈ held ∧
      ¬Readable sampleCodec tornLog held := by
  have htorn := filePlayer_runs EventLogStore.notFound tornScript none
    (EventLogStore.append sampleCodec sampleStore [sampleEvent] ())
  have hwhole := filePlayer_runs EventLogStore.notFound [] (some (sampleLine.take 1))
    (EventLogStore.append sampleCodec sampleStore [sampleEvent] ())
  have hfirst : ((filePlayer EventLogStore.notFound).play tornScript none
      (EventLogStore.append sampleCodec sampleStore [sampleEvent] ())).2.2 =
        some (sampleLine.take 1) := by decide +kernel
  have hsecond : ((filePlayer EventLogStore.notFound).play [] (some (sampleLine.take 1))
      (EventLogStore.append sampleCodec sampleStore [sampleEvent] ())).2.2 = tornLog := by
    decide +kernel
  rw [hfirst] at htorn
  rw [hsecond] at hwhole
  have hrun : LogRun sampleCodec (fun _ => True) _ _ _ :=
    .append .start (Or.inr trivial) htorn.1.performs htorn.2
  refine ⟨_, _, .append hrun (Or.inr trivial) hwhole.1.performs hwhole.2, ?_, by decide +kernel,
    fun hreadable => ?_⟩
  · intro e he
    have he : e = sampleEvent := by simpa using he
    exact he ▸ sampleCodec_writes
  · obtain ⟨tr, r, hquery, hp, hread⟩ := sessionLogs_runs sampleCodec sampleStore "codex" "t1" none
      (lineItems (tornLog.getD [])).length tornLog
    obtain ⟨logs, rfl, _⟩ := hreadable sampleStore "codex" "t1" _ le_rfl tr r _ hquery hp hread
    have hresult := EventLogStore.sessionLogs_returns hquery hp hread
    have hfails : (EventLogStore.scanLogs sampleCodec sampleStore.path "codex" "t1" none
        (lineItems (tornLog.getD [])).length (lineItems (tornLog.getD [])) []).isOk = false := by
      decide +kernel
    rw [← hresult] at hfails
    exact nomatch hfails

end Watchcat
