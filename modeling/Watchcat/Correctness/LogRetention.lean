import Watchcat.State.EventLogAppends
import Watchcat.State.SampleLog

/-!
# What the event log retains and answers

While its appends succeed the event log holds the last of the events appended to
it, at most twice as many as it is to retain, and a query answers exactly the
last entries that match it.
-/

namespace Watchcat

open Watchcat.Core

namespace EventLogStore

variable {codec : Codec EngineEvent} {store : EventLogStore} {events kept : List EngineEvent}

/-! ## Compaction -/

/-- Compacting a file of records keeps the last of them. -/
theorem compacted_records (h : ∀ e ∈ kept, codec.Writes e) (retention : Nat) :
    compacted retention (codec.records kept) = codec.records (kept.rtake retention) := by
  rw [compacted, Codec.lineItems_records h, Codec.records, map_rtake]

theorem length_lineItems_records (h : ∀ e ∈ kept, codec.Writes e) :
    (lineItems (codec.records kept)).length = kept.length := by
  rw [Codec.lineItems_records h, List.length_map]

/-! ## Queries -/

/-- A query that can read the file answers by its lines. -/
theorem sessionLogs_returns {provider sessionId : String} {category : Option String} {limit : Nat}
    {w w' : FileContent} {tr : FileTrace Error} {r : Except Error (List SessionLog)}
    (h : (sessionLogs codec store provider sessionId category limit).Returns () tr r ())
    (hp : FilePath w tr w') (hread : ReadsSucceed tr) :
    r = scanLogs codec store.path provider sessionId category limit
      (lineItems (w.getD [])) [] := by
  rw [sessionLogs, Act.bind_eq, Act.returns_perform_andThen] at h
  obtain ⟨present, rest, rfl, h⟩ := h
  obtain ⟨mid, ⟨hmid, hpresent⟩, hrest⟩ := filePath_cons.mp hp
  obtain rfl : mid = w := hmid
  cases mid with
  | none =>
    obtain rfl : present = false := hpresent
    exact (Act.returns_ret.mp h).2.1
  | some content =>
    obtain rfl : present = true := hpresent
    rw [if_pos rfl, Act.bind_eq, readExisting, Act.bind_eq, Act.andThen_assoc,
      Act.returns_perform_andThen] at h
    obtain ⟨read, rest, rfl, h⟩ := h
    obtain ⟨_, ⟨_, hcontent⟩, _⟩ := filePath_cons.mp hrest
    cases read with
    | error e => exact absurd (by simp) (hread e)
    | ok content' =>
      obtain rfl := hcontent content' rfl
      exact (Act.returns_ofExcept.mp h).2.1

/-- Every line of a file of records is one of them. -/
theorem forall₂_records (h : ∀ e ∈ kept, codec.Writes e) :
    List.Forall₂ (fun line event => isUtf8 line = true ∧ codec.decode line = .ok event)
      (kept.map codec.encode) kept := by
  induction kept with
  | nil => exact .nil
  | cons e kept ih =>
    have he := h e List.mem_cons_self
    exact .cons ⟨he.text, he.decode⟩ (ih fun e he => h e (List.mem_cons_of_mem _ he))

/-- The entries that a query collects are those of the matching events. -/
theorem filterMap_queried {provider sessionId : String} (category : Option String)
    (hcolon : ':' ∉ provider.toList) (kept : List EngineEvent) :
    kept.filterMap (queried provider sessionId category) =
      (kept.filter (·.matchesQuery provider sessionId category)).map
        (·.logOf provider sessionId) := by
  induction kept with
  | nil => rfl
  | cons e kept ih =>
    have hq : queried provider sessionId category e =
        if e.matchesQuery provider sessionId category then some (e.logOf provider sessionId)
        else none := EngineEvent.filter_asSessionLog category hcolon e
    by_cases hmatch : e.matchesQuery provider sessionId category = true
    · rw [if_pos hmatch] at hq
      rw [List.filterMap_cons_some hq, List.filter_cons_of_pos hmatch, List.map_cons, ih]
    · rw [if_neg hmatch] at hq
      rw [List.filterMap_cons_none hq, List.filter_cons_of_neg hmatch, ih]

/-- A query of a file of records. -/
theorem sessionLogs_records {provider sessionId : String} {category : Option String} {limit : Nat}
    {w w' : FileContent} {tr : FileTrace Error} {r : Except Error (List SessionLog)}
    (hkept : ∀ e ∈ kept, codec.Writes e) (hw : w.getD [] = codec.records kept)
    (hcolon : ':' ∉ provider.toList)
    (h : (sessionLogs codec store provider sessionId category limit).Returns () tr r ())
    (hp : FilePath w tr w') (hread : ReadsSucceed tr) :
    r = .ok (((kept.filter (·.matchesQuery provider sessionId category)).rtake limit).map
      (·.logOf provider sessionId)) := by
  rw [sessionLogs_returns h hp hread, hw, Codec.lineItems_records hkept,
    scanLogs_ok (forall₂_records hkept) (Nat.zero_le _), List.nil_append,
    filterMap_queried category hcolon, map_rtake]

end EventLogStore

/-! ## Runs -/

/-- The file after successful appends to an absent log, with the events appended. -/
inductive LogAppends (codec : Codec EngineEvent) (store : EventLogStore) :
    FileContent → List EngineEvent → Prop
  | start : LogAppends codec store none []
  | append {w w' : FileContent} {events batch : List EngineEvent} {tr : FileTrace Error}
      (hrun : LogAppends codec store w events)
      (happend : (EventLogStore.append codec store batch).Returns () tr (.ok ()) ())
      (hp : FilePath w tr w') : LogAppends codec store w' (events ++ batch)

/-- The events that a log holds after some have been appended. -/
structure LogRetains (codec : Codec EngineEvent) (retention : Nat) (w : FileContent)
    (events kept : List EngineEvent) : Prop where
  content : w.getD [] = codec.records kept
  suffix : kept <:+ events
  enough : min events.length retention ≤ kept.length
  bounded : kept.length ≤ 2 * retention

variable {codec : Codec EngineEvent} {store : EventLogStore}

/-- A successful append keeps the last events. -/
theorem LogRetains.append {w w' : FileContent} {events kept batch : List EngineEvent}
    {tr : FileTrace Error} (h : LogRetains codec store.retention w events kept)
    (hcodec : ∀ e ∈ events ++ batch, codec.Writes e)
    (happend : (EventLogStore.append codec store batch).Returns () tr (.ok ()) ())
    (hp : FilePath w tr w') :
    ∃ kept', LogRetains codec store.retention w' (events ++ batch) kept' := by
  by_cases hbatch : batch = []
  · subst hbatch
    rw [EventLogStore.append, if_pos rfl] at happend
    obtain ⟨rfl, _⟩ := Act.returns_ret.mp happend
    obtain rfl := filePath_nil.mp hp
    rw [List.append_nil]
    exact ⟨kept, h⟩
  have hsuffix : kept ++ batch <:+ events ++ batch := by
    obtain ⟨first, rfl⟩ := h.suffix
    exact ⟨first, by simp⟩
  have hwrites : ∀ e ∈ kept ++ batch, codec.Writes e := fun e he => hcodec e (hsuffix.subset he)
  obtain ⟨hwritten, hshort⟩ := EventLogStore.append_returns hbatch happend hp
  have henough := h.enough
  have hlen : kept.length ≤ events.length := h.suffix.length_le
  rcases EventLogStore.append_performs happend.performs hp with ⟨hrep, hw'⟩ | ⟨_, _, hw'⟩
  · rw [hwritten, List.take_length, h.content, ← Codec.records_append] at hw'
    refine ⟨kept ++ batch, hw', hsuffix, ?_, ?_⟩
    · rw [List.length_append, List.length_append]
      omega
    · have hlines := hshort hrep
      rwa [hw', EventLogStore.length_lineItems_records hwrites] at hlines
  · rw [h.content, ← Codec.records_append, EventLogStore.compacted_records hwrites] at hw'
    refine ⟨(kept ++ batch).rtake store.retention, hw', (rtake_suffix _ _).trans hsuffix, ?_, ?_⟩
    · rw [length_rtake, List.length_append, List.length_append]
      omega
    · rw [length_rtake]
      omega

theorem LogAppends.retains {w : FileContent} {events : List EngineEvent}
    (hrun : LogAppends codec store w events) (hcodec : ∀ e ∈ events, codec.Writes e) :
    ∃ kept, LogRetains codec store.retention w events kept := by
  induction hrun with
  | start => exact ⟨[], rfl, List.suffix_rfl, Nat.zero_le _, Nat.zero_le _⟩
  | append _ happend hp ih =>
    obtain ⟨kept, hkept⟩ := ih fun e he => hcodec e (List.mem_append_left _ he)
    exact hkept.append hcodec happend hp

/-- After any number of successful appends the log is a suffix of the events appended, with at
least as many as it is to retain, where there are so many, and at most twice as many; a query
answers the last of its entries that match, in order. -/
theorem log_retention {w : FileContent} {events : List EngineEvent}
    (hrun : LogAppends codec store w events) (hcodec : ∀ e ∈ events, codec.Writes e) :
    ∃ kept, LogRetains codec store.retention w events kept ∧
      ∀ (provider sessionId : String) (category : Option String) (limit : Nat),
        ':' ∉ provider.toList → ∀ tr r w',
          (EventLogStore.sessionLogs codec store provider sessionId category limit).Returns
            () tr r () → FilePath w tr w' → ReadsSucceed tr →
          r = .ok (((kept.filter (·.matchesQuery provider sessionId category)).rtake limit).map
            (·.logOf provider sessionId)) := by
  obtain ⟨kept, hkept⟩ := hrun.retains hcodec
  refine ⟨kept, hkept, fun provider sessionId category limit hcolon tr r w' hquery hp hread => ?_⟩
  exact EventLogStore.sessionLogs_records (fun e he => hcodec e (hkept.suffix.subset he))
    hkept.content hcolon hquery hp hread

theorem play_append_sample :
    ((filePlayer EventLogStore.notFound).play [] none
      (EventLogStore.append sampleCodec sampleStore [sampleEvent] ())).2 =
      ((.ok (), ()), some (sampleCodec.records [sampleEvent])) := by decide +kernel

/-- The log of the sample after a batch of one event, one of two and another one of one. -/
def compactedLog : FileContent := some (sampleCodec.records [sampleEvent, sampleEvent])

/-- What an append leaves of the log of the sample. -/
def sampleAppend (batch : List EngineEvent) (w : FileContent) :
    FileTrace Error × (Except Error Unit × Unit) × FileContent :=
  (filePlayer EventLogStore.notFound).play [] w
    (EventLogStore.append sampleCodec sampleStore batch ())

/-- A batch that makes the log too long has it compacted. -/
theorem sampleAppend_compacts :
    (sampleAppend [sampleEvent, sampleEvent] (some (sampleCodec.records [sampleEvent]))).2 =
      ((.ok (), ()), some (sampleCodec.records [sampleEvent])) := by decide +kernel

theorem sampleAppend_last :
    (sampleAppend [sampleEvent] (some (sampleCodec.records [sampleEvent]))).2 =
      ((.ok (), ()), compactedLog) := by decide +kernel

/-- Of four events in three batches, with a compaction in between, the last two are in the log and
are what a query answers. -/
theorem log_retention_sample :
    ∃ kept, LogRetains sampleCodec 1 compactedLog
        [sampleEvent, sampleEvent, sampleEvent, sampleEvent] kept ∧
      ∀ (provider sessionId : String) (category : Option String) (limit : Nat),
        ':' ∉ provider.toList → ∀ tr r w',
          (EventLogStore.sessionLogs sampleCodec sampleStore provider sessionId category
            limit).Returns () tr r () → FilePath compactedLog tr w' →
          ReadsSucceed tr →
          r = .ok (((kept.filter (·.matchesQuery provider sessionId category)).rtake limit).map
            (·.logOf provider sessionId)) := by
  have hfirst := filePlayer_runs EventLogStore.notFound [] none
    (EventLogStore.append sampleCodec sampleStore [sampleEvent] ())
  have hsecond := filePlayer_runs EventLogStore.notFound []
    (some (sampleCodec.records [sampleEvent]))
    (EventLogStore.append sampleCodec sampleStore [sampleEvent, sampleEvent] ())
  have hthird := filePlayer_runs EventLogStore.notFound []
    (some (sampleCodec.records [sampleEvent]))
    (EventLogStore.append sampleCodec sampleStore [sampleEvent] ())
  rw [play_append_sample] at hfirst
  rw [← sampleAppend, sampleAppend_compacts] at hsecond
  rw [← sampleAppend, sampleAppend_last] at hthird
  have hrun : LogAppends sampleCodec sampleStore _
      ((([] ++ [sampleEvent]) ++ [sampleEvent, sampleEvent]) ++ [sampleEvent]) :=
    .append (.append (.append .start hfirst.1 hfirst.2) hsecond.1 hsecond.2) hthird.1 hthird.2
  refine log_retention hrun fun e he => ?_
  obtain rfl : e = sampleEvent := by simpa using he
  exact sampleCodec_writes

end Watchcat
