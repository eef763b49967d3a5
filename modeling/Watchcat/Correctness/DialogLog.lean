import Watchcat.OsPermissions.Events
import Watchcat.State.SampleLog

/-!
# Appends to the dialog log

Every call leaves the file a sequence of complete records, and an unfinished
line only where the log asks for repair. An append that fails leaves the records
as they were, unless it fails in the compaction after its record was written.
-/

namespace Watchcat

open Watchcat.Core

variable {codec : Codec LoggedEvent} {path : String} {events : List LoggedEvent}

/-- The event is written as one line of text and read back, with its newline, as itself. -/
structure WritesEvent (codec : Codec LoggedEvent) (event : LoggedEvent) : Prop where
  line : newline ∉ codec.encode event
  text : isUtf8 (codec.encode event) = true
  decode : codec.decode (codec.encode event ++ [newline]) = .ok event

/-- The complete lines of the file are records of the events. -/
def Stores (codec : Codec LoggedEvent) (path : String) (content : Bytes)
    (events : List LoggedEvent) : Prop :=
  List.Forall₂ (fun line event => decodeEvent codec path line = .ok event)
    (linesOf newline content) events

theorem WritesEvent.decodeEvent {event : LoggedEvent} (h : WritesEvent codec event) :
    decodeEvent codec path (codec.encode event) = .ok event := by
  rw [Watchcat.decodeEvent, if_pos h.text, h.decode]
  rfl

theorem notMem_encode_event (h : ∀ event ∈ events, WritesEvent codec event) :
    ∀ line ∈ events.map codec.encode, newline ∉ line := by
  intro line hline
  obtain ⟨event, hevent, rfl⟩ := List.mem_map.mp hline
  exact (h event hevent).line

theorem forall₂_encode_event (h : ∀ event ∈ events, WritesEvent codec event) :
    List.Forall₂ (fun line event => Watchcat.decodeEvent codec path line = .ok event)
      (events.map codec.encode) events := by
  induction events with
  | nil => exact .nil
  | cons event events ih =>
    exact .cons (h event List.mem_cons_self).decodeEvent
      (ih fun e he => h e (List.mem_cons_of_mem _ he))

/-- The file of some records stores them. -/
theorem stores_records (h : ∀ event ∈ events, WritesEvent codec event) :
    Stores codec path (codec.records events) events := by
  rw [Stores, Codec.records, linesOf_unlines (notMem_encode_event h)]
  exact forall₂_encode_event h

/-- The records of a file are determined. -/
theorem Stores.unique {content : Bytes} {events' : List LoggedEvent}
    (h : Stores codec path content events) (h' : Stores codec path content events') :
    events = events' := by
  unfold Stores at h h'
  generalize linesOf newline content = lines at h h'
  induction h generalizing events' with
  | nil =>
    cases h'
    rfl
  | cons hline _ ih =>
    cases h' with
    | cons hline' hrest' =>
      rw [Except.ok.inj (hline.symm.trans hline'), ih hrest']

/-- A part of one line after the complete lines stores nothing more. -/
theorem Stores.append_part {content part : Bytes} (h : Stores codec path content events)
    (hfinished : unfinished newline content = []) (hpart : newline ∉ part) :
    Stores codec path (content ++ part) events := by
  rwa [Stores, linesOf_append hfinished, linesOf_of_notMem hpart, List.append_nil]

/-- A whole record after the complete lines is stored after them. -/
theorem Stores.append_record {content : Bytes} {event : LoggedEvent}
    (h : Stores codec path content events) (hfinished : unfinished newline content = [])
    (hevent : WritesEvent codec event) :
    Stores codec path (content ++ (codec.encode event ++ [newline])) (events ++ [event]) := by
  rw [Stores, linesOf_append hfinished, linesOf_line_append hevent.line, linesOf_nil]
  exact List.rel_append h (.cons hevent.decodeEvent .nil)

/-! ## Reading -/

/-- The events that a read shows. -/
def shown (clicksOnly : Bool) (event : LoggedEvent) : Bool :=
  !(clicksOnly && (stripPrefix "click." event.kind).isNone)

theorem scanEvents_ok {clicksOnly : Bool} {limit : Nat} {lines : List Bytes}
    (h : List.Forall₂ (fun line event => decodeEvent codec path line = .ok event) lines events)
    {entries : List LoggedEvent} (hentries : entries.length ≤ limit) :
    scanEvents codec path clicksOnly limit lines entries =
      .ok ((entries ++ events.filter (shown clicksOnly)).rtake limit) := by
  induction h generalizing entries with
  | nil => rw [scanEvents, List.filter_nil, List.append_nil, rtake_of_length_le hentries]
  | @cons line event lines events hline _ ih =>
    by_cases hshown : shown clicksOnly event = true
    · have hno : ¬(clicksOnly && (stripPrefix "click." event.kind).isNone) = true := by
        rwa [shown, Bool.not_eq_true', ← Bool.not_eq_true] at hshown
      simp only [scanEvents, hline, if_neg hno]
      rw [ih (length_pushRecent_le hentries event), pushRecent_eq hentries, rtake_rtake_append,
        List.filter_cons_of_pos hshown, List.append_assoc, List.singleton_append]
    · have hyes : (clicksOnly && (stripPrefix "click." event.kind).isNone) = true := by
        simpa [shown] using hshown
      simp only [scanEvents, hline, if_pos hyes]
      rw [ih hentries, List.filter_cons_of_neg hshown]

/-- Reading a file of records shows the last ones that are asked for, if its unfinished line is
the beginning of a text. -/
theorem readContent_ok {content : Bytes} {clicksOnly : Bool} {limit : Nat}
    (h : Stores codec path content events)
    (htext : isUtf8 (unfinished newline content) = true) :
    readContent codec path clicksOnly limit content =
      .ok ((events.filter (shown clicksOnly)).rtake limit) := by
  have hscan : scanEvents codec path clicksOnly limit (linesOf newline content) [] =
      .ok (([] ++ events.filter (shown clicksOnly)).rtake limit) :=
    scanEvents_ok h (Nat.zero_le limit)
  simp only [readContent, hscan, htext, List.nil_append, if_true]

theorem readEvents_returns {σ : Type} {s s' : σ} {clicksOnly : Bool} {limit : Nat}
    {w w' : FileContent} {tr : FileTrace Error} {r : Except Error (List LoggedEvent)}
    (h : (readEvents codec path clicksOnly limit : EventsIo σ _).Returns s tr r s')
    (hp : FilePath w tr w') :
    w' = w ∧ s' = s ∧ ((∃ e, tr = [⟨.read, .error e⟩] ∧ r = .error e) ∨
      (tr = [⟨.read, .ok w⟩] ∧ r = readContent codec path clicksOnly limit (w.getD []))) := by
  rw [readEvents, Act.bind_eq, Act.returns_perform_andThen] at h
  obtain ⟨(e | content), rest, rfl, h⟩ := h
  · obtain ⟨rfl, rfl, rfl⟩ := Act.returns_fail.mp h
    obtain ⟨mid, ⟨hmid, _⟩, hrest⟩ := filePath_cons.mp hp
    exact ⟨(filePath_nil.mp hrest).trans hmid, rfl, Or.inl ⟨e, rfl, rfl⟩⟩
  · obtain ⟨mid, ⟨hmid, hread⟩, hrest⟩ := filePath_cons.mp hp
    obtain rfl := hread content rfl
    obtain rfl := hmid
    rw [Act.bind_eq, Act.ofExcept_ok_andThen] at h
    cases mid with
    | none =>
      obtain ⟨rfl, rfl, rfl⟩ := Act.returns_ret.mp h
      exact ⟨filePath_nil.mp hrest, rfl, Or.inr ⟨rfl, rfl⟩⟩
    | some content =>
      obtain ⟨rfl, rfl, rfl⟩ := Act.returns_ofExcept.mp h
      exact ⟨filePath_nil.mp hrest, rfl, Or.inr ⟨rfl, rfl⟩⟩

/-! ## Opening the log -/

/-- What is left of the content is the text of the complete lines. -/
theorem take_completeLength (content : Bytes) :
    content.take (Log.completeLength content) ++
        List.replicate (Log.completeLength content - content.length) 0 =
      unlines newline (linesOf newline content) := by
  have hsplit := unlines_linesOf newline content
  have hlen : Log.completeLength content = (unlines newline (linesOf newline content)).length := by
    rw [Log.completeLength, rdropWhile_ne_sep]
  have hle : Log.completeLength content ≤ content.length := by
    rw [hlen]
    conv_rhs => rw [← hsplit, List.length_append]
    exact Nat.le_add_right _ _
  rw [Nat.sub_eq_zero_of_le hle, List.replicate_zero, List.append_nil, hlen]
  conv_lhs => rw [← hsplit]
  exact List.take_left' (by rw [hsplit])

/-- Cutting an unfinished line off leaves the complete ones, also where it fails. -/
theorem trim_returns {w w' : FileContent} {tr : FileTrace Error} {r : Except Error Unit}
    (h : (Log.trim (w.getD [])).Returns () tr r ()) (hp : FilePath w tr w') :
    linesOf newline (w'.getD []) = linesOf newline (w.getD []) ∧
      (r = .ok () → unfinished newline (w'.getD []) = []) := by
  rw [Log.trim] at h
  split at h
  · rename_i hpart
    rw [Act.bind_eq, Act.returns_perform_andThen] at h
    obtain ⟨(e | _), rest, rfl, h⟩ := h
    · obtain ⟨rfl, rfl, _⟩ := Act.returns_fail.mp h
      obtain ⟨mid, ⟨hmid, _⟩, hrest⟩ := filePath_cons.mp hp
      obtain rfl := (filePath_nil.mp hrest).trans hmid
      exact ⟨rfl, nofun⟩
    · rw [Act.bind_eq, Act.ofExcept_ok_andThen, Act.bind_eq, Act.returns_perform_andThen] at h
      obtain ⟨mid, ⟨hmid, _⟩, hrest⟩ := filePath_cons.mp hp
      obtain rfl : mid = w := hmid
      obtain ⟨(e | _), rest, rfl, h⟩ := h
      · obtain ⟨rfl, rfl, _⟩ := Act.returns_ofExcept.mp h
        obtain ⟨mid', hmid', hend⟩ := filePath_cons.mp hrest
        obtain rfl := (filePath_nil.mp hend).trans hmid'
        exact ⟨rfl, nofun⟩
      · obtain ⟨rfl, rfl, _⟩ := Act.returns_ofExcept.mp h
        obtain ⟨mid', hmid', hend⟩ := filePath_cons.mp hrest
        obtain rfl := (filePath_nil.mp hend).trans hmid'
        cases mid with
        | none => exact absurd rfl hpart.1
        | some content =>
          simp only [Option.getD_some, Option.map_some, take_completeLength]
          exact ⟨linesOf_unlines (notMem_linesOf content),
            fun _ => unfinished_unlines (notMem_linesOf content)⟩
  · rename_i hwhole
    obtain ⟨rfl, rfl, _⟩ := Act.returns_ret.mp h
    obtain rfl := filePath_nil.mp hp
    exact ⟨rfl, fun _ => by_contra fun hne => hwhole (unfinished_ne_nil_iff.mp hne)⟩

/-- What is true of an open log between its calls. -/
structure LogOpen (path : String) (retention : Nat) (w : FileContent) (events : List LoggedEvent)
    (log : Log) : Prop where
  path_eq : log.path = path
  retention_eq : log.retention = retention
  finished : log.repairRequired = false → unfinished newline (w.getD []) = []
  count : log.count = events.length ∨ u64Max ≤ log.count

theorem filter_shown_all (events : List LoggedEvent) : events.filter (shown false) = events :=
  List.filter_eq_self.mpr fun _ _ => rfl

/-- Opening a log keeps the records and leaves no unfinished line where it succeeds. -/
theorem new_returns {retention : Nat} {w w' : FileContent} {tr : FileTrace Error}
    {r : Except Error Log} (hstores : Stores codec path (w.getD []) events)
    (h : (Log.new codec path retention).Returns () tr r ()) (hp : FilePath w tr w') :
    Stores codec path (w'.getD []) events ∧
      ∀ log, r = .ok log → LogOpen path retention w' events log ∧ log.repairRequired = false := by
  rw [Log.new, Act.bind_eq, Act.returns_perform_andThen] at h
  obtain ⟨(e | content), rest, rfl, h⟩ := h
  · obtain ⟨rfl, rfl, _⟩ := Act.returns_fail.mp h
    obtain ⟨mid, ⟨hmid, _⟩, hrest⟩ := filePath_cons.mp hp
    obtain rfl := (filePath_nil.mp hrest).trans hmid
    exact ⟨hstores, nofun⟩
  · obtain ⟨mid, ⟨hmid, hread⟩, hrest⟩ := filePath_cons.mp hp
    obtain rfl := hread content rfl
    obtain rfl : mid = content := hmid
    rw [Act.bind_eq, Act.ofExcept_ok_andThen, Act.bind_eq, Act.returns_andThen] at h
    rcases h with ⟨e, rfl, h⟩ | ⟨first, second, _, _, rfl, h, h'⟩
    · obtain ⟨hlines, _⟩ := trim_returns h hrest
      exact ⟨by rwa [Stores, hlines], nofun⟩
    · obtain ⟨trimmed, hp, hp'⟩ := filePath_append.mp hrest
      obtain ⟨hlines, hfinished⟩ := trim_returns h hp
      have hfinished := hfinished rfl
      have hstores : Stores codec path (trimmed.getD []) events := by rwa [Stores, hlines]
      rw [Act.bind_eq, Act.returns_andThen] at h'
      rcases h' with ⟨e, rfl, h'⟩ | ⟨first', second', entries, _, rfl, h', hret⟩
      · obtain ⟨rfl, _, _⟩ := readEvents_returns h' hp'
        exact ⟨hstores, nofun⟩
      · obtain ⟨read, hp', hend⟩ := filePath_append.mp hp'
        obtain ⟨rfl, _, ⟨e, _, hbad⟩ | ⟨_, hentries⟩⟩ := readEvents_returns h' hp'
        · exact nomatch hbad
        · obtain ⟨rfl, rfl, _⟩ := Act.returns_ret.mp hret
          obtain rfl := filePath_nil.mp hend
          refine ⟨hstores, fun log hlog => ?_⟩
          obtain rfl := Except.ok.inj hlog
          rw [readContent_ok hstores (by rw [hfinished]; rfl), filter_shown_all] at hentries
          refine ⟨⟨rfl, rfl, fun _ => hfinished, ?_⟩, rfl⟩
          show entries.length = events.length ∨ u64Max ≤ entries.length
          rw [Except.ok.inj hentries, length_rtake]
          rcases Nat.le_total events.length u64Max with hle | hge
          · exact Or.inl (Nat.min_eq_right hle)
          · exact Or.inr (Nat.min_eq_left hge).ge

/-! ## Appending -/

/-- No step of a compaction fails: neither its reading nor its replacement of the file. -/
def CompactionSucceeds (tr : FileTrace Error) : Prop :=
  ReadsSucceed tr ∧ ∀ (bytes : Bytes) (e : Error), ⟨.replace bytes, .error e⟩ ∉ tr

/-- A call of a compaction. -/
def FileCall.Compacts : FileCall → Prop
  | .read => True
  | .replace _ => True
  | _ => False

/-- Where no call is of a compaction, none fails in one. -/
theorem compactionSucceeds_of_none {tr : FileTrace Error} (h : ∀ e ∈ tr, ¬FileCall.Compacts e.1) :
    CompactionSucceeds tr :=
  ⟨fun _ he => h _ he trivial, fun _ _ he => h _ he trivial⟩

/-- Other calls come before those of a compaction. -/
theorem compactionSucceeds_append {tr tr' : FileTrace Error}
    (h : ∀ e ∈ tr, ¬FileCall.Compacts e.1) :
    CompactionSucceeds (tr ++ tr') ↔ CompactionSucceeds tr' := by
  obtain ⟨hread, hreplace⟩ := compactionSucceeds_of_none h
  constructor
  · exact fun hall => ⟨fun e he => hall.1 e (List.mem_append_right _ he),
      fun bytes e he => hall.2 bytes e (List.mem_append_right _ he)⟩
  · refine fun hrest => ⟨fun e he => ?_, fun bytes e he => ?_⟩
    · exact (List.mem_append.mp he).elim (hread e) (hrest.1 e)
    · exact (List.mem_append.mp he).elim (hreplace bytes e) (hrest.2 bytes e)

/-- Compacting keeps the last records, or fails and changes nothing. -/
theorem compactEvents_returns {log log' : Log} {w w' : FileContent} {tr : FileTrace Error}
    {r : Except Error Unit} (hstores : Stores codec log.path (w.getD []) events)
    (hfinished : unfinished newline (w.getD []) = [])
    (h : (Log.compactEvents codec).Returns log tr r log') (hp : FilePath w tr w') :
    (r = .ok () ∧ CompactionSucceeds tr ∧
      w' = some (codec.records (events.rtake log.retention)) ∧
      log' = { log with count := (events.rtake log.retention).length }) ∨
    (∃ e, r = .error e ∧ ¬CompactionSucceeds tr ∧ w' = w ∧ log' = log) := by
  rw [Log.compactEvents, Act.bind_eq, Act.returns_get_andThen, Act.bind_eq,
    Act.returns_andThen] at h
  rcases h with ⟨e, rfl, h'⟩ | ⟨first, second, entries, _, rfl, h', h⟩
  · obtain ⟨rfl, rfl, ⟨e, rfl, _⟩ | ⟨_, hentries⟩⟩ := readEvents_returns h' hp
    · exact Or.inr ⟨_, rfl, fun hs => hs.1 e (List.mem_singleton.mpr rfl), rfl, rfl⟩
    · rw [readContent_ok hstores (by rw [hfinished]; rfl)] at hentries
      exact nomatch hentries
  · obtain ⟨mid, hp, hp'⟩ := filePath_append.mp hp
    obtain ⟨rfl, rfl, ⟨e, _, hbad⟩ | ⟨rfl, hentries⟩⟩ := readEvents_returns h' hp
    · exact nomatch hbad
    rw [readContent_ok hstores (by rw [hfinished]; rfl), filter_shown_all] at hentries
    rw [Except.ok.inj hentries] at h
    rw [Act.bind_eq, Act.returns_perform_andThen] at h
    obtain ⟨(e | _), rest, rfl, h⟩ := h
    · obtain ⟨rfl, rfl, rfl⟩ := Act.returns_fail.mp h
      obtain ⟨mid', hmid', hend⟩ := filePath_cons.mp hp'
      obtain rfl := (filePath_nil.mp hend).trans hmid'
      exact Or.inr ⟨_, rfl,
        fun hs => hs.2 _ e (List.mem_append_right _ (List.mem_singleton.mpr rfl)), rfl, rfl⟩
    · rw [Act.bind_eq, Act.ofExcept_ok_andThen] at h
      obtain ⟨rfl, rfl, rfl⟩ := Act.returns_modify.mp h
      obtain ⟨mid', hmid', hend⟩ := filePath_cons.mp hp'
      obtain rfl := (filePath_nil.mp hend).trans hmid'
      exact Or.inl ⟨rfl, ⟨fun e he => by simp at he, fun bytes e he => by simp at he⟩, rfl, rfl⟩

/-- What an append does: it refuses and keeps the records, it fails in the compaction after its
record was written, or it succeeds. -/
inductive AppendOutcome (codec : Codec LoggedEvent) (path : String) (retention : Nat)
    (events : List LoggedEvent) (event : LoggedEvent) (w' : FileContent) (tr : FileTrace Error) :
    Except Error Unit → Log → Prop
  | refused {e : Error} {log' : Log} (hstores : Stores codec path (w'.getD []) events)
      (hopen : LogOpen path retention w' events log') (hcompacts : CompactionSucceeds tr) :
      AppendOutcome codec path retention events event w' tr (.error e) log'
  | uncompacted {e : Error} {log' : Log}
      (hstores : Stores codec path (w'.getD []) (events ++ [event]))
      (hcompacts : ¬CompactionSucceeds tr) :
      AppendOutcome codec path retention events event w' tr (.error e) log'
  | appended {log' : Log} {after : List LoggedEvent}
      (hafter : (after = events ++ [event] ∧ after.length ≤ 2 * retention) ∨
        after = (events ++ [event]).rtake retention)
      (hstores : Stores codec path (w'.getD []) after)
      (hopen : LogOpen path retention w' after log') (hcompacts : CompactionSucceeds tr) :
      AppendOutcome codec path retention events event w' tr (.ok ()) log'

/-- Calls of no compaction come before what an append does. -/
theorem AppendOutcome.after {retention : Nat} {event : LoggedEvent} {w' : FileContent}
    {tr tr' : FileTrace Error} {r : Except Error Unit} {log' : Log}
    (h : AppendOutcome codec path retention events event w' tr' r log')
    (hnone : ∀ e ∈ tr, ¬FileCall.Compacts e.1) :
    AppendOutcome codec path retention events event w' (tr ++ tr') r log' := by
  cases h with
  | refused hstores hopen hs =>
    exact .refused hstores hopen ((compactionSucceeds_append hnone).mpr hs)
  | uncompacted hstores hs =>
    exact .uncompacted hstores fun hall => hs ((compactionSucceeds_append hnone).mp hall)
  | appended hafter hstores hopen hs =>
    exact .appended hafter hstores hopen ((compactionSucceeds_append hnone).mpr hs)

/-- A write that fails is rolled back, or the log asks for repair. -/
theorem rollback_returns {log log' : Log} {b part : Bytes} {w' : FileContent}
    {tr : FileTrace Error} {r : Except Error Unit} {e : Error}
    (hstores : Stores codec log.path b events) (hfinished : unfinished newline b = [])
    (hpart : newline ∉ part) (hcount : log.count = events.length ∨ u64Max ≤ log.count)
    (h : (Log.settleWrite codec b.length (.error e)).Returns log tr r log')
    (hp : FilePath (some (b ++ part)) tr w') :
    (∃ e', r = .error e') ∧ Stores codec log.path (w'.getD []) events ∧
      LogOpen log.path log.retention w' events log' ∧ ∀ e ∈ tr, ¬FileCall.Compacts e.1 := by
  rw [Log.settleWrite, Act.bind_eq, Act.returns_perform_andThen] at h
  obtain ⟨(repairError | _), rest, rfl, h⟩ := h
  · have h : (Act.andThen (Act.modify fun log : Log => { log with repairRequired := true })
        fun _ => Act.fail _).Returns log rest r log' := h
    rw [Act.returns_modify_andThen] at h
    obtain ⟨rfl, rfl, rfl⟩ := Act.returns_fail.mp h
    obtain ⟨mid, hmid, hend⟩ := filePath_cons.mp hp
    obtain rfl := (filePath_nil.mp hend).trans hmid
    exact ⟨⟨_, rfl⟩, hstores.append_part hfinished hpart, ⟨rfl, rfl, nofun, hcount⟩,
      by simp [FileCall.Compacts]⟩
  · obtain ⟨rfl, rfl, rfl⟩ := Act.returns_fail.mp h
    obtain ⟨mid, hmid, hend⟩ := filePath_cons.mp hp
    have hw' : w' = some b := by
      rw [filePath_nil.mp hend, show mid = _ from hmid]
      simp
    rw [hw']
    exact ⟨⟨_, rfl⟩, hstores, ⟨rfl, rfl, fun _ => hfinished, hcount⟩,
      by simp [FileCall.Compacts]⟩

/-- After a whole write the record is stored; the call fails only where the compaction does. -/
theorem settle_written_returns {log log' : Log} {event : LoggedEvent} {w w' : FileContent}
    {tr : FileTrace Error} {r : Except Error Unit}
    (hevents : ∀ e ∈ events ++ [event], WritesEvent codec e)
    (hstores : Stores codec log.path (w.getD []) (events ++ [event]))
    (hfinished : unfinished newline (w.getD []) = [])
    (hcount : log.count = events.length ∨ u64Max ≤ log.count) {n : Nat}
    (h : (Log.settleWrite codec n (.ok ())).Returns log tr r log') (hp : FilePath w tr w') :
    AppendOutcome codec log.path log.retention events event w' tr r log' := by
  rw [Log.settleWrite, Act.bind_eq, Act.returns_modify_andThen, Act.bind_eq,
    Act.returns_get_andThen] at h
  split at h
  · rcases compactEvents_returns (by exact hstores) hfinished h hp with
      ⟨rfl, hs, rfl, rfl⟩ | ⟨e, rfl, hs, rfl, rfl⟩
    · have hlast : ∀ e ∈ (events ++ [event]).rtake log.retention, WritesEvent codec e :=
        fun e he => hevents e (mem_of_mem_rtake he)
      exact .appended (Or.inr rfl) (stores_records hlast)
        ⟨rfl, rfl, fun _ => unfinished_unlines (notMem_encode_event hlast), Or.inl rfl⟩ hs
    · exact .uncompacted hstores hs
  · rename_i hshort
    obtain ⟨rfl, rfl, rfl⟩ := Act.returns_ret.mp h
    obtain rfl := filePath_nil.mp hp
    have hle : log.count + 1 ≤ min (log.retention * 2) u64Max := Nat.not_lt.mp hshort
    have hexact : log.count = events.length :=
      hcount.resolve_right fun hge => by have := hle.trans (Nat.min_le_right _ _); omega
    refine .appended (Or.inl ⟨rfl, ?_⟩) hstores ⟨rfl, rfl, fun _ => hfinished, Or.inl ?_⟩
      (compactionSucceeds_of_none (by simp))
    · have := hle.trans (Nat.min_le_left _ _)
      rw [List.length_append, List.length_singleton, ← hexact]
      omega
    · rw [List.length_append, List.length_singleton, ← hexact]

/-- Every run of an append on an open log. -/
theorem append_outcome {retention : Nat} {log log' : Log} {event : LoggedEvent}
    {w w' : FileContent} {tr : FileTrace Error} {r : Except Error Unit}
    (hevents : ∀ e ∈ events ++ [event], WritesEvent codec e)
    (hstores : Stores codec path (w.getD []) events) (hopen : LogOpen path retention w events log)
    (h : (Log.append codec event).Returns log tr r log') (hp : FilePath w tr w') :
    AppendOutcome codec path retention events event w' tr r log' := by
  obtain ⟨rfl, rfl, hfin, hcount⟩ := hopen
  rw [Log.append, Act.bind_eq, Act.returns_get_andThen] at h
  split at h
  · obtain ⟨rfl, rfl, rfl⟩ := Act.returns_fail.mp h
    obtain rfl := filePath_nil.mp hp
    exact .refused hstores ⟨rfl, rfl, hfin, hcount⟩ (compactionSucceeds_of_none (by simp))
  rename_i hrepair
  have hfinished := hfin (Bool.not_eq_true _ ▸ hrepair)
  have hrefused : ∀ {tr : FileTrace Error} {e : Error} {w'' : FileContent},
      w''.getD [] = w.getD [] → (∀ e ∈ tr, ¬FileCall.Compacts e.1) →
      AppendOutcome codec log.path log.retention events event w'' tr (.error e) log := by
    intro tr e w'' hw'' htr
    exact .refused (hw'' ▸ hstores) ⟨rfl, rfl, fun _ => hw'' ▸ hfinished, hcount⟩
      (compactionSucceeds_of_none htr)
  rw [Act.bind_eq, Act.returns_perform_andThen] at h
  obtain ⟨(e | _), rest, rfl, h⟩ := h
  · obtain ⟨rfl, rfl, rfl⟩ := Act.returns_fail.mp h
    obtain ⟨mid, hmid, hend⟩ := filePath_cons.mp hp
    obtain rfl := (filePath_nil.mp hend).trans hmid
    exact hrefused rfl (by simp [FileCall.Compacts])
  obtain ⟨mid, hmid, hopened⟩ := filePath_cons.mp hp
  obtain rfl : mid = w := hmid
  rw [Act.bind_eq, Act.ofExcept_ok_andThen, Act.bind_eq, Act.returns_perform_andThen] at h
  obtain ⟨(e | _), rest, rfl, h⟩ := h
  · obtain ⟨rfl, rfl, rfl⟩ := Act.returns_fail.mp h
    obtain ⟨mid', hmid', hend⟩ := filePath_cons.mp hopened
    obtain rfl := (filePath_nil.mp hend).trans hmid'
    exact hrefused rfl (by simp [FileCall.Compacts])
  obtain ⟨mid', hmid', hmeasured⟩ := filePath_cons.mp hopened
  obtain rfl : mid' = some (mid.getD []) := hmid'
  rw [Act.bind_eq, Act.ofExcept_ok_andThen, Act.bind_eq, Act.returns_perform_andThen] at h
  obtain ⟨(e | n), rest, rfl, h⟩ := h
  · obtain ⟨rfl, rfl, rfl⟩ := Act.returns_fail.mp h
    obtain ⟨mid', ⟨hmid', _⟩, hend⟩ := filePath_cons.mp hmeasured
    obtain rfl := (filePath_nil.mp hend).trans hmid'
    exact hrefused rfl (by simp [FileCall.Compacts])
  obtain ⟨mid', ⟨hmid', hlength⟩, hwrite⟩ := filePath_cons.mp hmeasured
  obtain rfl : mid' = some (mid.getD []) := hmid'
  obtain ⟨b, hb, rfl⟩ := hlength n rfl
  obtain rfl := Option.some.inj hb
  rw [Act.bind_eq, Act.ofExcept_ok_andThen, Act.bind_eq, Act.returns_attempt_andThen] at h
  obtain ⟨first, second, outcome, log₁, rfl, hw, h⟩ := h
  obtain ⟨w₁, hpw, hend⟩ := filePath_append.mp hwrite
  obtain ⟨rfl, _, _⟩ := writeAll_performs hw.performs hpw
  obtain ⟨rfl, hok, herr⟩ := writeAll_returns le_rfl hw hpw
  have hwrites : ∀ e ∈ first, ¬FileCall.Compacts e.1 := by
    intro e he hcompacts
    obtain ⟨bytes, hbytes⟩ := (uses_writeAll _ _ _ log₁).returns hw e he
    rw [hbytes] at hcompacts
    exact hcompacts
  have hbefore : ∀ e ∈ ([⟨.createParent, .ok ()⟩, ⟨.openAppend, .ok ()⟩,
      ⟨.length, .ok (mid.getD []).length⟩] ++ first : FileTrace Error),
      ¬FileCall.Compacts e.1 := by
    intro e he
    rcases List.mem_append.mp he with he | he
    · simp only [List.mem_cons, List.not_mem_nil, or_false] at he
      rcases he with rfl | rfl | rfl <;> exact fun h => h
    · exact hwrites e he
  have hevent := hevents event (by simp)
  refine AppendOutcome.after ?_ hbefore
  cases outcome with
  | error e =>
    have hlt := herr e rfl
    rw [List.length_append, List.length_singleton] at hlt
    rw [List.take_append_of_le_length (Nat.lt_succ_iff.mp hlt)] at hend
    obtain ⟨⟨e', rfl⟩, hstores', hopen', hnone⟩ := rollback_returns hstores hfinished
      (fun hmem => hevent.line (List.mem_of_mem_take hmem)) hcount h hend
    exact .refused hstores' hopen' (compactionSucceeds_of_none hnone)
  | ok _ =>
    rw [hok rfl, List.take_length] at hend
    refine settle_written_returns hevents ?_ ?_ hcount h hend
    · exact hstores.append_record hfinished hevent
    · rw [Option.getD_some, unfinished_append hfinished, unfinished_line_append hevent.line]
      rfl

/-! ## Runs -/

/-- A call on the dialog log. -/
inductive LogCall
  /-- `Log::new`, when the service starts. -/
  | restart
  | append (event : LoggedEvent)

/-- The events a call offers to the log. -/
def LogCall.offered : LogCall → List LoggedEvent
  | .restart => []
  | .append event => [event]

/-- A call with its trace: whether it succeeds, and the file and the log after it. -/
inductive CallRuns (codec : Codec LoggedEvent) (path : String) (retention : Nat) :
    FileContent → Option Log → LogCall → FileTrace Error → Bool → FileContent → Option Log → Prop
  | restart {w w' : FileContent} {log : Option Log} {tr : FileTrace Error} {r : Except Error Log}
      (h : (Log.new codec path retention).Returns () tr r ()) (hp : FilePath w tr w') :
      CallRuns codec path retention w log .restart tr r.isOk w' r.toOption
  | append {w w' : FileContent} {log log' : Log} {event : LoggedEvent} {tr : FileTrace Error}
      {r : Except Error Unit} (h : (Log.append codec event).Returns log tr r log')
      (hp : FilePath w tr w') :
      CallRuns codec path retention w (some log) (.append event) tr r.isOk w' (some log')

/-- No step of the compaction of a call fails; a restart compacts nothing. -/
def LogCall.Compacted (call : LogCall) (tr : FileTrace Error) : Prop :=
  match call with
  | .restart => True
  | .append _ => CompactionSucceeds tr

/-- The file and the log after calls whose compactions all succeed, from a file of records and
perhaps a part of one more, with the events offered so far, those of the file among them, and
those accepted. -/
inductive DialogRun (codec : Codec LoggedEvent) (path : String) (retention : Nat) :
    FileContent → Option Log → List LoggedEvent → List LoggedEvent → Prop
  | start {w : FileContent} {events : List LoggedEvent}
      (hstores : Stores codec path (w.getD []) events) :
      DialogRun codec path retention w none events events
  | call {w w' : FileContent} {log log' : Option Log} {offered accepted : List LoggedEvent}
      {call : LogCall} {tr : FileTrace Error} {ok : Bool}
      (hrun : DialogRun codec path retention w log offered accepted)
      (hcall : CallRuns codec path retention w log call tr ok w' log')
      (hcompacted : call.Compacted tr) :
      DialogRun codec path retention w' log' (offered ++ call.offered)
        (if ok then accepted ++ call.offered else accepted)

/-- A call keeps the file a sequence of complete records, with an unfinished line at most where
no log is open that does not ask for repair. An append that succeeds leaves its record as the
last one, the log a suffix of the accepted records that is long enough and not too long; every
other call leaves the complete records as they were. -/
def CallHolds (codec : Codec LoggedEvent) (path : String) (retention : Nat)
    (before accepted : List LoggedEvent) (call : LogCall) (ok : Bool) (w' : FileContent)
    (log' : Option Log) : Prop :=
  ∃ after, Stores codec path (w'.getD []) after ∧
    (unfinished newline (w'.getD []) = [] ∨ ∀ log, log' = some log → log.repairRequired = true) ∧
    match call, ok with
    | .append event, true => after.getLast? = some event ∧ after <:+ accepted ++ [event] ∧
        min (accepted.length + 1) retention ≤ after.length ∧ after.length ≤ 2 * retention
    | _, _ => after = before

/-- What is true between the calls of a run. -/
structure LogKept (codec : Codec LoggedEvent) (path : String) (retention : Nat) (w : FileContent)
    (log : Option Log) (accepted before : List LoggedEvent) : Prop where
  stores : Stores codec path (w.getD []) before
  suffix : before <:+ accepted
  enough : min accepted.length retention ≤ before.length
  opened : ∀ l, log = some l → LogOpen path retention w before l

theorem LogOpen.tail {retention : Nat} {w : FileContent} {log : Log}
    (h : LogOpen path retention w events log) :
    unfinished newline (w.getD []) = [] ∨ ∀ l, some log = some l → l.repairRequired = true := by
  cases hrepair : log.repairRequired with
  | false => exact Or.inl (h.finished hrepair)
  | true =>
    refine Or.inr fun l hl => ?_
    rwa [← Option.some.inj hl]

/-- The records after an append that succeeds. -/
theorem appended_after {retention : Nat} {accepted before after : List LoggedEvent}
    {event : LoggedEvent} (hR : 1 ≤ retention) (hsuffix : before <:+ accepted)
    (henough : min accepted.length retention ≤ before.length)
    (hafter : (after = before ++ [event] ∧ after.length ≤ 2 * retention) ∨
      after = (before ++ [event]).rtake retention) :
    after.getLast? = some event ∧ after <:+ accepted ++ [event] ∧
      min (accepted.length + 1) retention ≤ after.length ∧ after.length ≤ 2 * retention := by
  have hall : before ++ [event] <:+ accepted ++ [event] := by
    obtain ⟨first, rfl⟩ := hsuffix
    exact ⟨first, by simp⟩
  have hlen := hsuffix.length_le
  rcases hafter with ⟨rfl, hle⟩ | rfl
  · refine ⟨by simp, hall, ?_, hle⟩
    rw [List.length_append, List.length_singleton]
    omega
  · refine ⟨?_, (rtake_suffix _ _).trans hall, ?_, ?_⟩
    · obtain ⟨n, rfl⟩ := Nat.exists_eq_add_of_le' hR
      rw [List.rtake_concat_succ]
      simp
    · rw [length_rtake, List.length_append, List.length_singleton]
      omega
    · rw [length_rtake]
      omega

/-- A call whose compaction succeeds keeps what is true between calls and holds. -/
theorem LogKept.call {retention : Nat} {w w' : FileContent} {log log' : Option Log}
    {accepted before : List LoggedEvent} {call : LogCall} {tr : FileTrace Error} {ok : Bool}
    (hR : 1 ≤ retention) (hkept : LogKept codec path retention w log accepted before)
    (hcodec : ∀ e ∈ accepted ++ call.offered, WritesEvent codec e)
    (hcall : CallRuns codec path retention w log call tr ok w' log')
    (hcompacted : call.Compacted tr) :
    (∃ after, LogKept codec path retention w' log'
      (if ok then accepted ++ call.offered else accepted) after) ∧
      CallHolds codec path retention before accepted call ok w' log' := by
  cases hcall with
  | @restart _ _ _ r h hp =>
    obtain ⟨hstores, hnew⟩ := new_returns hkept.stores h hp
    have hopened : ∀ l, r.toOption = some l → LogOpen path retention w' before l ∧
        l.repairRequired = false := by
      cases r with
      | error e => exact nofun
      | ok log => exact fun l hl => hnew l (congrArg Except.ok (Option.some.inj hl))
    refine ⟨⟨before, hstores, ?_, ?_, fun l hl => (hopened l hl).1⟩, before, hstores, ?_, ?_⟩
    · simpa [LogCall.offered] using hkept.suffix
    · simpa [LogCall.offered] using hkept.enough
    · cases r with
      | error e => exact Or.inr nofun
      | ok log => exact Or.inl ((hopened log rfl).1.finished (hopened log rfl).2)
    · rfl
  | @append _ log log' event _ r h hp =>
    have hevents : ∀ e ∈ before ++ [event], WritesEvent codec e := by
      intro e he
      rcases List.mem_append.mp he with he | he
      · exact hcodec e (List.mem_append_left _ (hkept.suffix.subset he))
      · exact hcodec e (List.mem_append_right _ he)
    cases append_outcome hevents hkept.stores (hkept.opened log rfl) h hp with
    | refused hstores hopen _ =>
      refine ⟨⟨before, hstores, hkept.suffix, hkept.enough, ?_⟩, before, hstores, hopen.tail, rfl⟩
      exact fun l hl => Option.some.inj hl ▸ hopen
    | uncompacted _ hfails => exact absurd hcompacted hfails
    | @appended log' after hafter hstores hopen _ =>
      have hall := appended_after hR hkept.suffix hkept.enough hafter
      refine ⟨⟨after, hstores, hall.2.1, ?_, fun l hl => Option.some.inj hl ▸ hopen⟩,
        after, hstores, hopen.tail, hall⟩
      show min (accepted ++ [event]).length retention ≤ after.length
      rw [List.length_append, List.length_singleton]
      exact hall.2.2.1

theorem DialogRun.kept {retention : Nat} {w : FileContent} {log : Option Log}
    {offered accepted : List LoggedEvent} (hR : 1 ≤ retention)
    (hrun : DialogRun codec path retention w log offered accepted)
    (hcodec : ∀ e ∈ offered, WritesEvent codec e) :
    (∀ e ∈ accepted, e ∈ offered) ∧
      ∃ before, LogKept codec path retention w log accepted before := by
  induction hrun with
  | @start w events hstores =>
    exact ⟨fun e he => he, events, hstores, List.suffix_rfl, Nat.min_le_left _ _, nofun⟩
  | @call w w' log log' offered accepted call tr ok _ hcall hcompacted ih =>
    obtain ⟨hsub, before, hkept⟩ := ih fun e he => hcodec e (List.mem_append_left _ he)
    have hsub' : ∀ e ∈ accepted ++ call.offered, e ∈ offered ++ call.offered := fun e he =>
      (List.mem_append.mp he).elim (fun he => List.mem_append_left _ (hsub e he))
        fun he => List.mem_append_right _ he
    refine ⟨fun e he => ?_,
      (hkept.call hR (fun e he => hcodec e (hsub' e he)) hcall hcompacted).1⟩
    cases ok with
    | true => exact hsub' e he
    | false => exact List.mem_append_left _ (hsub e he)

/-- In every run whose compactions succeed, a call keeps its promises if and only if no step of
its own compaction fails. -/
theorem dialog_append_atomic_iff {retention : Nat} (hR : 1 ≤ retention) {w w' : FileContent}
    {log log' : Option Log} {offered accepted before : List LoggedEvent} {call : LogCall}
    {tr : FileTrace Error} {ok : Bool}
    (hrun : DialogRun codec path retention w log offered accepted)
    (hbefore : Stores codec path (w.getD []) before)
    (hcall : CallRuns codec path retention w log call tr ok w' log')
    (hcodec : ∀ e ∈ offered ++ call.offered, WritesEvent codec e) :
    CallHolds codec path retention before accepted call ok w' log' ↔ call.Compacted tr := by
  obtain ⟨hsub, before', hkept⟩ :=
    hrun.kept hR fun e he => hcodec e (List.mem_append_left _ he)
  obtain rfl := hkept.stores.unique hbefore
  have hwrites : ∀ e ∈ accepted ++ call.offered, WritesEvent codec e := fun e he =>
    hcodec e ((List.mem_append.mp he).elim (fun he => List.mem_append_left _ (hsub e he))
      fun he => List.mem_append_right _ he)
  refine ⟨fun hholds => ?_, fun hs => (hkept.call hR hwrites hcall hs).2⟩
  cases hcall with
  | restart h hp => exact trivial
  | @append _ log log' event _ r h hp =>
    have hevents : ∀ e ∈ before' ++ [event], WritesEvent codec e := by
      intro e he
      rcases List.mem_append.mp he with he | he
      · exact hwrites e (List.mem_append_left _ (hkept.suffix.subset he))
      · exact hwrites e (List.mem_append_right _ he)
    cases append_outcome hevents hkept.stores (hkept.opened log rfl) h hp with
    | refused _ _ hs => exact hs
    | appended _ _ _ hs => exact hs
    | uncompacted hstores _ =>
      obtain ⟨after, hafter, _, heq⟩ := hholds
      obtain rfl : after = before' := heq
      exact absurd (hafter.unique hstores) (by simp)

/-! ## A compaction that fails -/

/-- The record of a click that is about to be made. -/
def sampleClick : LoggedEvent where
  timestamp := seconds 1789473600
  kind := "click.attempt"
  pid := some 123
  app := "Helper"
  rule := some "helper"
  button := some "Continue"
  detail := "matched rule"

/-- The record as JSON. -/
def sampleClickLine : Bytes := asciiBytes
  ("\x7b\"timestamp\":\"2026-09-15T12:00:00Z\",\"kind\":\"click.attempt\",\"pid\":123," ++
    "\"app\":\"Helper\",\"rule\":\"helper\",\"button\":\"Continue\"," ++
    "\"detail\":\"matched rule\"\x7d")

/-- JSON as far as the sample goes. -/
def sampleClickCodec : Codec LoggedEvent where
  encode event := if event = sampleClick then sampleClickLine else []
  decode line :=
    if line = sampleClickLine ∨ line = sampleClickLine ++ [newline] then .ok sampleClick
    else .error (.message "expected value")

theorem sampleClickCodec_writes : WritesEvent sampleClickCodec sampleClick where
  line := by decide +kernel
  text := by decide +kernel
  decode := by simp [sampleClickCodec]

/-- The file of two records. -/
def twoClicks : Bytes := sampleClickCodec.records [sampleClick, sampleClick]

theorem sampleClicks_written {events : List LoggedEvent} (h : ∀ e ∈ events, e = sampleClick) :
    ∀ e ∈ events, WritesEvent sampleClickCodec e :=
  fun e he => h e he ▸ sampleClickCodec_writes

/-- A file of clicks stores them, wherever it is. -/
theorem sampleClicks_stored {events : List LoggedEvent} (h : ∀ e ∈ events, e = sampleClick) :
    Stores sampleClickCodec "/state/dialog-events.jsonl"
      ((some (sampleClickCodec.records events)).getD []) events :=
  stores_records (sampleClicks_written h)

/-- The calls of a program on the sample file. -/
abbrev playClicks {α : Type} (script : List (FileTurn Error)) (w : FileContent)
    (p : Prog (FileReply Error) α) : FileTrace Error × α × FileContent :=
  (filePlayer (.message "No such file or directory (os error 2)")).play script w p

/-- The log of the sample file. -/
def sampleDialogLog (count : Nat) : Log := ⟨"/state/dialog-events.jsonl", count, 1, false⟩

/-- Opening the log of two records. -/
theorem sampleClicks_run : DialogRun sampleClickCodec "/state/dialog-events.jsonl" 1
    (some twoClicks) (some (sampleDialogLog 2)) [sampleClick, sampleClick]
    [sampleClick, sampleClick] := by
  have hplay := filePlayer_runs (.message "No such file or directory (os error 2)") []
    (some twoClicks) (Log.new sampleClickCodec "/state/dialog-events.jsonl" 1 ())
  have hopens : (playClicks [] (some twoClicks)
      (Log.new sampleClickCodec "/state/dialog-events.jsonl" 1 ())).2 =
        ((.ok (sampleDialogLog 2), ()), some twoClicks) := by decide +kernel
  rw [hopens] at hplay
  have hstores : Stores sampleClickCodec "/state/dialog-events.jsonl" ((some twoClicks).getD [])
      [sampleClick, sampleClick] := sampleClicks_stored (by simp)
  have hopen : CallRuns sampleClickCodec "/state/dialog-events.jsonl" 1 (some twoClicks) none
      .restart _ true (some twoClicks) (some (sampleDialogLog 2)) := .restart hplay.1 hplay.2
  exact .call (.start hstores) hopen trivial

/-- An append to two records that are to be one. -/
def clickScript : List (FileTurn Error) :=
  [.succeeds, .succeeds, .succeeds, .succeeds, .succeeds,
    .fails (.message "No space left on device (os error 28)")]

/-- The append whose compaction cannot replace the file. -/
def uncompactedClick : FileTrace Error × (Except Error Unit × Log) × FileContent :=
  playClicks clickScript (some twoClicks)
    (Log.append sampleClickCodec sampleClick (sampleDialogLog 2))

theorem uncompactedClick_eq : uncompactedClick.2 =
    ((.error (.message "No space left on device (os error 28)"), sampleDialogLog 3),
      some (sampleClickCodec.records [sampleClick, sampleClick, sampleClick])) := by
  decide +kernel

theorem uncompactedClick_runs : CallRuns sampleClickCodec "/state/dialog-events.jsonl" 1
    (some twoClicks) (some (sampleDialogLog 2)) (.append sampleClick) uncompactedClick.1 false
    (some (sampleClickCodec.records [sampleClick, sampleClick, sampleClick]))
    (some (sampleDialogLog 3)) := by
  have hplay := filePlayer_runs (.message "No such file or directory (os error 2)") clickScript
    (some twoClicks) (Log.append sampleClickCodec sampleClick (sampleDialogLog 2))
  have heq := uncompactedClick_eq
  rw [uncompactedClick] at heq
  rw [heq] at hplay
  exact .append hplay.1 hplay.2

/-- The third append to a log that retains one record keeps its promises if and only if its
compaction succeeds. -/
theorem dialog_append_atomic_sample :
    CallHolds sampleClickCodec "/state/dialog-events.jsonl" 1 [sampleClick, sampleClick]
        [sampleClick, sampleClick] (.append sampleClick) false
        (some (sampleClickCodec.records [sampleClick, sampleClick, sampleClick]))
        (some (sampleDialogLog 3)) ↔
      (LogCall.append sampleClick).Compacted uncompactedClick.1 := by
  have hstores : Stores sampleClickCodec "/state/dialog-events.jsonl" ((some twoClicks).getD [])
      [sampleClick, sampleClick] := sampleClicks_stored (by simp)
  exact dialog_append_atomic_iff le_rfl sampleClicks_run hstores uncompactedClick_runs
    (sampleClicks_written (by simp [LogCall.offered]))

/-- Where the file cannot be replaced the append fails although its record is written. -/
theorem dialog_append_fails_recorded : ∃ w' log' tr,
    CallRuns sampleClickCodec "/state/dialog-events.jsonl" 1 (some twoClicks)
      (some (sampleDialogLog 2)) (.append sampleClick) tr false w' log' ∧
    Stores sampleClickCodec "/state/dialog-events.jsonl" (w'.getD [])
      [sampleClick, sampleClick, sampleClick] ∧
    ¬CallHolds sampleClickCodec "/state/dialog-events.jsonl" 1 [sampleClick, sampleClick]
      [sampleClick, sampleClick] (.append sampleClick) false w' log' := by
  have hstores : Stores sampleClickCodec "/state/dialog-events.jsonl"
      ((some (sampleClickCodec.records [sampleClick, sampleClick, sampleClick])).getD [])
      [sampleClick, sampleClick, sampleClick] := sampleClicks_stored (by simp)
  refine ⟨_, _, _, uncompactedClick_runs, hstores, fun hholds => ?_⟩
  obtain ⟨after, hafter, _, heq⟩ := hholds
  obtain rfl : after = [sampleClick, sampleClick] := heq
  exact absurd (hafter.unique hstores) (by simp)

end Watchcat
