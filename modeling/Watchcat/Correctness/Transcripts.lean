import Watchcat.Base.JsonText
import Watchcat.Providers.Transcripts

/-!
# Reading on in a transcript

A transcript that grows is read on from where the reader stood; one that was
replaced is read from its start. At every refresh the cached title, time of
activity and uncertainty are those a new reader would find, as long as a
replacement is noticed and leaves none of the old title and of the old
uncertainty behind.
-/

namespace Watchcat

open Watchcat.Core

/-- The complete lines of a text. -/
def completeLines (text : Bytes) : Bytes := unlines newline (linesOf newline text)

theorem brokenLines_completeLines (text : Bytes) :
    brokenLines (completeLines text) = brokenLines text := by
  rw [brokenLines, completeLines, linesOf_unlines (notMem_linesOf text)]
  rfl

theorem unfinished_completeLines (text : Bytes) : unfinished newline (completeLines text) = [] :=
  unfinished_unlines (notMem_linesOf text)

theorem flatten_brokenLines (text : Bytes) : (brokenLines text).flatten = completeLines text := by
  rw [brokenLines, completeLines, unlines, List.flatMap_def]

/-- Behind complete lines the lines of a text are those of the rest. -/
theorem brokenLines_append {read : Bytes} (h : unfinished newline read = []) (rest : Bytes) :
    brokenLines (read ++ rest) = brokenLines read ++ brokenLines rest := by
  rw [brokenLines, linesOf_append h, List.map_append]
  rfl

section

variable [TranscriptFormat]

namespace Transcript

/-- The transcript has what a text tells of a session. -/
structure Tells (t : Transcript) (id : String) (text : Bytes) : Prop where
  title : t.session.title = (lastSome titleIn (brokenLines text)).getD id
  updatedAt : t.session.updatedAt =
    (brokenLines text).foldl (fun last line => laterOf last (activityIn line)) none
  uncertain : t.uncertain = (lastSome verdictIn (brokenLines text)).getD false

/-- Nothing of the old title and of the old uncertainty outlives a reading from the start. -/
def Replaceable (t : Transcript) (id : String) (file : FileView) : Prop :=
  ((lastSome titleIn (brokenLines file.content)).isSome ∨ t.session.title = id) ∧
    ((lastSome verdictIn (brokenLines file.content)).isSome ∨ t.uncertain = false)

/-- The file still begins with what was read, or a refresh starts over and leaves nothing. -/
def ReadsOn (t : Transcript) (id : String) (file : FileView) (read : Bytes) : Prop :=
  read <+: file.content ∨ t.startsOver file = true ∧ t.Replaceable id file

/-- What a transcript keeps of a file is what the complete lines tell that were read. -/
structure Reads (t : Transcript) (id : String) (file : FileView) (read : Bytes) : Prop where
  tells : t.Tells id read
  offset : t.offset = read.length
  complete : unfinished newline read = []
  current : t.modified = file.modified → read = completeLines file.content

theorem Reads.new {id : String} {file : FileView} (h : file.modified ≠ none) :
    (Transcript.new id).Reads id file [] :=
  ⟨⟨rfl, rfl, rfl⟩, rfl, rfl, fun heq => absurd heq.symm h⟩

end Transcript

/-- What a file that still begins with what was read tells replaces what it told before. -/
theorem Transcript.Reads.replaceable {t : Transcript} {id : String} {file : FileView}
    {read : Bytes} (h : t.Reads id file read) (hbegins : read <+: file.content) :
    t.Replaceable id file := by
  obtain ⟨rest, hcontent⟩ := hbegins
  have hlines : brokenLines file.content = brokenLines read ++ brokenLines rest := by
    rw [← hcontent, brokenLines_append h.complete]
  have hlast : ∀ {β : Type} (f : Bytes → Option β), (lastSome f (brokenLines read)).isSome →
      (lastSome f (brokenLines file.content)).isSome := fun f hsome => by
    rw [hlines, lastSome_append, Option.isSome_or, hsome, Bool.or_true]
  constructor
  · cases htitle : lastSome titleIn (brokenLines read) with
    | some title => exact .inl (hlast titleIn (htitle ▸ rfl))
    | none => exact .inr (by rw [h.tells.title, htitle]; rfl)
  · cases hverdict : lastSome verdictIn (brokenLines read) with
    | some verdict => exact .inl (hlast verdictIn (hverdict ▸ rfl))
    | none => exact .inr (by rw [h.tells.uncertain, hverdict]; rfl)

/-- A refresh of a text keeps what the text tells. -/
theorem Transcript.Reads.refresh {t : Transcript} {id : String} {file : FileView} {read : Bytes}
    (h : t.Reads id file read) (htext : isUtf8 file.content = true)
    (hreads : t.ReadsOn id file read) :
    (t.refresh (.ok file)).Reads id file (completeLines file.content) ∧
      (t.refresh (.ok file)).modified = file.modified := by
  cases hcurrent : t.isCurrent file with
  | true =>
    have hrefresh : t.refresh (.ok file) = t := by rw [Transcript.refresh, hcurrent]; rfl
    have hmodified := (Transcript.isCurrent_iff.mp hcurrent).2.1
    rw [hrefresh, ← h.current hmodified]
    exact ⟨h, hmodified⟩
  | false =>
    have hdone : unfinished newline (completeLines file.content) = [] :=
      unfinished_completeLines file.content
    by_cases hover : t.startsOver file = true
    · obtain ⟨htitle, huncertain⟩ : t.Replaceable id file :=
        hreads.elim h.replaceable fun hreplaced => hreplaced.2
      have hrestart : t.restart file = { t with
          offset := 0
          identity := file.identity
          session := { t.session with updatedAt := none } } := if_pos hover
      obtain ⟨u, hafter, hrefresh⟩ := Transcript.refresh_text hcurrent (hrestart ▸ htext)
      rw [hrestart, List.drop_zero] at hafter
      rw [hrefresh]
      refine ⟨⟨⟨?_, ?_, ?_⟩, ?_, hdone, fun _ => rfl⟩, rfl⟩
      · rw [brokenLines_completeLines]
        refine hafter.title.trans ?_
        rcases htitle with hsome | heq
        · obtain ⟨title, htitle⟩ := Option.isSome_iff_exists.mp hsome
          rw [htitle]
          rfl
        · rw [heq]
      · rw [brokenLines_completeLines]
        exact hafter.updatedAt
      · rw [brokenLines_completeLines]
        refine hafter.uncertain.trans ?_
        rcases huncertain with hsome | heq
        · obtain ⟨verdict, hverdict⟩ := Option.isSome_iff_exists.mp hsome
          rw [hverdict]
          rfl
        · rw [heq]
      · refine hafter.offset.trans ?_
        rw [flatten_brokenLines]
        exact Nat.zero_add _
    · obtain ⟨rest, hcontent⟩ := hreads.resolve_right fun hreplaced => hover hreplaced.1
      have hrestart : t.restart file = t := if_neg hover
      have hdrop : file.content.drop t.offset = rest := by
        rw [h.offset, ← hcontent, List.drop_left]
      have hrest : isUtf8 rest = true := by
        rw [← hcontent] at htext
        exact isUtf8_rest htext h.complete
      have hlines : brokenLines (completeLines file.content) =
          brokenLines read ++ brokenLines rest := by
        rw [brokenLines_completeLines, ← hcontent, brokenLines_append h.complete]
      have hread : (brokenLines read).flatten = read := by
        rw [flatten_brokenLines, completeLines]
        simpa [h.complete] using unlines_linesOf newline read
      obtain ⟨u, hafter, hrefresh⟩ := Transcript.refresh_text hcurrent
        (by rw [hrestart, hdrop]; exact hrest)
      rw [hrestart, hdrop] at hafter
      rw [hrefresh]
      refine ⟨⟨⟨?_, ?_, ?_⟩, ?_, hdone, fun _ => rfl⟩, rfl⟩
      · rw [hlines, getD_lastSome_append, ← h.tells.title]
        exact hafter.title
      · rw [hlines, List.foldl_append, ← h.tells.updatedAt]
        exact hafter.updatedAt
      · rw [hlines, getD_lastSome_append, ← h.tells.uncertain]
        exact hafter.uncertain
      · refine hafter.offset.trans ?_
        rw [← flatten_brokenLines file.content, ← brokenLines_completeLines file.content, hlines,
          List.flatten_append, hread, List.length_append, h.offset]

/-- One transcript and its reader. The last two fields are of no effect: the complete lines that
were read, and the modification times that the file has had. -/
structure TranscriptHistory where
  file : FileView
  provider : ClaudeProvider
  read : Bytes
  times : List Int

namespace TranscriptHistory

/-- What the provider has of the transcript. -/
def cached (h : TranscriptHistory) (path : TranscriptPath) (id : String) : Transcript :=
  (h.provider.transcripts.lookup path).getD (.new id)

/-- The history of a file before it is read for the first time. -/
structure Begins (h : TranscriptHistory) : Prop where
  provider : h.provider = .new
  read : h.read = []
  text : isUtf8 h.file.content = true
  modified : ∃ time ∈ h.times, h.file.modified = some time

/-- A modification of the file at a time that it has not had: an append, or a replacement by
another file or by one not longer than what was read. -/
inductive Modifies (path : TranscriptPath) (id : String) :
    TranscriptHistory → TranscriptHistory → Prop
  | append {h : TranscriptHistory} {text : Bytes} {time : Int} (htext : isUtf8 text = true)
      (htime : time ∉ h.times) : Modifies path id h
        { h with
          file := ⟨h.file.identity, some time, h.file.content ++ text⟩
          times := time :: h.times }
  | replace {h : TranscriptHistory} {identity : Nat × Nat} {content : Bytes} {time : Int}
      (hcontent : isUtf8 content = true) (htime : time ∉ h.times)
      (hother : identity ≠ h.file.identity ∨ content.length ≤ (h.cached path id).offset) :
      Modifies path id h
        { h with
          file := ⟨identity, some time, content⟩
          times := time :: h.times }

/-- A refresh of the provider that finds the file, whatever else it finds. -/
structure Refreshes (path : TranscriptPath) (projects : Directory Project)
    (h h' : TranscriptHistory) : Prop where
  found : projects.fileAt path = some (.ok h.file)
  refreshed : h.provider.refresh (some (.ok projects)) = (h'.provider, .ok ())
  file : h'.file = h.file
  times : h'.times = h.times
  read : h'.read = completeLines h.file.content

/-- A refresh of a history: what it found, and what there was before and after it. -/
structure Refresh where
  projects : Directory Project
  before : TranscriptHistory
  after : TranscriptHistory

/-- A history of modifications and refreshes, with its refreshes. -/
inductive Run (path : TranscriptPath) (id : String) : List Refresh → TranscriptHistory → Prop
  | begins {h : TranscriptHistory} (hbegins : h.Begins) : Run path id [] h
  | modifies {refreshes : List Refresh} {h h' : TranscriptHistory} (run : Run path id refreshes h)
      (hmodifies : Modifies path id h h') : Run path id refreshes h'
  | refreshes {refreshes : List Refresh} {h h' : TranscriptHistory}
      {projects : Directory Project} (run : Run path id refreshes h)
      (hrefreshes : Refreshes path projects h h') :
      Run path id (refreshes ++ [⟨projects, h, h'⟩]) h'

/-- The file still begins with what was read, or a refresh starts over and leaves nothing of what
the provider has. -/
def ReadsOn (h : TranscriptHistory) (path : TranscriptPath) (id : String) : Prop :=
  (h.cached path id).ReadsOn id h.file h.read

/-- The provider has what a new one would read from the same files. -/
def UpToDate (h : TranscriptHistory) (path : TranscriptPath) (projects : Directory Project) :
    Prop :=
  ∃ fresh t t', ClaudeProvider.new.refresh (some (.ok projects)) = (fresh, .ok ()) ∧
    h.provider.transcripts.lookup path = some t ∧ fresh.transcripts.lookup path = some t' ∧
    t.session.title = t'.session.title ∧ t.session.updatedAt = t'.session.updatedAt ∧
    t.uncertain = t'.uncertain

/-- What holds of the transcript at every moment, as long as every refresh reads on. -/
structure Consistent (h : TranscriptHistory) (path : TranscriptPath) (id : String) : Prop where
  text : isUtf8 h.file.content = true
  modified : ∃ time ∈ h.times, h.file.modified = some time
  seen : ∀ time, (h.cached path id).modified = some time → time ∈ h.times
  reads : (h.cached path id).Reads id h.file h.read

variable {path : TranscriptPath} {id : String} {h h' : TranscriptHistory}

theorem Begins.consistent (hbegins : h.Begins) : h.Consistent path id := by
  have hcached : h.cached path id = .new id := by rw [cached, hbegins.provider]; rfl
  obtain ⟨time, htime, hmodified⟩ := hbegins.modified
  refine ⟨hbegins.text, hbegins.modified, fun time htime => ?_, ?_⟩
  · rw [hcached] at htime
    exact nomatch htime
  · rw [hcached, hbegins.read]
    exact .new (hmodified ▸ Option.some_ne_none time)

/-- What was read before a modification is not current any more. -/
theorem Consistent.modifies (hconsistent : h.Consistent path id)
    (hmodifies : Modifies path id h h') : h'.Consistent path id := by
  have hreads : ∀ {file : FileView} {time : Int}, time ∉ h.times → file.modified = some time →
      (h.cached path id).Reads id file h.read := fun htime hfile =>
    { hconsistent.reads with
      current := fun heq => absurd (hconsistent.seen _ (heq.trans hfile)) htime }
  cases hmodifies with
  | append htext htime =>
    exact ⟨(isUtf8_append hconsistent.text _).trans htext, ⟨_, List.mem_cons_self, rfl⟩,
      fun time hseen => List.mem_cons_of_mem _ (hconsistent.seen time hseen), hreads htime rfl⟩
  | replace hcontent htime _ =>
    exact ⟨hcontent, ⟨_, List.mem_cons_self, rfl⟩,
      fun time hseen => List.mem_cons_of_mem _ (hconsistent.seen time hseen), hreads htime rfl⟩

/-- A refresh that reads on ends with what the file tells. -/
theorem Consistent.refreshes {projects : Directory Project} (hid : transcriptId path.2 = some id)
    (hconsistent : h.Consistent path id) (hrefreshes : Refreshes path projects h h')
    (hreads : h.ReadsOn path id) :
    h'.provider.transcripts.lookup path = some (h'.cached path id) ∧
      (h'.cached path id).Tells id (completeLines h.file.content) ∧ h'.Consistent path id := by
  have hlookup := ClaudeProvider.lookup_refresh hrefreshes.refreshed hrefreshes.found hid
  have hcached : h'.cached path id = (h.cached path id).refresh (.ok h.file) := by
    rw [cached, hlookup, Option.getD_some, cached]
  obtain ⟨hafter, hmodified⟩ := hconsistent.reads.refresh hconsistent.text hreads
  rw [← hcached] at hafter hmodified
  refine ⟨by rw [hlookup, hcached, cached], hafter.tells, ?_⟩
  refine ⟨?_, ?_, fun time htime => ?_, ?_⟩
  · rw [hrefreshes.file]
    exact hconsistent.text
  · rw [hrefreshes.file, hrefreshes.times]
    exact hconsistent.modified
  · obtain ⟨time', htime', hfile⟩ := hconsistent.modified
    rw [hrefreshes.times]
    rw [hmodified, hfile] at htime
    exact Option.some.inj htime ▸ htime'
  · rw [hrefreshes.file, hrefreshes.read]
    exact hafter

/-- A new provider reads what the file tells. -/
theorem Consistent.fresh {projects : Directory Project} (hid : transcriptId path.2 = some id)
    (hconsistent : h.Consistent path id) (hrefreshes : Refreshes path projects h h') :
    ∃ fresh t, ClaudeProvider.new.refresh (some (.ok projects)) = (fresh, .ok ()) ∧
      fresh.transcripts.lookup path = some t ∧ t.Tells id (completeLines h.file.content) := by
  obtain ⟨fresh, hfresh⟩ := ClaudeProvider.refresh_ok_of .new hrefreshes.refreshed
  refine ⟨fresh, _, hfresh, ClaudeProvider.lookup_refresh hfresh hrefreshes.found hid, ?_⟩
  obtain ⟨time, _, hmodified⟩ := hconsistent.modified
  have hnew : (Transcript.new id).Reads id h.file [] := .new (hmodified ▸ Option.some_ne_none time)
  exact (hnew.refresh hconsistent.text (.inl List.nil_prefix)).1.tells

theorem Run.consistent {refreshes : List Refresh} (hid : transcriptId path.2 = some id)
    (run : Run path id refreshes h) (hreads : ∀ r ∈ refreshes, r.before.ReadsOn path id) :
    h.Consistent path id := by
  induction run with
  | begins hbegins => exact hbegins.consistent
  | modifies _ hmodifies ih => exact (ih hreads).modifies hmodifies
  | refreshes _ hrefreshes ih =>
    rw [List.forall_mem_append] at hreads
    exact ((ih hreads.1).refreshes hid hrefreshes (hreads.2 _ (List.mem_singleton_self _))).2.2

/-- What holds at a refresh of a history. -/
theorem Run.of_mem {refreshes : List Refresh} (hid : transcriptId path.2 = some id)
    (run : Run path id refreshes h) (hreads : ∀ r ∈ refreshes, r.before.ReadsOn path id)
    {r : Refresh} (hr : r ∈ refreshes) :
    r.before.Consistent path id ∧ Refreshes path r.projects r.before r.after := by
  induction run with
  | begins _ => exact absurd hr List.not_mem_nil
  | modifies _ _ ih => exact ih hreads hr
  | refreshes run hrefreshes ih =>
    rw [List.forall_mem_append] at hreads
    rcases List.mem_append.mp hr with hr | hr
    · exact ih hreads.1 hr
    · obtain rfl := List.mem_singleton.mp hr
      exact ⟨run.consistent hid hreads.1, hrefreshes⟩

end TranscriptHistory

open TranscriptHistory

end

/-! ## A sample history -/

section Sample

open TranscriptHistory

/-- The record of a title. -/
def sampleRecord : Bytes := JsonText.utf8 "\x7b\"aiTitle\":\"A\"\x7d" ++ [newline]

/-- What the libraries make of the texts of the sample. -/
@[reducible] def sampleFormat : TranscriptFormat where
  parseJson line := if line = sampleRecord then some (.obj [("aiTitle", .str "A")]) else none
  parseTime _ := none
  isUuid text := text == "c61e6439-6107-4a88-970f-94d548564049"

attribute [local instance] sampleFormat

/-- The projects with one transcript. -/
def sampleProjects (file : FileView) : Directory Project where
  entries := Table.empty.insert "project"
    { isDir := .ok true
      files := .ok ⟨Table.empty.insert "c61e6439-6107-4a88-970f-94d548564049.jsonl" (.ok file),
        none⟩ }
  failure := none

/-- A transcript with one record, and with another one behind it. -/
def sampleFile : FileView := ⟨(1, 2), some 10, sampleRecord⟩

def longerSampleFile : FileView := ⟨(1, 2), some 20, sampleRecord ++ sampleRecord⟩

/-- The provider after a refresh of the sample. -/
def sampleProvider (p : ClaudeProvider) (file : FileView) : ClaudeProvider :=
  (p.refresh (some (.ok (sampleProjects file)))).1

/-- The path of the sample. -/
def samplePath : TranscriptPath := ("project", "c61e6439-6107-4a88-970f-94d548564049.jsonl")

/-- The refreshes of the sample: before and after the second record. -/
def sampleRefreshes : List Refresh :=
  let p := sampleProvider .new sampleFile
  [⟨sampleProjects sampleFile, ⟨sampleFile, .new, [], [10]⟩, ⟨sampleFile, p, sampleRecord, [10]⟩⟩,
    ⟨sampleProjects longerSampleFile, ⟨longerSampleFile, p, sampleRecord, [20, 10]⟩,
      ⟨longerSampleFile, sampleProvider p longerSampleFile, sampleRecord ++ sampleRecord,
        [20, 10]⟩⟩]

end Sample

end Watchcat

