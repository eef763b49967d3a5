import Watchcat.Base.Utf8
import Watchcat.Core.Recent
import Watchcat.Providers.Claude

/-!
# What a transcript tells

Every complete line of a transcript may give the session a title, a time of
activity and a verdict on whether its activity is certain. What a transcript
keeps are the last title, the latest time and the last verdict of what it read.
-/

namespace Watchcat

open Watchcat.Core

namespace Transcript

theorem noteTitle_title (t : Transcript) (value : Value) :
    (t.noteTitle value).session.title = (recordTitle value).getD t.session.title := by
  unfold noteTitle
  split
  · rename_i title h
    rw [h]
    rfl
  · rename_i h
    rw [h]
    rfl

theorem noteTitle_rest (t : Transcript) (value : Value) :
    (t.noteTitle value).offset = t.offset ∧ (t.noteTitle value).identity = t.identity ∧
      (t.noteTitle value).modified = t.modified ∧
      (t.noteTitle value).session.updatedAt = t.session.updatedAt ∧
      (t.noteTitle value).uncertain = t.uncertain := by
  unfold noteTitle
  split <;> exact ⟨rfl, rfl, rfl, rfl, rfl⟩

theorem restart_identity (t : Transcript) (file : FileView) :
    (t.restart file).identity = file.identity := by
  unfold restart
  split
  · rfl
  · rename_i h
    simp only [startsOver, Bool.or_eq_true, bne_iff_ne, ne_eq, not_or, not_not] at h
    exact h.1

theorem restart_offset_le (t : Transcript) (file : FileView) :
    (t.restart file).offset ≤ file.content.length := by
  unfold restart
  split
  · exact Nat.zero_le _
  · rename_i h
    simp only [startsOver, Bool.or_eq_true, decide_eq_true_eq, not_or, not_le] at h
    exact h.2.le

/-- A file that goes on behind what was read is read on. -/
theorem restart_eq_self {t : Transcript} {file : FileView} (hidentity : t.identity = file.identity)
    (hoffset : t.offset < file.content.length) : t.restart file = t := by
  have hover : t.startsOver file = false := by
    simp only [startsOver, Bool.or_eq_false_iff, bne_eq_false_iff_eq, decide_eq_false_iff_not,
      not_le]
    exact ⟨hidentity, hoffset⟩
  rw [restart, hover, if_neg Bool.false_ne_true]

theorem isCurrent_iff {t : Transcript} {file : FileView} : t.isCurrent file = true ↔
    t.identity = file.identity ∧ t.modified = file.modified ∧ t.offset = file.content.length := by
  simp [isCurrent, and_assoc]

end Transcript

variable [TranscriptFormat]

/-! ## Lines -/

/-- The title that a line gives. -/
def titleIn (line : Bytes) : Option String :=
  (parseJson line).bind fun value => if isSidechain value then none else recordTitle value

/-- The time of the message in a line. -/
def activityIn (line : Bytes) : Option Int :=
  (parseJson line).bind fun value =>
    if isSidechain value then none
    else if (messageRole value).isSome then recordTime value else none

/-- Whether a line makes the activity uncertain, or certain again. -/
def verdictIn (line : Bytes) : Option Bool :=
  match parseJson line with
  | none => some true
  | some value =>
    if isSidechain value then none
    else if (messageRole value).isSome && (recordTime value).isSome then some false else none

/-- The complete lines of a text, with their line breaks. -/
def brokenLines (text : Bytes) : List Bytes :=
  (linesOf newline text).map fun line => line ++ [newline]

namespace Transcript

theorem noteMessage_uncertain (t : Transcript) (value : Value) :
    (t.noteMessage value).uncertain =
      if (messageRole value).isSome && (recordTime value).isSome then false else t.uncertain := by
  unfold noteMessage
  cases (messageRole value).isSome <;> rfl

theorem noteMessage_updatedAt (t : Transcript) (value : Value) :
    (t.noteMessage value).session.updatedAt = laterOf t.session.updatedAt
      (if (messageRole value).isSome then recordTime value else none) := by
  unfold noteMessage
  cases (messageRole value).isSome
  · exact (laterOf_none _).symm
  · rfl

theorem noteMessage_rest (t : Transcript) (value : Value) :
    (t.noteMessage value).offset = t.offset ∧ (t.noteMessage value).identity = t.identity ∧
      (t.noteMessage value).modified = t.modified ∧
      (t.noteMessage value).session.title = t.session.title := by
  unfold noteMessage
  split <;> exact ⟨rfl, rfl, rfl, rfl⟩

/-- What reading some lines has made of a transcript. -/
structure After (t : Transcript) (lines : List Bytes) (t' : Transcript) : Prop where
  offset : t'.offset = t.offset + lines.flatten.length
  identity : t'.identity = t.identity
  modified : t'.modified = t.modified
  title : t'.session.title = (lastSome titleIn lines).getD t.session.title
  updatedAt : t'.session.updatedAt =
    lines.foldl (fun last line => laterOf last (activityIn line)) t.session.updatedAt
  uncertain : t'.uncertain = (lastSome verdictIn lines).getD t.uncertain

theorem After.refl (t : Transcript) : After t [] t := ⟨rfl, rfl, rfl, rfl, rfl, rfl⟩

theorem After.trans {t t' t'' : Transcript} {lines lines' : List Bytes} (h : After t lines t')
    (h' : After t' lines' t'') : After t (lines ++ lines') t'' where
  offset := by
    rw [h'.offset, h.offset, List.flatten_append, List.length_append, Nat.add_assoc]
  identity := h'.identity.trans h.identity
  modified := h'.modified.trans h.modified
  title := by rw [h'.title, h.title, getD_lastSome_append]
  updatedAt := by rw [h'.updatedAt, h.updatedAt, List.foldl_append]
  uncertain := by rw [h'.uncertain, h.uncertain, getD_lastSome_append]

/-- Noting a line changes nothing but what the line tells. -/
theorem note_after (t : Transcript) (line : Bytes) :
    After t [line] ({ t with offset := t.offset + line.length }.note line) := by
  have hone : ∀ {β : Type} (f : Bytes → Option β), lastSome f [line] = f line := fun f => by
    simp [lastSome]
  unfold note
  cases hparse : parseJson line with
  | none =>
    exact ⟨by simp, rfl, rfl, by simp [hone, titleIn, hparse], by simp [activityIn, hparse],
      by simp [hone, verdictIn, hparse]⟩
  | some value =>
    by_cases hside : isSidechain value = true
    · simp only [hside, if_true]
      exact ⟨by simp, rfl, rfl, by simp [hone, titleIn, hparse, hside],
        by simp [activityIn, hparse, hside], by simp [hone, verdictIn, hparse, hside]⟩
    · simp only [hside]
      obtain ⟨htOffset, htIdentity, htModified, htUpdated, htUncertain⟩ :=
        noteTitle_rest (noteMessage { t with offset := t.offset + line.length } value) value
      obtain ⟨hmOffset, hmIdentity, hmModified, hmTitle⟩ :=
        noteMessage_rest { t with offset := t.offset + line.length } value
      refine ⟨?_, htIdentity.trans hmIdentity, htModified.trans hmModified, ?_, ?_, ?_⟩
      · refine (htOffset.trans hmOffset).trans ?_
        simp
      · refine (noteTitle_title _ value).trans ?_
        rw [hone, titleIn, hparse, Option.bind_some, if_neg hside, hmTitle]
      · refine htUpdated.trans ((noteMessage_updatedAt _ value).trans ?_)
        rw [List.foldl_cons, List.foldl_nil, activityIn, hparse, Option.bind_some, if_neg hside]
      · refine htUncertain.trans ((noteMessage_uncertain _ value).trans ?_)
        rw [hone, verdictIn, hparse]
        simp only [hside]
        split <;> rfl

/-- Lines that are texts are all read. -/
theorem readLines_texts (t : Transcript) {lines : List Bytes}
    (h : ∀ line ∈ lines, isUtf8 (line ++ [newline]) = true) :
    ∃ t', t.readLines lines = (t', .ok ()) ∧
      After t (lines.map fun line => line ++ [newline]) t' := by
  induction lines generalizing t with
  | nil => exact ⟨t, rfl, .refl t⟩
  | cons line lines ih =>
    obtain ⟨hline, hlines⟩ := List.forall_mem_cons.mp h
    have hnote := note_after t (line ++ [newline])
    rw [List.length_append, List.length_singleton] at hnote
    obtain ⟨t', hread, hafter⟩ :=
      ih ({ t with offset := t.offset + (line.length + 1) }.note (line ++ [newline])) hlines
    refine ⟨t', ?_, hnote.trans hafter⟩
    rw [readLines, if_pos hline, hread]

/-- A text is read to the end of its last complete line. -/
theorem read_text (t : Transcript) {text : Bytes} (h : isUtf8 text = true) :
    ∃ t', t.read text = (t', .ok ()) ∧ After t (brokenLines text) t' := by
  obtain ⟨hlines, hunfinished⟩ := isUtf8_lines h
  obtain ⟨t', hread, hafter⟩ := readLines_texts t hlines
  refine ⟨t', ?_, hafter⟩
  rw [read, hread]
  simp only [hunfinished, if_true]

/-- A file that is a text from where the reader stands is read from there. -/
theorem refresh_text {t : Transcript} {file : FileView} (hcurrent : t.isCurrent file = false)
    (h : isUtf8 (file.content.drop (t.restart file).offset) = true) :
    ∃ t', After (t.restart file) (brokenLines (file.content.drop (t.restart file).offset)) t' ∧
      t.refresh (.ok file) = { t' with modified := file.modified } := by
  obtain ⟨t', hread, hafter⟩ := (t.restart file).read_text h
  refine ⟨t', hafter, ?_⟩
  rw [refresh, hcurrent, hread]
  rfl

/-- Reading again where the last attempt stopped finds nothing new: neither a complete line nor a
reason to go on where it failed. -/
theorem readLines_again {t t' : Transcript} {lines : List Bytes} {result : Except Error Unit}
    (h : t.readLines lines = (t', result)) :
    ∃ done rest, lines = done ++ rest ∧ t'.offset = t.offset + (unlines newline done).length ∧
      t'.identity = t.identity ∧ (∀ u : Transcript, u.readLines rest = (u, result)) ∧
      (rest = [] ↔ result = .ok ()) := by
  induction lines generalizing t with
  | nil =>
    obtain ⟨rfl, rfl⟩ := Prod.mk.inj h
    exact ⟨[], [], rfl, rfl, rfl, fun u => rfl, iff_of_true rfl rfl⟩
  | cons line lines ih =>
    rw [readLines] at h
    split at h
    · obtain ⟨done, rest, hlines, hoffset, hidentity, hagain, hrest⟩ := ih h
      have hnote := note_after t (line ++ [newline])
      rw [List.length_append, List.length_singleton] at hnote
      refine ⟨line :: done, rest, by rw [hlines]; rfl, ?_, hidentity.trans hnote.identity, hagain,
        hrest⟩
      rw [hoffset, hnote.offset]
      simp
      omega
    · rename_i hline
      obtain ⟨rfl, rfl⟩ := Prod.mk.inj h
      exact ⟨[], line :: lines, rfl, rfl, rfl, fun u => by rw [readLines, if_neg hline],
        iff_of_false (List.cons_ne_nil _ _) nofun⟩

theorem read_again {t t' : Transcript} {text : Bytes} {result : Except Error Unit}
    (h : t.read text = (t', result)) :
    ∃ n ≤ text.length, t'.offset = t.offset + n ∧ t'.identity = t.identity ∧
      (∀ u : Transcript, u.read (text.drop n) = (u, result)) ∧
      (n = text.length → result = .ok ()) := by
  rcases hlines : t.readLines (linesOf newline text) with ⟨t₁, result₁⟩
  obtain ⟨done, rest, hsplit, hoffset, hidentity, hagain, hrest⟩ := readLines_again hlines
  have htext := unlines_linesOf newline text
  rw [hsplit, unlines_append, List.append_assoc] at htext
  have hnot : ∀ line ∈ rest, newline ∉ line := fun line hline =>
    notMem_linesOf text line (hsplit ▸ List.mem_append_right done hline)
  have hdrop : text.drop (unlines newline done).length =
      unlines newline rest ++ unfinished newline text := by
    conv_lhs => rw [← htext]
    exact List.drop_left
  have hlength : text.length = (unlines newline done).length +
      (unlines newline rest ++ unfinished newline text).length := by
    conv_lhs => rw [← htext]
    exact List.length_append
  have hlinesAgain : linesOf newline (unlines newline rest ++ unfinished newline text) = rest := by
    rw [linesOf_unlines_append hnot, linesOf_of_notMem (notMem_unfinished text), List.append_nil]
  have hunfinishedAgain : unfinished newline (unlines newline rest ++ unfinished newline text) =
      unfinished newline text := by
    rw [unfinished_unlines_append hnot, unfinished_of_notMem (notMem_unfinished text)]
  have hread : ∀ u : Transcript, u.read (unlines newline rest ++ unfinished newline text) =
      (u, (t.read text).2) ∧ (t.read text).1 = t₁ := by
    intro u
    rw [read, read, hlines, hlinesAgain, hagain u, hunfinishedAgain]
    cases result₁ <;> exact ⟨rfl, rfl⟩
  obtain rfl : t₁ = t' := by rw [← (hread t).2, h]
  refine ⟨(unlines newline done).length, by omega, hoffset, hidentity, fun u => ?_, fun hend => ?_⟩
  · rw [hdrop, (hread u).1, h]
  · have hnil : unlines newline rest ++ unfinished newline text = [] :=
      List.length_eq_zero_iff.mp (by omega)
    obtain ⟨hrestNil, hunfinishedNil⟩ := List.append_eq_nil_iff.mp hnil
    have hresult := (hread t).1
    rw [hnil, h] at hresult
    exact ((Prod.mk.inj hresult).2).symm.trans rfl

/-- Refreshing once more without a change in between changes nothing. -/
theorem refresh_settled (t : Transcript) (file : Except Error FileView) :
    (t.refresh file).refresh file = t.refresh file := by
  cases file with
  | error e => rfl
  | ok file =>
    cases hcurrent : t.isCurrent file with
    | true =>
      have hrefresh : t.refresh (.ok file) = t := by rw [refresh, hcurrent]; rfl
      rw [hrefresh, hrefresh]
    | false =>
      rcases hread : (t.restart file).read (file.content.drop (t.restart file).offset) with
        ⟨u, result⟩
      obtain ⟨n, hn, hoffset, hidentity, hagain, hend⟩ := read_again hread
      rw [restart_identity] at hidentity
      rw [List.length_drop] at hn hend
      have hstart := restart_offset_le t file
      simp only [List.drop_drop, ← hoffset] at hagain
      cases result with
      | error e =>
        have hrefresh : t.refresh (.ok file) = u.unreadable := by
          rw [refresh, hcurrent, hread]
          rfl
        have hbehind : u.offset < file.content.length := by
          have hne : n ≠ file.content.length - (t.restart file).offset := fun h => nomatch hend h
          omega
        have hother : u.unreadable.isCurrent file = false :=
          Bool.eq_false_iff.mpr fun h => hbehind.ne (isCurrent_iff.mp h).2.2
        rw [hrefresh, refresh, hother, restart_eq_self (t := u.unreadable) hidentity hbehind,
          show u.unreadable.offset = u.offset from rfl, hagain u.unreadable]
        rfl
      | ok _ =>
        have hrefresh : t.refresh (.ok file) = { u with modified := file.modified } := by
          rw [refresh, hcurrent, hread]
          rfl
        rw [hrefresh]
        cases hagainCurrent :
          ({ u with modified := file.modified } : Transcript).isCurrent file with
        | true => rw [refresh, hagainCurrent]; rfl
        | false =>
          have hbehind : u.offset < file.content.length := by
            have hne : u.offset ≠ file.content.length := fun h =>
              Bool.false_ne_true (hagainCurrent.symm.trans (isCurrent_iff.mpr ⟨hidentity, rfl, h⟩))
            omega
          rw [refresh, hagainCurrent, restart_eq_self (t := { u with modified := file.modified })
            hidentity hbehind, hagain]
          rfl

end Transcript

/-! ## Listings -/

/-- The file at a path, where its project is a directory that can be listed. -/
def Directory.fileAt (projects : Directory Project) (path : TranscriptPath) :
    Option (Except Error FileView) :=
  (projects.entries.lookup path.1).bind fun project => match project.isDir, project.files with
    | .ok true, .ok directory => directory.entries.lookup path.2
    | _, _ => none

/-- A transcript in the listing: its path, its session and its file. -/
structure ListedTranscript where
  path : TranscriptPath
  id : String
  file : Except Error FileView

/-- The transcripts of a project, in the order they are listed. -/
def Project.listed (project : Project) (name : String) : List ListedTranscript :=
  match project.isDir, project.files with
  | .ok true, .ok directory => directory.entries.entries.filterMap fun entry =>
    (transcriptId entry.1).map fun id => ⟨(name, entry.1), id, entry.2⟩
  | _, _ => []

/-- The transcripts of all projects. -/
def Directory.listed (projects : Directory Project) : List ListedTranscript :=
  projects.entries.entries.flatMap fun entry => entry.2.listed entry.1

theorem Project.mem_listed {project : Project} {name : String} {item : ListedTranscript} :
    item ∈ project.listed name ↔ item.path.1 = name ∧ transcriptId item.path.2 = some item.id ∧
      (match project.isDir, project.files with
        | .ok true, .ok directory => directory.entries.lookup item.path.2
        | _, _ => none) = some item.file := by
  unfold listed
  split
  · rename_i directory _ _
    rw [List.mem_filterMap]
    constructor
    · rintro ⟨⟨file, view⟩, hentry, hitem⟩
      obtain ⟨id, hid, rfl⟩ := Option.map_eq_some_iff.mp hitem
      exact ⟨rfl, hid, AList.mem_lookup_iff.mpr hentry⟩
    · rintro ⟨hname, hid, hfile⟩
      refine ⟨⟨item.path.2, item.file⟩, AList.mem_lookup_iff.mp hfile, ?_⟩
      rw [hid, ← hname]
      rfl
  · exact ⟨fun h => absurd h List.not_mem_nil, fun h => nomatch h.2.2⟩

theorem Directory.mem_listed {projects : Directory Project} {item : ListedTranscript} :
    item ∈ projects.listed ↔
      projects.fileAt item.path = some item.file ∧ transcriptId item.path.2 = some item.id := by
  rw [listed, List.mem_flatMap]
  constructor
  · rintro ⟨⟨name, project⟩, hentry, hitem⟩
    obtain ⟨hname, hid, hfile⟩ := Project.mem_listed.mp hitem
    refine ⟨?_, hid⟩
    rw [fileAt, hname, show projects.entries.lookup name = some project from
      AList.mem_lookup_iff.mpr hentry]
    exact hfile
  · rintro ⟨hfile, hid⟩
    obtain ⟨project, hproject, hfile⟩ := Option.bind_eq_some_iff.mp hfile
    exact ⟨⟨item.path.1, project⟩, AList.mem_lookup_iff.mp hproject,
      Project.mem_listed.mpr ⟨rfl, hid, hfile⟩⟩

theorem Project.nodup_listed (project : Project) (name : String) :
    (project.listed name).Pairwise fun item item' => item.path ≠ item'.path := by
  unfold listed
  split
  · rename_i directory _ _
    rw [List.pairwise_filterMap]
    refine (List.nodupKeys_iff_pairwise.mp directory.entries.nodupKeys).imp ?_
    intro entry entry' hne item hitem item' hitem' heq
    obtain ⟨_, _, rfl⟩ := Option.map_eq_some_iff.mp hitem
    obtain ⟨_, _, rfl⟩ := Option.map_eq_some_iff.mp hitem'
    exact hne (Prod.mk.inj heq).2
  · exact .nil

/-- No path is listed twice. -/
theorem Directory.nodup_listed (projects : Directory Project) :
    projects.listed.Pairwise fun item item' => item.path ≠ item'.path := by
  refine List.pairwise_flatMap.mpr ⟨fun entry _ => entry.2.nodup_listed entry.1, ?_⟩
  refine (List.nodupKeys_iff_pairwise.mp projects.entries.nodupKeys).imp ?_
  intro entry entry' hne item hitem item' hitem' heq
  apply hne
  rw [← (Project.mem_listed.mp hitem).1, ← (Project.mem_listed.mp hitem').1, heq]

namespace TranscriptScan

/-- Refresh a listed transcript. -/
def absorb (scan : TranscriptScan) (item : ListedTranscript) : TranscriptScan where
  transcripts := scan.transcripts.upsert item.path
    (((scan.transcripts.lookup item.path).getD (.new item.id)).refresh item.file)
  seen := scan.seen ++ [item.path]

theorem visitFiles_eq (scan : TranscriptScan) (name : String)
    (files : List ((_ : String) × Except Error FileView)) :
    scan.visitFiles name files = (files.filterMap fun entry =>
      (transcriptId entry.1).map fun id => ListedTranscript.mk (name, entry.1) id entry.2).foldl
        absorb scan := by
  rw [visitFiles, List.foldl_filterMap]
  congr 1
  funext scan entry
  rw [visit]
  cases transcriptId entry.1 <;> rfl

theorem visitProject_ok {scan scan' : TranscriptScan} {name : String} {project : Project}
    (h : scan.visitProject name project = (scan', .ok ())) :
    scan' = (project.listed name).foldl absorb scan := by
  unfold visitProject at h
  unfold Project.listed
  split at h
  · cases h
  · rename_i hdir
    obtain rfl := (Prod.mk.inj h).1
    rw [hdir]
    rfl
  · rename_i hdir
    rw [hdir]
    split at h
    · cases h
    · rename_i directory hfiles
      rw [hfiles, ← (Prod.mk.inj h).1]
      exact visitFiles_eq scan name _

/-- A scan without an error refreshes every transcript that is listed. -/
theorem visitProjects_ok {scan scan' : TranscriptScan} {l : List ((_ : String) × Project)}
    (h : scan.visitProjects l = (scan', .ok ())) :
    scan' = (l.flatMap fun entry => entry.2.listed entry.1).foldl absorb scan := by
  induction l generalizing scan with
  | nil => exact ((Prod.mk.inj h).1).symm
  | cons entry l ih =>
    rw [visitProjects] at h
    split at h
    · rename_i scan₁ hproject
      rw [List.flatMap_cons, List.foldl_append, ← visitProject_ok hproject]
      exact ih h
    · cases h

/-- Whether a scan ends without an error does not depend on what is cached. -/
theorem visitProjects_result (scan scan' : TranscriptScan) (l : List ((_ : String) × Project)) :
    (scan.visitProjects l).2 = (scan'.visitProjects l).2 := by
  induction l generalizing scan scan' with
  | nil => rfl
  | cons entry l ih =>
    have hproject : (scan.visitProject entry.1 entry.2).2 =
        (scan'.visitProject entry.1 entry.2).2 := by
      unfold visitProject
      cases entry.2.isDir with
      | error e => rfl
      | ok dir =>
        cases dir
        · rfl
        · cases entry.2.files <;> rfl
    rw [visitProjects, visitProjects]
    generalize hvisit : scan.visitProject entry.1 entry.2 = visited at hproject
    generalize hvisit' : scan'.visitProject entry.1 entry.2 = visited' at hproject
    obtain ⟨scan₁, result⟩ := visited
    obtain ⟨scan₁', result'⟩ := visited'
    obtain rfl : result = result' := hproject
    cases result with
    | error e => rfl
    | ok _ => exact ih scan₁ scan₁'

theorem seen_foldl_absorb (items : List ListedTranscript) (scan : TranscriptScan) :
    (items.foldl absorb scan).seen = scan.seen ++ items.map ListedTranscript.path := by
  induction items generalizing scan with
  | nil => exact (List.append_nil _).symm
  | cons item items ih => rw [List.foldl_cons, ih, absorb, List.map_cons, List.append_assoc]; rfl

/-- Refreshing other transcripts leaves one as it is. -/
theorem lookup_foldl_absorb_of_notMem {path : TranscriptPath} {items : List ListedTranscript}
    (h : ∀ item ∈ items, item.path ≠ path) (scan : TranscriptScan) :
    (items.foldl absorb scan).transcripts.lookup path = scan.transcripts.lookup path := by
  induction items generalizing scan with
  | nil => rfl
  | cons item items ih =>
    obtain ⟨hitem, hitems⟩ := List.forall_mem_cons.mp h
    rw [List.foldl_cons, ih hitems, absorb, Table.lookup_upsert, if_neg (Ne.symm hitem)]

/-- A listed transcript is refreshed once. -/
theorem lookup_foldl_absorb {items : List ListedTranscript}
    (hnodup : items.Pairwise fun item item' => item.path ≠ item'.path) {item : ListedTranscript}
    (hitem : item ∈ items) (scan : TranscriptScan) :
    (items.foldl absorb scan).transcripts.lookup item.path =
      some (((scan.transcripts.lookup item.path).getD (.new item.id)).refresh item.file) := by
  induction items generalizing scan with
  | nil => exact absurd hitem List.not_mem_nil
  | cons first items ih =>
    obtain ⟨hfirst, hitems⟩ := List.pairwise_cons.mp hnodup
    rw [List.foldl_cons]
    rcases List.mem_cons.mp hitem with rfl | hmem
    · rw [lookup_foldl_absorb_of_notMem fun other hother => (hfirst other hother).symm, absorb,
        Table.lookup_upsert, if_pos rfl]
    · rw [ih hitems hmem, absorb, Table.lookup_upsert, if_neg (hfirst item hmem).symm]

/-- Where refreshing changes no transcript, a scan changes none. -/
theorem foldl_absorb_settled {items : List ListedTranscript} {scan : TranscriptScan}
    (h : ∀ item ∈ items, ∃ t, scan.transcripts.lookup item.path = some t ∧
      t.refresh item.file = t) :
    (items.foldl absorb scan).transcripts = scan.transcripts := by
  induction items generalizing scan with
  | nil => rfl
  | cons item items ih =>
    obtain ⟨⟨t, hlookup, hsettled⟩, hitems⟩ := List.forall_mem_cons.mp h
    have habsorb : (scan.absorb item).transcripts = scan.transcripts := by
      rw [absorb, hlookup, Option.getD_some, hsettled]
      exact Table.upsert_eq_self hlookup
    rw [List.foldl_cons, ih fun other hother => habsorb ▸ hitems other hother, habsorb]

end TranscriptScan

namespace ClaudeProvider

variable {p p' : ClaudeProvider} {projects : Directory Project}

theorem refresh_ok_iff : p.refresh (some (.ok projects)) = (p', .ok ()) ↔
    (TranscriptScan.visitProjects ⟨p.transcripts, []⟩ projects.entries.entries).2 = .ok () ∧
      projects.failure = none ∧
      p'.transcripts = (projects.listed.foldl TranscriptScan.absorb
        ⟨p.transcripts, []⟩).transcripts.retainKeys
          fun path => (projects.listed.map ListedTranscript.path).contains path := by
  rcases hvisit : TranscriptScan.visitProjects ⟨p.transcripts, []⟩ projects.entries.entries with
    ⟨scan, result⟩
  cases result with
  | error e =>
    simp only [refresh, hvisit]
    exact ⟨fun h => absurd (Prod.mk.inj h).2 nofun, fun h => absurd h.1 nofun⟩
  | ok _ =>
    have hscan : scan = projects.listed.foldl TranscriptScan.absorb ⟨p.transcripts, []⟩ :=
      TranscriptScan.visitProjects_ok hvisit
    cases hfailure : projects.failure with
    | some e =>
      simp only [refresh, hvisit, hfailure]
      exact ⟨fun h => absurd (Prod.mk.inj h).2 nofun, fun h => absurd h.2.1 nofun⟩
    | none =>
      simp only [refresh, hvisit, hfailure, hscan, TranscriptScan.seen_foldl_absorb,
        List.nil_append, true_and, Prod.mk.injEq, and_true]
      exact ⟨fun h => h ▸ rfl, fun h => by cases p'; rw [← h]⟩

/-- Whether a refresh succeeds does not depend on what is cached. -/
theorem refresh_ok_of (q : ClaudeProvider) (h : p.refresh (some (.ok projects)) = (p', .ok ())) :
    ∃ q', q.refresh (some (.ok projects)) = (q', .ok ()) := by
  obtain ⟨hvisit, hfailure, _⟩ := refresh_ok_iff.mp h
  refine ⟨⟨_⟩, refresh_ok_iff.mpr ⟨?_, hfailure, rfl⟩⟩
  rw [← hvisit]
  exact TranscriptScan.visitProjects_result _ _ _

/-- A refresh reads on in every transcript there is. -/
theorem lookup_refresh {path : TranscriptPath} {id : String} {file : Except Error FileView}
    (h : p.refresh (some (.ok projects)) = (p', .ok ()))
    (hfile : projects.fileAt path = some file) (hid : transcriptId path.2 = some id) :
    p'.transcripts.lookup path =
      some (((p.transcripts.lookup path).getD (.new id)).refresh file) := by
  obtain ⟨_, _, htranscripts⟩ := refresh_ok_iff.mp h
  have hitem : ListedTranscript.mk path id file ∈ projects.listed :=
    Directory.mem_listed.mpr ⟨hfile, hid⟩
  rw [htranscripts, Table.lookup_retainKeys, if_pos, TranscriptScan.lookup_foldl_absorb
    projects.nodup_listed hitem]
  exact List.contains_iff_mem.mpr (List.mem_map_of_mem hitem)

/-- A second refresh of the same files changes nothing. -/
theorem refresh_again (h : p.refresh (some (.ok projects)) = (p', .ok ())) :
    p'.refresh (some (.ok projects)) = (p', .ok ()) := by
  obtain ⟨hvisit, hfailure, htranscripts⟩ := refresh_ok_iff.mp h
  refine refresh_ok_iff.mpr ⟨hvisit ▸ TranscriptScan.visitProjects_result _ _ _, hfailure, ?_⟩
  have hsettled : (projects.listed.foldl TranscriptScan.absorb ⟨p'.transcripts, []⟩).transcripts =
      p'.transcripts := by
    refine TranscriptScan.foldl_absorb_settled fun item hitem => ?_
    obtain ⟨hfile, hid⟩ := Directory.mem_listed.mp hitem
    exact ⟨_, lookup_refresh h hfile hid, Transcript.refresh_settled _ _⟩
  rw [hsettled]
  refine (Table.retainKeys_eq_self fun path hpath => ?_).symm
  rw [Table.mem_keys_iff, htranscripts, Table.lookup_retainKeys] at hpath
  by_contra hnot
  rw [if_neg hnot] at hpath
  exact Bool.false_ne_true hpath

end ClaudeProvider

end Watchcat
