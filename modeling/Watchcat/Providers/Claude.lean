import Watchcat.Base.Jsonl
import Watchcat.Base.Value
import Watchcat.Core.Table
import Watchcat.State.Models

/-!
# Claude transcripts

The provider keeps what it has read of every transcript and reads on where it
stopped. JSON, dates and identifiers are parsed by libraries, which are
parameters; a file is inspected and read at once.
-/

namespace Watchcat

open Watchcat.Core

/-- How the libraries parse texts. -/
class TranscriptFormat where
  /-- `serde_json::from_str::<Value>`. -/
  parseJson : Bytes → Option Value
  /-- `text.parse::<DateTime<Utc>>()`. -/
  parseTime : String → Option Int
  /-- `uuid::Uuid::parse_str(text).is_ok()`. -/
  isUuid : String → Bool

export TranscriptFormat (parseJson parseTime isUuid)

/-- An opened file: its device and inode, its modification time and its content. -/
structure FileView where
  identity : Nat × Nat
  modified : Option Int
  content : Bytes
  deriving DecidableEq

/-- `Transcript`. -/
structure Transcript where
  offset : Nat
  modified : Option Int
  identity : Nat × Nat
  uncertain : Bool
  session : Session
  deriving DecidableEq

/-! ## Records -/

/-- A member that is a text: `value[key].as_str()`. -/
def Value.text (value : Value) (key : String) : Option String := (value.get key).bind asStr

/-- `value["isSidechain"] == true`. -/
def isSidechain (value : Value) : Bool := (value.get "isSidechain").bind Value.asBool == some true

/-- The role of a message: `"user"` or `"assistant"`. -/
def messageRole (value : Value) : Option String :=
  (value.text "type").filter fun role => role == "user" || role == "assistant"

/-- The title that a record gives the session. -/
def recordTitle (value : Value) : Option String :=
  (value.text "aiTitle").or (value.text "customTitle")

section

variable [TranscriptFormat]

/-- `record_time`. -/
def recordTime (value : Value) : Option Int := (value.text "timestamp").bind parseTime

namespace Transcript

/-- A transcript of which nothing is read. -/
def new (id : String) : Transcript where
  offset := 0
  modified := none
  identity := (0, 0)
  uncertain := false
  session :=
    { provider := "claude", id := id, title := id, state := .unknown, updatedAt := none }

/-- Note a message. -/
def noteMessage (t : Transcript) (value : Value) : Transcript :=
  if (messageRole value).isSome then
    { t with
      uncertain := if (recordTime value).isSome then false else t.uncertain
      session := { t.session with updatedAt := laterOf t.session.updatedAt (recordTime value) } }
  else t

/-- Note a title. -/
def noteTitle (t : Transcript) (value : Value) : Transcript :=
  match recordTitle value with
  | some title => { t with session := { t.session with title := title } }
  | none => t

/-- Note one complete line, given with its line break. -/
def note (t : Transcript) (line : Bytes) : Transcript :=
  match parseJson line with
  | none => { t with uncertain := true }
  | some value => if isSidechain value then t else (t.noteMessage value).noteTitle value

/-- Read complete lines; `read_line` refuses what is no text. -/
def readLines (t : Transcript) : List Bytes → Transcript × Except Error Unit
  | [] => (t, .ok ())
  | line :: lines =>
    if isUtf8 (line ++ [newline]) then
      ({ t with offset := t.offset + (line.length + 1) }.note (line ++ [newline])).readLines lines
    else (t, .error invalidUtf8)

/-- Read the complete lines of a text; also the unfinished line has to be a text. -/
def read (t : Transcript) (text : Bytes) : Transcript × Except Error Unit :=
  match t.readLines (linesOf newline text) with
  | (t, .ok ()) =>
    (t, if isUtf8 (unfinished newline text) then .ok () else .error invalidUtf8)
  | (t, .error e) => (t, .error e)

/-- Nothing of the file changed since it was read to its end. -/
def isCurrent (t : Transcript) (file : FileView) : Bool :=
  t.identity == file.identity && t.modified == file.modified && t.offset == file.content.length

/-- The file is another one, or not longer than what was read of it. -/
def startsOver (t : Transcript) (file : FileView) : Bool :=
  t.identity != file.identity || decide (file.content.length ≤ t.offset)

/-- Start over where the file was replaced. -/
def restart (t : Transcript) (file : FileView) : Transcript :=
  if t.startsOver file then
    { t with
      offset := 0
      identity := file.identity
      session := { t.session with updatedAt := none } }
  else t

/-- What a failed attempt to read the file leaves. -/
def unreadable (t : Transcript) : Transcript := { t with uncertain := true, modified := none }

/-- Read on where the last attempt stopped. -/
def refresh (t : Transcript) : Except Error FileView → Transcript
  | .error _ => t.unreadable
  | .ok file =>
    if t.isCurrent file then t
    else match (t.restart file).read (file.content.drop (t.restart file).offset) with
      | (t, .ok ()) => { t with modified := file.modified }
      | (t, .error _) => t.unreadable

end Transcript

/-! ## Directories -/

/-- The entries of a directory by their names, up to the error that ends the listing, if any. -/
structure Directory (α : Type) where
  entries : Table String α
  failure : Option Error

/-- An entry of the directory of projects. -/
structure Project where
  isDir : Except Error Bool
  files : Except Error (Directory (Except Error FileView))

/-- The directory of projects as a method finds it, if it exists. -/
abbrev ProjectsView : Type := Option (Except Error (Directory Project))

/-- `Path::file_stem` and `Path::extension`: a dot at the start of a name begins no extension. -/
def splitExtension (name : String) : String × Option String :=
  let after := (name.toList.reverse.takeWhile (· ≠ '.')).reverse
  let before := name.toList.take (name.toList.length - after.length - 1)
  if before = [] then (name, none) else (String.ofList before, some (String.ofList after))

/-- The session of a transcript, by the name of its file. -/
def transcriptId (name : String) : Option String :=
  match splitExtension name with
  | (stem, some "jsonl") => if isUuid stem then some stem else none
  | _ => none

/-- A file by its project and its name. -/
abbrev TranscriptPath : Type := String × String

/-- The transcripts while the directories are listed, and the paths seen so far. -/
structure TranscriptScan where
  transcripts : Table TranscriptPath Transcript
  seen : List TranscriptPath

namespace TranscriptScan

/-- Refresh the transcript of one file, if it is one. -/
def visit (scan : TranscriptScan) (project name : String) (file : Except Error FileView) :
    TranscriptScan :=
  match transcriptId name with
  | none => scan
  | some id =>
    let cached := (scan.transcripts.lookup (project, name)).getD (.new id)
    { transcripts := scan.transcripts.upsert (project, name) (cached.refresh file)
      seen := scan.seen ++ [(project, name)] }

/-- Refresh the transcripts among the files of a project. -/
def visitFiles (scan : TranscriptScan) (project : String)
    (files : List ((_ : String) × Except Error FileView)) : TranscriptScan :=
  files.foldl (fun scan entry => scan.visit project entry.1 entry.2) scan

/-- Refresh the transcripts of a project. -/
def visitProject (scan : TranscriptScan) (name : String) (project : Project) :
    TranscriptScan × Except Error Unit :=
  match project.isDir with
  | .error e => (scan, .error e)
  | .ok false => (scan, .ok ())
  | .ok true => match project.files with
    | .error e => (scan, .error e)
    | .ok directory =>
      (scan.visitFiles name directory.entries.entries,
        match directory.failure with
        | some e => .error e
        | none => .ok ())

/-- Refresh the transcripts of all projects, up to the first error. -/
def visitProjects (scan : TranscriptScan) :
    List ((_ : String) × Project) → TranscriptScan × Except Error Unit
  | [] => (scan, .ok ())
  | entry :: projects => match scan.visitProject entry.1 entry.2 with
    | (scan, .ok ()) => scan.visitProjects projects
    | (scan, .error e) => (scan, .error e)

end TranscriptScan

/-- `ClaudeProvider`; the directory of projects is what each method finds there. -/
structure ClaudeProvider where
  transcripts : Table TranscriptPath Transcript

namespace ClaudeProvider

/-- `ClaudeProvider::new`. -/
def new : ClaudeProvider := ⟨Table.empty⟩

/-- `ClaudeProvider::refresh`; `none` is a directory of projects that does not exist. -/
def refresh (p : ClaudeProvider) :
    ProjectsView → ClaudeProvider × Except Error Unit
  | none => (⟨Table.empty⟩, .ok ())
  | some (.error e) => (p, .error e)
  | some (.ok projects) =>
    match TranscriptScan.visitProjects ⟨p.transcripts, []⟩ projects.entries.entries with
    | (scan, .error e) => (⟨scan.transcripts⟩, .error e)
    | (scan, .ok ()) => match projects.failure with
      | some e => (⟨scan.transcripts⟩, .error e)
      | none => (⟨scan.transcripts.retainKeys fun path => scan.seen.contains path⟩, .ok ())

end ClaudeProvider

end

end Watchcat
