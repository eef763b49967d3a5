import Watchcat.Daemon.Histories
import Watchcat.Service.Sample

/-!
# Playing the daemon

Files that answer as they are or fail, as a script says, for runs of the
daemon's methods on fixed inputs.
-/

namespace Watchcat

open Watchcat.Core

/-- What a call of the daemon meets. -/
inductive Turn
  | plain
  | failing
  | edited (content : Except Error (Option Settings)) (modified : Int)

/-- The error of a call that fails. -/
def unavailable : Error := .message "unavailable"

namespace World

/-- A file that answers, or fails and stays. -/
def writing (w : World) (turn : Turn) (written : World) : Except Error Unit × World :=
  match turn with
  | .failing => (.error unavailable, w)
  | _ => (.ok (), written)

/-- The content of a file that can be read. -/
def reading {α : Type} (turn : Turn) (content : α) : Except Error α :=
  match turn with
  | .failing => .error unavailable
  | _ => .ok content

/-- The answer of a call and the world it leaves. -/
def answer (w : World) (turn : Turn) : (op : Call) → Reply op × World
  | .readConfig => match turn with
    | .failing =>
      (.error unavailable, { w with config := w.config.noted (.misread w.config.content) })
    | _ => (w.config.content, w)
  | .writeConfig settings => w.writing turn { w with
      config := w.config.written (.ok (some settings)) w.config.stamps.length
        (.stored settings w.config.content) }
  | .configModified => (w.config.modified, { w with config := w.config.noted .stamped })
  | .readWatchlist => (reading turn w.watchlist, w)
  | .writeWatchlist document => w.writing turn { w with watchlist := some document }
  | .readControlState => (reading turn w.controlState, w)
  | .writeControlState state => w.writing turn { w with controlState := some state }
  | .configureDialogs dialogs => ((), { w with dialogs := some dialogs })
  | .permitUpdate running targets generation =>
    ((), { w with permit := .of running targets generation })
  | .permitGeneration => (w.permit.generation, w)
  | op => (SampleProvider.answer {} op, w)

/-- The calls that can be played. -/
def playable : Call → Bool
  | .readConfig | .writeConfig _ | .configModified | .readWatchlist | .writeWatchlist _
  | .readControlState | .writeControlState _ | .configureDialogs _ | .permitUpdate _ _ _
  | .permitGeneration | .now | .readState | .notify _ => true
  | _ => false

theorem writes_writing (w written : World) (turn : Turn) :
    w.Writes (w.writing turn written).2 written (w.writing turn written).1 := by
  cases turn <;> rfl

theorem reads_reading {α : Type} (turn : Turn) (content : α) :
    Reads content (reading turn content) := by
  cases turn with
  | failing => exact nofun
  | plain | edited => exact fun _ h => (Except.ok.inj h).symm

theorem act_answer (t : Tid) (w : World) (turn : Turn) (op : Call) (h : playable op = true) :
    act t w op (w.answer turn op).1 (w.answer turn op).2 := by
  cases op with
  | readConfig =>
    cases turn with
    | failing => exact ⟨_, .inr ⟨.inr ⟨_, rfl⟩, rfl⟩, rfl⟩
    | plain | edited => exact ⟨_, .inl ⟨rfl, rfl⟩, rfl⟩
  | writeConfig settings =>
    cases turn with
    | failing => exact ⟨_, rfl, rfl⟩
    | plain | edited => exact ⟨_, ⟨_, rfl⟩, rfl⟩
  | configModified => exact ⟨_, ⟨.inl rfl, rfl⟩, rfl⟩
  | readWatchlist | readControlState => exact ⟨reads_reading _ _, rfl⟩
  | writeWatchlist | writeControlState => exact writes_writing _ _ _
  | permitGeneration => exact ⟨rfl, rfl⟩
  | configureDialogs | permitUpdate | now | readState | notify => rfl
  | _ => exact Bool.noConfusion h

/-- The daemon's calls by a script of turns; after its end every call succeeds. -/
def player (t : Tid) : bare.Player t (List Turn) where
  answer script w op := w.answer (script.headD .plain) op
  rest := List.tail
  enabled := playable
  sound _ w op h := act_answer t w _ op h

/-- The world in which a call is answered. -/
def turned (w : World) : Turn → World
  | .edited content modified => { w with config := w.config.written content modified .edited }
  | _ => w

theorem edits_turned (w : World) (turn : Turn) : w.Edits (w.turned turn) := by
  cases turn with
  | edited content modified => exact .single ⟨_, ⟨content, modified, rfl⟩, rfl⟩
  | plain | failing => exact .refl

/-- The daemon's calls by a script of turns, with the edits it names. -/
def noisyPlayer (t : Tid) : noisy.Player t (List Turn) where
  answer script w op := (w.turned (script.headD .plain)).answer (script.headD .plain) op
  rest := List.tail
  enabled := playable
  sound _ w op h := ⟨_, edits_turned w _, act_answer t _ _ op h⟩

end World

/-! ## A daemon and its requests -/

/-- The daemon started from the given files, and the world it left. -/
def startSample (script : List Turn) (w : World) : Except Error WatchcatDaemon × World :=
  let r := (World.noisyPlayer .main).play script w (loadDaemon ())
  (r.2.1.1, r.2.2)

/-- A request without an expectation of the revision. -/
def sampleRequest (method : String) (params : Value) : RpcRequest where
  version := protocolVersion
  id := "r"
  method := method
  params := params
  expectedRevision := none

/-- The same where nobody edits the configuration file. -/
def calmSample (script : List Turn) (request : RpcRequest) (d : WatchcatDaemon) (w : World) :
    List (Prog.Event Reply) × Except Error RpcResponse × WatchcatDaemon × World :=
  let r := (World.player .main).play script w (handleControl request d)
  (r.1, r.2.1.1, r.2.1.2, r.2.2)

/-- The answer of a daemon to a request, the daemon and the world it left. -/
def controlSample (script : List Turn) (request : RpcRequest) (d : WatchcatDaemon) (w : World) :
    Except Error RpcResponse × WatchcatDaemon × World :=
  let r := (World.noisyPlayer .main).play script w (handleControl request d)
  (r.2.1.1, r.2.1.2, r.2.2)

/-- The daemon of a start that succeeded. -/
def startedSample (script : List Turn) (w : World) : WatchcatDaemon :=
  match (startSample script w).1 with
  | .ok d => d
  | .error _ => sampleDaemon 0

theorem DaemonRun.startSample {script : List Turn} {w : World} (hdated : w.config.Dated)
    (hnew : w.config.history = [])
    (hplays : (World.noisyPlayer .main).Plays script w (loadDaemon ()))
    (hok : (Watchcat.startSample script w).1.isOk = true) :
    DaemonRun World.noisy (Watchcat.startSample script w).2 (startedSample script w) := by
  have hx := (World.noisyPlayer .main).alone hplays
  have hd : ((World.noisyPlayer .main).play script w (loadDaemon ())).2.1 =
      (.ok (startedSample script w), ()) := by
    unfold startedSample
    unfold Watchcat.startSample at hok ⊢
    cases h : ((World.noisyPlayer .main).play script w (loadDaemon ())).2.1.1 with
    | ok d => exact Prod.ext h rfl
    | error e => simp [h, Except.isOk, Except.toBool] at hok
  rw [hd] at hx
  exact .started hdated hnew hx

theorem DaemonRun.controlSample {script : List Turn} {w : World} {d : WatchcatDaemon}
    (hrun : DaemonRun World.noisy w d) {request : RpcRequest}
    (hplays : (World.noisyPlayer .main).Plays script w (handleControl request d)) :
    DaemonRun World.noisy (Watchcat.controlSample script request d w).2.2
      (Watchcat.controlSample script request d w).2.1 :=
  hrun.controlled ((World.noisyPlayer .main).alone hplays)

/-- The request to watch the sample session. -/
def addRequest : RpcRequest :=
  sampleRequest "sessions.add" (.obj
    [("provider", .str "codex"), ("session_id", .str "s"), ("validate", .bool false)])

/-- The request to skip a condition. -/
def skipRequest (condition : String) : RpcRequest :=
  sampleRequest "config.policies.set" (.obj
    [("condition", .str condition), ("policy", .obj [("action", .str "skip")])])

/-- The daemon of a first start, and its world. -/
def freshSample : WatchcatDaemon × World :=
  (startedSample [] World.initial, (startSample [] World.initial).2)

theorem freshSample_run : DaemonRun World.noisy freshSample.2 freshSample.1 :=
  .startSample nofun rfl (by decide) (by decide)

/-- The error of the response, where there is one. -/
def responseError (r : Except Error RpcResponse) : Option RpcError :=
  r.toOption.bind RpcResponse.error

end Watchcat
