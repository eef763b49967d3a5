import Watchcat.Daemon.Outcomes

/-!
# The life of a daemon

From its start a daemon prepares and commits cycles and answers control
requests, one complete operation after another. Its files may fail at any call,
and the configuration file may be edited between any two.
-/

namespace Watchcat

open Watchcat.Core

/-- Every modification time the file has is one it was written at. -/
def ConfigFile.Dated (f : ConfigFile) : Prop := ∀ m, f.modified = some m → m ∈ f.stamps

/-- The states between two complete operations of a daemon, with the world around it. -/
inductive DaemonRun (sys : System Reply Tid World) : World → WatchcatDaemon → Prop
  | started {t : Tid} {w w' : World} {d : WatchcatDaemon} {calls : List (Prog.Event Reply)}
      (hdated : w.config.Dated) (hnew : w.config.history = [])
      (hx : sys.Alone t w (loadDaemon ()) calls (.ok d, ()) w') : DaemonRun sys w' d
  | prepared {t : Tid} {w w' : World} {d d' : WatchcatDaemon} {calls : List (Prog.Event Reply)}
      {r : Except Error ReconcilePlan} (hrun : DaemonRun sys w d)
      (hx : sys.Alone t w (prepareReconcile d) calls (r, d') w') : DaemonRun sys w' d'
  | committed {t : Tid} {w w' : World} {d d' : WatchcatDaemon} {calls : List (Prog.Event Reply)}
      {engine : WatchEngine} {plan : ReconcilePlan} {outcome : ReconcileOutcome}
      {r : Except Error WatchEngine} (hrun : DaemonRun sys w d)
      (hx : sys.Alone t w (commitReconcile engine plan outcome d) calls (r, d') w') :
      DaemonRun sys w' d'
  | controlled {t : Tid} {w w' : World} {d d' : WatchcatDaemon}
      {calls : List (Prog.Event Reply)} {request : RpcRequest} {r : Except Error RpcResponse}
      (hrun : DaemonRun sys w d)
      (hx : sys.Alone t w (handleControl request d) calls (r, d') w') : DaemonRun sys w' d'
  | edited {w w' : World} {d : WatchcatDaemon} (hrun : DaemonRun sys w d) (he : w.edited w') :
      DaemonRun sys w' d

end Watchcat
