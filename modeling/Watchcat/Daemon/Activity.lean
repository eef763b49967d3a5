import Watchcat.Core.Merging
import Watchcat.Daemon.Serve
import Watchcat.Providers.SessionLogs

/-!
# The activity of a session

What the provider and the event log tell about a session is merged by time, and
the last entries are answered. A provider that fails is told by an entry of its
own.
-/

namespace Watchcat

open Watchcat.Core

/-- `is_reliability_log`. -/
def isReliabilityLog (log : SessionLog) : Bool :=
  log.source == "watchcat" || log.condition.isSome || log.kind == "turn.failed" ||
    log.kind == "provider.error"

/-- The entry that stands for the answer of a provider that fails. -/
def providerErrorLog (session : SessionRef) (now : Int) (e : Error) : SessionLog where
  timestamp := some now
  provider := session.provider
  sessionId := session.sessionId
  source := "provider"
  kind := "provider.error"
  role := none
  turnId := none
  condition := none
  message := e.display
  metadata := .null

/-- The order of `sort_by_key` on timestamps: undated entries come first. -/
def inOrder (a b : SessionLog) : Prop := notEarlier b.timestamp a.timestamp = true

instance : DecidableRel inOrder := fun _ _ => inferInstanceAs (Decidable (_ = true))

instance : Std.Total inOrder where
  total a b := by
    unfold inOrder
    cases a.timestamp <;> cases b.timestamp <;> simp [notEarlier, Int.le_total]

instance : IsTrans SessionLog inOrder where
  trans a b c := by
    unfold inOrder
    cases a.timestamp <;> cases b.timestamp <;> cases c.timestamp <;> simp [notEarlier]
    omega

theorem notEarlier_self (a : Option Int) : notEarlier a a = true := by
  cases a <;> simp [notEarlier]

namespace ActivityQuery

/-- The entries that a query lets through. -/
def shown (query : ActivityQuery) (logs : List SessionLog) : List SessionLog :=
  if query.reliabilityOnly then logs.filter isReliabilityLog else logs

/-- The `sessions.logs` branch of `dispatch_provider` on the answers of the provider and of the
event log; `sort_by_key` is stable, as is the sort here. -/
def merge (query : ActivityQuery) (now : Int) (provided recorded : Except Error (List SessionLog)) :
    Except Error (List SessionLog) := do
  let provided := match provided with
    | .ok logs => logs
    | .error e => [providerErrorLog query.session now e]
  let recorded ← recorded
  return ((query.shown provided ++ query.shown recorded).insertionSort inOrder).rtake query.limit

end ActivityQuery

end Watchcat
