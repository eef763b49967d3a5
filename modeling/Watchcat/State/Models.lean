import Watchcat.Base.Clock
import Watchcat.Base.Error
import Watchcat.Settings.Conditions

/-!
# Sessions, failures and watch targets

The records exchanged between providers, the engine and the stores. Keys are
texts joined by colons, exactly as the stores use them.
-/

namespace Watchcat

/-- The life of a provider session. -/
inductive SessionState
  | unknown
  | idle
  | active
  | failed
  deriving DecidableEq, Repr

/-- What a provider reports about one turn. -/
inductive TurnOutcome
  | inProgress
  | completed
  | failed
  | unknown
  deriving DecidableEq, Repr

/-- One entry of a provider catalog. -/
structure Session where
  provider : String
  id : String
  title : String
  state : SessionState
  updatedAt : Option Int
  deriving DecidableEq, Repr

/-- `Session::key`. -/
def Session.key (s : Session) : String := s.provider ++ ":" ++ s.id

/-- A normalized failed turn, with the fields the engine reads. -/
structure Failure where
  provider : String
  sessionId : String
  turnId : String
  condition : String
  providerCode : String
  message : String
  retryAfterSeconds : Option Nat
  model : Option String
  deriving DecidableEq, Repr

/-- `Failure::key`. -/
def Failure.key (f : Failure) : String := f.provider ++ ":" ++ f.sessionId ++ ":" ++ f.turnId

/-- The route a message took to the provider. -/
inductive MessageTransport
  | appServer
  | desktopIpc
  deriving DecidableEq, Repr

/-- The acknowledgement of a started turn. -/
structure ResumeReceipt where
  provider : String
  sessionId : String
  turnId : String
  transport : MessageTransport
  deriving DecidableEq, Repr

/-- Whether a target was discovered or added by hand. -/
inductive TrackingSource
  | automatic
  | manual
  deriving DecidableEq, Repr

/-- One authorized session of the watchlist. -/
structure WatchTarget where
  source : TrackingSource
  provider : String
  sessionId : String
  label : Option String
  title : Option String
  addedAt : Int
  lastActivityAt : Option Int
  deriving DecidableEq, Repr

/-- The later of two optional instants, an absent one being earliest. -/
def laterOf : Option Int → Option Int → Option Int
  | none, b => b
  | some a, none => some a
  | some a, some b => some (max a b)

/-- `WatchTarget::inactivity_since`. -/
def WatchTarget.inactivitySince (t : WatchTarget) (observed : Option Int) : Int :=
  let activity := (laterOf observed t.lastActivityAt).getD t.addedAt
  match t.source with
  | .automatic => activity
  | .manual => max activity t.addedAt

/-- `WatchTarget::key`. -/
def WatchTarget.key (t : WatchTarget) : String := t.provider ++ ":" ++ t.sessionId

/-- An event of the engine's audit log. -/
structure EngineEvent where
  timestamp : Int
  kind : String
  target : String
  message : String
  condition : Option String := none
  attempt : Option Nat := none
  maxAttempts : Option Nat := none
  prompt : Option String := none
  failure : Option Failure := none
  receipt : Option ResumeReceipt := none
  deriving DecidableEq, Repr

@[simp] theorem laterOf_none (a : Option Int) : laterOf a none = a := by
  cases a <;> rfl

end Watchcat
