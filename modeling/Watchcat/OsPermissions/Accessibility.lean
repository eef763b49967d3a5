import Watchcat.Core.Imperative
import Watchcat.OsPermissions.Rules

/-!
# The calls of the dialog monitor

What the monitor does that is not a computation on its own values: the
accessibility interface of the system, the list of applications, the rules and the
permit behind their locks, the event log, the status and the main run loop. A call
that can fail is answered by a result.
-/

namespace Watchcat

open Watchcat.Core

/-! ## Values of the system -/

/-- A handle of an accessibility element: its address in memory and the element it refers to. -/
structure Element where
  address : Nat
  id : Nat
  deriving DecidableEq, Repr

/-- `CFEqual`: the handles refer to one element. -/
def Element.same (a b : Element) : Bool := a.id == b.id

/-- `AXError`, the errors that the source names and the others. -/
inductive AxError
  | cannotComplete
  | invalidUIElement
  | attributeUnsupported
  | noValue
  | notificationAlreadyRegistered
  | notificationUnsupported
  | failure
  | other (code : Int)
  deriving DecidableEq, Repr

/-- The error as `{:?}` prints it. -/
def AxError.debug : AxError → String
  | .cannotComplete => "CannotComplete"
  | .invalidUIElement => "InvalidUIElement"
  | .attributeUnsupported => "AttributeUnsupported"
  | .noValue => "NoValue"
  | .notificationAlreadyRegistered => "NotificationAlreadyRegistered"
  | .notificationUnsupported => "NotificationUnsupported"
  | .failure => "Failure"
  | .other code => "AXError(" ++ toString code ++ ")"

/-- A result as `{:?}` prints it. -/
def debugResult : Except AxError Unit → String
  | .ok _ => "Success"
  | .error e => e.debug

/-- The value of an attribute; the members of an array that are no elements are `none`. -/
inductive AxValue
  | string (text : String)
  | boolean (value : Bool)
  | array (items : List (Option Element))
  | other
  deriving DecidableEq, Repr

/-- `NSRunningApplication`: one of the applications that had the process identifier. -/
structure App where
  pid : Int
  serial : Nat
  deriving DecidableEq, Repr

/-- `events::Event`, without its time. -/
structure DialogEvent where
  kind : String
  pid : Option Int
  app : String
  rule : Option String
  button : Option String
  detail : String
  deriving DecidableEq, Repr

/-- `Status`. -/
structure DialogStatus where
  state : String
  listeningProcesses : Nat := 0
  unavailableProcesses : Nat := 0
  clicksSent : Nat := 0
  dialogsClosed : Nat := 0
  lastResult : Option String := none
  deriving DecidableEq, Repr

/-! ## The calls -/

/-- A call of the monitor. A press names the window whose button it is. -/
inductive DesktopCall
  -- the permit and the rules
  | readPermit
  | lockPermit
  | unlockPermit
  | readRules
  | lockRules
  | unlockRules
  -- the event log and the status
  | append (event : DialogEvent)
  | readStatus
  | updateStatus (change : DialogStatus → DialogStatus)
  -- applications
  | trusted
  | executable
  | runningApplications
  | isTerminated (app : App)
  | bundleIdentifier (app : App)
  | localizedName (app : App)
  | executablePath (pid : Int)
  -- accessibility
  | newApplication (pid : Int)
  | createObserver (pid : Int)
  | addNotification (element : Element) (name : String) (pid : Int)
  | attribute (element : Element) (name : String)
  | press (window button : Element)
  -- the run loop
  | now
  | queueScan (pid : Int)
  | verifyLater (pid : Int)
  | retryLater (pid : Int) (attempts : Nat)

/-- The answer of a call. -/
@[reducible] def DesktopReply : DesktopCall → Type
  | .readPermit => Bool
  | .lockPermit => Bool
  | .readRules => Option DialogSettings
  | .lockRules => Option DialogSettings
  | .append _ => Bool
  | .readStatus => DialogStatus
  | .trusted => Bool
  | .executable => Option String
  | .runningApplications => List App
  | .isTerminated _ => Bool
  | .bundleIdentifier _ => Option String
  | .localizedName _ => Option String
  | .executablePath _ => Option String
  | .newApplication _ => Element
  | .createObserver _ => Except AxError Unit
  | .addNotification _ _ _ => Except AxError Unit
  | .attribute _ _ => Except AxError AxValue
  | .press _ _ => Except AxError Unit
  | .now => Int
  | .retryLater _ _ => Bool
  | _ => Unit

/-- A method of the monitor on a state, with errors in `ε`. -/
abbrev Desktop (σ ε α : Type) : Type := Act DesktopReply σ ε α

namespace Desktop

variable {σ ε α : Type}

/-- Perform a call. -/
def perform (op : DesktopCall) : Desktop σ ε (DesktopReply op) := Act.perform op

/-- The text without control characters, cut to 512 characters. -/
def sanitize (text : String) : String :=
  String.ofList ((text.toList.filter fun c => !isControl c).take 512)

/-- `record`: whether the event is in the log. -/
def record (kind : String) (pid : Option Int) (app : String) (rule button : Option String)
    (detail : String) : Desktop σ ε Bool :=
  perform (.append ⟨kind, pid, sanitize app, rule, button.map sanitize, detail⟩)

/-- `update_status`. -/
def updateStatus (change : DialogStatus → DialogStatus) : Desktop σ ε Unit :=
  perform (.updateStatus change)

/-! ## Applications -/

/-- `app_name`. -/
def appName (app : App) : Desktop σ ε String := do
  match ← perform (.bundleIdentifier app) with
  | some bundle => return bundle
  | none => match ← perform (.localizedName app) with
    | some name => return name
    | none => return "pid " ++ toString app.pid

/-- `app_identity`: the executable and the bundle. -/
def appIdentity (app : App) : Desktop σ ε (Option (String × String)) := do
  match ← perform (.executablePath app.pid) with
  | none => return none
  | some path => return some (path, (← perform (.bundleIdentifier app)).getD "")

/-- The application is alive and observed by an enabled rule. -/
def isObserved (rules : DialogSettings) (app : App) : Desktop σ ε Bool := do
  if ← perform (.isTerminated app) then return false
  else match ← appIdentity app with
    | none => return false
    | some (path, bundle) => return rules.observes path bundle

/-! ## Attributes -/

/-- `string`: the text of an attribute, empty where it has none. -/
def string (element : Element) (name : String) : Desktop σ AxError String := do
  match ← perform (.attribute element name) with
  | .ok (.string text) => return text
  | .ok _ => return ""
  | .error .attributeUnsupported => return ""
  | .error .noValue => return ""
  | .error e => Act.fail e

/-- `elements`: the elements in an array attribute. -/
def elements (element : Element) (name : String) : Desktop σ AxError (List Element) := do
  match ← perform (.attribute element name) with
  | .ok (.array items) => return items.filterMap id
  | .ok _ => Act.fail .failure
  | .error e => Act.fail e

end Desktop

end Watchcat
