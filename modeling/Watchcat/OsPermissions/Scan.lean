import Watchcat.OsPermissions.Inspection

/-!
# The scan of a process

The windows of a process are looked at one by one. A window that is matched twice
alike is pressed, once for each signature it shows; what has been attempted is kept
with the window for as long as it is open.
-/

namespace Watchcat

open Watchcat.Core Desktop

/-! ## Windows of a process -/

/-- `Dialog`: a window and what has been attempted with it. -/
structure Dialog where
  element : Element
  lastAttempt : Option String := none
  lastObservation : Option String := none
  lastRule : Option String := none
  lastButton : Option String := none
  awaitingClose : Bool := false
  deadline : Option Int := none
  deriving DecidableEq, Repr

/-- `Process`. -/
structure Process where
  app : App
  element : Element
  dialogs : List Dialog := []
  subscriptions : List String := []
  lastError : Option AxError := none
  deriving DecidableEq, Repr

namespace Process

/-- The window as the process knows it. -/
def dialog? (p : Process) (window : Element) : Option Dialog :=
  p.dialogs.find? fun d => d.element.same window

/-- The first element that passes the test is updated. -/
def updateFirst {α : Type} (test : α → Bool) (f : α → α) : List α → List α
  | [] => []
  | x :: xs => if test x then f x :: xs else x :: updateFirst test f xs

/-- Update what is known about a window. -/
def updateDialog (p : Process) (window : Element) (f : Dialog → Dialog) : Process :=
  { p with dialogs := updateFirst (fun d => d.element.same window) f p.dialogs }

end Process

/-! ## Subscriptions -/

/-- One notification of `process_subscriptions`: what is subscribed, and the first errors of either
kind. -/
structure Subscribed where
  names : List String := []
  firstError : Option AxError := none
  transientError : Option AxError := none

/-- What an answer adds. -/
def Subscribed.add (s : Subscribed) (name : String) : Except AxError Unit → Subscribed
  | .ok _ => { s with names := s.names ++ [name] }
  | .error .notificationAlreadyRegistered => { s with names := s.names ++ [name] }
  | .error .cannotComplete =>
    { s with transientError := some (s.transientError.getD .cannotComplete) }
  | .error .invalidUIElement =>
    { s with transientError := some (s.transientError.getD .invalidUIElement) }
  | .error e => { s with firstError := some (s.firstError.getD e) }

variable {σ ε : Type}

/-- `process_subscriptions`. -/
def processSubscriptions (element : Element) (pid : Int) : Desktop σ AxError (List String) := do
  let windows ← perform (.addNotification element "AXWindowCreated" pid)
  let sheets ← perform (.addNotification element "AXSheetCreated" pid)
  let focus ← perform (.addNotification element "AXFocusedWindowChanged" pid)
  let created := (({} : Subscribed).add "AXWindowCreated" windows).add "AXSheetCreated" sheets
  let subscribed := created.add "AXFocusedWindowChanged" focus
  match subscribed.transientError with
  | some e => Act.fail e
  | none =>
    if subscribed.names.isEmpty then
      Act.fail (subscribed.firstError.getD .notificationUnsupported)
    else return subscribed.names

/-- `Process::new`. -/
def newProcess (app : App) : Desktop σ AxError Process := do
  let element ← perform (.newApplication app.pid)
  Act.ofExcept (← perform (.createObserver app.pid))
  let subscriptions ← processSubscriptions element app.pid
  return { app := app, element := element, subscriptions := subscriptions }

/-- `watch_dialog`; the answers are ignored. -/
def watchDialog (window : Element) (pid : Int) : Desktop σ ε Unit := do
  let _ ← perform (.addNotification window "AXUIElementDestroyed" pid)
  let _ ← perform (.addNotification window "AXLayoutChanged" pid)
  let _ ← perform (.addNotification window "AXSheetCreated" pid)

/-! ## One window -/

/-- A window that is not known yet is watched. -/
def discoverWindow (app : String) (window : Element) : Desktop Process ε Unit := do
  let p ← Act.get
  if (p.dialog? window).isNone then
    watchDialog window p.app.pid
    let _ ← record "window.discovered" (some p.app.pid) app none none
      "window event or initial window snapshot"
    Act.modify fun p => { p with dialogs := p.dialogs ++ [{ element := window }] }

/-- The window was pressed, and its time to close is over. -/
def checkDeadline (app : String) (dialog : Dialog) : Desktop Process ε Unit := do
  match dialog.awaitingClose, dialog.deadline with
  | true, some deadline =>
    if deadline ≤ (← perform .now) then
      Act.modify fun p => p.updateDialog dialog.element fun d => { d with awaitingClose := false }
      let _ ← record "click.unconfirmed" (some (← Act.get).app.pid) app dialog.lastRule
        dialog.lastButton "window still present after 3 seconds; click will not be retried"
      updateStatus fun status => { status with
        lastResult := some "Click sent; window still present (not retried)" }
  | _, _ => return ()

/-- What the answer of the press leads to. -/
def settlePress (app : String) (dialog : Dialog) (matched : MatchedButton)
    (pressed : Except AxError Unit) : Desktop Process ε Unit := do
  let pid := (← Act.get).app.pid
  if pressed = .ok () || pressed = .error .cannotComplete then
    let deadline := (← perform .now) + seconds 3
    Act.modify fun p => p.updateDialog dialog.element fun d =>
      { d with awaitingClose := true, deadline := some deadline }
    perform (.verifyLater pid)
    let _ ← record "click.sent" (some pid) app (some matched.rule) (some matched.label)
      ("AXPress: " ++ debugResult pressed ++ "; waiting for window to close")
    updateStatus fun status => { status with
      clicksSent := status.clicksSent + 1
      lastResult := some ("Clicked " ++ matched.label ++ " via " ++ matched.rule ++
        "; waiting for window to close") }
    perform (.queueScan pid)
  else
    let _ ← record "click.failed" (some pid) app (some matched.rule) (some matched.label)
      ("AXPress: " ++ debugResult pressed ++ "; not retried")
    updateStatus fun status => { status with
      lastResult := some ("Click failed: " ++ debugResult pressed) }

/-- The permit is held from its check to the end of the press; a press that is not in the log is not
made. The result says whether the scan goes on. -/
def pressMatched (app : String) (dialog : Dialog) (matched current : MatchedButton) :
    Desktop Process ε Bool := do
  let pid := (← Act.get).app.pid
  if !(← perform .lockPermit) then
    perform .unlockPermit
    return false
  else if !(← record "click.attempt" (some pid) app (some matched.rule) (some matched.label)
      "matched rule; sending AXPress") then
    updateStatus fun status => { status with
      lastResult := some "Click skipped: cannot write event log" }
    perform .unlockPermit
    return true
  else
    Act.modify fun p => p.updateDialog dialog.element fun d => { d with
      lastAttempt := some matched.signature
      lastRule := some matched.rule
      lastButton := some matched.label
      awaitingClose := false }
    let pressed ← perform (.press dialog.element current.button)
    perform .unlockPermit
    settlePress app dialog matched pressed
    return true

/-- The second read must agree with the first one, and the process still be the same. -/
def agrees (identity : String × String) (matched current : MatchedButton) :
    Desktop Process ε Bool := do
  if !matched.button.same current.button || matched.signature ≠ current.signature ||
      matched.rule ≠ current.rule then return false
  else
    let p ← Act.get
    if ← perform (.isTerminated p.app) then return false
    else return (← appIdentity p.app) = some identity

/-- A window that is known: it is read, and pressed where it is matched anew. -/
def handleWindow [Lowercase] (dryRun : Bool) (rules : DialogSettings) (identity : String × String)
    (app : String) (dialog : Dialog) : Desktop Process ε Bool := do
  let pid := (← Act.get).app.pid
  match ← Act.attempt (matchingButton dialog.element rules identity) with
  | .error reason =>
    if dialog.lastObservation ≠ some reason then
      let _ ← record "window.skipped" (some pid) app none none reason
      Act.modify fun p => p.updateDialog dialog.element fun d =>
        { d with lastObservation := some reason }
    return true
  | .ok matched =>
    if dialog.lastAttempt = some matched.signature then return true
    else
      Act.modify fun p => p.updateDialog dialog.element fun d =>
        { d with lastObservation := some ("matched " ++ matched.rule) }
      if dryRun then
        let _ ← record "click.dry_run" (some pid) app (some matched.rule) (some matched.label)
          "rule matched; no click in dry run"
        Act.modify fun p => p.updateDialog dialog.element fun d =>
          { d with lastAttempt := some matched.signature }
        return true
      else match ← Act.attempt (matchingButton dialog.element rules identity) with
        | .error _ => return true
        | .ok current =>
          if !(← agrees identity matched current) then return true
          else pressMatched app dialog matched current

/-- The loop body of `Process::scan`: whether the scan goes on. The rules are held to its end. -/
def scanWindow [Lowercase] (dryRun : Bool) (app : String) (window : Element) :
    Desktop Process ε Bool := do
  if !(← perform .readPermit) then return false
  else match ← perform .lockRules with
    | none => do
      perform .unlockRules
      return false
    | some rules => Act.closing (do
        match ← appIdentity (← Act.get).app with
        | none => return false
        | some identity =>
          discoverWindow app window
          match (← Act.get).dialog? window with
          -- the window has just been found or added
          | none => return true
          | some dialog =>
            checkDeadline app dialog
            handleWindow dryRun rules identity app dialog) fun _ =>
          Prog.request DesktopCall.unlockRules

/-! ## All windows -/

/-- The loop of `Process::scan`. -/
def scanWindows [Lowercase] (dryRun : Bool) (app : String) :
    List Element → Desktop Process ε Unit
  | [] => return ()
  | window :: windows => do
    if ← scanWindow dryRun app window then scanWindows dryRun app windows

/-- A pressed window that is gone has been closed. -/
def forgetClosed (app : String) (windows : List Element) (dialog : Dialog) :
    Desktop Process ε Unit := do
  if !(windows.any fun window => window.same dialog.element) && dialog.awaitingClose then
    let _ ← record "click.closed" (some (← Act.get).app.pid) app dialog.lastRule dialog.lastButton
      "window absent after click; original tool result is unknown"
    updateStatus fun status => { status with
      dialogsClosed := status.dialogsClosed + 1
      lastResult := some "Dialog closed after click" }

/-- `Process::scan`. -/
def scanProcess [Lowercase] (dryRun : Bool) : Desktop Process AxError Unit := do
  let p ← Act.get
  let app ← appName p.app
  let windows ← elements p.element "AXWindows"
  Act.forEach (forgetClosed app windows) p.dialogs
  Act.modify fun p => { p with
    dialogs := p.dialogs.filter fun dialog => windows.any fun window => window.same dialog.element }
  scanWindows dryRun app (windows.take 32)

end Watchcat
