import Watchcat.Service.Calls

/-!
# The daemon's stores

The watchlist file, the control state file and the configuration file. A store
reads its file anew for every method, and replaces it as a whole.
-/

namespace Watchcat

open Watchcat.Core Method

variable {σ : Type}

/-! ## The watchlist -/

/-- `WatchlistStore::load`. -/
def loadWatchlist : Method σ WatchlistDocument := do
  let document := (← Act.ofExcept (← perform .readWatchlist)).getD {}
  if document.version ≠ 4 then
    Act.fail (.message ("unsupported watchlist version " ++ toString document.version ++
      "; this release requires version 4"))
  else return document

/-- `WatchlistStore::list`. -/
def listTargets : Method σ (List WatchTarget) := do
  return (← loadWatchlist).targets

/-- `WatchlistStore::add`. -/
def addTarget (target : WatchTarget) : Method σ Bool := do
  let r := (← loadWatchlist).add target
  Act.ofExcept (← perform (.writeWatchlist r.2))
  return r.1

/-- `WatchlistStore::remove`. -/
def removeTarget (key : String) : Method σ Bool := do
  let r := (← loadWatchlist).remove key
  Act.ofExcept (← perform (.writeWatchlist r.2))
  return r.1

/-- `WatchlistStore::reconcile`. -/
def reconcileTargets (sessions : List Session) (now staleAfterSeconds : Int)
    (protectedKeys : Finset String) : Method σ (List WatchTarget) := do
  let previous ← loadWatchlist
  let document ← orPanic (previous.reconcile sessions now staleAfterSeconds protectedKeys)
  if document ≠ previous then
    Act.ofExcept (← perform (.writeWatchlist document))
  return document.targets

/-! ## The control state -/

/-- `ControlStateStore::next_revision`. -/
def nextRevision : Method ControlState Nat := do
  let previous ← Act.get
  Act.modify fun c => { c with revision := max (saturatingAdd c.revision 1) 1 }
  match ← perform (.writeControlState (← Act.get)) with
  | .error e => do
    Act.modify fun _ => previous
    Act.fail e
  | .ok _ => return (← Act.get).revision

/-- `ControlStateStore::load`. -/
def loadControlState : Method σ ControlState := do
  let found ← Act.ofExcept (← perform .readControlState)
  let state := found.getD ⟨2, 0⟩
  if state.version ≠ 2 then
    Act.fail (.message ("unsupported control state version " ++ toString state.version))
  else return (← Act.within state nextRevision).2

/-! ## The configuration -/

/-- `load_settings`. -/
def loadSettings : Method σ Settings := do
  match ← Act.ofExcept (← perform .readConfig) with
  | none => return {}
  | some settings => do
    Act.ofExcept settings.validate
    return settings

/-- `save_settings`. -/
def saveSettings (settings : Settings) : Method σ Unit := do
  Act.ofExcept settings.validate
  Act.ofExcept (← perform (.writeConfig settings))

end Watchcat
