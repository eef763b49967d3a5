/-!
# Errors with context

An `anyhow::Error` is a typed cause under any number of context texts. The
service only looks at an error through its text and by downcasting, and both
see through the context. A panic is no error of the source, but it leaves a
method on the same way, past everything that follows and through every guard.
-/

namespace Watchcat

/-- The error causes the service distinguishes, and the contexts around them. -/
inductive Error
  /-- An error known only by its text (`bail!`, `anyhow!`, an I/O or codec error). -/
  | message (text : String)
  /-- `AcknowledgementUnknown`: the request may have been applied. -/
  | acknowledgementUnknown (detail : String)
  /-- `JsonRpcError`: an App Server error reply. -/
  | jsonRpc (code : Int) (text : String)
  /-- `DesktopIpcRemoteError`: a Desktop reply with result type `error`. -/
  | desktopRemote (method text : String)
  /-- `.context(text)` around an error. -/
  | context (text : String) (cause : Error)
  /-- A panic on its way out of its task; no `Result` ever holds it. -/
  | panicked
  deriving DecidableEq, Repr

namespace Error

/-- `Display` without the cause chain: the outermost text. -/
def display : Error → String
  | message text => text
  | acknowledgementUnknown detail => "provider acknowledgement is unknown: " ++ detail
  | jsonRpc code text => "JSON-RPC error " ++ toString code ++ ": " ++ text
  | desktopRemote method text => "Codex Desktop IPC " ++ method ++ " failed: " ++ text
  | context text _ => text
  | panicked => ""

/-- The alternate form `{error:#}`: every text of the chain, joined by colons. -/
def displayChain : Error → String
  | context text cause => text ++ ": " ++ cause.displayChain
  | error => error.display

/-- `acknowledgement_is_unknown`: downcasting looks through contexts. -/
def acknowledgementIsUnknown : Error → Bool
  | acknowledgementUnknown _ => true
  | context _ cause => cause.acknowledgementIsUnknown
  | _ => false

/-- Whether this is a panic, which no match on a `Result` sees. -/
def isPanic : Error → Bool
  | panicked => true
  | _ => false

/-- `remote_error_message`: the text of a Desktop error reply. -/
def remoteErrorMessage : Error → Option String
  | desktopRemote _ text => some text
  | context _ cause => cause.remoteErrorMessage
  | _ => none

@[simp] theorem acknowledgementIsUnknown_message (text : String) :
    (message text).acknowledgementIsUnknown = false := rfl

@[simp] theorem acknowledgementIsUnknown_acknowledgementUnknown (detail : String) :
    (acknowledgementUnknown detail).acknowledgementIsUnknown = true := rfl

@[simp] theorem acknowledgementIsUnknown_jsonRpc (code : Int) (text : String) :
    (jsonRpc code text).acknowledgementIsUnknown = false := rfl

@[simp] theorem acknowledgementIsUnknown_desktopRemote (method text : String) :
    (desktopRemote method text).acknowledgementIsUnknown = false := rfl

end Error

/-! ## Chains of checks -/

section Checks

variable {ε α β : Type}

/-- A check that refuses comes before what follows it. -/
theorem refuse_ok {c : Prop} [Decidable c] {e : ε} {k : Unit → Except ε β} {b : β} :
    (if c then (throw e : Except ε Unit) >>= k else k ()) = .ok b ↔ ¬c ∧ k () = .ok b := by
  by_cases h : c
  · rw [if_pos h]
    exact ⟨nofun, fun hn => absurd h hn.1⟩
  · rw [if_neg h]
    exact ⟨fun hk => ⟨h, hk⟩, fun hk => hk.2⟩

/-- A check that refuses comes last. -/
theorem refuse_last_ok {c : Prop} [Decidable c] {e : ε} {b : β} :
    (if c then throw e else pure b : Except ε β) = .ok b ↔ ¬c := by
  by_cases h : c
  · rw [if_pos h]
    exact ⟨nofun, fun hn => absurd h hn⟩
  · rw [if_neg h]
    exact ⟨fun _ => h, fun _ => rfl⟩

/-- A check passes before what follows it. -/
theorem check_ok {check : Except ε Unit} {k : Unit → Except ε β} {b : β} :
    (check >>= k) = .ok b ↔ check = .ok () ∧ k () = .ok b := by
  cases check with
  | error e => exact ⟨nofun, fun h => nomatch h.1⟩
  | ok _ => exact ⟨fun h => ⟨rfl, h⟩, fun h => h.2⟩

/-- A loop of checks passes where every check does. -/
theorem checks_ok {check : α → Except ε Unit} {l : List α} :
    l.forM check = .ok () ↔ ∀ a ∈ l, check a = .ok () := by
  induction l with
  | nil => exact ⟨fun _ => nofun, fun _ => rfl⟩
  | cons a l ih =>
    rw [List.forall_mem_cons, ← ih]
    exact check_ok

end Checks

end Watchcat
