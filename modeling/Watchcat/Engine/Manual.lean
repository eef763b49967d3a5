import Watchcat.Engine.Pass

/-!
# Manual retries and the upkeep of the engine

`retry_now` sends the recovery of one target without the delay and without the
check for a handled failure; the rest of the module replaces what the engine
works on.
-/

namespace Watchcat

open Watchcat.Core Method

/-! ## Upkeep -/

/-- `build_providers` for one name. -/
def buildProvider {σ : Type} (settings : ProviderSettings) (name : String) : Method σ Unit :=
  if name = "codex" then
    if settings.codex.enabled then do Act.ofExcept (← perform (.newProvider name))
    else Act.fail (.message "provider is disabled: codex")
  else if name = "claude" then
    if settings.claude.enabled then do Act.ofExcept (← perform (.newProvider name))
    else Act.fail (.message "provider is disabled: claude")
  else Act.fail (.message ("unknown provider: " ++ name))

/-- `ensure_provider`. -/
def ensureProvider (provider : String) : Method WatchEngine Unit := do
  let e ← Act.get
  if provider ∈ e.providers then return ()
  else
    buildProvider e.settings.providers provider
    Act.ofExcept (← perform (.startProvider provider))
    Act.modify fun e => { e with providers := insert provider e.providers }

/-- `close`: a failing shutdown of a provider is only logged. -/
def closeEngine : Method WatchEngine Unit := do
  let names := (← Act.get).providers.sort (· ≤ ·)
  let order ← perform (.providerOrder names)
  Act.forEach (fun name => do
    let _ ← perform (.closeProvider name)
    return ()) order.1

/-- `replace_settings`. -/
def replaceSettings (settings : Settings) : Method WatchEngine Unit := do
  if (← Act.get).settings.providers ≠ settings.providers then
    closeEngine
    Act.modify fun e => { e with providers := ∅ }
  Act.modify fun e => { e with eventLog := settings.engine.logRetention, settings := settings }

/-- `replace_watch_targets`. -/
def replaceWatchTargets (targets : List WatchTarget) : Method WatchEngine Unit :=
  Act.modify fun e => e.replaceTargets targets

/-! ## `retry_now` -/

/-- The event about a manual `resume` that may have started a turn. -/
def Due.manualEvent (d : Due) (now : Int) : Except Error ResumeReceipt → EngineEvent
  | .ok receipt => sentEvent now d.target d.failure d.policy (d.attempts + 1) d.prompt receipt
  | .error _ => unconfirmedEvent now d.target d.failure d.policy (d.attempts + 1) d.prompt

/-- The manual `resume` and its bookkeeping; the send boundary is held. -/
def sendManualRetry (now : Int) (automatic : Bool) (d : Due) :
    Method WatchEngine ResumeReceipt := do
  Act.modify fun e => e.withState fun s => s.recordAttempt d.target now
  Act.ofExcept (← perform (.writeState (← Act.get).state))
  if d.target.provider ∉ (← Act.get).providers then
    Act.fail (.message ("provider is unavailable: " ++ d.target.provider))
  else
    let answer ← perform (.resume d.target.provider d.target.sessionId d.prompt d.failure.key)
    Act.modify fun e => e.withState (d.settle now automatic answer)
    if mayHaveStarted answer then
      let _ ← perform (.writeState (← Act.get).state)
      let _ ← perform (.appendLog (← Act.get).eventLog [d.manualEvent now answer])
    Act.ofExcept answer

/-- The checks of `retry_now` once its failure is known, and its sending. -/
def retryFailureNow (now : Int) (automatic : Bool) (generation : Nat) (target : WatchTarget)
    (failure : Failure) : Method WatchEngine ResumeReceipt := do
  let policy := (← Act.get).settings.policy failure.condition
  if policy.action ≠ .retry then
    Act.fail (.message (failure.condition ++
      " is configured to skip; change the policy before retrying"))
  else
    let _ ← orPanic
      (gregorian.secondsBefore now (← Act.get).settings.engine.attemptWindowSeconds)
    let attempts ← Act.update fun e =>
      let r := e.state.recentAttempts target now e.settings.engine.attemptWindowSeconds
      (r.1, e.withState fun _ => r.2)
    if policy.maxAttempts ≤ attempts then
      Act.fail (.message ("retry limit reached for " ++ target.key ++ " (" ++ toString attempts ++
        "/" ++ toString policy.maxAttempts ++ ")"))
    else
      let prompt := renderPrompt policy.prompt failure (attempts + 1) policy.maxAttempts
      perform .enterSendBoundary
      Act.closing (do
        if !(← perform (.permitAllows target generation)) then
          Act.fail (.message "session authorization changed before the manual retry was sent")
        else sendManualRetry now automatic ⟨target, failure, policy, attempts, prompt⟩)
        fun _ => Prog.request Call.leaveSendBoundary

/-- `retry_now`. -/
def retryNow (providerName sessionId : String) (now : Int) (automatic : Bool) (generation : Nat) :
    Method WatchEngine ResumeReceipt := do
  let e ← Act.get
  match e.targets.find? fun t => t.provider == providerName && t.sessionId == sessionId with
  | none => Act.fail (.message ("session " ++ providerName ++ ":" ++ sessionId ++
      " is not being watched"))
  | some target =>
    if !(← perform (.permitAllows target generation)) then
      Act.fail (.message "session authorization changed before the manual retry could start")
    else if providerName ∉ e.providers then
      Act.fail (.message ("provider is unavailable: " ++ providerName))
    else match ← Act.ofExcept (← perform (.latestFailure providerName sessionId)) with
      | none => Act.fail (.message ("session " ++ sessionId ++ " has no failed latest turn"))
      | some failure =>
        Act.modify fun e => { e with
          unresolvedTargets := insert target.key e.unresolvedTargets }
        retryFailureNow now automatic generation target failure

end Watchcat
