import Watchcat.Engine.Manual

/-!
# The calls of the engine

Which calls the methods of the engine can reach, whatever they are answered. The
tasks of the service use this where an engine's work does not matter to them.
-/

namespace Watchcat

open Watchcat.Core Method

/-- The calls that an engine makes. -/
def Call.ofEngine : Call → Bool
  | .now | .pendingOrder _ | .providerOrder _ => true
  | .newProvider _ | .startProvider _ | .closeProvider _ => true
  | .recentSessions _ _ | .latestFailure _ _ | .turnOutcome _ _ _ | .resume _ _ _ _ => true
  | .readWatchlist | .writeState _ | .appendLog _ _ => true
  | .permitAllows _ _ | .enterSendBoundary | .leaveSendBoundary => true
  | _ => false

/-- The method makes calls of an engine only. -/
abbrev OfEngine {σ α : Type} (m : Method σ α) : Prop := m.Uses fun op => op.ofEngine = true

/-- The calls of the send boundary. -/
def Call.ofBoundary : Call → Bool
  | .enterSendBoundary | .leaveSendBoundary => true
  | _ => false

/-- The method makes calls of an engine only, and none of the send boundary. -/
abbrev OfUpkeep {σ α : Type} (m : Method σ α) : Prop :=
  m.Uses fun op => op.ofEngine = true ∧ op.ofBoundary = false

variable {σ : Type}

theorem OfUpkeep.ofEngine {α : Type} {m : Method σ α} (h : OfUpkeep m) : OfEngine m :=
  h.mono fun _ hop => hop.1

/-! ## Passes -/

theorem ofUpkeep_observePending (now : Int) (pending : PendingRecovery) :
    OfUpkeep (observePending now pending) := by
  refine .andThen Act.uses_get fun p => Act.uses_ite ?_ (Act.uses_ret ())
  exact .andThen (Act.uses_perform ⟨rfl, rfl⟩) fun _ => Act.uses_modify _

theorem ofUpkeep_reconcilePendingRecoveries (now : Int) :
    OfUpkeep (reconcilePendingRecoveries now) :=
  .andThen Act.uses_get fun _ => .andThen (Act.uses_perform ⟨rfl, rfl⟩) fun order =>
    .forEach (ofUpkeep_observePending now) order.1

theorem ofUpkeep_saveState : OfUpkeep saveState :=
  .andThen Act.uses_get fun _ => .andThen (Act.uses_perform ⟨rfl, rfl⟩) Act.uses_ofExcept

theorem ofUpkeep_flushEvents : OfUpkeep flushEvents := by
  refine .andThen Act.uses_get fun p => Act.uses_ite ?_ (Act.uses_ret ())
  exact .andThen (Act.uses_perform ⟨rfl, rfl⟩) fun _ => Act.uses_ret ()

theorem ofUpkeep_sendRecovery (now : Int) (d : Due) : OfUpkeep (sendRecovery now d) := by
  refine .andThen (Act.uses_modify _) fun _ => .andThen ofUpkeep_saveState fun _ => ?_
  refine .andThen (Act.uses_perform ⟨rfl, rfl⟩) fun answer =>
    .andThen (Act.uses_modify _) fun _ => ?_
  have hend : OfUpkeep (do
      Act.modify fun p => p.push (d.settleEvent now answer)
      flushEvents
      Act.modify fun p => { p with persistedEvents := p.events.length }) :=
    .andThen (Act.uses_modify _) fun _ => .andThen ofUpkeep_flushEvents fun _ =>
      Act.uses_modify _
  refine Act.uses_ite (.andThen Act.uses_get fun p => ?_) hend
  exact .andThen (Act.uses_perform ⟨rfl, rfl⟩) fun _ => hend

theorem ofEngine_resumeTarget (now : Int) (generation : Nat) (d : Due) :
    OfEngine (resumeTarget now generation d) := by
  refine .andThen (Act.uses_perform rfl) fun allowed => Act.uses_ite (Act.uses_modify _) ?_
  refine .andThen (Act.uses_perform rfl) fun latest => .andThen (Act.uses_ofExcept _) fun _ => ?_
  refine .andThen (Act.uses_perform rfl) fun allowed => Act.uses_ite (Act.uses_modify _) ?_
  refine Act.uses_ite (Act.uses_modify _) ?_
  refine .andThen (Act.uses_perform rfl) fun _ => .closing ?_ fun _ => ⟨rfl, fun _ => trivial⟩
  exact .andThen (Act.uses_perform rfl) fun allowed =>
    Act.uses_ite (Act.uses_modify _) (ofUpkeep_sendRecovery now d).ofEngine

theorem ofEngine_retryFailure (now : Int) (generation : Nat) (target : WatchTarget)
    (failure : Failure) (policy : ResolvedPolicy) :
    OfEngine (retryFailure now generation target failure policy) := by
  refine .andThen (Act.uses_update _) fun _ => .andThen Act.uses_get fun _ => ?_
  refine .andThen (Act.uses_ofExcept _) fun _ => .andThen (Act.uses_update _) fun _ => ?_
  refine Act.uses_ite (Act.uses_modify _) (.andThen Act.uses_get fun _ => ?_)
  refine .andThen (Act.uses_ofExcept _) fun _ => ?_
  refine Act.uses_ite (Act.uses_modify _) (.andThen Act.uses_get fun _ => ?_)
  exact Act.uses_ite (Act.uses_modify _) (ofEngine_resumeTarget now generation _)

theorem ofEngine_handleFailure (now : Int) (generation : Nat) (target : WatchTarget)
    (failure : Failure) : OfEngine (handleFailure now generation target failure) := by
  refine .andThen Act.uses_get fun p => Act.uses_ite (Act.uses_ret ()) ?_
  exact Act.uses_ite (Act.uses_modify _) (ofEngine_retryFailure now generation target failure _)

theorem ofEngine_passTarget (now : Int) (generation : Nat) (target : WatchTarget) :
    OfEngine (passTarget now generation target) := by
  refine .andThen (Act.uses_perform rfl) fun allowed => Act.uses_ite (Act.uses_ret ()) ?_
  refine .andThen Act.uses_get fun p => Act.uses_ite (Act.uses_modify _) ?_
  refine .andThen (Act.uses_perform rfl) fun latest => ?_
  split
  · exact Act.uses_modify _
  · exact Act.uses_modify _
  · exact .andThen (Act.uses_modify _) fun _ => ofEngine_handleFailure now generation target _

theorem ofEngine_runOnceAuthorized (now : Int) (generation : Nat) :
    OfEngine (runOnceAuthorized now generation) := by
  refine .andThen (Act.uses_modify _) fun _ =>
    .andThen (ofUpkeep_reconcilePendingRecoveries now).ofEngine fun _ =>
      .andThen Act.uses_get fun p => ?_
  refine .andThen (.forEach (ofEngine_passTarget now generation) _) fun _ =>
    .andThen Act.uses_get fun _ => .andThen (Act.uses_perform rfl) fun _ => ?_
  exact .andThen ofUpkeep_flushEvents.ofEngine fun _ =>
    .andThen Act.uses_get fun _ => Act.uses_ret _

/-! ## Upkeep -/

theorem ofUpkeep_buildProvider (settings : ProviderSettings) (name : String) :
    OfUpkeep (buildProvider settings name : Method σ Unit) := by
  have hnew : OfUpkeep (do Act.ofExcept (← perform (.newProvider name)) : Method σ Unit) :=
    .andThen (Act.uses_perform ⟨rfl, rfl⟩) Act.uses_ofExcept
  refine Act.uses_ite (Act.uses_ite hnew (Act.uses_fail _)) ?_
  exact Act.uses_ite (Act.uses_ite hnew (Act.uses_fail _)) (Act.uses_fail _)

theorem ofUpkeep_ensureProvider (provider : String) : OfUpkeep (ensureProvider provider) := by
  refine .andThen Act.uses_get fun e => Act.uses_ite (Act.uses_ret ()) ?_
  refine .andThen (ofUpkeep_buildProvider _ provider) fun _ => ?_
  refine .andThen (Act.uses_perform ⟨rfl, rfl⟩) fun r => .andThen (Act.uses_ofExcept r) fun _ => ?_
  exact Act.uses_modify _

theorem ofUpkeep_closeEngine : OfUpkeep closeEngine := by
  refine .andThen Act.uses_get fun e => .andThen (Act.uses_perform ⟨rfl, rfl⟩) fun order => ?_
  refine .forEach (fun name => ?_) order.1
  exact .andThen (Act.uses_perform ⟨rfl, rfl⟩) fun _ => Act.uses_ret ()

theorem ofUpkeep_replaceSettings (settings : Settings) : OfUpkeep (replaceSettings settings) := by
  refine .andThen Act.uses_get fun e => Act.uses_ite ?_ (Act.uses_modify _)
  exact .andThen ofUpkeep_closeEngine fun _ => .andThen (Act.uses_modify _) fun _ =>
    Act.uses_modify _

theorem ofUpkeep_replaceWatchTargets (targets : List WatchTarget) :
    OfUpkeep (replaceWatchTargets targets) := Act.uses_modify _

/-! ## Manual retries -/

theorem ofUpkeep_sendManualRetry (now : Int) (automatic : Bool) (d : Due) :
    OfUpkeep (sendManualRetry now automatic d) := by
  refine .andThen (Act.uses_modify _) fun _ => .andThen Act.uses_get fun _ => ?_
  refine .andThen (Act.uses_perform ⟨rfl, rfl⟩) fun r => .andThen (Act.uses_ofExcept r) fun _ => ?_
  refine .andThen Act.uses_get fun e => Act.uses_ite (Act.uses_fail _) ?_
  refine .andThen (Act.uses_perform ⟨rfl, rfl⟩) fun answer =>
    .andThen (Act.uses_modify _) fun _ => ?_
  refine Act.uses_ite (.andThen Act.uses_get fun _ => ?_) (Act.uses_ofExcept _)
  refine .andThen (Act.uses_perform ⟨rfl, rfl⟩) fun _ => .andThen Act.uses_get fun _ => ?_
  exact .andThen (Act.uses_perform ⟨rfl, rfl⟩) fun _ => Act.uses_ofExcept _

theorem ofEngine_retryFailureNow (now : Int) (automatic : Bool) (generation : Nat)
    (target : WatchTarget) (failure : Failure) :
    OfEngine (retryFailureNow now automatic generation target failure) := by
  refine .andThen Act.uses_get fun e => Act.uses_ite (Act.uses_fail _) ?_
  refine .andThen Act.uses_get fun _ => .andThen (Act.uses_ofExcept _) fun _ => ?_
  refine .andThen (Act.uses_update _) fun _ => Act.uses_ite (Act.uses_fail _) ?_
  refine .andThen (Act.uses_perform rfl) fun _ => .closing ?_ fun _ => ⟨rfl, fun _ => trivial⟩
  exact .andThen (Act.uses_perform rfl) fun allowed =>
    Act.uses_ite (Act.uses_fail _) (ofUpkeep_sendManualRetry now automatic _).ofEngine

theorem ofEngine_retryNow (providerName sessionId : String) (now : Int) (automatic : Bool)
    (generation : Nat) : OfEngine (retryNow providerName sessionId now automatic generation) := by
  refine .andThen Act.uses_get fun e => ?_
  split
  · exact Act.uses_fail _
  · refine .andThen (Act.uses_perform rfl) fun allowed => Act.uses_ite (Act.uses_fail _) ?_
    refine Act.uses_ite (Act.uses_fail _) (.andThen (Act.uses_perform rfl) fun r => ?_)
    refine .andThen (Act.uses_ofExcept r) fun latest => ?_
    split
    · exact Act.uses_fail _
    · exact .andThen (Act.uses_modify _) fun _ =>
        ofEngine_retryFailureNow now automatic generation _ _

end Watchcat
