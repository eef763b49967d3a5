import Watchcat.Engine.Times

/-!
# Dry runs

A pass of a dry-run engine stops before it sends. A manual retry does not look
at the flag, so an engine that was asked for one sends all the same; apart from
that a dry run makes no resume call.
-/

namespace Watchcat

open Watchcat.Core Method

/-! ## The flag is never changed -/

/-- The engines have the same flag. -/
def SameFlag (e e' : WatchEngine) : Prop := e'.dryRun = e.dryRun

theorem SameFlag.refl (e : WatchEngine) : SameFlag e e := rfl

/-- The method leaves the flag. -/
abbrev KeepsDryRun {α : Type} (m : Method WatchEngine α) : Prop := m.Moves SameFlag

section KeepsDryRun

variable {α β : Type}

theorem keepsDryRun_andThen {m : Method WatchEngine α} {f : α → Method WatchEngine β}
    (hm : KeepsDryRun m) (hf : ∀ a, KeepsDryRun (f a)) : KeepsDryRun (Act.andThen m f) :=
  Act.Moves.andThen hm hf id fun h h' => Eq.trans h' h

theorem keepsDryRun_perform (op : Call) : KeepsDryRun (perform op) :=
  Act.moves_perform SameFlag.refl op

theorem keepsDryRun_get : KeepsDryRun (Act.get : Method WatchEngine WatchEngine) :=
  Act.moves_get .refl

theorem keepsDryRun_ret (a : α) : KeepsDryRun (Act.ret a) := Act.moves_ret .refl a

theorem keepsDryRun_fail (e : Error) : KeepsDryRun (Act.fail e : Method WatchEngine α) :=
  Act.moves_fail .refl e

theorem keepsDryRun_ofExcept (r : Except Error α) : KeepsDryRun (Act.ofExcept r) :=
  Act.moves_ofExcept .refl r

end KeepsDryRun

theorem keepsDryRun_closeEngine : KeepsDryRun closeEngine := by
  refine keepsDryRun_andThen keepsDryRun_get fun e => ?_
  refine keepsDryRun_andThen (keepsDryRun_perform _) fun order => ?_
  refine Act.Moves.forEach SameFlag.refl (fun h h' => Eq.trans h' h) (fun name => ?_) order.1
  exact keepsDryRun_andThen (keepsDryRun_perform _) fun _ => keepsDryRun_ret ()

theorem keepsDryRun_replaceSettings (settings : Settings) :
    KeepsDryRun (replaceSettings settings) := by
  have hreplaced : KeepsDryRun (Act.modify fun e : WatchEngine =>
      { e with eventLog := settings.engine.logRetention, settings := settings }) :=
    Act.moves_modify fun _ => rfl
  have hcleared : KeepsDryRun (Act.modify fun e : WatchEngine => { e with providers := ∅ }) :=
    Act.moves_modify fun _ => rfl
  refine keepsDryRun_andThen keepsDryRun_get fun e => Act.moves_ite ?_ hreplaced
  refine keepsDryRun_andThen keepsDryRun_closeEngine fun _ => ?_
  exact keepsDryRun_andThen hcleared fun _ => hreplaced

theorem keepsDryRun_buildProvider (settings : ProviderSettings) (name : String) :
    KeepsDryRun (buildProvider settings name) := by
  have hnew : KeepsDryRun (do Act.ofExcept (← perform (.newProvider name))) :=
    keepsDryRun_andThen (keepsDryRun_perform _) keepsDryRun_ofExcept
  refine Act.moves_ite (Act.moves_ite hnew (keepsDryRun_fail _)) ?_
  exact Act.moves_ite (Act.moves_ite hnew (keepsDryRun_fail _)) (keepsDryRun_fail _)

theorem keepsDryRun_ensureProvider (provider : String) :
    KeepsDryRun (ensureProvider provider) := by
  refine keepsDryRun_andThen keepsDryRun_get fun e => Act.moves_ite (keepsDryRun_ret ()) ?_
  refine keepsDryRun_andThen (keepsDryRun_buildProvider _ provider) fun _ => ?_
  refine keepsDryRun_andThen (keepsDryRun_perform _) fun r => ?_
  exact keepsDryRun_andThen (keepsDryRun_ofExcept r) fun _ => Act.moves_modify fun _ => rfl

/-- No operation changes the flag. -/
theorem OpRecord.Executes.sameFlag {record : OpRecord} {e' : WatchEngine}
    (h : record.Executes e') : e'.dryRun = record.before.dryRun := by
  cases h with
  | pass _ hrounds =>
    obtain ⟨hseen, hrounds, _⟩ := hrounds
    exact (hseen.frame.trans (passRounds_frame hrounds)).dryRun
  | observe hr =>
    obtain ⟨_, _, _, _, hseen⟩ := reconcilePendingOnly_run hr
    exact hseen.frame.dryRun
  | retryNow hr => exact ((retried_retryNow _ _ _ 0 _ _).returns hr).1.dryRun
  | replaceSettings hr => exact (keepsDryRun_replaceSettings _).returns hr
  | replaceTargets => rfl
  | ensureProvider hr => exact (keepsDryRun_ensureProvider _).returns hr

/-! ## A manual retry that gets through -/

/-- The manual retry passes all its guards: the session is watched and allowed, before and inside
the send boundary, its provider is there and reports a failed latest turn, the policy retries it,
an attempt is left and could be saved. -/
def RetryPasses (providerName sessionId : String) (now : Int) (generation : Nat) (e : WatchEngine)
    (calls : List (Prog.Event Reply)) : Prop :=
  ∃ t f rest,
    e.targets.find? (fun t => t.provider == providerName && t.sessionId == sessionId) = some t ∧
    providerName ∈ e.providers ∧ (e.settings.policy f.condition).action = .retry ∧
    (e.state.recentAttempts t now e.window).1 < (e.settings.policy f.condition).maxAttempts ∧
    calls = [⟨.permitAllows t generation, true⟩,
      ⟨.latestFailure providerName sessionId, .ok (some f)⟩, ⟨.enterSendBoundary, ()⟩,
      ⟨.permitAllows t generation, true⟩,
      ⟨.writeState ((e.state.recentAttempts t now e.window).2.recordAttempt t now), .ok ()⟩] ++ rest

section RetryPasses

variable {providerName sessionId : String} {now : Int} {generation : Nat} {e : WatchEngine}

/-- A retry that made fewer calls, or got another answer, did not pass. -/
theorem not_retryPasses {calls : List (Prog.Event Reply)}
    (h : ∀ t f rest, calls ≠ [⟨.permitAllows t generation, true⟩,
      ⟨.latestFailure providerName sessionId, .ok (some f)⟩, ⟨.enterSendBoundary, ()⟩,
      ⟨.permitAllows t generation, true⟩,
      ⟨.writeState ((e.state.recentAttempts t now e.window).2.recordAttempt t now), .ok ()⟩] ++
        rest) : ¬RetryPasses providerName sessionId now generation e calls := by
  rintro ⟨t, f, rest, _, _, _, _, hcalls⟩
  exact h t f rest hcalls

/-- What is left once the failure is known: the retry passes if the remaining guards let it. -/
theorem retryFailureNow_resumes_iff {automatic : Bool} {t : WatchTarget} {f : Failure}
    (hfind : e.targets.find? (fun t => t.provider == providerName && t.sessionId == sessionId) =
      some t) (hprovider : providerName ∈ e.providers) :
    (retryFailureNow now automatic generation t f).Follows (Monitor.history Reply)
      [⟨.permitAllows t generation, true⟩,
        ⟨.latestFailure providerName sessionId, .ok (some f)⟩]
      { e with unresolvedTargets := insert t.key e.unresolvedTargets } fun tr _ _ =>
        (resumes tr ≠ [] ↔ RetryPasses providerName sessionId now generation e tr) := by
  have ht : t.provider = providerName := by
    have hfound := List.find?_some hfind
    rw [Bool.and_eq_true, beq_iff_eq] at hfound
    exact hfound.1
  have hrefused : ∀ {tr : List (Prog.Event Reply)}, resumes tr = [] →
      ¬RetryPasses providerName sessionId now generation e tr →
        (resumes tr ≠ [] ↔ RetryPasses providerName sessionId now generation e tr) :=
    fun hquiet hnot => iff_of_false (fun hne => hne hquiet) hnot
  simp only [retryFailureNow, sendManualRetry, Act.bind_eq, perform, Act.follows_andThen,
    Act.follows_get, Act.follows_perform, Act.follows_ite, Act.follows_fail, Act.follows_update,
    Act.follows_modify, Act.follows_ofExcept, Act.follows_closing, follows_orPanic,
    Monitor.history, true_and]
  refine ⟨fun _ => hrefused rfl (not_retryPasses (by simp)), fun haction => ?_⟩
  refine ⟨fun _ => hrefused rfl (not_retryPasses (by simp)), fun _ _ => ?_⟩
  refine ⟨fun _ => hrefused rfl (not_retryPasses (by simp)), fun hlimit _ allowed => ?_⟩
  refine ⟨fun hdenied => ⟨trivial, fun _ => hrefused rfl (not_retryPasses ?_)⟩, fun hallowed => ?_⟩
  · intro u g rest heq
    simp at heq
  simp only [Bool.not_eq_true', Bool.not_eq_false] at hallowed
  subst hallowed
  intro saved
  cases saved with
  | error err =>
    refine ⟨trivial, fun _ => hrefused rfl (not_retryPasses fun u g rest heq => ?_)⟩
    simp at heq
  | ok _ =>
    have hpasses : ∀ rest, RetryPasses providerName sessionId now generation e
        ([⟨.permitAllows t generation, true⟩,
          ⟨.latestFailure providerName sessionId, .ok (some f)⟩, ⟨.enterSendBoundary, ()⟩,
          ⟨.permitAllows t generation, true⟩,
          ⟨.writeState ((e.state.recentAttempts t now e.window).2.recordAttempt t now), .ok ()⟩] ++
          rest) := fun rest =>
      ⟨t, f, rest, hfind, hprovider, not_not.mp haction, Nat.lt_of_not_le hlimit, rfl⟩
    refine ⟨fun hmissing => absurd (ht ▸ hprovider) hmissing, fun _ answer => ?_⟩
    have hsent : ∀ rest, resumes ([⟨.permitAllows t generation, true⟩,
        ⟨.latestFailure providerName sessionId, .ok (some f)⟩, ⟨.enterSendBoundary, ()⟩,
        ⟨.permitAllows t generation, true⟩,
        ⟨.writeState ((e.state.recentAttempts t now e.window).2.recordAttempt t now), .ok ()⟩] ++
        ⟨.resume t.provider t.sessionId (renderPrompt (e.settings.policy f.condition).prompt f
          ((e.state.recentAttempts t now e.window).1 + 1)
          (e.settings.policy f.condition).maxAttempts) f.key, answer⟩ :: rest) ≠ [] := by
      intro rest hnil
      simp [resumes_cons, Call.isResume] at hnil
    refine ⟨fun _ resaved logged => ?_, fun _ => ?_⟩
    · cases answer with
      | ok receipt => exact ⟨trivial, fun _ => iff_of_true (hsent _) (hpasses _)⟩
      | error err => exact ⟨trivial, fun _ => iff_of_true (hsent _) (hpasses _)⟩
    · cases answer with
      | ok receipt => exact ⟨trivial, fun _ => iff_of_true (hsent _) (hpasses _)⟩
      | error err => exact ⟨trivial, fun _ => iff_of_true (hsent _) (hpasses _)⟩

/-- A manual retry makes its resume call if and only if it passes its guards. -/
theorem retryNow_resumes_iff {automatic : Bool} {e' : WatchEngine} {tr : List (Prog.Event Reply)}
    {r : Except Error ResumeReceipt}
    (h : (retryNow providerName sessionId now automatic generation).Returns e tr r e') :
    resumes tr ≠ [] ↔ RetryPasses providerName sessionId now generation e tr := by
  refine Act.Follows.of_history (Q := fun tr _ _ => resumes tr ≠ [] ↔
    RetryPasses providerName sessionId now generation e tr) ?_ h
  have hrefused : ∀ {tr : List (Prog.Event Reply)}, resumes tr = [] →
      ¬RetryPasses providerName sessionId now generation e tr →
        (resumes tr ≠ [] ↔ RetryPasses providerName sessionId now generation e tr) :=
    fun hquiet hnot => iff_of_false (fun hne => hne hquiet) hnot
  simp only [retryNow, Act.bind_eq, Act.follows_andThen, Act.follows_get]
  split
  · exact hrefused rfl (not_retryPasses (by simp))
  rename_i t hfind
  simp only [perform, Act.follows_andThen, Act.follows_perform, Act.follows_ite,
    Act.follows_fail, Act.follows_ofExcept, Monitor.history, true_and, List.nil_append]
  refine fun allowed => ⟨fun _ => hrefused rfl (not_retryPasses (by simp)), fun hallowed => ?_⟩
  simp only [Bool.not_eq_true', Bool.not_eq_false] at hallowed
  subst hallowed
  refine ⟨fun _ => hrefused rfl (not_retryPasses (by simp)), fun hmissing latest => ?_⟩
  rcases latest with err | (_ | f)
  · exact hrefused rfl (not_retryPasses (by simp))
  · exact hrefused rfl (not_retryPasses (by simp))
  · exact retryFailureNow_resumes_iff hfind (not_not.mp hmissing)

end RetryPasses

/-- The operation is a manual retry that passes its guards. -/
def OpRecord.RetryPasses (record : OpRecord) : Prop :=
  match record.op with
  | .retryNow providerName sessionId now _ generation =>
    Watchcat.RetryPasses providerName sessionId now generation record.before record.calls
  | _ => False

/-! ## Runs -/

/-- The flag is the same before every operation of a run. -/
theorem EngineRun.sameFlag {e₀ e : WatchEngine} {log : List OpRecord} (h : EngineRun e₀ log e) :
    e.dryRun = e₀.dryRun ∧ ∀ record ∈ log, record.before.dryRun = e₀.dryRun := by
  induction h with
  | nil => exact ⟨rfl, fun _ hmem => absurd hmem List.not_mem_nil⟩
  | snoc _ hb hx ih =>
    obtain ⟨hend, hall⟩ := ih
    subst hb
    refine ⟨hx.sameFlag.trans hend, fun record hmem => ?_⟩
    rcases List.mem_append.mp hmem with hmem | hmem
    · exact hall record hmem
    · obtain rfl := List.mem_singleton.mp hmem
      exact hend

/-- The rounds of a dry run resume nothing. -/
theorem dryRounds_quiet {now : Int} {generation : Nat} {ts : List WatchTarget} {p p' : Pass}
    {rounds : List TargetRecord} {r : Except Error Unit}
    (h : Act.Rounds (passTarget now generation) ts p rounds r p')
    (hdry : p.engine.dryRun = true) : resumes (rounds.flatMap Act.Round.calls) = [] := by
  have hround : ∀ {t : WatchTarget} {q q' : Pass} {tr : List (Prog.Event Reply)}
      {r : Except Error Unit}, (passTarget now generation t).Returns q tr r q' →
        q.engine.dryRun = true → resumes tr = [] := fun hb hq => by
    rcases passTarget_sends hb with hquiet | ⟨d, latest, answer, post, hsends⟩
    · exact hquiet
    · rw [hsends.ready.live] at hq
      cases hq
  induction h with
  | done => rfl
  | failed hb => simpa using hround hb hdry
  | next hb _ ih =>
    have hnext := (passTarget_round hb).extends.dryRun
    rw [List.flatMap_cons, resumes_append, hround hb hdry, ih (hnext.trans hdry)]
    rfl

/-- An operation of a dry-run engine resumes nothing unless it is a manual retry that passes. -/
theorem OpRecord.Executes.quiet_iff {record : OpRecord} {e' : WatchEngine}
    (h : record.Executes e') (hdry : record.before.dryRun = true) :
    resumes record.calls = [] ↔ ¬record.RetryPasses := by
  cases h with
  | pass _ hrounds =>
    obtain ⟨hseen, hrounds, hpost⟩ := hrounds
    refine iff_of_true ?_ id
    rw [resumes_append, resumes_append, hseen.quiet, hpost,
      dryRounds_quiet hrounds (hseen.frame.dryRun.trans hdry)]
    rfl
  | observe hr =>
    obtain ⟨_, _, rfl, hpost, hseen⟩ := reconcilePendingOnly_run hr
    refine iff_of_true ?_ id
    rw [resumes_append, hseen.quiet, hpost]
    rfl
  | retryNow hr => exact (not_iff_comm.mp (retryNow_resumes_iff hr)).symm
  | replaceSettings hr =>
    exact iff_of_true ((replaceSettings_upkeep _ [] _).of_history hr).1 id
  | replaceTargets => exact iff_of_true rfl id
  | ensureProvider hr =>
    exact iff_of_true ((ensureProvider_upkeep _ [] _).of_history hr).1 id

/-- A run of a dry-run engine makes no resume call if and only if no manual retry passes its
guards. -/
theorem dry_run_silent_iff {e₀ e : WatchEngine} {log : List OpRecord} (h : EngineRun e₀ log e)
    (hdry : e₀.dryRun = true) :
    (∀ record ∈ log, resumes record.calls = []) ↔ ∀ record ∈ log, ¬record.RetryPasses := by
  refine forall₂_congr fun record hmem => ?_
  obtain ⟨e', hx⟩ := h.executes record hmem
  exact hx.quiet_iff ((h.sameFlag.2 record hmem).trans hdry)

/-- An engine that watches the session and sends nothing. -/
def dryEngine : WatchEngine := .new {} {"codex"} [sampleTarget] .initial 10000 true

/-- The session has failed and would be resumed. -/
def failedSession : SampleProvider where
  latest := some (sampleFailure "t")
  resumed := .ok (sampleReceipt "r")

/-- A manual retry resumes the session of a dry-run engine. -/
theorem dry_run_sends : ∃ (log : List OpRecord) (e : WatchEngine), EngineRun dryEngine log e ∧
    dryEngine.dryRun = true ∧ ∃ record ∈ log, resumes record.calls ≠ [] := by
  refine ⟨_, _, .snoc (.nil dryEngine) rfl (failedSession.retry_executes 0 dryEngine), rfl, _,
    List.mem_singleton.mpr rfl, ?_⟩
  decide

/-- The failure is looked at twice, the second time when it is due. -/
theorem dry_run_silent_passes : ∃ (log : List OpRecord) (e : WatchEngine),
    EngineRun dryEngine log e ∧ log.length = 2 ∧ ∀ record ∈ log, resumes record.calls = [] := by
  obtain ⟨log, hrun, hlog⟩ := SampleProvider.run_passes
    [(0, failedSession), (seconds 10, failedSession)] (.nil dryEngine)
  have hops : log.map (fun record => record.op) = [.pass 0 0, .pass (seconds 10) 0] := by
    have hmapped := congrArg (List.map Prod.fst) hlog
    rw [List.map_map] at hmapped
    exact hmapped
  refine ⟨log, _, hrun, by simpa using congrArg List.length hops,
    (dry_run_silent_iff hrun rfl).mpr fun record hmem => ?_⟩
  have hop : record.op ∈ [EngineOp.pass 0 0, .pass (seconds 10) 0] :=
    hops ▸ List.mem_map_of_mem hmem
  unfold OpRecord.RetryPasses
  rcases List.mem_cons.mp hop with hop | hop
  · rw [hop]
    exact id
  · rw [List.mem_singleton.mp hop]
    exact id

end Watchcat
