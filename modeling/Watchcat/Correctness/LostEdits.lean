import Watchcat.Correctness.HotReload

/-!
# External edits under a change of the configuration

A request changes the settings the daemon has, not the ones the file has by
then. The two give the same file exactly where they agree on everything the
request does not name.
-/

namespace Watchcat

open Watchcat.Core ConfigFile

/-! ## Changes of two configurations -/

/-- Two configurations are written alike: maps are written in key order. -/
structure Settings.Same (s c : Settings) : Prop where
  version : s.version = c.version
  engine : s.engine = c.engine
  lifecycle : s.lifecycle = c.lifecycle
  providers : s.providers = c.providers
  policies : ∀ condition, s.policies.lookup condition = c.policies.lookup condition
  dialogs : ∀ name, s.dialogs.rules.lookup name = c.dialogs.rules.lookup name

/-- Two overrides agree on the fields that a policy leaves unset; a skip sets them all. -/
structure PolicyOverride.AgreesUnder (policy e e' : PolicyOverride) : Prop where
  action : policy.action = none → e.action = e'.action
  backoff : policy.backoff = none → e.backoff = e'.backoff
  initialDelay : policy.initialDelaySeconds = none → e.initialDelaySeconds = e'.initialDelaySeconds
  maxDelay : policy.maxDelaySeconds = none → e.maxDelaySeconds = e'.maxDelaySeconds
  maxAttempts : policy.maxAttempts = none → e.maxAttempts = e'.maxAttempts
  prompt : policy.prompt = none → e.prompt = e'.prompt

/-- Two configurations agree on the policies of the given conditions. -/
def Settings.SamePolicies (s c : Settings) (conditions : String → Prop) : Prop :=
  ∀ condition, conditions condition →
    s.policies.lookup condition = c.policies.lookup condition

/-- Two configurations have the same window rules. -/
def Settings.SameDialogs (s c : Settings) : Prop :=
  ∀ name, s.dialogs.rules.lookup name = c.dialogs.rules.lookup name

/-- Two configurations agree on the sections no request changes. -/
structure Settings.SameFixed (s c : Settings) : Prop where
  version : s.version = c.version
  engine : s.engine = c.engine
  providers : s.providers = c.providers

/-- Two configurations agree on everything that a change does not name. -/
def ConfigChange.Agrees : ConfigChange → Settings → Settings → Prop
  | .setPolicy name policy, s, c => s.SameFixed c ∧ s.lifecycle = c.lifecycle ∧
      s.SameDialogs c ∧ s.SamePolicies c (· ≠ name) ∧ (policy.action ≠ some .skip →
        policy.AgreesUnder ((s.policies.lookup name).getD {}) ((c.policies.lookup name).getD {}))
  | .resetPolicy name, s, c => s.SameFixed c ∧ s.lifecycle = c.lifecycle ∧ s.SameDialogs c ∧
      s.SamePolicies c (· ≠ name)
  | .resetPolicies, s, c => s.SameFixed c ∧ s.lifecycle = c.lifecycle ∧ s.SameDialogs c
  | .setDialogs _, s, c => s.SameFixed c ∧ s.lifecycle = c.lifecycle ∧
      s.SamePolicies c fun _ => True
  | .setLifecycle _, s, c => s.SameFixed c ∧ s.SameDialogs c ∧ s.SamePolicies c fun _ => True

theorem or_eq_or_iff {α : Type} {a b b' : Option α} : a.or b = a.or b' ↔ (a = none → b = b') := by
  cases a with
  | none => simp
  | some a => simp

/-- Merging a policy gives the same override exactly where the fields it leaves unset agree. -/
theorem merge_eq_merge_iff {policy e e' : PolicyOverride} : e.merge policy = e'.merge policy ↔
    (policy.action ≠ some .skip → policy.AgreesUnder e e') := by
  by_cases hskip : policy.action = some .skip
  · simp [PolicyOverride.merge, hskip]
  · simp only [PolicyOverride.merge, if_neg hskip, PolicyOverride.mk.injEq, or_eq_or_iff]
    exact ⟨fun ⟨h₁, h₂, h₃, h₄, h₅, h₆⟩ _ => ⟨h₁, h₂, h₃, h₄, h₅, h₆⟩,
      fun h => ⟨(h hskip).1, (h hskip).2, (h hskip).3, (h hskip).4, (h hskip).5, (h hskip).6⟩⟩

/-- Writing one key gives the same map exactly where the values and the other keys agree. -/
theorem lookup_insert_same_iff {β : Type} {t t' : Table String β} {key : String} {b b' : β} :
    (∀ k, (t.insert key b).lookup k = (t'.insert key b').lookup k) ↔
      b = b' ∧ ∀ k, k ≠ key → t.lookup k = t'.lookup k := by
  constructor
  · intro h
    refine ⟨?_, fun k hk => ?_⟩
    · simpa using h key
    · simpa [Table.lookup_insert, hk] using h k
  · rintro ⟨rfl, h⟩ k
    by_cases hk : k = key
    · simp [hk]
    · simpa [Table.lookup_insert, hk] using h k hk

theorem lookup_erase_same_iff {β : Type} {t t' : Table String β} {key : String} :
    (∀ k, (t.erase key).lookup k = (t'.erase key).lookup k) ↔
      ∀ k, k ≠ key → t.lookup k = t'.lookup k := by
  constructor
  · intro h k hk
    simpa [Table.lookup_erase, hk] using h k
  · intro h k
    by_cases hk : k = key
    · simp [Table.lookup_erase, hk]
    · simpa [Table.lookup_erase, hk] using h k hk

/-- A change gives the same file for two configurations that agree on what it does not name, and
only for those. -/
theorem apply_same_iff (change : ConfigChange) (s c : Settings) :
    (change.apply s).Same (change.apply c) ↔ change.Agrees s c := by
  cases change with
  | setPolicy name policy =>
    have hpolicies : (∀ k, ((ConfigChange.setPolicy name policy).apply s).policies.lookup k =
        ((ConfigChange.setPolicy name policy).apply c).policies.lookup k) ↔
          ((s.policies.lookup name).getD {}).merge policy =
            ((c.policies.lookup name).getD {}).merge policy ∧ s.SamePolicies c (· ≠ name) :=
      lookup_insert_same_iff
    rw [merge_eq_merge_iff] at hpolicies
    constructor
    · intro h
      obtain ⟨hentry, hothers⟩ := hpolicies.mp h.policies
      exact ⟨⟨h.version, h.engine, h.providers⟩, h.lifecycle, h.dialogs, hothers, hentry⟩
    · rintro ⟨hfixed, hlifecycle, hdialogs, hothers, hentry⟩
      exact ⟨hfixed.version, hfixed.engine, hlifecycle, hfixed.providers,
        hpolicies.mpr ⟨hentry, hothers⟩, hdialogs⟩
  | resetPolicy name =>
    constructor
    · intro h
      exact ⟨⟨h.version, h.engine, h.providers⟩, h.lifecycle, h.dialogs,
        lookup_erase_same_iff.mp h.policies⟩
    · rintro ⟨hfixed, hlifecycle, hdialogs, hothers⟩
      exact ⟨hfixed.version, hfixed.engine, hlifecycle, hfixed.providers,
        lookup_erase_same_iff.mpr hothers, hdialogs⟩
  | resetPolicies =>
    constructor
    · exact fun h => ⟨⟨h.version, h.engine, h.providers⟩, h.lifecycle, h.dialogs⟩
    · rintro ⟨hfixed, hlifecycle, hdialogs⟩
      exact ⟨hfixed.version, hfixed.engine, hlifecycle, hfixed.providers, fun _ => rfl, hdialogs⟩
  | setDialogs dialogs =>
    constructor
    · exact fun h => ⟨⟨h.version, h.engine, h.providers⟩, h.lifecycle,
        fun condition _ => h.policies condition⟩
    · rintro ⟨hfixed, hlifecycle, hpolicies⟩
      exact ⟨hfixed.version, hfixed.engine, hlifecycle, hfixed.providers,
        fun condition => hpolicies condition trivial, fun _ => rfl⟩
  | setLifecycle lifecycle =>
    constructor
    · exact fun h => ⟨⟨h.version, h.engine, h.providers⟩, h.dialogs,
        fun condition _ => h.policies condition⟩
    · rintro ⟨hfixed, hdialogs, hpolicies⟩
      exact ⟨hfixed.version, hfixed.engine, rfl, hfixed.providers,
        fun condition => hpolicies condition trivial, hdialogs⟩

/-! ## A change while the file is edited -/

/-- Edits show in the history and nowhere else. -/
theorem Edits.history {f f' : ConfigFile} (h : Edits f f') :
    ∃ es, f'.history = f.history ++ es ∧ ∀ e ∈ es, e = .edited := by
  induction h with
  | refl => exact ⟨[], (List.append_nil _).symm, nofun⟩
  | tail _ hedit ih =>
    obtain ⟨content, m, rfl⟩ := hedit
    obtain ⟨es, hes, hall⟩ := ih
    refine ⟨es ++ [.edited], by simp [ConfigFile.written, hes], fun e he => ?_⟩
    rcases List.mem_append.mp he with he | he
    · exact hall e he
    · exact List.mem_singleton.mp he

/-- The file a change has stored, in the history of the file. -/
theorem Passes.stored {f f' : ConfigFile} {settings : Settings} {modified : Option Int}
    (h : Passes f [⟨.writeConfig settings, .ok ()⟩, ⟨.configModified, modified⟩] f') :
    ∃ replaced earlier later,
      f'.history = f.history ++ earlier ++ .stored settings replaced :: later ∧
      ∀ e ∈ earlier ++ later, e = .edited ∨ e = .stamped := by
  obtain ⟨f₁, _, h₁, ⟨k, rfl⟩, f₃, _, h₂, ⟨_, rfl⟩, h₃⟩ := h
  obtain ⟨es₁, hes₁, hall₁⟩ := Edits.history h₁
  obtain ⟨es₂, hes₂, hall₂⟩ := Edits.history h₂
  obtain ⟨es₃, hes₃, hall₃⟩ := Edits.history h₃
  refine ⟨f₁.content, es₁, es₂ ++ .stamped :: es₃, ?_, fun e he => ?_⟩
  · simp [hes₃, ConfigFile.noted, hes₂, ConfigFile.written, hes₁]
  · simp only [List.mem_append, List.mem_cons] at he
    rcases he with he | he | he | he
    · exact .inl (hall₁ e he)
    · exact .inl (hall₂ e he)
    · exact .inr he
    · exact .inl (hall₃ e he)

/-- A successful change of the configuration stores one file. It is the change of the configuration
that was in the file just before, exactly where this one and the active settings agree on everything
the change does not name. -/
theorem change_applied_iff {t : Tid} {w w' : World} {d d' : WatchcatDaemon} {request : RpcRequest}
    {calls : List (Prog.Event Reply)} {response : RpcResponse} {change : ConfigChange}
    (h : World.noisy.Alone t w (handleControl request d) calls (.ok response, d') w')
    (hok : response.error = none) (hc : request.change? = some change) :
    ∃ settings replaced earlier later,
      w'.config.history = w.config.history ++ earlier ++ .stored settings replaced :: later ∧
      (∀ e ∈ earlier ++ later, e = .edited ∨ e = .stamped) ∧
      ∀ c, loads replaced = .ok c →
        (settings.Same (change.apply c) ↔ change.Agrees d.settings c) := by
  obtain ⟨_, r, ⟨⟩, hanswers, houtcome⟩ := handleControl_outcome h.returns
  have herror : ∀ e, r ≠ .error e := by
    rintro e rfl
    have hsome := hanswers.mpr ⟨e, rfl⟩
    rw [hok] at hsome
    cases hsome
  have hp := passes_effects h.path rfl
  generalize calls.filter isEffect = fx at houtcome hp
  cases houtcome with
  | failed | unread => exact absurd rfl (herror _)
  | answered hnone => cases hc.symm.trans hnone
  | listed hnone => cases hc.symm.trans hnone
  | @stored change' settings modified result d' hc' happly hv hs hm =>
    obtain rfl : change = change' := Option.some.inj (hc.symm.trans hc')
    rw [List.filter_append, filter_storing] at hp
    obtain ⟨replaced, earlier, later, hhistory, hothers⟩ := Passes.stored hp
    refine ⟨settings, replaced, earlier, later, hhistory, hothers, fun c _ => ?_⟩
    rw [happly]
    exact apply_same_iff change d.settings c

/-! ## A lost edit -/

/-- A change of the configuration just after the file was edited. -/
def overwritingSample : List (Prog.Event Reply) × (Except Error RpcResponse × WatchcatDaemon) ×
    World :=
  (World.noisyPlayer .main).play [.edited (.ok (some editedSettings)) 7] freshSample.2
    (handleControl (skipRequest "network.timeout") freshSample.1)

/-- The file stored over the edit does not keep it. -/
theorem change_loses_edit : ¬ ∀ (w w' : World) (d d' : WatchcatDaemon) (t : Tid)
    (request : RpcRequest) (calls : List (Prog.Event Reply)) (response : RpcResponse)
    (change : ConfigChange), DaemonRun World.noisy w d →
    World.noisy.Alone t w (handleControl request d) calls (.ok response, d') w' →
    response.error = none → request.change? = some change →
    ∀ settings replaced earlier later,
      w'.config.history = w.config.history ++ earlier ++ .stored settings replaced :: later →
      ∀ c, loads replaced = .ok c → settings.Same (change.apply c) := by
  intro hclaim
  have hx : World.noisy.Alone .main freshSample.2
      (handleControl (skipRequest "network.timeout") freshSample.1) overwritingSample.1
      (overwritingSample.2.1.1, overwritingSample.2.1.2) overwritingSample.2.2 :=
    (World.noisyPlayer .main).alone (by decide)
  obtain ⟨response, _, hresponse, _⟩ := handleControl_outcome hx.returns
  have herror : responseError overwritingSample.2.1.1 = none := by decide
  rw [hresponse] at hx herror
  have hsame := hclaim _ _ _ _ _ _ _ response _ freshSample_run hx herror rfl
    overwritingSample.2.1.2.settings (.ok (some editedSettings)) [.edited] [.stamped] rfl
    editedSettings rfl
  have hlost : overwritingSample.2.1.2.settings.lifecycle ≠ editedSettings.lifecycle := by decide
  exact hlost hsame.lifecycle

/-- The change that the sample requests. -/
def sampleChange : ConfigChange := .setPolicy "network.timeout" { action := some .skip }

/-- A configuration written by hand that differs in the policy that is changed. -/
def agreeingSettings : Settings :=
  (ConfigChange.setPolicy "network.timeout" { action := some .retry }).apply {}

/-- A change of the configuration just after the file was edited so. -/
def agreeingSample : Except Error RpcResponse × WatchcatDaemon × World :=
  controlSample [.edited (.ok (some agreeingSettings)) 7] (skipRequest "network.timeout")
    freshSample.1 freshSample.2

theorem agrees_agreeingSettings : sampleChange.Agrees freshSample.1.settings agreeingSettings := by
  refine ⟨⟨rfl, rfl, rfl⟩, rfl, fun _ => rfl, fun condition hne => ?_, fun hskip => ?_⟩
  · exact (Table.lookup_insert_ne hne).symm
  · exact absurd rfl hskip

/-- An edit of the policy that the request sets is kept in everything else. -/
theorem change_applied_iff_agreeing : ∃ settings earlier later,
    agreeingSample.2.2.config.history = freshSample.2.config.history ++ earlier ++
      .stored settings (.ok (some agreeingSettings)) :: later ∧
    settings.Same (sampleChange.apply agreeingSettings) := by
  have hplays : (World.noisyPlayer .main).Plays [.edited (.ok (some agreeingSettings)) 7]
      freshSample.2 (handleControl (skipRequest "network.timeout") freshSample.1) := by decide
  have hx : World.noisy.Alone .main freshSample.2
      (handleControl (skipRequest "network.timeout") freshSample.1) _
      (agreeingSample.1, agreeingSample.2.1) agreeingSample.2.2 :=
    (World.noisyPlayer .main).alone hplays
  obtain ⟨response, _, hresponse, _⟩ := handleControl_outcome hx.returns
  have herror : responseError agreeingSample.1 = none := by decide
  rw [hresponse] at hx herror
  obtain ⟨settings, replaced, earlier, later, hhistory, hothers, hsame⟩ :=
    @change_applied_iff _ _ _ _ _ _ _ _ sampleChange hx herror rfl
  -- the file that was replaced is the edited one
  have hplayed : agreeingSample.2.2.config.history = [.stamped, .edited,
      .stored agreeingSample.2.1.settings (.ok (some agreeingSettings)), .stamped] := rfl
  have hreplaced : replaced = .ok (some agreeingSettings) := by
    have hmem : ConfigEvent.stored settings replaced ∈ agreeingSample.2.2.config.history := by
      rw [hhistory]
      simp
    rw [hplayed] at hmem
    simp only [List.mem_cons, List.not_mem_nil, reduceCtorEq, ConfigEvent.stored.injEq, or_false,
      false_or] at hmem
    exact hmem.2
  subst hreplaced
  exact ⟨settings, earlier, later, hhistory,
    (hsame agreeingSettings rfl).mpr agrees_agreeingSettings⟩

end Watchcat
