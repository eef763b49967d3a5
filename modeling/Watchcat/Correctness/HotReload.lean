import Watchcat.Daemon.Histories
import Watchcat.Daemon.Sample

/-!
# Hot reload of the configuration

The daemon remembers a modification time and the settings it took from a file
that others write as well. What it remembers is stated on the file alone: the
calls of an operation are the only ones the file meets, with edits in between.
-/

namespace Watchcat

open Watchcat.Core

namespace ConfigFile

/-! ## The file in the course of time -/

/-- The file is written from outside, any number of times. -/
def Edits : ConfigFile → ConfigFile → Prop := Relation.ReflTransGen Edit

/-- Since `f` the file was left as it was, or was written at a new time. -/
structure Later (f f' : ConfigFile) : Prop where
  stamps : f.stamps <+: f'.stamps
  history : f.history <+: f'.history
  dated : f.Dated → f'.Dated
  content : f'.stamps.Nodup → f'.content = f.content ∧ f'.modified = f.modified ∨
    ∃ m, f'.modified = some m ∧ m ∉ f.stamps

theorem Later.refl (f : ConfigFile) : Later f f :=
  ⟨List.prefix_rfl, List.prefix_rfl, fun h => h, fun _ => .inl ⟨rfl, rfl⟩⟩

theorem Later.trans {f g h : ConfigFile} (hfg : Later f g) (hgh : Later g h) : Later f h := by
  refine ⟨hfg.stamps.trans hgh.stamps, hfg.history.trans hgh.history,
    fun hf => hgh.dated (hfg.dated hf), fun hnodup => ?_⟩
  rcases hgh.content hnodup with ⟨hcontent, hmodified⟩ | ⟨m, hm, hnew⟩
  · rw [hcontent, hmodified]
    exact hfg.content (hnodup.sublist hgh.stamps.sublist)
  · exact .inr ⟨m, hm, fun hmem => hnew (hfg.stamps.subset hmem)⟩

theorem later_written (f : ConfigFile) (content : Except Error (Option Settings)) (m : Int)
    (event : ConfigEvent) : Later f (f.written content m event) := by
  refine ⟨List.prefix_append _ _, List.prefix_append _ _, fun _ k hk => ?_, fun hnodup => ?_⟩
  · obtain rfl := Option.some.inj hk
    exact List.mem_append_right _ (List.mem_singleton.mpr rfl)
  · refine .inr ⟨m, rfl, fun hmem => ?_⟩
    exact (List.nodup_append.mp hnodup).2.2 m hmem m (List.mem_singleton.mpr rfl) rfl

theorem later_noted (f : ConfigFile) (event : ConfigEvent) : Later f (f.noted event) :=
  ⟨List.prefix_rfl, List.prefix_append _ _, fun h => h, fun _ => .inl ⟨rfl, rfl⟩⟩

theorem Edits.later {f f' : ConfigFile} (h : Edits f f') : Later f f' := by
  induction h with
  | refl => exact .refl f
  | tail _ hedit ih =>
    obtain ⟨content, m, rfl⟩ := hedit
    exact ih.trans (later_written _ _ _ _)

/-- Edits that leave the history free of edits leave the file. -/
theorem Edits.eq_or {f f' : ConfigFile} (h : Edits f f') :
    f' = f ∨ ∃ rest, f'.history = f.history ++ .edited :: rest := by
  induction h with
  | refl => exact .inl rfl
  | tail _ hedit ih =>
    obtain ⟨content, m, rfl⟩ := hedit
    rcases ih with rfl | ⟨rest, hrest⟩
    · exact .inr ⟨[], rfl⟩
    · refine .inr ⟨rest ++ [.edited], ?_⟩
      simp only [written, hrest, List.append_assoc, List.cons_append]

/-! ## The calls the file meets -/

/-- The calls on the configuration file that can change it or its history. -/
def meets (e : Prog.Event Reply) : Bool := isConfigCall e && isEffect e

/-- A call meets the file. -/
def Meets : Prog.Event Reply → ConfigFile → ConfigFile → Prop
  | ⟨.writeConfig settings, r⟩, f, f' => f.Store f' settings r
  | ⟨.readConfig, r⟩, f, f' => f.Read f' r
  | ⟨.configModified, r⟩, f, f' => f.Stamp f' r
  | _, f, f' => f' = f

/-- The calls meet the file in turn, with edits in between. -/
def Passes : ConfigFile → List (Prog.Event Reply) → ConfigFile → Prop
  | f, [], f' => Edits f f'
  | f, e :: es, f' => ∃ f₁ f₂, Edits f f₁ ∧ Meets e f₁ f₂ ∧ Passes f₂ es f'

theorem act_meets {t : Tid} {w w' : World} {e : Prog.Event Reply}
    (ha : World.act t w e.1 e.2 w') :
    if meets e then Meets e w.config w'.config else w'.config = w.config := by
  obtain ⟨op, r⟩ := e
  cases op with
  | readConfig | configModified =>
    obtain ⟨config, hmeets, rfl⟩ := ha
    exact hmeets
  | writeConfig settings =>
    obtain ⟨config, hstore, rfl⟩ := ha
    cases r with
    | ok _ => exact hstore
    | error e => exact hstore
  | writeWatchlist document =>
    simp only [meets, isConfigCall, Bool.false_and, Bool.false_eq_true, if_false]
    cases r <;> (obtain rfl := ha; rfl)
  | configureDialogs =>
    obtain rfl := ha
    rfl
  | _ =>
    simp only [meets, isConfigCall, Bool.false_and, Bool.false_eq_true, if_false]
    exact (act_files rfl ha).2.1

theorem edits_config {w w' : World} (h : w.Edits w') : Edits w.config w'.config := by
  induction h with
  | refl => exact .refl
  | tail _ hedit ih =>
    obtain ⟨config, hconfig, rfl⟩ := hedit
    exact ih.tail hconfig

theorem Passes.of_edits {f f' f'' : ConfigFile} {es : List (Prog.Event Reply)}
    (h : Edits f f') (hp : Passes f' es f'') : Passes f es f'' := by
  cases es with
  | nil => exact h.trans hp
  | cons e es =>
    obtain ⟨f₁, f₂, hedits, hmeets, hrest⟩ := hp
    exact ⟨f₁, f₂, h.trans hedits, hmeets, hrest⟩

/-- A trace passes the file the calls that can change it. -/
theorem passes_of_path {t : Tid} {w w' : World} {tr : List (Prog.Event Reply)}
    (h : World.noisy.Path t w tr w') : Passes w.config (tr.filter meets) w'.config := by
  induction h with
  | nil w => exact Relation.ReflTransGen.refl
  | @cons w w' w'' e tr ha _ ih =>
    obtain ⟨mid, hedits, ha⟩ := ha
    have hstep := act_meets ha
    cases hm : meets e with
    | true =>
      rw [hm, if_pos rfl] at hstep
      rw [List.filter_cons_of_pos hm]
      exact ⟨mid.config, w'.config, edits_config hedits, hstep, ih⟩
    | false =>
      rw [hm, if_neg Bool.false_ne_true] at hstep
      rw [List.filter_cons_of_neg (by simp [hm])]
      rw [hstep] at ih
      exact .of_edits (edits_config hedits) ih

theorem Read.later {f f' : ConfigFile} {r : Except Error (Option Settings)} (h : f.Read f' r) :
    Later f f' := by
  obtain ⟨_, rfl⟩ | ⟨_, rfl⟩ := h
  · exact .refl _
  · exact later_noted _ _

theorem Stamp.later {f f' : ConfigFile} {modified : Option Int} (h : f.Stamp f' modified) :
    Later f f' := by
  obtain ⟨_, rfl⟩ := h
  exact later_noted _ _

theorem Meets.later {f f' : ConfigFile} {e : Prog.Event Reply} (h : Meets e f f') :
    Later f f' := by
  obtain ⟨op, r⟩ := e
  cases op with
  | writeConfig settings =>
    cases r with
    | ok _ =>
      obtain ⟨m, rfl⟩ := h
      exact later_written _ _ _ _
    | error e =>
      obtain rfl := h
      exact .refl _
  | readConfig => exact Read.later h
  | configModified => exact Stamp.later h
  | _ =>
    obtain rfl := h
    exact .refl _

theorem Passes.later {f f' : ConfigFile} {es : List (Prog.Event Reply)} (h : Passes f es f') :
    Later f f' := by
  induction es generalizing f with
  | nil => exact Edits.later h
  | cons e es ih =>
    obtain ⟨f₁, f₂, hedits, hmeets, hrest⟩ := h
    exact hedits.later.trans (hmeets.later.trans (ih hrest))

/-! ## What the daemon remembers -/

/-- No read of a valid configuration fails, and nobody writes the file after the daemon has
stored it and before the daemon reads its modification time. -/
structure Calm (history : List ConfigEvent) : Prop where
  reads : ∀ content, .misread content ∈ history → ∀ settings, loads content ≠ .ok settings
  stores : ∀ earlier settings replaced middle later,
    history = earlier ++ .stored settings replaced :: middle ++ .edited :: later →
      .stamped ∈ middle

theorem Calm.of_prefix {h h' : List ConfigEvent} (hc : Calm h') (hp : h <+: h') : Calm h := by
  obtain ⟨rest, rfl⟩ := hp
  refine ⟨fun content hm => hc.reads content (List.mem_append_left _ hm), ?_⟩
  rintro earlier settings replaced middle later rfl
  exact hc.stores earlier settings replaced middle (later ++ rest) (by simp)

/-- Where the daemon remembers the modification time of the file, it has the settings in it. -/
structure Synced (f : ConfigFile) (d : WatchcatDaemon) : Prop where
  dated : f.Dated
  known : ∀ m, d.configModified = some m → m ∈ f.stamps
  current : d.configModified = f.modified →
    ∀ settings, loads f.content = .ok settings → d.settings = settings

/-- A file that has a modification time known before has not been written since. -/
theorem Later.same {f f' : ConfigFile} (h : Later f f') (hnodup : f'.stamps.Nodup)
    {modified : Option Int} (hknown : ∀ m, modified = some m → m ∈ f.stamps)
    (hm : modified = f'.modified) : f'.content = f.content ∧ f'.modified = f.modified := by
  rcases h.content hnodup with hsame | ⟨m, hnew, hfresh⟩
  · exact hsame
  · exact absurd (hknown m (hm.trans hnew)) hfresh

/-- Time alone keeps the daemon in step. -/
theorem Synced.later {f f' : ConfigFile} {d d' : WatchcatDaemon} (h : Synced f d)
    (hlater : Later f f') (hnodup : f'.stamps.Nodup) (hs : d'.settings = d.settings)
    (hm : d'.configModified = d.configModified) : Synced f' d' := by
  refine ⟨hlater.dated h.dated, fun m hd => hlater.stamps.subset (h.known m (hm ▸ hd)),
    fun hcurrent settings hloads => ?_⟩
  rw [hm] at hcurrent
  obtain ⟨hcontent, hmodified⟩ := hlater.same hnodup h.known hcurrent
  rw [hs]
  exact h.current (hcurrent.trans hmodified) settings (hcontent ▸ hloads)

/-- A time that was read is one the file was written at. -/
theorem Stamp.known {f f' : ConfigFile} {modified : Option Int} (h : Stamp f f' modified)
    (hdated : f.Dated) : ∀ m, modified = some m → m ∈ f'.stamps := by
  obtain ⟨hm | hm, rfl⟩ := h
  · exact fun m hsome => hdated m (hm ▸ hsome)
  · exact fun m hsome => nomatch hm.symm.trans hsome

/-- The daemon has read the modification time and then the file. -/
theorem synced_read {f f' : ConfigFile} {modified : Option Int}
    {r : Except Error (Option Settings)} {d : WatchcatDaemon} (hdated : f.Dated)
    (hp : Passes f [⟨.configModified, modified⟩, ⟨.readConfig, r⟩] f')
    (hnodup : f'.stamps.Nodup) (hcalm : Calm f'.history) (hm : d.configModified = modified)
    (hs : ∀ settings, loads r = .ok settings → d.settings = settings) : Synced f' d := by
  obtain ⟨f₁, f₂, h₁, hstamp, f₃, f₄, h₂, hread, h₃⟩ := hp
  have hread : f₃.Read f₄ r := hread
  have hstamp : f₁.Stamp f₂ modified := hstamp
  have hdated₂ : f₂.Dated := (h₁.later.trans hstamp.later).dated hdated
  have hlater₃ : Later f₂ f₃ := h₂.later
  have hlater₄ : Later f₃ f₄ := hread.later
  have hend : Later f₄ f' := Edits.later h₃
  have hknown := hstamp.known (h₁.later.dated hdated)
  refine ⟨(hlater₃.trans (hlater₄.trans hend)).dated hdated₂, fun m hd => ?_,
    fun hcurrent settings hloads => ?_⟩
  · exact (hlater₃.trans (hlater₄.trans hend)).stamps.subset (hknown m (hm ▸ hd))
  · have hcontent := ((hlater₄.trans hend).same hnodup
      (fun m hd => hlater₃.stamps.subset (hknown m hd)) (hm ▸ hcurrent)).1
    rw [hcontent] at hloads
    rcases hread with ⟨rfl, _⟩ | ⟨_, rfl⟩
    · exact hs settings hloads
    · -- a read that did not yield a valid content is excluded
      have hmisread : ConfigEvent.misread f₃.content ∈ f'.history :=
        hend.history.subset (List.mem_append_right _ (List.mem_singleton.mpr rfl))
      exact absurd hloads (hcalm.reads _ hmisread settings)

/-- The daemon has stored the file and then read its modification time. -/
theorem synced_store {f f' : ConfigFile} {modified : Option Int} {settings : Settings}
    {d : WatchcatDaemon} (hdated : f.Dated)
    (hp : Passes f [⟨.writeConfig settings, .ok ()⟩, ⟨.configModified, modified⟩] f')
    (hnodup : f'.stamps.Nodup) (hcalm : Calm f'.history) (hm : d.configModified = modified)
    (hs : d.settings = settings) : Synced f' d := by
  obtain ⟨f₁, _, h₁, ⟨k, rfl⟩, f₃, f₄, h₂, hstamp, h₃⟩ := hp
  have hstamp : f₃.Stamp f₄ modified := hstamp
  have hlater₃ : Later f f₃ := h₁.later.trans ((later_written _ _ _ _).trans h₂.later)
  have hlater₄ : Later f₃ f₄ := hstamp.later
  have hend : Later f₄ f' := Edits.later h₃
  have hknown := hstamp.known (hlater₃.dated hdated)
  refine ⟨(hlater₃.trans (hlater₄.trans hend)).dated hdated, fun m hd => ?_,
    fun hcurrent found hloads => ?_⟩
  · exact hend.stamps.subset (hknown m (hm ▸ hd))
  · have hcontent := (hend.same hnodup hknown (hm ▸ hcurrent)).1
    have hstored : f₄.content = .ok (some settings) := by
      obtain ⟨_, rfl⟩ := hstamp
      rcases Edits.eq_or h₂ with rfl | ⟨rest, hrest⟩
      · rfl
      · -- an edit before the time was read is excluded
        obtain ⟨later, hlater⟩ := (hlater₄.trans hend).history
        have hedited := hcalm.stores f₁.history settings f₁.content [] (rest ++ later) (by
          rw [← hlater, hrest]
          simp [written])
        cases hedited
    rw [hcontent, hstored] at hloads
    cases hv : settings.validate with
    | error e => simp [loads, hv, Except.map] at hloads
    | ok _ => rw [hs]; simpa [loads, hv, Except.map] using hloads

end ConfigFile

/-! ## Every daemon -/

open ConfigFile

section Outcomes

variable {t : Tid} {w w' : World} {d d' : WatchcatDaemon} {calls fx : List (Prog.Event Reply)}

/-- The effects of an operation pass the file those that are about it. -/
theorem passes_effects (h : World.noisy.Path t w calls w') (hfx : calls.filter isEffect = fx) :
    Passes w.config (fx.filter isConfigCall) w'.config := by
  have hpasses := passes_of_path h
  rwa [← hfx, List.filter_filter]

/-- Of the effects of stored settings the file meets the write. -/
theorem filter_storing (settings : Settings) (configure : Bool) :
    (storing settings configure).filter isConfigCall = [⟨.writeConfig settings, .ok ()⟩] := by
  cases configure <;> rfl

theorem ReloadOutcome.synced (h : ReloadOutcome d fx d')
    (hp : Passes w.config (fx.filter isConfigCall) w'.config) (hd : w.config.Synced d)
    (hnodup : w'.config.stamps.Nodup) (hcalm : Calm w'.config.history) : w'.config.Synced d' := by
  cases h with
  | current | stalled => exact hd.later hp.later hnodup rfl rfl
  | rejected hr =>
    refine synced_read hd.dated hp hnodup hcalm rfl fun settings hloads => ?_
    rw [hr] at hloads
    cases hloads
  | loaded hr hs hm =>
    refine synced_read hd.dated hp hnodup hcalm hm fun settings hloads => ?_
    rw [hr] at hloads
    exact hs.trans (Except.ok.inj hloads)

theorem ControlOutcome.synced {request : RpcRequest} {r : Except Error RpcResult}
    (h : ControlOutcome request d fx r d')
    (hp : Passes w.config (fx.filter isConfigCall) w'.config) (hd : w.config.Synced d)
    (hnodup : w'.config.stamps.Nodup) (hcalm : Calm w'.config.history) : w'.config.Synced d' := by
  cases h with
  | failed _ hs hm | listed _ hs hm | unread _ _ hs hm => exact hd.later hp.later hnodup hs hm
  | answered => exact hd.later hp.later hnodup rfl rfl
  | @stored change settings modified result d' hc happly hv hs hm =>
    rw [List.filter_append, filter_storing] at hp
    exact synced_store hd.dated hp hnodup hcalm hm hs

end Outcomes

theorem DaemonRun.synced {w : World} {d : WatchcatDaemon} (h : DaemonRun World.noisy w d)
    (hnodup : w.config.stamps.Nodup) (hcalm : Calm w.config.history) : w.config.Synced d := by
  have hbefore : ∀ {w w' : World} {d : WatchcatDaemon}, w.config.Later w'.config →
      w'.config.stamps.Nodup → Calm w'.config.history →
      (w.config.stamps.Nodup → Calm w.config.history → w.config.Synced d) → w.config.Synced d :=
    fun hlater hnodup hcalm ih =>
      ih (hnodup.sublist hlater.stamps.sublist) (hcalm.of_prefix hlater.history)
  induction h with
  | started hdated _ hx =>
    obtain ⟨_, r, hfx, hm, hr⟩ := (follows_loadDaemon.returns hx.returns _ rfl).calls
    rw [effects, Monitor.noting_after, List.nil_append] at hfx
    have hp := passes_effects hx.path hfx
    refine synced_read hdated hp hnodup hcalm hm fun settings hloads => ?_
    rw [hr] at hloads
    exact Except.ok.inj hloads
  | prepared _ hx ih =>
    obtain ⟨reload, hreload, hstalled⟩ := follows_prepareReconcile.returns hx.returns
    rw [effects, Monitor.noting_after, List.nil_append] at hstalled
    have hp := passes_effects hx.path rfl
    rw [hstalled.aside] at hp
    exact hreload.synced hp (hbefore hp.later hnodup hcalm ih) hnodup hcalm
  | committed _ hx ih =>
    obtain ⟨_, hs, hm⟩ := (aside_commitReconcile _ _ _ [] _).returns hx.returns
    have hlater := (passes_of_path hx.path).later
    exact (hbefore hlater hnodup hcalm ih).later hlater hnodup hs hm
  | controlled _ hx ih =>
    obtain ⟨_, _, _, _, houtcome⟩ := handleControl_outcome hx.returns
    have hp := passes_effects hx.path rfl
    exact houtcome.synced hp (hbefore hp.later hnodup hcalm ih) hnodup hcalm
  | @edited w w' d _ he ih =>
    obtain ⟨config, ⟨content, m, rfl⟩, rfl⟩ := he
    have hlater := later_written w.config content m .edited
    exact (hbefore hlater hnodup hcalm ih).later hlater hnodup rfl rfl

/-- Between two operations of a daemon that remembers the modification time of the configuration
file, the file is invalid or holds the active settings: where every write has a new time, no read of
a valid configuration fails, and nobody writes the file between a save and the look at its time. -/
theorem reload_not_missed {w : World} {d : WatchcatDaemon} (h : DaemonRun World.noisy w d)
    (hnodup : w.config.stamps.Nodup) (hcalm : Calm w.config.history)
    (hcurrent : d.configModified = w.config.modified) :
    (∃ e, loads w.config.content = .error e) ∨ loads w.config.content = .ok d.settings := by
  cases hloads : loads w.config.content with
  | error e => exact .inl ⟨e, rfl⟩
  | ok settings =>
    rw [(h.synced hnodup hcalm).current hcurrent settings hloads]
    exact .inr rfl

/-! ## A write that is not noticed -/

/-- A configuration written by hand. -/
def editedSettings : Settings := { lifecycle := ⟨1⟩ }

/-- The file is edited after it was stored and before its modification time is read. -/
def overtakenScript : List Turn :=
  [.plain, .plain, .plain, .plain, .edited (.ok (some editedSettings)) 7]

/-- A change of the configuration that is overtaken by an edit. -/
def overtakenSample : Except Error RpcResponse × WatchcatDaemon × World :=
  controlSample overtakenScript (skipRequest "network.timeout") freshSample.1 freshSample.2

/-- The edit is not the active configuration, and its time is the one remembered. -/
theorem reload_missed : ¬ ∀ (w : World) (d : WatchcatDaemon), DaemonRun World.noisy w d →
    w.config.stamps.Nodup → d.configModified = w.config.modified →
    (∃ e, loads w.config.content = .error e) ∨ loads w.config.content = .ok d.settings := by
  intro hclaim
  have hrun : DaemonRun World.noisy overtakenSample.2.2 overtakenSample.2.1 :=
    freshSample_run.controlSample (by decide)
  have hloads : loads overtakenSample.2.2.config.content = .ok editedSettings := rfl
  have hstale : overtakenSample.2.1.settings.lifecycle ≠ editedSettings.lifecycle := by decide
  have hcurrent := hclaim _ _ hrun (by decide) (by decide)
  rw [hloads] at hcurrent
  rcases hcurrent with ⟨e, he⟩ | hsettings
  · cases he
  · exact hstale (congrArg Settings.lifecycle (Except.ok.inj hsettings)).symm

/-- A change of the configuration while nobody edits the file. -/
def undisturbedSample : Except Error RpcResponse × WatchcatDaemon × World :=
  controlSample [] (skipRequest "network.timeout") freshSample.1 freshSample.2

/-- The file is edited after that. -/
def editedWorld : World :=
  { undisturbedSample.2.2 with
    config := undisturbedSample.2.2.config.written (.ok (some editedSettings)) 7 .edited }

/-- The start of a cycle after the edit. -/
def reloadedSample : Except Error ReconcilePlan × WatchcatDaemon × World :=
  let r := (World.noisyPlayer .main).play [] editedWorld (prepareReconcile undisturbedSample.2.1)
  (r.2.1.1, r.2.1.2, r.2.2)

theorem reloadedSample_run : DaemonRun World.noisy reloadedSample.2.2 reloadedSample.2.1 := by
  have hstored : DaemonRun World.noisy undisturbedSample.2.2 undisturbedSample.2.1 :=
    freshSample_run.controlSample (by decide)
  have hedited : DaemonRun World.noisy editedWorld undisturbedSample.2.1 :=
    hstored.edited ⟨_, ⟨_, _, rfl⟩, rfl⟩
  have hplays : (World.noisyPlayer .main).Plays [] editedWorld
      (prepareReconcile undisturbedSample.2.1) := by decide
  exact hedited.prepared ((World.noisyPlayer .main).alone hplays)

/-- The edit comes after the daemon has read the time of the file it stored. -/
theorem calm_reloadedSample : Calm reloadedSample.2.2.config.history := by
  have hhistory : reloadedSample.2.2.config.history =
      [.stamped, .stored undisturbedSample.2.1.settings (.ok none), .stamped, .edited,
        .stamped] := rfl
  rw [hhistory]
  refine ⟨fun content hmisread => by simp at hmisread, ?_⟩
  intro earlier settings replaced middle later heq
  rcases earlier with _ | ⟨_, _ | ⟨_, earlier⟩⟩
  · simp at heq
  · rcases middle with _ | ⟨event, middle⟩
    · simp at heq
    · simp only [List.cons_append, List.nil_append, List.cons.injEq] at heq
      rw [← heq.2.2.1]
      exact List.mem_cons_self
  · -- what was stored is not among the later events
    have hlater : ConfigEvent.stored settings replaced ∈
        [ConfigEvent.stamped, .edited, .stamped] := by
      simp only [List.cons_append, List.cons.injEq] at heq
      rw [heq.2.2]
      simp
    simp at hlater

/-- The settings stored before are replaced by the edit, which is then the active configuration. -/
theorem reload_not_missed_edited :
    reloadedSample.2.1.settings.lifecycle = editedSettings.lifecycle ∧
      reloadedSample.2.1.configModified = reloadedSample.2.2.config.modified ∧
      ((∃ e, loads reloadedSample.2.2.config.content = .error e) ∨
        loads reloadedSample.2.2.config.content = .ok reloadedSample.2.1.settings) := by
  have hcurrent : reloadedSample.2.1.configModified =
      reloadedSample.2.2.config.modified := by decide
  exact ⟨by decide, hcurrent,
    reload_not_missed reloadedSample_run (by decide) calm_reloadedSample hcurrent⟩

end Watchcat
