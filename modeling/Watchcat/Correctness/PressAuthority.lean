import Watchcat.Correctness.Inspection
import Watchcat.OsPermissions.Runs

/-!
# Who may press a button

Whatever windows, applications and other threads do, a press comes right after
its announcement in the log, under a permit that still stands, and by the one
enabled rule that two reads of the window have agreed on. The rule matches the
process of the announcement, as the system has named it before and after the reads.
-/

namespace Watchcat

open Watchcat.Core Desktop

variable [Lowercase]

/-- The calls that ask the system for the executable and the bundle of a process. -/
def identifies (app : App) (path : String) (bundle : Option String) :
    List (Prog.Event DesktopReply) :=
  [⟨.executablePath app.pid, some path⟩, ⟨.bundleIdentifier app, bundle⟩]

omit [Lowercase] in
/-- What identifies a process. -/
theorem appIdentity_returns {σ ε : Type} {s s' : σ} {app : App} {identity : String × String}
    {tr : List (Prog.Event DesktopReply)}
    (h : (appIdentity app : Desktop σ ε (Option (String × String))).Returns s tr
      (.ok (some identity)) s') :
    ∃ bundle, tr = identifies app identity.1 bundle ∧ bundle.getD "" = identity.2 := by
  obtain ⟨path, rest, rfl, hpath⟩ := Act.returns_perform_andThen.mp h
  cases path with
  | none => cases (Act.returns_ret.mp hpath).2.1
  | some path =>
    obtain ⟨bundle, rest, rfl, hbundle⟩ := Act.returns_perform_andThen.mp hpath
    obtain ⟨rfl, hidentity, _⟩ := Act.returns_ret.mp hbundle
    obtain rfl := Option.some.inj (Except.ok.inj hidentity)
    exact ⟨bundle, rfl, rfl⟩

/-- The calls of a read of a window that has succeeded, and what it found. -/
def Reads (window : Element) (rules : DialogSettings) (identity : String × String)
    (tr : List (Prog.Event DesktopReply)) (found : MatchedButton) : Prop :=
  ∃ p p' : Process, (matchingButton window rules identity :
    Desktop Process String MatchedButton).Returns p tr (.ok found) p'

/-- The window of a process was read twice alike under the rules: the process was identified, the
window read and read again, and then the process was still there and identified the same. -/
structure ReadTwice (app : App) (window : Element) (rules : DialogSettings)
    (identity : String × String) (matched current : MatchedButton)
    (calls : List (Prog.Event DesktopReply)) : Prop where
  calls : ∃ bundle bundle' between first second,
    calls = identifies app identity.1 bundle ++ (between ++ (first ++ (second ++
      ⟨.isTerminated app, false⟩ :: identifies app identity.1 bundle'))) ∧
    bundle.getD "" = identity.2 ∧ bundle'.getD "" = identity.2 ∧
    Reads window rules identity first matched ∧ Reads window rules identity second current
  rule : current.rule = matched.rule
  signature : current.signature = matched.signature
  button : matched.button.same current.button = true

/-- The event announces the press of the button in a window of the process. -/
structure Announces (event : DialogEvent) (app : App) (matched : MatchedButton) : Prop where
  kind : event.kind = "click.attempt"
  pid : event.pid = some app.pid
  rule : event.rule = some matched.rule
  button : event.button = some (sanitize matched.label)

/-- The calls since the rules were taken lead to a press: the window was read twice alike under
these rules, the permit was taken, and the attempt is in the log. -/
structure PressDue (rules : DialogSettings) (calls : List (Prog.Event DesktopReply))
    (window button : Element) (event : DialogEvent) : Prop where
  reads : ∃ reading app identity matched current,
    calls = ⟨.lockRules, some rules⟩ :: (reading ++
      [⟨.lockPermit, true⟩, ⟨.append event, true⟩]) ∧ (∀ e ∈ reading, e.1.IsPlain) ∧
    ReadTwice app window rules identity matched current reading ∧ Announces event app matched ∧
    button = current.button

/-- The calls since the rules were last taken. -/
def pressMonitor : Monitor DesktopReply (List (Prog.Event DesktopReply)) where
  allowed := fun calls op => match op with
    | .press window button =>
      ∃ rules event, PressDue rules calls window button event
    | _ => True
  next := fun calls op r => (match op with
    | .lockRules => []
    | _ => calls) ++ [⟨op, r⟩]

theorem pressMonitor_allowed {op : DesktopCall} (h : op.IsPlain)
    (calls : List (Prog.Event DesktopReply)) : pressMonitor.allowed calls op := by
  cases op <;> trivial

theorem pressMonitor_next {op : DesktopCall} (h : op.IsPlain)
    (calls : List (Prog.Event DesktopReply)) (r : DesktopReply op) :
    pressMonitor.next calls op r = calls ++ [⟨op, r⟩] := by
  cases op <;> first | rfl | exact absurd h id

variable {σ ε α : Type} {s : σ} {calls : List (Prog.Event DesktopReply)}

/-- Plain calls are added to those noted. -/
theorem plain_follows {m : Desktop σ ε α} (h : MakesPlain m) :
    m.Follows pressMonitor calls s fun calls' r s' =>
      ∃ tr, calls' = calls ++ tr ∧ m.Returns s tr r s' ∧ ∀ e ∈ tr, e.1.IsPlain :=
  h.follows_noted (fun calls _ hop => pressMonitor_allowed hop calls)
    fun calls _ r hop => pressMonitor_next hop calls r

/-- Plain calls are allowed anywhere. -/
theorem plain_keeps {m : Desktop σ ε α} (h : MakesPlain m) :
    m.Keeps pressMonitor fun _ => True :=
  Act.Uses.keeps h fun _ calls hop _ => ⟨pressMonitor_allowed hop calls, fun _ => trivial⟩

variable {window : Element} {rules : DialogSettings} {identity : String × String}

/-- What follows a press is plain. -/
theorem pressMatched_follows {app : String} {dialog : Dialog} {matched current : MatchedButton}
    {p : Process} {reading : List (Prog.Event DesktopReply)}
    (hcalls : calls = ⟨.lockRules, some rules⟩ :: reading) (hplain : ∀ e ∈ reading, e.1.IsPlain)
    (hread : ReadTwice p.app dialog.element rules identity matched current reading) :
    (pressMatched app dialog matched current : Desktop Process ε Bool).Follows pressMonitor calls p
      fun _ _ _ => True := by
  have hunlock : ∀ goOn : Bool, (Act.andThen (perform .unlockPermit) fun _ => Act.ret goOn :
      Desktop Process ε Bool).Keeps pressMonitor fun _ => True := by
    intro goOn calls p _
    refine Act.follows_andThen.mpr (Act.follows_perform.mpr ?_)
    exact ⟨trivial, fun _ => trivial⟩
  refine Act.follows_andThen.mpr (Act.follows_get.mpr ?_)
  refine Act.follows_andThen.mpr (Act.follows_perform.mpr ⟨trivial, fun permitted => ?_⟩)
  cases permitted with
  | false => exact Act.follows_ite.mpr ⟨fun _ => hunlock _ _ _ trivial, fun h => absurd rfl h⟩
  | true =>
    refine Act.follows_ite.mpr ⟨fun h => absurd h Bool.false_ne_true, fun _ => ?_⟩
    refine Act.follows_andThen.mpr (Act.follows_perform.mpr ⟨trivial, fun logged => ?_⟩)
    cases logged with
    | false =>
      refine Act.follows_ite.mpr ⟨fun _ => ?_, fun h => absurd rfl h⟩
      refine Act.follows_andThen.mpr
        ((plain_follows (asks_updateStatus _).uses).mono fun _ r _ _ => ?_)
      cases r with
      | error e => trivial
      | ok _ => exact hunlock _ _ _ trivial
    | true =>
      refine Act.follows_ite.mpr ⟨fun h => absurd h Bool.false_ne_true, fun _ => ?_⟩
      refine Act.follows_andThen.mpr (Act.follows_modify.mpr ?_)
      refine Act.follows_andThen.mpr (Act.follows_perform.mpr ⟨?_, fun pressed => ?_⟩)
      · refine ⟨rules, ⟨"click.attempt", some p.app.pid, sanitize app, some matched.rule,
            some (sanitize matched.label), "matched rule; sending AXPress"⟩,
          ⟨reading, p.app, identity, matched, current, ?_, hplain, hread,
            ⟨rfl, rfl, rfl, rfl⟩, rfl⟩⟩
        rw [hcalls]
        simp only [pressMonitor, List.cons_append, List.append_assoc, List.nil_append,
          Option.map_some]
      · refine Act.follows_andThen.mpr (Act.follows_perform.mpr ⟨trivial, fun _ => ?_⟩)
        have hsettle := plain_keeps (ε := ε) (plain_settlePress app dialog matched pressed)
        refine Act.follows_andThen.mpr ((hsettle _ _ trivial).mono fun _ r _ _ => ?_)
        cases r with
        | error e => trivial
        | ok _ => trivial

omit [Lowercase] in
/-- Reads agree where the check says so, for a process that is still the same. -/
theorem agrees_returns {matched current : MatchedButton} {p p' : Process}
    {tr : List (Prog.Event DesktopReply)}
    (h : (agrees identity matched current : Desktop Process ε Bool).Returns p tr (.ok true) p') :
    (matched.button.same current.button = true ∧ current.signature = matched.signature ∧
      current.rule = matched.rule) ∧ p' = p ∧ ∃ bundle, bundle.getD "" = identity.2 ∧
        tr = ⟨.isTerminated p.app, false⟩ :: identifies p.app identity.1 bundle := by
  have hp' : p' = p := (asks_agrees identity matched current).moves.returns h
  unfold agrees at h
  split at h
  · cases (Act.returns_ret.mp h).2.1
  · rename_i hsame
    simp only [ne_eq, Bool.or_eq_true, Bool.not_eq_true', decide_eq_true_eq, not_or, not_not,
      Bool.not_eq_false] at hsame
    refine ⟨⟨hsame.1.1, hsame.1.2.symm, hsame.2.symm⟩, hp', ?_⟩
    rw [Act.bind_eq, Act.returns_get_andThen] at h
    obtain ⟨terminated, rest, rfl, hrest⟩ := Act.returns_perform_andThen.mp h
    cases terminated with
    | true => cases (Act.returns_ret.mp hrest).2.1
    | false =>
      obtain ⟨first, second, found, mid, rfl, hidentity, hret⟩ := Act.returns_andThen_ok.mp hrest
      obtain ⟨rfl, hfound, _⟩ := Act.returns_ret.mp hret
      obtain rfl : found = some identity := of_decide_eq_true (Except.ok.inj hfound).symm
      obtain ⟨bundle, rfl, hbundle⟩ := appIdentity_returns hidentity
      exact ⟨bundle, hbundle, by rw [List.append_nil]⟩

/-- A window that is read and pressed under the rules that were taken, for the process that was
identified. -/
theorem handleWindow_follows {dryRun : Bool} {app : String} {dialog : Dialog} {p : Process}
    {bundle : Option String} {between : List (Prog.Event DesktopReply)}
    (hcalls : calls = ⟨.lockRules, some rules⟩ :: (identifies p.app identity.1 bundle ++ between))
    (hbundle : bundle.getD "" = identity.2) (hplain : ∀ e ∈ between, e.1.IsPlain) :
    (handleWindow dryRun rules identity app dialog : Desktop Process ε Bool).Follows pressMonitor
      calls p fun _ _ _ => True := by
  have hread : ∀ (calls : List (Prog.Event DesktopReply)) (p : Process),
      (Act.attempt (matchingButton dialog.element rules identity) :
        Desktop Process ε (Except String MatchedButton)).Follows pressMonitor calls p
        fun calls' r p' => ∃ tr read, r = .ok read ∧ calls' = calls ++ tr ∧ p' = p ∧
          (∀ found, read = .ok found → Reads dialog.element rules identity tr found) ∧
          ∀ e ∈ tr, e.1.IsPlain := by
    intro calls p
    have hread : (matchingButton dialog.element rules identity :
        Desktop Process String MatchedButton).Follows pressMonitor calls p _ :=
      plain_follows (asks_matchingButton dialog.element rules identity).uses
    refine Act.follows_attempt.mpr (hread.mono fun calls' r p' => ?_)
    rintro ⟨tr, hcalls, hreturns, hplain⟩
    have hsame : p' = p :=
      (asks_matchingButton dialog.element rules identity).moves.returns hreturns
    refine ⟨tr, r, rfl, hcalls, hsame, fun found hfound => ?_, hplain⟩
    exact ⟨p, p', hfound ▸ hreturns⟩
  refine Act.follows_andThen.mpr (Act.follows_get.mpr ?_)
  refine Act.follows_andThen.mpr ((hread calls p).mono fun calls₁ r p₁ => ?_)
  rintro ⟨first, read, rfl, rfl, rfl, hfirst, hplain₁⟩
  cases read with
  | error reason =>
    refine Act.follows_ite.mpr ⟨fun _ => ?_, fun _ => trivial⟩
    exact plain_keeps (.andThen (asks_record _ _ _ _ _ _).uses fun _ =>
      .andThen (Act.uses_modify _) fun _ => Act.uses_ret _) _ _ trivial
  | ok matched =>
    refine Act.follows_ite.mpr ⟨fun _ => trivial, fun _ => ?_⟩
    refine Act.follows_andThen.mpr (Act.follows_modify.mpr ?_)
    refine Act.follows_ite.mpr ⟨fun _ => ?_, fun _ => ?_⟩
    · exact plain_keeps (.andThen (asks_record _ _ _ _ _ _).uses fun _ =>
        .andThen (Act.uses_modify _) fun _ => Act.uses_ret _) _ _ trivial
    refine Act.follows_andThen.mpr ((hread _ _).mono fun calls₂ r p₂ => ?_)
    rintro ⟨second, read, rfl, rfl, rfl, hsecond, hplain₂⟩
    cases read with
    | error reason => trivial
    | ok current =>
      refine Act.follows_andThen.mpr
        ((plain_follows (asks_agrees identity matched current).uses).mono fun calls₃ r p₃ => ?_)
      rintro ⟨after, rfl, hagrees, hplain₃⟩
      rcases r with e | (_ | _)
      · trivial
      · exact Act.follows_ite.mpr ⟨fun _ => trivial, fun h => absurd rfl h⟩
      · refine Act.follows_ite.mpr ⟨fun h => absurd h Bool.false_ne_true, fun _ => ?_⟩
        obtain ⟨⟨hbutton, hsignature, hrule⟩, rfl, bundle', hbundle', rfl⟩ := agrees_returns hagrees
        refine pressMatched_follows ?_ ?_ ⟨⟨bundle, bundle', between, first, second, rfl, hbundle,
          hbundle', hfirst matched rfl, hsecond current rfl⟩, hrule, hsignature, hbutton⟩
        · rw [hcalls]
          simp only [List.cons_append, List.append_assoc]
          rfl
        · simp only [List.forall_mem_append]
          exact ⟨by simp [identifies, DesktopCall.IsPlain], hplain, hplain₁, hplain₂, hplain₃⟩

/-- What is known about the windows of a process does not change which process it is. -/
def SameApp (p p' : Process) : Prop := p'.app = p.app

omit [Lowercase] in
theorem sameApp_andThen {α β : Type} {m : Desktop Process ε α} {f : α → Desktop Process ε β}
    (hm : m.Moves SameApp) (hf : ∀ a, (f a).Moves SameApp) : (Act.andThen m f).Moves SameApp :=
  hm.andThen hf id fun h h' => h'.trans h

omit [Lowercase] in
theorem sameApp_asks {α : Type} {m : Desktop Process ε α} (h : Asks m) : m.Moves SameApp :=
  h.moves.mono fun heq => congrArg Process.app heq

omit [Lowercase] in
theorem sameApp_discoverWindow (app : String) (window : Element) :
    (discoverWindow app window : Desktop Process ε Unit).Moves SameApp := by
  refine sameApp_andThen (sameApp_asks Act.inquires_get) fun p =>
    Act.moves_ite ?_ (sameApp_asks (Act.inquires_ret ()))
  refine sameApp_andThen (sameApp_asks (asks_watchDialog _ _)) fun _ => ?_
  exact sameApp_andThen (sameApp_asks (asks_record _ _ _ _ _ _)) fun _ =>
    Act.moves_modify fun _ => rfl

omit [Lowercase] in
theorem sameApp_checkDeadline (app : String) (dialog : Dialog) :
    (checkDeadline app dialog : Desktop Process ε Unit).Moves SameApp := by
  unfold checkDeadline
  split
  · refine sameApp_andThen (sameApp_asks (Act.inquires_perform trivial)) fun now =>
      Act.moves_ite ?_ (sameApp_asks (Act.inquires_ret ()))
    refine sameApp_andThen (Act.moves_modify fun _ => rfl) fun _ => ?_
    refine sameApp_andThen (sameApp_asks Act.inquires_get) fun p => ?_
    exact sameApp_andThen (sameApp_asks (asks_record _ _ _ _ _ _)) fun _ =>
      sameApp_asks (asks_updateStatus _)
  · exact sameApp_asks (Act.inquires_ret ())

/-- The scan of a window follows the monitor. -/
theorem keeps_scanWindow (dryRun : Bool) (app : String) (window : Element) :
    (scanWindow dryRun app window : Desktop Process ε Bool).Keeps pressMonitor fun _ => True := by
  intro calls p _
  refine Act.follows_andThen.mpr (Act.follows_perform.mpr ⟨trivial, fun permitted => ?_⟩)
  refine Act.follows_ite.mpr ⟨fun _ => trivial, fun _ => ?_⟩
  refine Act.follows_andThen.mpr (Act.follows_perform.mpr ⟨trivial, fun rules => ?_⟩)
  cases rules with
  | none => exact Act.follows_andThen.mpr (Act.follows_perform.mpr ⟨trivial, fun _ => trivial⟩)
  | some rules =>
    refine Act.follows_closing.mpr ?_
    have hclose : ∀ (calls : List (Prog.Event DesktopReply)),
        (Prog.request DesktopCall.unlockRules).Follows pressMonitor calls fun _ _ => True :=
      fun _ => ⟨trivial, fun _ => trivial⟩
    refine Act.Follows.mono ?_ fun calls _ _ (_ : True) => hclose calls
    refine Act.follows_andThen.mpr (Act.follows_get.mpr ?_)
    refine Act.follows_andThen.mpr
      ((plain_follows (asks_appIdentity p.app).uses).mono fun calls r p₁ => ?_)
    rintro ⟨tr, rfl, hidentified, _⟩
    have hsame : p₁ = p := (asks_appIdentity p.app).moves.returns hidentified
    rcases r with e | (_ | identity)
    · trivial
    · trivial
    obtain ⟨bundle, rfl, hbundle⟩ := appIdentity_returns hidentified
    refine Act.follows_andThen.mpr
      ((plain_follows (plain_discoverWindow app window)).mono fun calls r p₂ => ?_)
    rintro ⟨tr', rfl, hdiscovered, hplain'⟩
    have happ₂ : p₂.app = p.app := hsame ▸ (sameApp_discoverWindow app window).returns hdiscovered
    cases r with
    | error e => trivial
    | ok _ =>
      refine Act.follows_andThen.mpr (Act.follows_get.mpr ?_)
      dsimp only
      cases p₂.dialog? window with
      | none => trivial
      | some dialog =>
        refine Act.follows_andThen.mpr
          ((plain_follows (plain_checkDeadline app dialog)).mono fun calls r p₃ => ?_)
        rintro ⟨tr'', rfl, hchecked, hplain''⟩
        have happ₃ : p₃.app = p.app :=
          ((sameApp_checkDeadline app dialog).returns hchecked).trans happ₂
        cases r with
        | error e => trivial
        | ok _ =>
          have hcalls : pressMonitor.next (pressMonitor.next calls .readPermit permitted)
              .lockRules (some rules) ++ identifies p.app identity.1 bundle ++ tr' ++ tr'' =
                ⟨.lockRules, some rules⟩ ::
                  (identifies p₃.app identity.1 bundle ++ (tr' ++ tr'')) := by
            rw [happ₃]
            simp only [pressMonitor, List.nil_append, List.cons_append, List.append_assoc]
          refine handleWindow_follows hcalls hbundle ?_
          simp only [List.forall_mem_append]
          exact ⟨hplain', hplain''⟩

theorem keeps_scanWindows (dryRun : Bool) (app : String) (windows : List Element) :
    (scanWindows dryRun app windows : Desktop Process ε Unit).Keeps pressMonitor fun _ => True := by
  induction windows with
  | nil => exact Act.keeps_ret _
  | cons window windows ih =>
    exact .andThen (keeps_scanWindow dryRun app window) fun _ => Act.keeps_ite ih (Act.keeps_ret _)

theorem keeps_scanProcess (dryRun : Bool) :
    (scanProcess dryRun).Keeps pressMonitor fun _ => True :=
  .andThen Act.keeps_get fun _ => .andThen (plain_keeps (asks_appName _).uses) fun _ =>
    .andThen (plain_keeps (asks_elements _ _).uses) fun _ =>
    .andThen (.forEach (fun _ => plain_keeps (asks_forgetClosed _ _ _).uses) _) fun _ =>
    .andThen (Act.keeps_modify _) fun _ => keeps_scanWindows _ _ _

theorem keeps_scan (pid : Int) :
    (DesktopMonitor.scan pid : Desktop DesktopMonitor ε Unit).Keeps pressMonitor fun _ => True := by
  have htrusted : MakesPlain (perform .trusted : Desktop DesktopMonitor ε Bool) :=
    Act.uses_perform trivial
  refine .andThen (plain_keeps htrusted) fun trusted => ?_
  refine Act.keeps_ite (plain_keeps DesktopMonitor.plain_reconcile)
    (.andThen Act.keeps_get fun m => ?_)
  dsimp only
  cases m.processes.lookup pid with
  | none => exact Act.keeps_ret _
  | some process =>
    have hterminated : MakesPlain (perform (.isTerminated process.app) :
      Desktop DesktopMonitor ε Bool) := Act.uses_perform trivial
    refine .andThen (plain_keeps hterminated) fun terminated => Act.keeps_ite (Act.keeps_ret _) ?_
    refine .andThen (.within (.attempt (keeps_scanProcess m.dryRun))) fun scanned => ?_
    rcases scanned with ⟨e | _, process⟩
    · refine plain_keeps (Act.uses_ite (.andThen (asks_appName _).uses fun _ =>
        .andThen (asks_record _ _ _ _ _ _).uses fun _ => .andThen (Act.uses_modify _) fun _ =>
          (asks_updateStatus _).uses)
        (.andThen (Act.uses_modify _) fun _ => (asks_updateStatus _).uses))
    · exact Act.keeps_modify _

/-- Every callback follows the monitor. -/
theorem MonitorOp.keeps (op : MonitorOp) : op.method.Keeps pressMonitor fun _ => True := by
  cases op with
  | queued pid =>
    have hpermitted : MakesPlain (perform .readPermit : Desktop DesktopMonitor Empty Bool) :=
      Act.uses_perform trivial
    refine .andThen (plain_keeps hpermitted) fun permitted => Act.keeps_ite ?_ (Act.keeps_ret _)
    exact Act.keeps_ite (plain_keeps DesktopMonitor.plain_reconcile) (keeps_scan pid)
  | notified pid reset => exact plain_keeps (DesktopMonitor.plain_notified pid reset)
  | retried pid => exact plain_keeps (DesktopMonitor.plain_retried pid)
  | configured => exact plain_keeps DesktopMonitor.plain_configured

/-! ## What the press rests on -/

/-- What is noted is the end of what was called. -/
theorem pressMonitor_suffix (calls tr : List (Prog.Event DesktopReply)) :
    pressMonitor.after calls tr <:+ calls ++ tr := by
  induction tr generalizing calls with
  | nil => rw [List.append_nil]; exact List.suffix_rfl
  | cons e tr ih =>
    rw [Monitor.after_cons]
    refine (ih _).trans ?_
    have happend : calls ++ e :: tr = (calls ++ [e]) ++ tr := by simp
    rw [happend]
    obtain ⟨op, r⟩ := e
    cases op with
    | lockRules => exact ⟨calls, by simp [pressMonitor]⟩
    | _ => exact List.suffix_rfl

/-- The rule and the button that a read has found: the only rule that matches, which is in the
configuration and enabled, and a label that it accepts. -/
structure SoleMatch (rules : DialogSettings) (identity : String × String)
    (found : MatchedButton) : Prop where
  sole : ∃ title heading selectors,
    rules.matching identity.1 identity.2 title heading = [(found.rule, selectors)] ∧
      rules.rules.lookup found.rule = some selectors ∧ selectors.enabled = true ∧
      accepts found.rule selectors found.label = true

theorem Reads.soleMatch {window : Element} {rules : DialogSettings} {identity : String × String}
    {tr : List (Prog.Event DesktopReply)} {found : MatchedButton}
    (h : Reads window rules identity tr found) : SoleMatch rules identity found := by
  obtain ⟨p, p', h⟩ := h
  obtain ⟨_, _, title, _, _, _, h⟩ := Act.returns_andThen_ok.mp h
  obtain ⟨_, _, _, _, _, _, h⟩ := Act.returns_andThen_ok.mp h
  obtain ⟨_, _, seen, _, _, _, h⟩ := Act.returns_andThen_ok.mp h
  obtain ⟨_, hchosen, _⟩ := Act.returns_ofExcept.mp h
  obtain ⟨selectors, hmatching, hbuttons⟩ := chooseButton_ok hchosen.symm
  have hmem := hmatching ▸ List.mem_singleton_self (found.rule, selectors)
  have hbutton := hbuttons ▸ List.mem_singleton_self (found.button, found.label)
  obtain ⟨hlookup, henabled⟩ := DialogSettings.mem_matching hmem
  exact ⟨title, _, selectors, hmatching, hlookup, henabled, (List.mem_filter.mp hbutton).2⟩

namespace SharedPermit

variable {shared : SharedPermit} {moments : List DesktopMoment}

omit [Lowercase] in
/-- With both locks taken there is nothing but calls. -/
theorem calls_only (hsilent : ∀ moment ∈ moments, moment.call? = none)
    (hrules : ∀ moment ∈ moments, ∀ rules, moment ≠ .configured rules)
    (hpermit : ∀ moment ∈ moments, moment ≠ .stopped) : moments = [] := by
  refine List.eq_nil_iff_forall_not_mem.mpr fun moment hmem => ?_
  cases moment with
  | call e => cases hsilent _ hmem
  | configured rules => exact hrules _ hmem rules rfl
  | stopped => exact hpermit _ hmem rfl

omit [Lowercase] in
theorem eq_call {moment : DesktopMoment} {e : Prog.Event DesktopReply}
    (h : moment.call? = some e) : moment = .call e := by
  cases moment with
  | call e' => rw [Option.some.inj h]
  | configured rules => cases h
  | stopped => cases h

omit [Lowercase] in
/-- With the rules taken and then the permit, the logged attempt is the last moment. -/
theorem announced_last {plain : List (Prog.Event DesktopReply)} {event : DialogEvent}
    (hheld : shared.rulesHeld = true) (hpasses : shared.Passes moments)
    (hcalls : moments.filterMap DesktopMoment.call? =
      plain ++ [⟨.lockPermit, true⟩, ⟨.append event, true⟩])
    (hplain : ∀ e ∈ plain, e.1.IsPlain) :
    (∃ earlier, moments = earlier ++ [.call ⟨.append event, true⟩]) ∧
      (shared.after moments).rules = shared.rules ∧ (shared.after moments).permit = true := by
  have hkept : ∀ e ∈ moments.filterMap DesktopMoment.call?, e.1 ≠ .unlockRules := by
    rw [hcalls]
    refine List.forall_mem_append.mpr ⟨fun e he heq => ?_, by simp⟩
    have hunlock := hplain e he
    rw [heq] at hunlock
    exact hunlock
  obtain ⟨⟨_, hrules⟩, hunconfigured⟩ := rules_stay hheld hpasses hkept
  obtain ⟨start, rest, rfl, _, hrest⟩ := List.filterMap_eq_append_iff.mp hcalls
  obtain ⟨silent, taken, tail, rfl, _, htaken, htail⟩ := List.filterMap_eq_cons_iff.mp hrest
  obtain ⟨between, logged, last, rfl, hbetween, hlogged, hlast⟩ :=
    List.filterMap_eq_cons_iff.mp htail
  obtain rfl := eq_call htaken
  obtain rfl := eq_call hlogged
  obtain ⟨_, hpossible, hpasses⟩ := passes_append.mp (passes_append.mp hpasses).2
  have hpermitted : (((shared.after start).after silent)).permit = true := hpossible.symm
  obtain ⟨⟨_, hpermit⟩, hunstopped⟩ := permit_stays rfl hpasses (by
    rw [htail]
    simp)
  have hsub : ∀ moment ∈ between ++ DesktopMoment.call ⟨.append event, true⟩ :: last,
      ∀ rules, moment ≠ .configured rules := fun moment hmem =>
    hunconfigured moment (List.mem_append_right _ (List.mem_append_right _
      (List.mem_cons_of_mem _ hmem)))
  obtain rfl := calls_only hbetween (fun moment hmem => hsub moment (List.mem_append_left _ hmem))
    fun moment hmem => hunstopped moment (List.mem_append_left _ hmem)
  obtain rfl := calls_only (List.filterMap_eq_nil_iff.mp hlast)
    (fun moment hmem => hsub moment (List.mem_append_right _ (List.mem_cons_of_mem _ hmem)))
    fun moment hmem => hunstopped moment (List.mem_append_right _ (List.mem_cons_of_mem _ hmem))
  refine ⟨⟨start ++ (silent ++ [.call ⟨.lockPermit, true⟩]), by simp⟩, hrules, ?_⟩
  rw [after_append, after_append]
  exact hpermit.trans hpermitted

end SharedPermit

/-- What a press rests on, given what came before it. -/
structure PressAuthorized (shared : SharedPermit) (before : List DesktopMoment)
    (window button : Element) : Prop where
  /-- The last thing is that the attempt was logged, for a process and for the rule and the button
  of two reads that agree; the rules were taken before and are in force. The rule is enabled, and
  it is the only one that matches the process, which the system has identified before and after the
  reads. -/
  announced : ∃ rules app identity matched current event front reading,
    before.getLast? = some (.call ⟨.append event, true⟩) ∧
    before.filterMap DesktopMoment.call? = front ++ ⟨.lockRules, some rules⟩ :: (reading ++
      [⟨.lockPermit, true⟩, ⟨.append event, true⟩]) ∧
    Announces event app matched ∧
    ReadTwice app window rules identity matched current reading ∧
    SoleMatch rules identity matched ∧ SoleMatch rules identity current ∧
    button = current.button ∧ (shared.after before).rules = some rules
  permitted : (shared.after before).permit = true
  running : .stopped ∉ before

/-- In every run of the monitor, however the other threads configure and stop it in between, a
press is authorized. -/
theorem press_authorized {m m' : DesktopMonitor} {records : List MonitorRecord}
    (hrun : MonitorRun m records m') {shared : SharedPermit} {moments : List DesktopMoment}
    (hpasses : shared.Passes moments)
    (hcalls : moments.filterMap DesktopMoment.call? = callsOf records)
    {before after : List DesktopMoment} {window button : Element} {r : Except AxError Unit}
    (heq : moments = before ++ .call ⟨.press window button, r⟩ :: after) :
    PressAuthorized shared before window button := by
  subst heq
  rw [List.filterMap_append, List.filterMap_cons_some (f := DesktopMoment.call?) rfl] at hcalls
  obtain ⟨hbefore, _⟩ := SharedPermit.passes_append.mp hpasses
  obtain ⟨rules, event, hdue⟩ := hrun.allowed MonitorOp.keeps (s := []) trivial hcalls.symm
  obtain ⟨reading, app, identity, matched, current, hnoted, hplain, hread, hannounces, hbutton⟩ :=
    hdue.reads
  obtain ⟨front, hfront⟩ := pressMonitor_suffix [] (before.filterMap DesktopMoment.call?)
  rw [hnoted, List.nil_append] at hfront
  have hcalled := hfront.symm
  -- from the moment at which the rules were taken
  obtain ⟨start, rest, rfl, _, hrest⟩ := List.filterMap_eq_append_iff.mp hcalled
  obtain ⟨silent, taken, tail, rfl, _, htaken, htail⟩ := List.filterMap_eq_cons_iff.mp hrest
  obtain rfl := SharedPermit.eq_call htaken
  obtain ⟨_, hpossible, htaken⟩ :=
    SharedPermit.passes_append.mp (SharedPermit.passes_append.mp hbefore).2
  have hinforce : some rules = ((shared.after start).after silent).rules := hpossible
  obtain ⟨⟨earlier, rfl⟩, hrules, hpermit⟩ :=
    SharedPermit.announced_last rfl htaken htail hplain
  have hafter : shared.after (start ++ (silent ++ DesktopMoment.call ⟨.lockRules, some rules⟩ ::
      (earlier ++ [.call ⟨.append event, true⟩]))) =
        ((DesktopMoment.call ⟨.lockRules, some rules⟩).next ((shared.after start).after
          silent)).after (earlier ++ [.call ⟨.append event, true⟩]) := by
    rw [SharedPermit.after_append, SharedPermit.after_append]
    rfl
  obtain ⟨_, _, _, first, second, _, _, _, hfirst, hsecond⟩ := hread.calls
  refine ⟨⟨rules, app, identity, matched, current, event, front, reading, ?_, hcalled, hannounces,
    hread, hfirst.soleMatch, hsecond.soleMatch, hbutton, ?_⟩, ?_, ?_⟩
  · have hsplit : start ++ (silent ++ DesktopMoment.call ⟨.lockRules, some rules⟩ ::
        (earlier ++ [.call ⟨.append event, true⟩])) =
        (start ++ (silent ++ DesktopMoment.call ⟨.lockRules, some rules⟩ :: earlier)) ++
          [.call ⟨.append event, true⟩] := by simp
    rw [hsplit, List.getLast?_concat]
  · rw [hafter, hrules]
    exact hinforce.symm
  · rw [hafter]
    exact hpermit
  · exact SharedPermit.not_stopped (hafter ▸ hpermit)

/-- A system with the window, which the process shows, under the rule for its button. -/
def watchedDesktop : (op : DesktopCall) → DesktopReply op
  | .lockRules => some sampleRules
  | .attribute e name =>
    if name = "AXWindows" then .ok (.array [some sampleHandle])
    else sampleAttribute "AXGroup" 14 e name
  | op => sampleDesktop "AXGroup" 14 op

/-- A monitor that observes the process. -/
def watchedMonitor : DesktopMonitor where
  processes := Table.empty.insert 1 ⟨⟨1, 0⟩, ⟨20, 9⟩, [], ["AXWindowCreated"], none⟩
  dryRun := false

omit [Lowercase] in
/-- A scan against these answers passes where the rules are in force and the permit stands. -/
theorem watchedDesktop_passes {shared : SharedPermit} (hpermit : shared.permit = true)
    (hrules : shared.rules = some sampleRules) {tr : List (Prog.Event DesktopReply)}
    (h : ∀ e ∈ tr, e.2 = watchedDesktop e.1) (hread : ∀ e ∈ tr, e.1 ≠ .readRules) :
    shared.Passes (tr.map .call) := by
  induction tr generalizing shared with
  | nil => trivial
  | cons e tr ih =>
    obtain ⟨op, r⟩ := e
    obtain rfl : r = watchedDesktop op := h _ List.mem_cons_self
    have hrest : ∀ e ∈ tr, e.2 = watchedDesktop e.1 := fun e he => h e (List.mem_cons_of_mem _ he)
    have hread' : ∀ e ∈ tr, e.1 ≠ .readRules := fun e he => hread e (List.mem_cons_of_mem _ he)
    cases op with
    | readRules => exact absurd rfl (hread _ List.mem_cons_self)
    | readPermit => exact ⟨hpermit.symm, ih hpermit hrules hrest hread'⟩
    | lockPermit => exact ⟨hpermit.symm, ih hpermit hrules hrest hread'⟩
    | lockRules => exact ⟨hrules.symm, ih hpermit hrules hrest hread'⟩
    | _ => exact ⟨trivial, ih hpermit hrules hrest hread'⟩

/-- A call that asks for the rules without taking them. -/
def asksRules : Prog.Event DesktopReply → Bool
  | ⟨.readRules, _⟩ => true
  | _ => false

/-- A press of the button of the window. -/
def pressesSample : Prog.Event DesktopReply → Bool
  | ⟨.press window button, _⟩ => window == sampleHandle && button == ⟨11, 1⟩
  | _ => false

/-- The scan of the process by this monitor. -/
def watchedScan : List (Prog.Event DesktopReply) × Except Empty Unit × DesktopMonitor :=
  (@MonitorOp.method ⟨String.toLower⟩ (.queued 1) watchedMonitor).execute watchedDesktop

omit [Lowercase] in
theorem watchedScan_presses : watchedScan.1.any pressesSample = true := rfl

omit [Lowercase] in
theorem watchedScan_quiet : watchedScan.1.any asksRules = false := rfl

omit [Lowercase] in
/-- The rules are configured, and the process is scanned. -/
theorem press_authorized_sample : ∃ before after r,
    .configured sampleRules :: watchedScan.1.map .call =
      before ++ .call ⟨.press sampleHandle ⟨11, 1⟩, r⟩ :: after ∧
    @PressAuthorized ⟨String.toLower⟩ ⟨true, none, false, false⟩ before sampleHandle ⟨11, 1⟩ := by
  have hreturns := Prog.execute_returns watchedDesktop
    (@MonitorOp.method ⟨String.toLower⟩ (.queued 1) watchedMonitor)
  have hrun := @MonitorRun.snoc ⟨String.toLower⟩ _ _ _ _ _ _ _ (@MonitorRun.nil ⟨String.toLower⟩ _)
    hreturns
  obtain ⟨⟨op, r⟩, hmem, hpress⟩ := List.any_eq_true.mp watchedScan_presses
  cases op with
  | press window button =>
    obtain ⟨hwindow, hbutton⟩ := (Bool.and_eq_true _ _).mp hpress
    obtain rfl := eq_of_beq hwindow
    obtain rfl := eq_of_beq hbutton
    obtain ⟨before, after, hsplit⟩ := List.append_of_mem hmem
    refine ⟨.configured sampleRules :: before.map .call, after.map .call, r,
      by rw [hsplit, List.map_append, List.map_cons, List.cons_append], ?_⟩
    refine @press_authorized ⟨String.toLower⟩ _ _ _ hrun ⟨true, none, false, false⟩
      (.configured sampleRules :: watchedScan.1.map .call) ⟨rfl, ?_⟩ ?_ _ (after.map .call) _ _ r
      (by rw [hsplit, List.map_append, List.map_cons, List.cons_append])
    · refine watchedDesktop_passes rfl rfl Prog.execute_answered fun e he heq => ?_
      have hquiet := List.any_eq_false.mp watchedScan_quiet e he
      obtain ⟨op, r⟩ := e
      obtain rfl : op = .readRules := heq
      exact hquiet rfl
    · rw [List.filterMap_cons_none rfl, List.filterMap_map]
      exact List.filterMap_some.trans (List.append_nil _).symm
  | _ => cases hpress

end Watchcat
