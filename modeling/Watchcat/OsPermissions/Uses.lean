import Watchcat.OsPermissions.Monitor

/-!
# The calls of the monitor

Only the scan of a window takes a lock and presses a button; everything else the
monitor does reads, writes to the log, or asks for a callback.
-/

namespace Watchcat

open Watchcat.Core Desktop

/-- The calls that press nothing and take or leave no lock. -/
def DesktopCall.IsPlain : DesktopCall → Prop
  | .lockPermit | .unlockPermit | .lockRules | .unlockRules | .press _ _ => False
  | _ => True

/-- The method makes plain calls only. -/
abbrev MakesPlain {σ ε α : Type} (m : Desktop σ ε α) : Prop := Act.Uses DesktopCall.IsPlain m

/-- The method makes plain calls only, and leaves the state. -/
abbrev Asks {σ ε α : Type} (m : Desktop σ ε α) : Prop := Act.Inquires DesktopCall.IsPlain m

variable {σ ε : Type}

/-! ## Reading and recording -/

theorem asks_record (kind : String) (pid : Option Int) (app : String)
    (rule button : Option String) (detail : String) :
    Asks (record kind pid app rule button detail : Desktop σ ε Bool) :=
  Act.inquires_perform trivial

theorem asks_updateStatus (change : DialogStatus → DialogStatus) :
    Asks (updateStatus change : Desktop σ ε Unit) := Act.inquires_perform trivial

theorem asks_appName (app : App) : Asks (appName app : Desktop σ ε String) := by
  refine .andThen (Act.inquires_perform trivial) fun bundle => ?_
  cases bundle with
  | some bundle => exact Act.inquires_ret _
  | none =>
    refine .andThen (Act.inquires_perform trivial) fun name => ?_
    cases name with
    | some name => exact Act.inquires_ret _
    | none => exact Act.inquires_ret _

theorem asks_appIdentity (app : App) :
    Asks (appIdentity app : Desktop σ ε (Option (String × String))) := by
  refine .andThen (Act.inquires_perform trivial) fun path => ?_
  cases path with
  | none => exact Act.inquires_ret _
  | some path => exact .andThen (Act.inquires_perform trivial) fun _ => Act.inquires_ret _

theorem asks_isObserved (rules : DialogSettings) (app : App) :
    Asks (isObserved rules app : Desktop σ ε Bool) := by
  refine .andThen (Act.inquires_perform trivial) fun terminated =>
    Act.inquires_ite (Act.inquires_ret _) ?_
  refine .andThen (asks_appIdentity app) fun identity => ?_
  cases identity with
  | none => exact Act.inquires_ret _
  | some identity => exact Act.inquires_ret _

theorem asks_string (element : Element) (name : String) :
    Asks (string element name : Desktop σ AxError String) := by
  refine .andThen (Act.inquires_perform trivial) fun answer => ?_
  split <;> first | exact Act.inquires_ret _ | exact Act.inquires_fail _

theorem asks_elements (element : Element) (name : String) :
    Asks (elements element name : Desktop σ AxError (List Element)) := by
  refine .andThen (Act.inquires_perform trivial) fun answer => ?_
  split <;> first | exact Act.inquires_ret _ | exact Act.inquires_fail _

/-! ## Inspecting a window -/

theorem asks_readOr {α : Type} (reason : String) {m : Desktop σ AxError α} (h : Asks m) :
    Asks (readOr reason m) := .mapError h

theorem asks_inspectButton (element : Element) (seen : Inspection) :
    Asks (inspectButton element seen : Desktop σ String Inspection) := by
  refine .andThen (asks_readOr _ (asks_string _ _)) fun title => Act.inquires_ite
    (.andThen (asks_readOr _ (asks_string _ _)) fun label => ?_)
    (.andThen (Act.inquires_ret _) fun label => ?_)
  all_goals
    refine .andThen (Act.inquires_perform trivial) fun answer => ?_
    split
    · exact Act.inquires_fail _
    · exact Act.inquires_ite (Act.inquires_ret _) (Act.inquires_ret _)
    · exact Act.inquires_fail _

theorem asks_inspectText (element : Element) (seen : Inspection) :
    Asks (inspectText element seen : Desktop σ String Inspection) := by
  refine .andThen (asks_readOr _ (asks_string _ _)) fun value => Act.inquires_ite
    (.andThen (asks_readOr _ (asks_string _ _)) fun value => ?_)
    (.andThen (Act.inquires_ret _) fun value => ?_)
  all_goals exact Act.inquires_ite (Act.inquires_ret _) (Act.inquires_ret _)

theorem asks_inspectElement (element : Element) (seen : Inspection) :
    Asks (inspectElement element seen : Desktop σ String Inspection) := by
  refine .andThen (asks_readOr _ (asks_string _ _)) fun role =>
    Act.inquires_ite (Act.inquires_fail _) ?_
  refine Act.inquires_ite (.andThen (asks_inspectButton _ _) fun seen => ?_)
    (Act.inquires_ite (.andThen (asks_inspectText _ _) fun seen => ?_)
      (.andThen (Act.inquires_ret _) fun seen => ?_))
  all_goals exact Act.inquires_ite (Act.inquires_fail _) (Act.inquires_ret _)

theorem asks_childrenOf (element : Element) :
    Asks (childrenOf element : Desktop σ String (List Element)) := by
  refine .andThen (.attempt (asks_elements _ _)) fun answer => ?_
  split <;> first | exact Act.inquires_ret _ | exact Act.inquires_fail _

theorem asks_overBudget (deadline : Int) (seen : Inspection) (depth : Nat) :
    Asks (overBudget deadline seen depth : Desktop σ String Bool) :=
  Act.inquires_ite (Act.inquires_ret _)
    (.andThen (Act.inquires_perform trivial) fun _ => Act.inquires_ret _)

theorem asks_popUnvisited (deadline : Int) (seen : Inspection)
    {visit : Element → Nat → List (Element × Nat) → Desktop σ String Inspection}
    (hvisit : ∀ element depth stack, Asks (visit element depth stack))
    (stack : List (Element × Nat)) : Asks (popUnvisited deadline seen visit stack) := by
  induction stack with
  | nil => exact Act.inquires_ret _
  | cons top stack ih =>
    obtain ⟨element, depth⟩ := top
    refine .andThen (Act.inquires_perform trivial) fun _ =>
      Act.inquires_ite (Act.inquires_fail _) ?_
    refine .andThen (asks_overBudget _ _ _) fun _ => Act.inquires_ite (Act.inquires_fail _) ?_
    exact Act.inquires_ite ih (hvisit _ _ _)

theorem asks_walkWindow (deadline : Int) (n : Nat) (seen : Inspection)
    (stack : List (Element × Nat)) :
    Asks (walkWindow deadline n seen stack : Desktop σ String Inspection) := by
  induction n generalizing seen stack with
  | zero => exact asks_popUnvisited _ _ (fun _ _ _ => Act.inquires_ret _) _
  | succ n ih =>
    refine asks_popUnvisited _ _ (fun element depth stack => ?_) _
    exact .andThen (asks_inspectElement _ _) fun seen =>
      .andThen (asks_childrenOf _) fun children => ih _ _

theorem asks_matchingButton [Lowercase] (window : Element) (rules : DialogSettings)
    (identity : String × String) :
    Asks (matchingButton window rules identity : Desktop σ String MatchedButton) :=
  .andThen (asks_readOr _ (asks_string _ _)) fun _ =>
    .andThen (Act.inquires_perform trivial) fun _ =>
      .andThen (asks_walkWindow _ _ _ _) fun _ => Act.inquires_ofExcept _

/-! ## A process and its windows -/

theorem asks_newProcess (app : App) : Asks (newProcess app : Desktop σ AxError Process) := by
  refine .andThen (Act.inquires_perform trivial) fun element => ?_
  refine .andThen (Act.inquires_perform trivial) fun created =>
    .andThen (Act.inquires_ofExcept _) fun _ => ?_
  refine .andThen ?_ fun subscriptions => Act.inquires_ret _
  refine .andThen (Act.inquires_perform trivial) fun windows =>
    .andThen (Act.inquires_perform trivial) fun sheets =>
    .andThen (Act.inquires_perform trivial) fun focus => ?_
  dsimp only
  split
  · exact Act.inquires_fail _
  · exact Act.inquires_ite (Act.inquires_fail _) (Act.inquires_ret _)

theorem asks_watchDialog (window : Element) (pid : Int) :
    Asks (watchDialog window pid : Desktop σ ε Unit) :=
  .andThen (Act.inquires_perform trivial) fun _ => .andThen (Act.inquires_perform trivial) fun _ =>
    .andThen (Act.inquires_perform trivial) fun _ => Act.inquires_ret _

theorem asks_agrees (identity : String × String) (matched current : MatchedButton) :
    Asks (agrees identity matched current : Desktop Process ε Bool) :=
  Act.inquires_ite (Act.inquires_ret _) (.andThen Act.inquires_get fun _ =>
    .andThen (Act.inquires_perform trivial) fun _ => Act.inquires_ite (Act.inquires_ret _)
      (.andThen (asks_appIdentity _) fun _ => Act.inquires_ret _))

theorem asks_passing {β : Type} {test : Int → β → Desktop σ ε Bool}
    (htest : ∀ pid b, Asks (test pid b)) (entries : List ((_ : Int) × β)) :
    Asks (passing test entries) := by
  induction entries with
  | nil => exact Act.inquires_ret _
  | cons entry entries ih =>
    exact .andThen (htest _ _) fun _ => .andThen ih fun _ => Act.inquires_ret _

theorem asks_abandonDialog (pid : Int) (app : App) (dialog : Dialog) :
    Asks (abandonDialog pid app dialog : Desktop σ ε Unit) :=
  Act.inquires_ite (.andThen (asks_appName _) fun _ => .andThen (asks_record _ _ _ _ _ _) fun _ =>
    Act.inquires_ret _) (Act.inquires_ret _)

theorem asks_keepProcess (rules : DialogSettings) (pid : Int) (process : Process) :
    Asks (keepProcess rules pid process : Desktop σ ε Bool) :=
  .andThen (asks_isObserved _ _) fun _ => Act.inquires_ite (Act.inquires_ret _)
    (.andThen (asks_appName _) fun _ => .andThen (asks_record _ _ _ _ _ _) fun _ =>
      .andThen (.forEach (fun _ => asks_abandonDialog _ _ _) _) fun _ => Act.inquires_ret _)

theorem asks_reconnectProcess (process : Process) :
    Asks (reconnectProcess process : Desktop σ ε Process) := by
  refine .andThen (.attempt (asks_newProcess _)) fun answer => ?_
  cases answer with
  | error e => exact Act.inquires_ret _
  | ok replacement =>
    exact .andThen (.forEach (fun _ => asks_watchDialog _ _) _) fun _ => Act.inquires_ret _

theorem asks_retryTimer (pid : Int) (attempts : Nat) (e : AxError) :
    Asks (retryTimer pid attempts e : Desktop σ ε Bool) :=
  Act.inquires_ite (Act.inquires_perform trivial) (Act.inquires_ret _)

/-! ## A process -/

theorem plain_discoverWindow (app : String) (window : Element) :
    MakesPlain (discoverWindow app window : Desktop Process ε Unit) :=
  .andThen Act.uses_get fun _ => Act.uses_ite
    (.andThen (asks_watchDialog _ _).uses fun _ => .andThen (asks_record _ _ _ _ _ _).uses fun _ =>
      Act.uses_modify _)
    (Act.uses_ret _)

theorem plain_checkDeadline (app : String) (dialog : Dialog) :
    MakesPlain (checkDeadline app dialog : Desktop Process ε Unit) := by
  unfold checkDeadline
  split
  · refine .andThen (Act.uses_perform trivial) fun now => Act.uses_ite ?_ (Act.uses_ret _)
    exact .andThen (Act.uses_modify _) fun _ => .andThen Act.uses_get fun _ =>
      .andThen (asks_record _ _ _ _ _ _).uses fun _ => (asks_updateStatus _).uses
  · exact Act.uses_ret _

theorem asks_forgetClosed (app : String) (windows : List Element) (dialog : Dialog) :
    Asks (forgetClosed app windows dialog : Desktop Process ε Unit) :=
  Act.inquires_ite
    (.andThen Act.inquires_get fun _ => .andThen (asks_record _ _ _ _ _ _) fun _ =>
      asks_updateStatus _)
    (Act.inquires_ret _)

theorem plain_settlePress (app : String) (dialog : Dialog) (matched : MatchedButton)
    (pressed : Except AxError Unit) :
    MakesPlain (settlePress app dialog matched pressed : Desktop Process ε Unit) := by
  refine .andThen Act.uses_get fun _ => Act.uses_ite ?_ ?_
  · exact .andThen (Act.uses_perform trivial) fun _ => .andThen (Act.uses_modify _) fun _ =>
      .andThen (Act.uses_perform trivial) fun _ => .andThen (asks_record _ _ _ _ _ _).uses fun _ =>
      .andThen (asks_updateStatus _).uses fun _ => Act.uses_perform trivial
  · exact .andThen (asks_record _ _ _ _ _ _).uses fun _ => (asks_updateStatus _).uses

/-! ## The monitor -/

namespace DesktopMonitor

theorem plain_attach (app : App) (previousAttempts : Nat) :
    MakesPlain (attach app previousAttempts : Desktop DesktopMonitor ε Unit) := by
  refine .andThen (.attempt (asks_newProcess _).uses) fun answer => ?_
  cases answer with
  | ok process =>
    exact .andThen (Act.uses_modify _) fun _ => .andThen (asks_appName _).uses fun _ =>
      .andThen (asks_record _ _ _ _ _ _).uses fun _ => .andThen (Act.uses_modify _) fun _ =>
      Act.uses_perform trivial
  | error e =>
    refine .andThen (asks_retryTimer _ _ _).uses fun timer => ?_
    exact .andThen (asks_appName _).uses fun _ => .andThen (asks_record _ _ _ _ _ _).uses fun _ =>
      Act.uses_modify _

theorem plain_requirePermission :
    MakesPlain (requirePermission : Desktop DesktopMonitor ε Unit) :=
  .andThen (Act.uses_modify _) fun _ => .andThen (Act.uses_perform trivial) fun _ =>
    .andThen (Act.uses_perform trivial) fun _ => .andThen (asks_updateStatus _).uses fun _ =>
    Act.uses_ite (.andThen (asks_record _ _ _ _ _ _).uses fun _ => Act.uses_ret _) (Act.uses_ret _)

theorem plain_attachApplications (rules : DialogSettings) (apps : List App) :
    MakesPlain (attachApplications rules apps : Desktop DesktopMonitor ε Bool) := by
  induction apps with
  | nil => exact Act.uses_ret _
  | cons app apps ih =>
    refine .andThen (Act.uses_perform trivial) fun permitted => Act.uses_ite (Act.uses_ret _) ?_
    refine .andThen Act.uses_get fun m => Act.uses_ite ih ?_
    refine .andThen (asks_isObserved _ _).uses fun observed => Act.uses_ite ?_ ih
    exact .andThen (asks_appName _).uses fun _ => .andThen Act.uses_get fun _ =>
      .andThen (asks_record _ _ _ _ _ _).uses fun _ => .andThen (plain_attach _ _) fun _ => ih

theorem plain_settleReconcile : MakesPlain (settleReconcile : Desktop DesktopMonitor ε Unit) :=
  .andThen (Act.uses_modify _) fun _ => .andThen Act.uses_get fun _ =>
    .andThen (asks_updateStatus _).uses fun _ => .forEach (fun _ => Act.uses_perform trivial) _

theorem plain_reconcile : MakesPlain (reconcile : Desktop DesktopMonitor ε Unit) := by
  refine .andThen (Act.uses_perform trivial) fun trusted =>
    Act.uses_ite plain_requirePermission ?_
  refine .andThen (Act.uses_perform trivial) fun rules => .andThen Act.uses_get fun m => ?_
  refine .andThen (asks_passing (fun _ _ => asks_keepProcess _ _ _) _).uses fun kept => ?_
  refine .andThen (Act.uses_modify _) fun _ => .andThen Act.uses_get fun m => ?_
  refine .andThen (asks_passing (fun _ _ => asks_isObserved _ _) _).uses fun pending => ?_
  refine .andThen (Act.uses_modify _) fun _ => .andThen (Act.uses_perform trivial) fun apps => ?_
  exact .andThen (plain_attachApplications _ _) fun done =>
    Act.uses_ite plain_settleReconcile (Act.uses_ret _)

theorem plain_reconnect : MakesPlain (reconnect : Desktop DesktopMonitor ε Unit) :=
  .andThen Act.uses_get fun _ => .forEach (fun _ => .andThen (asks_reconnectProcess _).uses fun _ =>
    Act.uses_modify _) _

theorem plain_notified (pid : Option Int) (reset : Bool) :
    MakesPlain (notified pid reset : Desktop DesktopMonitor ε Unit) :=
  .andThen (Act.uses_modify _) fun _ => Act.uses_ite
    (.andThen plain_reconnect fun _ => Act.uses_perform trivial) (Act.uses_perform trivial)

theorem plain_retryPending (pid : Int) (pending : PendingProcess) :
    MakesPlain (retryPending pid pending : Desktop DesktopMonitor ε Unit) :=
  .andThen (Act.uses_modify _) fun _ => .andThen (Act.uses_perform trivial) fun _ =>
    Act.uses_ite (.andThen (Act.uses_perform trivial) fun _ =>
      Act.uses_ite (plain_attach _ _) (Act.uses_ret _)) (Act.uses_ret _)

theorem plain_retried (pid : Int) : MakesPlain (retried pid : Desktop DesktopMonitor ε Unit) := by
  refine .andThen Act.uses_get fun m => ?_
  split
  · exact Act.uses_perform trivial
  · exact .andThen (plain_retryPending _ _) fun _ => Act.uses_perform trivial

theorem plain_configured : MakesPlain (configured : Desktop DesktopMonitor ε Unit) :=
  .andThen (Act.uses_modify _) fun _ => Act.uses_perform trivial

end DesktopMonitor

end Watchcat
