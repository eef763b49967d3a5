import Watchcat.Transport.CodexDesktop
import Watchcat.Transport.Exchanges

/-!
# Attempts at a request

A run of a method tells which requests of some methods were written and how each
ended. A write that fails may have been complete, so it is an attempt too; the
stream itself never reports an error of the remote.
-/

namespace Watchcat

open Watchcat.Core Wire

/-- How a request ended, as far as it was waited for. -/
inductive RequestEnding
  | unanswered
  | response (wait : ResponseWait)
  | reply (wait : ReplyWait)

/-- A request that was written, and how it ended. -/
structure Attempt where
  request : Value
  ending : RequestEnding

/-- The message is a request of one of the methods. -/
def isOneOf (methods : List String) (message : Value) : Bool :=
  (message.textMember "method").any methods.contains

namespace Attempt

/-- The last attempt ends, if it was still unanswered; the last one comes first. -/
def endLast (ending : RequestEnding) : List Attempt → List Attempt
  | ⟨request, .unanswered⟩ :: attempts => ⟨request, ending⟩ :: attempts
  | attempts => attempts

/-- The attempts after a call. -/
def note (methods : List String) (attempts : List Attempt) : (op : WireCall) → WireReply op →
    List Attempt
  | .writeLine message, _ | .writeFrame message, _ =>
    if isOneOf methods message then ⟨message, .unanswered⟩ :: attempts else attempts
  | .awaitResponse requestId, frames => endLast (.response (readResponse requestId frames)) attempts
  | .awaitReply id, events => endLast (.reply (readReply id events)) attempts
  | _, _ => attempts

end Attempt

/-- The monitor that notes the attempts at some requests. -/
def attemptMonitor (methods : List String) : Monitor WireReply (List Attempt) where
  allowed := fun _ _ => True
  next := Attempt.note methods

/-- The attempts of a run, in order. -/
def attemptsOf (methods : List String) (tr : List (Prog.Event WireReply)) : List Attempt :=
  ((attemptMonitor methods).after [] tr).reverse

/-- The call writes no request of the methods. -/
def Quiet (methods : List String) : WireCall → Prop
  | .writeLine message | .writeFrame message => isOneOf methods message = false
  | _ => True

/-- What the stream itself reports is no error of the remote. -/
def StreamPlain : Prog.Event WireReply → Prop
  | ⟨.writeFrame _, .error e⟩ => e.remoteErrorMessage = none
  | ⟨.awaitResponse requestId, frames⟩ =>
    ∀ e, readResponse requestId frames = .failed e → e.remoteErrorMessage = none
  | _ => True

section

variable {methods : List String} {σ α : Type}

/-- A run of a method that writes none of the requests has no attempts. -/
theorem after_of_uses {m : Wire σ α} (h : Act.Uses (Quiet methods) m) {s s' : σ}
    {tr : List (Prog.Event WireReply)} {r : Except Error α} (hr : m.Returns s tr r s') :
    (attemptMonitor methods).after [] tr = [] := by
  refine (h.follows (M := attemptMonitor methods) (g := []) (s := s)
    (Q := fun attempts _ _ => attempts = []) (fun _ _ => trivial) (fun op answer hop => ?_)
    fun _ _ => rfl).returns hr
  cases op with
  | writeLine message => exact if_neg (Bool.eq_false_iff.mp hop)
  | writeFrame message => exact if_neg (Bool.eq_false_iff.mp hop)
  | _ => rfl

/-- Behind a part without attempts the attempts are those of the rest. -/
theorem attemptsOf_append_of_nil {tr tr' : List (Prog.Event WireReply)}
    (h : attemptsOf methods tr = []) : attemptsOf methods (tr ++ tr') = attemptsOf methods tr' := by
  rw [attemptsOf, Monitor.after_append, List.reverse_eq_nil_iff.mp h, attemptsOf]

/-- Behind a method that writes none of the requests the attempts are those of the rest. -/
theorem returns_after_quiet {β : Type} {m : Wire σ α} {f : α → Wire σ β}
    (hm : Act.Uses (Quiet methods) m) {s s' : σ} {tr : List (Prog.Event WireReply)}
    {r : Except Error β} (h : (Act.andThen m f).Returns s tr r s') :
    ((∃ e, r = .error e) ∧ attemptsOf methods tr = []) ∨
      ∃ first second a mid, tr = first ++ second ∧
        attemptsOf methods tr = attemptsOf methods second ∧ (f a).Returns mid second r s' := by
  rcases Act.returns_andThen.mp h with ⟨e, rfl, hfail⟩ | ⟨first, second, a, mid, rfl, hdone, hrest⟩
  · exact .inl ⟨⟨e, rfl⟩, List.reverse_eq_nil_iff.mpr (after_of_uses hm hfail)⟩
  · refine .inr ⟨first, second, a, mid, rfl, ?_, hrest⟩
    exact attemptsOf_append_of_nil (List.reverse_eq_nil_iff.mpr (after_of_uses hm hdone))

/-- The last attempt, which comes first, is not waited for any more. -/
def LastEnded (attempts : List Attempt) : Prop :=
  ∀ a ∈ attempts.head?, a.ending ≠ .unanswered

theorem endLast_append {ending : RequestEnding} {base : List Attempt} (h : LastEnded base)
    (attempts : List Attempt) :
    Attempt.endLast ending (attempts ++ base) = Attempt.endLast ending attempts ++ base := by
  cases attempts with
  | nil =>
    cases base with
    | nil => rfl
    | cons a base =>
      obtain ⟨request, last⟩ := a
      cases last with
      | unanswered => exact absurd rfl (h _ rfl)
      | response wait => rfl
      | reply wait => rfl
  | cons a attempts =>
    obtain ⟨request, last⟩ := a
    cases last with
    | unanswered => rfl
    | response wait => rfl
    | reply wait => rfl

/-- What follows attempts that have ended does not change them. -/
theorem after_append_ended {base : List Attempt} (h : LastEnded base)
    (tr : List (Prog.Event WireReply)) (attempts : List Attempt) :
    (attemptMonitor methods).after (attempts ++ base) tr =
      (attemptMonitor methods).after attempts tr ++ base := by
  induction tr generalizing attempts with
  | nil => rfl
  | cons e tr ih =>
    obtain ⟨op, answer⟩ := e
    rw [Monitor.after_cons, Monitor.after_cons, ← ih]
    refine congrArg (fun l => (attemptMonitor methods).after l tr) ?_
    cases op with
    | writeLine message | writeFrame message =>
      show (if _ then _ else _) = (if _ then _ else _) ++ base
      split <;> rfl
    | awaitReply id => exact endLast_append h attempts
    | awaitResponse requestId => exact endLast_append h attempts
    | _ => rfl

/-! ## Methods that write none of the requests -/

theorem quiet_send {message : Value} (h : isOneOf methods message = false) :
    Act.Uses (Quiet methods) (JsonRpcClient.send message) :=
  .andThen Act.uses_get fun _ => Act.uses_ite
    (.andThen (Act.uses_perform h) fun r => Act.uses_ofExcept r) (Act.uses_fail _)

theorem quiet_discard : Act.Uses (Quiet methods) JsonRpcClient.discardUnhealthyProcess :=
  .andThen (Act.uses_perform trivial) fun _ => Act.uses_modify _

theorem quiet_requestInner {method : String} {params : Value} {mayHaveStarted : Bool}
    (h : method ∉ methods) :
    Act.Uses (Quiet methods) (JsonRpcClient.requestInner method params mayHaveStarted) := by
  refine .andThen (Act.uses_update _) fun id => .andThen (.attempt (quiet_send ?_)) fun sent => ?_
  · exact Bool.eq_false_iff.mpr fun hmem => h (List.contains_iff_mem.mp hmem)
  · cases sent with
    | error e => exact .andThen quiet_discard fun _ => Act.uses_fail e
    | ok _ =>
      refine .andThen (Act.uses_perform trivial) fun events => ?_
      cases readReply id events with
      | answered result => exact Act.uses_ofExcept result
      | dropped => exact .andThen quiet_discard fun _ => Act.uses_fail _
      | elapsed => exact .andThen quiet_discard fun _ => Act.uses_fail _

theorem quiet_isRunning : Act.Uses (Quiet methods) JsonRpcClient.isRunning := by
  refine .andThen Act.uses_get fun c => Act.uses_ite (Act.uses_ret _) ?_
  refine .andThen (Act.uses_perform trivial) fun r => ?_
  refine .andThen (Act.uses_ofExcept r) fun exited => ?_
  exact Act.uses_ite (.andThen (Act.uses_modify _) fun _ => Act.uses_ret _) (Act.uses_ret _)

theorem quiet_start : Act.Uses (Quiet methods) JsonRpcClient.start := by
  have hspawn : Act.Uses (Quiet methods) (do
      Act.ofExcept (← perform .spawn)
      Act.modify fun c => { c with child := true, stdin := true } : Wire JsonRpcClient Unit) :=
    .andThen (Act.uses_perform trivial) fun r =>
      .andThen (Act.uses_ofExcept r) fun _ => Act.uses_modify _
  refine .andThen Act.uses_get fun c => Act.uses_ite ?_ hspawn
  refine .andThen (Act.uses_perform trivial) fun r => ?_
  refine .andThen (Act.uses_ofExcept r) fun exited => ?_
  exact Act.uses_ite (Act.uses_ret _) (.andThen (Act.uses_modify _) fun _ => hspawn)

theorem quiet_desktopRequest {method : String} {version : Nat} {params : Value}
    {target : Option String} {mayHaveStarted : Bool} (h : method ∉ methods) :
    Act.Uses (Quiet methods)
      (CodexDesktopIpc.requestInner method version params target mayHaveStarted) := by
  refine .andThen (Act.uses_perform trivial) fun requestId => .andThen Act.uses_get fun client => ?_
  refine .andThen (Act.uses_perform ?_) fun r => .andThen (Act.uses_ofExcept r) fun _ => ?_
  · exact Bool.eq_false_iff.mpr fun hmem => h (List.contains_iff_mem.mp hmem)
  · exact .andThen (Act.uses_perform trivial) fun frames => Act.uses_ofExcept _

theorem quiet_connectDefault (h : "initialize" ∉ methods) :
    Act.Uses (Quiet methods)
      (CodexDesktopIpc.connectDefault : Wire σ (Option CodexDesktopIpc)) := by
  have hinit : Act.Uses (Quiet methods) CodexDesktopIpc.initializeClient := by
    refine .andThen (quiet_desktopRequest h) fun response => ?_
    cases response.textAt [["result", "clientId"]] with
    | some id => exact Act.uses_modify _
    | none => exact Act.uses_fail _
  refine .andThen (Act.uses_perform trivial) fun r => .andThen (Act.uses_ofExcept r) fun found => ?_
  exact Act.uses_ite (.andThen (.within (.mapError hinit)) fun _ => Act.uses_ret _) (Act.uses_ret _)

/-! ## Requests that are attempts -/

/-- The frame of a request of the Desktop client. -/
def desktopFrame (requestId clientId method : String) (version : Nat) (params : Value)
    (target : Option String) : Value :=
  .obj ([("type", .str "request"), ("requestId", .str requestId), ("sourceClientId", .str clientId),
    ("version", .int version), ("method", .str method), ("params", params),
    ("timeoutMs", .int 10000)] ++ (target.map fun t => ("targetClientId", Value.str t)).toList)

/-- A request to the Desktop is one more attempt: it was answered, and checked, or it failed without
an error of the remote. -/
theorem desktopRequest_returns {method : String} {version : Nat} {params : Value}
    {target : Option String} {mayHaveStarted : Bool} {c c' : CodexDesktopIpc}
    {tr : List (Prog.Event WireReply)}
    {r : Except Error Value} (hmethod : method ∈ methods) (hplain : ∀ e ∈ tr, StreamPlain e)
    (h : (CodexDesktopIpc.requestInner method version params target mayHaveStarted).Returns
      c tr r c') (attempts : List Attempt) :
    ∃ requestId ending, (attemptMonitor methods).after attempts tr =
        ⟨desktopFrame requestId c.clientId method version params target, ending⟩ :: attempts ∧
      ((∃ response, ending = .response (.response response) ∧ r = checkResponse method response) ∨
        ∃ e, r = .error e ∧ e.remoteErrorMessage = none) := by
  obtain ⟨requestId, rest, rfl, hdrawn⟩ := Act.returns_perform_andThen.mp h
  rw [Act.bind_eq, Act.returns_get_andThen] at hdrawn
  obtain ⟨written, rest, rfl, hwritten⟩ := Act.returns_perform_andThen.mp hdrawn
  have hframe : (attemptMonitor methods).next attempts
      (.writeFrame (desktopFrame requestId c.clientId method version params target)) written =
        ⟨desktopFrame requestId c.clientId method version params target, .unanswered⟩ :: attempts :=
    if_pos (List.contains_iff_mem.mpr hmethod)
  cases written with
  | error e =>
    obtain ⟨rfl, rfl, _⟩ := Act.returns_fail.mp hwritten
    refine ⟨requestId, .unanswered, hframe, .inr ⟨e, rfl, ?_⟩⟩
    exact hplain _ (List.mem_cons_of_mem _ List.mem_cons_self)
  | ok _ =>
    obtain ⟨frames, rest, rfl, hended⟩ := Act.returns_perform_andThen.mp hwritten
    obtain ⟨rfl, rfl, _⟩ := Act.returns_ofExcept.mp hended
    refine ⟨requestId, .response (readResponse requestId frames), ?_, ?_⟩
    · rw [Monitor.after_cons, Monitor.after_cons]
      exact congrArg (fun l => Attempt.endLast _ l) hframe
    · cases hread : readResponse requestId frames with
      | response response => exact .inl ⟨response, rfl, rfl⟩
      | failed e =>
        right
        have he : e.remoteErrorMessage = none :=
          hplain _ (List.mem_cons_of_mem _ (List.mem_cons_of_mem _ List.mem_cons_self)) e hread
        cases mayHaveStarted with
        | true => exact ⟨_, rfl, rfl⟩
        | false => exact ⟨e, rfl, he⟩
      | elapsed =>
        right
        cases mayHaveStarted with
        | true => exact ⟨_, rfl, rfl⟩
        | false => exact ⟨_, rfl, rfl⟩

/-- Discarding the process is no attempt. -/
theorem discard_returns {c c' : JsonRpcClient} {tr : List (Prog.Event WireReply)} {e : Error}
    {r : Except Error Value}
    (h : (Act.andThen JsonRpcClient.discardUnhealthyProcess fun _ => Act.fail e).Returns c tr r c')
    (attempts : List Attempt) :
    r = .error e ∧ (attemptMonitor methods).after attempts tr = attempts := by
  rw [JsonRpcClient.discardUnhealthyProcess, Act.bind_eq, Act.andThen_assoc] at h
  obtain ⟨answer, rest, rfl, hreset⟩ := Act.returns_perform_andThen.mp h
  rw [JsonRpcClient.resetProcess, Act.returns_modify_andThen] at hreset
  obtain ⟨rfl, rfl, _⟩ := Act.returns_fail.mp hreset
  exact ⟨rfl, rfl⟩

/-- A request to the App Server is one more attempt, if its line was sent. -/
theorem serverRequest_returns {method : String} {params : Value} {c c' : JsonRpcClient}
    {tr : List (Prog.Event WireReply)} {r : Except Error Value} (hmethod : method ∈ methods)
    (h : (JsonRpcClient.request method params).Returns c tr r c') (attempts : List Attempt) :
    (∃ id ending, (attemptMonitor methods).after attempts tr =
        ⟨requestLine method id params, ending⟩ :: attempts ∧
      ∀ result, r = .ok result → ending = .reply (.answered (.ok result))) ∨
    (∃ e, r = .error e) ∧ (attemptMonitor methods).after attempts tr = attempts := by
  rw [JsonRpcClient.request, JsonRpcClient.requestInner, Act.bind_eq, Act.returns_update_andThen,
    Act.bind_eq, Act.returns_attempt_andThen, JsonRpcClient.send] at h
  obtain ⟨first, second, sent, mid, rfl, hsend, hrest⟩ := h
  rw [Act.bind_eq, Act.returns_get_andThen] at hsend
  have hline : ∀ written, (attemptMonitor methods).next attempts
      (.writeLine (requestLine method c.nextId params)) written =
        ⟨requestLine method c.nextId params, .unanswered⟩ :: attempts :=
    fun _ => if_pos (List.contains_iff_mem.mpr hmethod)
  split at hsend
  · obtain ⟨written, rest, rfl, hwritten⟩ := Act.returns_perform_andThen.mp hsend
    obtain ⟨rfl, hsent, _⟩ := Act.returns_ofExcept.mp hwritten
    subst hsent
    left
    have hafter : (attemptMonitor methods).after attempts ([⟨.writeLine _, sent⟩] ++ second) =
        (attemptMonitor methods).after
          (⟨requestLine method c.nextId params, .unanswered⟩ :: attempts) second :=
      congrArg (fun l => (attemptMonitor methods).after l second) (hline sent)
    cases sent with
    | error e =>
      obtain ⟨rfl, hquiet⟩ := discard_returns hrest _
      exact ⟨c.nextId, .unanswered, hafter.trans hquiet, by rintro _ ⟨⟩⟩
    | ok _ =>
      obtain ⟨events, rest, rfl, hended⟩ := Act.returns_perform_andThen.mp hrest
      dsimp only at hended
      refine ⟨c.nextId, .reply (readReply c.nextId events), ?_⟩
      cases hread : readReply c.nextId events with
      | answered result =>
        simp only [hread] at hended
        obtain ⟨rfl, rfl, _⟩ := Act.returns_ofExcept.mp hended
        refine ⟨hafter.trans ?_, fun result hresult => by rw [hresult]⟩
        exact congrArg (fun w => Attempt.mk _ (.reply w) :: attempts) hread
      | dropped =>
        simp only [hread] at hended
        obtain ⟨rfl, hquiet⟩ := discard_returns hended _
        refine ⟨(hafter.trans hquiet).trans ?_, by rintro _ ⟨⟩⟩
        exact congrArg (fun w => Attempt.mk _ (.reply w) :: attempts) hread
      | elapsed =>
        simp only [hread] at hended
        obtain ⟨rfl, hquiet⟩ := discard_returns hended _
        refine ⟨(hafter.trans hquiet).trans ?_, by rintro _ ⟨⟩⟩
        exact congrArg (fun w => Attempt.mk _ (.reply w) :: attempts) hread
  · obtain ⟨rfl, rfl, _⟩ := Act.returns_fail.mp hsend
    obtain ⟨rfl, hquiet⟩ := discard_returns hrest attempts
    exact .inr ⟨⟨_, rfl⟩, hquiet⟩

end

end Watchcat
