import Watchcat.Transport.JsonRpc

/-!
# Requests and their results

A request that succeeds leaves an exchange in the run: the line that was written
and, right after it, the wait that ended with the result.
-/

namespace Watchcat

open Watchcat.Core Wire

/-- The line of a request. -/
def requestLine (method : String) (id : Nat) (params : Value) : Value :=
  .obj [("method", .str method), ("id", .int id), ("params", params)]

/-- A request was written and answered with a result. -/
def Exchanged (tr : List (Prog.Event WireReply)) (method : String) (params result : Value) : Prop :=
  ∃ before after id written events,
    tr = before ++ ⟨.writeLine (requestLine method id params), written⟩ ::
      ⟨.awaitReply id, events⟩ :: after ∧
    readReply id events = .answered (.ok result)

variable {tr tr' : List (Prog.Event WireReply)} {method : String} {params result : Value}

theorem Exchanged.append_right (h : Exchanged tr method params result) :
    Exchanged (tr ++ tr') method params result := by
  obtain ⟨before, after, id, written, events, rfl, hread⟩ := h
  exact ⟨before, after ++ tr', id, written, events, by simp, hread⟩

theorem Exchanged.append_left (h : Exchanged tr method params result) :
    Exchanged (tr' ++ tr) method params result := by
  obtain ⟨before, after, id, written, events, rfl, hread⟩ := h
  exact ⟨tr' ++ before, after, id, written, events, by simp, hread⟩

theorem not_exchanged_nil : ¬Exchanged [] method params result := by
  rintro ⟨before, after, id, written, events, heq, _⟩
  exact absurd (congrArg List.length heq) (by simp)

/-- A call that writes no line begins no exchange. -/
theorem Exchanged.of_cons {e : Prog.Event WireReply} (he : ∀ message, e.1 ≠ .writeLine message)
    (h : Exchanged (e :: tr) method params result) : Exchanged tr method params result := by
  obtain ⟨before, after, id, written, events, heq, hread⟩ := h
  cases before with
  | nil => exact absurd (congrArg Sigma.fst (List.cons.inj heq).1) (he _)
  | cons _ before => exact ⟨before, after, id, written, events, (List.cons.inj heq).2, hread⟩

theorem requestLine_inj {method' : String} {id id' : Nat} {params' : Value}
    (h : requestLine method id params = requestLine method' id' params') :
    method = method' ∧ id = id' ∧ params = params' := by
  simpa [requestLine] using h

/-- An exchange is the first of a run or one of the rest. -/
theorem Exchanged.of_exchange {method' : String} {params' : Value} {id : Nat}
    {written : Except Error Unit} {events : List ReaderEvent}
    (h : Exchanged (⟨.writeLine (requestLine method' id params'), written⟩ ::
      ⟨.awaitReply id, events⟩ :: tr) method params result) :
    (method = method' ∧ params = params' ∧ readReply id events = .answered (.ok result)) ∨
      Exchanged tr method params result := by
  obtain ⟨before, after, id', written', events', heq, hread⟩ := h
  match before with
  | [] =>
    obtain ⟨hwrite, hawait⟩ := List.cons.inj heq
    obtain ⟨rfl, rfl, rfl⟩ := requestLine_inj (WireCall.writeLine.inj (congrArg Sigma.fst hwrite))
    obtain ⟨_, hevents⟩ := Sigma.mk.inj (List.cons.inj hawait).1
    exact .inl ⟨rfl, rfl, eq_of_heq hevents ▸ hread⟩
  | [_] => cases congrArg Sigma.fst (List.cons.inj (List.cons.inj heq).2).1
  | _ :: _ :: before =>
    exact .inr ⟨before, after, id', written', events',
      (List.cons.inj (List.cons.inj heq).2).2, hread⟩

namespace JsonRpcClient

/-- What was sent was written. -/
theorem send_returns {c c' : JsonRpcClient} {message : Value}
    (h : (send message).Returns c tr (.ok ()) c') :
    ∃ written, tr = [⟨.writeLine message, written⟩] := by
  rw [send, Act.bind_eq, Act.returns_get_andThen] at h
  split at h
  · obtain ⟨written, rest, rfl, hrest⟩ := Act.returns_perform_andThen.mp h
    obtain ⟨rfl, _, _⟩ := Act.returns_ofExcept.mp hrest
    exact ⟨written, rfl⟩
  · cases (Act.returns_fail.mp h).2.1

/-- A request that succeeds is an exchange. -/
theorem request_returns {c c' : JsonRpcClient}
    (h : (request method params).Returns c tr (.ok result) c') :
    Exchanged tr method params result := by
  rw [request, requestInner, Act.bind_eq, Act.returns_update_andThen, Act.bind_eq,
    Act.returns_attempt_andThen] at h
  obtain ⟨first, second, sent, mid, rfl, hsend, h⟩ := h
  cases sent with
  | error e =>
    obtain ⟨_, _, _, _, _, _, hfail⟩ := Act.returns_andThen_ok.mp h
    cases (Act.returns_fail.mp hfail).2.1
  | ok _ =>
    obtain ⟨written, rfl⟩ := send_returns hsend
    obtain ⟨events, rest, rfl, hrest⟩ := Act.returns_perform_andThen.mp h
    refine ⟨[], rest, c.nextId, written, events, rfl, ?_⟩
    cases hread : readReply c.nextId events with
    | answered result =>
      simp only [hread] at hrest
      obtain ⟨_, rfl, _⟩ := Act.returns_ofExcept.mp hrest
      rfl
    | dropped =>
      simp only [hread] at hrest
      obtain ⟨_, _, _, _, _, _, hfail⟩ := Act.returns_andThen_ok.mp hrest
      cases (Act.returns_fail.mp hfail).2.1
    | elapsed =>
      simp only [hread] at hrest
      obtain ⟨_, _, _, _, _, _, hfail⟩ := Act.returns_andThen_ok.mp hrest
      cases (Act.returns_fail.mp hfail).2.1

end JsonRpcClient

/-- An App Server for samples: it answers its requests with the given results, one after the
other. -/
def sampleAppServer (results : List Value) : (op : WireCall) → WireReply op
  | .childExited => .ok false
  | .spawn => .ok ()
  | .discard => ()
  | .writeLine _ => .ok ()
  | .awaitReply id =>
    [.line (some (.obj [("id", .int id), ("result", results.getD id .null)]))]
  | .connectDesktop => .ok false
  | .newRequestId => "request"
  | .writeFrame _ => .ok ()
  | .awaitResponse _ => []

end Watchcat
