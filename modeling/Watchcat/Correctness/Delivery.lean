import Watchcat.Providers.CodexMessages
import Watchcat.Transport.Attempts

/-!
# A message is delivered at most once

Whatever the Desktop and the App Server answer, a message is tried again only
where the last request was refused outright, so that at most one of its requests
can have been taken. Each of them carries the text of the message to its session,
and a request to the Desktop goes to the window that was found to own it.
-/

namespace Watchcat

open Watchcat.Core Wire

/-- The requests for a message: the one for the window that owns its session, and those that carry
it. -/
def deliveryMethods : List String :=
  ["thread-owner-discovery", "thread-follower-steer-turn", "thread-follower-start-turn",
    "turn/steer", "turn/start"]

namespace Attempt

/-- The method of the request. -/
def method (a : Attempt) : Option String := a.request.textMember "method"

/-- The Desktop window that the request is for. -/
def owner (a : Attempt) : Option String := a.request.textMember "targetClientId"

/-- The session that the request is about. -/
def session (a : Attempt) : Option String :=
  a.request.textAt [["params", "conversationId"], ["params", "threadId"]]

/-- The text of the message in the request. -/
def text (a : Attempt) : Option String :=
  match ((a.request.pointer ["params", "input"]).or
    (a.request.pointer ["params", "turnStartParams", "input"])).bind Value.asArray with
  | some [item] => item.textMember "text"
  | _ => none

/-- The identifier of the message in a request to a Desktop window. -/
def messageId (a : Attempt) : Option String :=
  a.request.textAt [["params", "clientUserMessageId"],
    ["params", "turnStartParams", "clientUserMessageId"]]

/-- The window that the Desktop has named as the owner. -/
def ownerFound (a : Attempt) : Option String :=
  match a.ending with
  | .response (.response response) =>
    if response.textMember "resultType" = some "success" then
      response.textAt [["result", "handledByClientId"], ["handledByClientId"]]
    else none
  | _ => none

/-- The conflict for which the Desktop refused the request. -/
def refused (a : Attempt) : Option TurnStateConflict :=
  match a.ending with
  | .response (.response response) =>
    if response.textMember "resultType" = some "error" then
      conflictOf ((response.textMember "error").getD "unknown-error")
    else none
  | _ => none

/-- The turn that took the message. -/
def turnId (a : Attempt) : Option String :=
  match a.ending with
  | .response (.response response) =>
    if response.textMember "resultType" = some "success" then
      if a.method = some "thread-follower-steer-turn" then steeredTurnId response
      else startedTurnId response
    else none
  | .reply (.answered (.ok result)) =>
    result.textAt [if a.method = some "turn/steer" then ["turnId"] else ["turn", "id"]]
  | _ => none

/-- The request steers. -/
def steers (a : Attempt) : Bool :=
  a.method == some "thread-follower-steer-turn" || a.method == some "turn/steer"

/-- The conflict after which the request may be the next one. -/
def conflictBefore (a : Attempt) : TurnStateConflict := if a.steers then .active else .inactive

/-- A request for the owner of a session. -/
structure Discovers (a : Attempt) (sessionId : String) : Prop where
  method : a.method = some "thread-owner-discovery"
  session : a.session = some sessionId

/-- A request that carries the message to its session. -/
structure Conveys (a : Attempt) (sessionId message : String) : Prop where
  session : a.session = some sessionId
  text : a.text = some message

/-- A request to the owner of a session that carries a message. -/
structure Carries (a : Attempt) (method owner sessionId messageId message : String) : Prop
    extends a.Conveys sessionId message where
  method : a.method = some method
  owner : a.owner = some owner
  messageId : a.messageId = some messageId

end Attempt

/-- What has been asked before a message is sent. -/
def OwnerAsked (sessionId : String) (asked : List Attempt) : Prop :=
  asked.length ≤ 1 ∧ ∀ a ∈ asked, a.Discovers sessionId

/-- The requests for the owner of a session and the attempts at a message to it, and the turn that
took it. -/
structure DeliveredOnce (sessionId message : String) (asked sent : List Attempt)
    (taken : Option (String × Bool)) : Prop where
  /-- The owner of the session is asked for at most once. -/
  discovery : OwnerAsked sessionId asked
  /-- The App Server is asked once, or the Desktop by turns. -/
  order : sent.map Attempt.method ∈ [[some "turn/steer"], [some "turn/start"]] ∨
    sent.map Attempt.method <+: [some "thread-follower-steer-turn",
      some "thread-follower-start-turn", some "thread-follower-steer-turn"]
  /-- Every request carries the message to its session. -/
  conveyed : ∀ a ∈ sent, a.Conveys sessionId message
  /-- The Desktop is asked at the window that was named as the owner, for one message. -/
  addressed : ∃ messageId, ∀ a ∈ sent,
    a.method ∈ [some "thread-follower-steer-turn", some "thread-follower-start-turn"] →
    a.messageId = some messageId ∧ a.owner.isSome ∧ asked.map Attempt.ownerFound = [a.owner]
  /-- Every request but the last was refused, for the conflict that asks for the next one. -/
  refused : sent.IsChain fun a b => a.refused = some b.conflictBefore
  /-- What is returned was answered to the last request. -/
  accepted : ∀ turnId steered, taken = some (turnId, steered) →
    ∃ a, sent.getLast? = some a ∧ a.turnId = some turnId ∧ a.steers = steered

theorem ownerAsked_nil {sessionId : String} : OwnerAsked sessionId [] :=
  ⟨Nat.zero_le 1, fun _ h => absurd h List.not_mem_nil⟩

theorem ownerAsked_singleton {sessionId : String} {a : Attempt} (h : a.Discovers sessionId) :
    OwnerAsked sessionId [a] :=
  ⟨Nat.le_refl 1, fun _ hb => List.mem_singleton.mp hb ▸ h⟩

/-! ## The Desktop -/

theorem checkResponse_ok {method : String} {response v : Value}
    (h : checkResponse method response = .ok v) :
    v = response ∧ response.textMember "resultType" = some "success" := by
  unfold checkResponse at h
  split at h
  · cases h
  · split at h
    · cases h
    · rename_i hsuccess
      exact ⟨(Except.ok.inj h).symm, not_not.mp hsuccess⟩

/-- Only an error response names a conflict. -/
theorem checkResponse_conflict {method : String} {response : Value} {e : Error}
    {c : TurnStateConflict} (h : checkResponse method response = .error e)
    (hc : turnStateConflict e = some c) :
    response.textMember "resultType" = some "error" ∧
      conflictOf ((response.textMember "error").getD "unknown-error") = some c := by
  unfold checkResponse at h
  split at h
  · rename_i herror
    obtain rfl := Except.error.inj h
    exact ⟨herror, hc⟩
  · split at h
    · obtain rfl := Except.error.inj h
      cases hc
    · cases h

/-- An error that is not one of the remote names no conflict. -/
theorem turnStateConflict_of_plain {e : Error} (h : e.remoteErrorMessage = none) :
    turnStateConflict e = none := by rw [turnStateConflict, h, Option.bind_none]

/-- The outcome of a request that carries a message. -/
structure Attempt.Tried (a : Attempt) (r : Except Error DesktopMessageReceipt) : Prop where
  accepted : ∀ receipt, r = .ok receipt →
    a.turnId = some receipt.turnId ∧ a.steers = receipt.steered
  refused : ∀ e c, r = .error e → turnStateConflict e = some c → a.refused = some c

/-- How a request to the owner of a session was answered. -/
def Attempt.Answered (a : Attempt) (method : String) (answer : Except Error Value) : Prop :=
  (∃ response, a.ending = .response (.response response) ∧ answer = checkResponse method response) ∨
    ∃ e, answer = .error e ∧ e.remoteErrorMessage = none

namespace Attempt.Answered

variable {a : Attempt} {method : String}

/-- A request that fails is refused where its error names a conflict. -/
theorem tried_error {e : Error} (h : a.Answered method (.error e)) : a.Tried (.error e) := by
  refine ⟨nofun, fun e' c he hc => ?_⟩
  obtain rfl := Except.error.inj he
  rcases h with ⟨response, hending, hcheck⟩ | ⟨e', he', hnone⟩
  · obtain ⟨herror, hconflict⟩ := checkResponse_conflict hcheck.symm hc
    rw [Attempt.refused, hending]
    exact (if_pos herror).trans hconflict
  · obtain rfl := Except.error.inj he'
    rw [turnStateConflict_of_plain hnone] at hc
    cases hc

/-- A request that succeeds is accepted where its response names the turn. -/
theorem tried_ok {response : Value} {turnId : String} (h : a.Answered method (.ok response))
    (hturn : (if a.method = some "thread-follower-steer-turn" then steeredTurnId response
      else startedTurnId response) = some turnId) : a.Tried (.ok ⟨turnId, a.steers⟩) := by
  refine ⟨fun receipt hreceipt => ?_, nofun⟩
  obtain rfl := Except.ok.inj hreceipt
  rcases h with ⟨response', hending, hcheck⟩ | ⟨e, he, _⟩
  · obtain ⟨rfl, hsuccess⟩ := checkResponse_ok hcheck.symm
    rw [Attempt.turnId, hending]
    exact ⟨(if_pos hsuccess).trans hturn, rfl⟩
  · cases he

end Attempt.Answered

/-- A response without a turn is no refusal. -/
theorem Attempt.tried_message (a : Attempt) (text : String) : a.Tried (.error (.message text)) := by
  refine ⟨nofun, fun e c he hc => ?_⟩
  obtain rfl := Except.error.inj he
  cases hc

namespace CodexDesktopIpc

variable {owner sessionId messageId message cwd : String} {c c' : CodexDesktopIpc}
  {tr : List (Prog.Event WireReply)} {r : Except Error DesktopMessageReceipt}

/-- The owner of a session is asked for once, and is what the Desktop has named. -/
theorem discoverOwner_returns {r : Except Error (Option String)}
    (hplain : ∀ e ∈ tr, StreamPlain e) (h : (discoverOwner sessionId).Returns c tr r c')
    (attempts : List Attempt) :
    ∃ a, (attemptMonitor deliveryMethods).after attempts tr = a :: attempts ∧
      a.Discovers sessionId ∧ ∀ owner, r = .ok owner →
        a.ending ≠ .unanswered ∧ (owner.isSome → a.ownerFound = owner) := by
  have hmethod : "thread-owner-discovery" ∈ deliveryMethods := by decide
  rw [discoverOwner, Act.bind_eq, Act.returns_attempt_andThen] at h
  obtain ⟨first, second, answer, mid, rfl, hrequest, hrest⟩ := h
  obtain ⟨requestId, ending, hafter, hanswered⟩ := desktopRequest_returns hmethod
    (fun e he => hplain e (List.mem_append_left _ he)) hrequest attempts
  cases answer with
  | error e =>
    dsimp only at hrest
    split at hrest
    · rename_i hremote
      obtain ⟨rfl, rfl, _⟩ := Act.returns_ret.mp hrest
      rw [List.append_nil]
      refine ⟨_, hafter, ⟨rfl, rfl⟩, fun owner hr => ?_⟩
      obtain rfl := Except.ok.inj hr
      rcases hanswered with ⟨response, rfl, _⟩ | ⟨e', he', hnone⟩
      · exact ⟨by rintro ⟨⟩, by rintro ⟨⟩⟩
      · obtain rfl := Except.error.inj he'
        rw [hnone] at hremote
        cases hremote
    · obtain ⟨rfl, rfl, _⟩ := Act.returns_fail.mp hrest
      rw [List.append_nil]
      exact ⟨_, hafter, ⟨rfl, rfl⟩, by rintro _ ⟨⟩⟩
  | ok response =>
    dsimp only at hrest
    cases howner : response.textAt [["result", "handledByClientId"], ["handledByClientId"]] with
    | none =>
      rw [howner] at hrest
      obtain ⟨rfl, rfl, _⟩ := Act.returns_fail.mp hrest
      rw [List.append_nil]
      exact ⟨_, hafter, ⟨rfl, rfl⟩, by rintro _ ⟨⟩⟩
    | some owner =>
      rw [howner] at hrest
      obtain ⟨rfl, rfl, _⟩ := Act.returns_ret.mp hrest
      rw [List.append_nil]
      refine ⟨_, hafter, ⟨rfl, rfl⟩, fun owner' hr => ?_⟩
      obtain rfl := Except.ok.inj hr
      rcases hanswered with ⟨response', rfl, hcheck⟩ | ⟨e, he, _⟩
      · obtain ⟨rfl, hsuccess⟩ := checkResponse_ok hcheck.symm
        exact ⟨by rintro ⟨⟩, fun _ => (if_pos hsuccess).trans howner⟩
      · cases he

theorem steer_returns {createdAt : Nat} (hplain : ∀ e ∈ tr, StreamPlain e)
    (h : (steer owner sessionId messageId message cwd createdAt).Returns c tr r c')
    (attempts : List Attempt) :
    ∃ a, (attemptMonitor deliveryMethods).after attempts tr = a :: attempts ∧
      a.Carries "thread-follower-steer-turn" owner sessionId messageId message ∧ a.Tried r := by
  have hmethod : "thread-follower-steer-turn" ∈ deliveryMethods := by decide
  rcases Act.returns_andThen.mp h with ⟨e, rfl, hrequest⟩ |
    ⟨first, second, response, mid, rfl, hrequest, hrest⟩
  · obtain ⟨requestId, ending, hafter, hanswered⟩ :=
      desktopRequest_returns hmethod hplain hrequest attempts
    exact ⟨_, hafter, ⟨⟨rfl, rfl⟩, rfl, rfl, rfl⟩, Attempt.Answered.tried_error hanswered⟩
  · obtain ⟨requestId, ending, hafter, hanswered⟩ := desktopRequest_returns hmethod
      (fun e he => hplain e (List.mem_append_left _ he)) hrequest attempts
    cases hturn : steeredTurnId response with
    | some turnId =>
      rw [hturn] at hrest
      obtain ⟨rfl, rfl, _⟩ := Act.returns_ret.mp hrest
      rw [List.append_nil]
      exact ⟨_, hafter, ⟨⟨rfl, rfl⟩, rfl, rfl, rfl⟩, Attempt.Answered.tried_ok hanswered hturn⟩
    | none =>
      rw [hturn] at hrest
      obtain ⟨rfl, rfl, _⟩ := Act.returns_fail.mp hrest
      rw [List.append_nil]
      exact ⟨_, hafter, ⟨⟨rfl, rfl⟩, rfl, rfl, rfl⟩, Attempt.tried_message _ _⟩

theorem startMessage_returns (hplain : ∀ e ∈ tr, StreamPlain e)
    (h : (startMessage owner sessionId messageId message).Returns c tr r c')
    (attempts : List Attempt) :
    ∃ a, (attemptMonitor deliveryMethods).after attempts tr = a :: attempts ∧
      a.Carries "thread-follower-start-turn" owner sessionId messageId message ∧ a.Tried r := by
  have hmethod : "thread-follower-start-turn" ∈ deliveryMethods := by decide
  rw [startMessage, startTurn, Act.bind_eq, Act.bind_eq, Act.andThen_assoc] at h
  rcases Act.returns_andThen.mp h with ⟨e, rfl, hrequest⟩ |
    ⟨first, second, response, mid, rfl, hrequest, hrest⟩
  · obtain ⟨requestId, ending, hafter, hanswered⟩ :=
      desktopRequest_returns hmethod hplain hrequest attempts
    exact ⟨_, hafter, ⟨⟨rfl, rfl⟩, rfl, rfl, rfl⟩, Attempt.Answered.tried_error hanswered⟩
  · obtain ⟨requestId, ending, hafter, hanswered⟩ := desktopRequest_returns hmethod
      (fun e he => hplain e (List.mem_append_left _ he)) hrequest attempts
    cases hturn : startedTurnId response with
    | some turnId =>
      rw [hturn] at hrest
      obtain ⟨rfl, rfl, _⟩ := Act.returns_ret.mp hrest
      rw [List.append_nil]
      exact ⟨_, hafter, ⟨⟨rfl, rfl⟩, rfl, rfl, rfl⟩, Attempt.Answered.tried_ok hanswered hturn⟩
    | none =>
      rw [hturn] at hrest
      obtain ⟨rfl, rfl, _⟩ := Act.returns_fail.mp hrest
      rw [List.append_nil]
      exact ⟨_, hafter, ⟨⟨rfl, rfl⟩, rfl, rfl, rfl⟩, Attempt.tried_message _ _⟩

/-- The requests for one message, and what the last of them ends with. -/
inductive Turns (owner sessionId messageId message : String) :
    List Attempt → Except Error DesktopMessageReceipt → Prop
  | steered {a : Attempt} {r : Except Error DesktopMessageReceipt}
      (ha : a.Carries "thread-follower-steer-turn" owner sessionId messageId message)
      (hr : a.Tried r) :
      Turns owner sessionId messageId message [a] r
  | started {a b : Attempt} {r : Except Error DesktopMessageReceipt}
      (ha : a.Carries "thread-follower-steer-turn" owner sessionId messageId message)
      (hinactive : a.refused = some .inactive)
      (hb : b.Carries "thread-follower-start-turn" owner sessionId messageId message)
      (hr : b.Tried r) :
      Turns owner sessionId messageId message [a, b] r
  | resteered {a b d : Attempt} {r : Except Error DesktopMessageReceipt}
      (ha : a.Carries "thread-follower-steer-turn" owner sessionId messageId message)
      (hinactive : a.refused = some .inactive)
      (hb : b.Carries "thread-follower-start-turn" owner sessionId messageId message)
      (hactive : b.refused = some .active)
      (hd : d.Carries "thread-follower-steer-turn" owner sessionId messageId message)
      (hr : d.Tried r) :
      Turns owner sessionId messageId message [a, b, d] r

/-- A message takes its turns. -/
theorem deliver_returns {first second : Nat} (hplain : ∀ e ∈ tr, StreamPlain e)
    (h : (deliver owner sessionId messageId message cwd first second).Returns c tr r c') :
    Turns owner sessionId messageId message (attemptsOf deliveryMethods tr) r := by
  rw [deliver, Act.bind_eq, Act.returns_attempt_andThen] at h
  obtain ⟨tr₁, rest, r₁, mid, rfl, hsteer, hrest⟩ := h
  obtain ⟨a, hafter, ha, htried⟩ :=
    steer_returns (fun e he => hplain e (List.mem_append_left _ he)) hsteer []
  have hplain := fun e he => hplain e (List.mem_append_right tr₁ he)
  rw [attemptsOf, Monitor.after_append, hafter]
  cases r₁ with
  | ok receipt =>
    obtain ⟨rfl, rfl, _⟩ := Act.returns_ret.mp hrest
    exact .steered ha htried
  | error e =>
    dsimp only at hrest
    split at hrest
    · rename_i hinactive
      have hinactive := htried.refused e _ rfl hinactive
      rw [Act.bind_eq, Act.returns_attempt_andThen] at hrest
      obtain ⟨tr₂, rest, r₂, mid, rfl, hstart, hrest⟩ := hrest
      obtain ⟨b, hafter, hb, htried⟩ :=
        startMessage_returns (fun e he => hplain e (List.mem_append_left _ he)) hstart [a]
      have hplain := fun e he => hplain e (List.mem_append_right tr₂ he)
      rw [Monitor.after_append, hafter]
      cases r₂ with
      | ok receipt =>
        obtain ⟨rfl, rfl, _⟩ := Act.returns_ret.mp hrest
        exact .started ha hinactive hb htried
      | error e =>
        dsimp only at hrest
        split at hrest
        · rename_i hactive
          obtain ⟨d, hafter, hd, hlast⟩ := steer_returns hplain hrest [b, a]
          rw [hafter]
          exact .resteered ha hinactive hb (htried.refused e _ rfl hactive) hd hlast
        · obtain ⟨rfl, rfl, _⟩ := Act.returns_fail.mp hrest
          exact .started ha hinactive hb htried
    · obtain ⟨rfl, rfl, _⟩ := Act.returns_fail.mp hrest
      exact .steered ha htried

end CodexDesktopIpc

theorem Attempt.Carries.steers {a : Attempt} {method owner sessionId messageId message : String}
    (h : a.Carries method owner sessionId messageId message) :
    a.steers = (method == "thread-follower-steer-turn" || method == "turn/steer") := by
  simp [Attempt.steers, h.method]

/-- Turns deliver a message at most once, at the owner that was found. -/
theorem CodexDesktopIpc.Turns.deliveredOnce {owner sessionId messageId message : String}
    {found : Attempt} {attempts : List Attempt} {r : Except Error DesktopMessageReceipt}
    (hfound : found.Discovers sessionId) (howner : found.ownerFound = some owner)
    (h : Turns owner sessionId messageId message attempts r) :
    DeliveredOnce sessionId message [found] attempts
      (r.toOption.map fun m => (m.turnId, m.steered)) := by
  have haccepted : ∀ {a : Attempt}, a.Tried r → ∀ turnId steered,
      (r.toOption.map fun m => (m.turnId, m.steered)) = some (turnId, steered) →
        a.turnId = some turnId ∧ a.steers = steered := by
    intro a htried turnId steered heq
    cases r with
    | error e => cases heq
    | ok receipt =>
      obtain ⟨rfl, rfl⟩ := Prod.mk.inj (Option.some.inj heq)
      exact htried.accepted receipt rfl
  have hasked : OwnerAsked sessionId [found] := ownerAsked_singleton hfound
  cases h with
  | steered ha hr =>
    refine ⟨hasked, .inr ?_, ?_, ⟨messageId, ?_⟩, ?_, fun t s heq => ⟨_, rfl, haccepted hr t s heq⟩⟩
    · simp [ha.method]
    · simp [ha.toConveys]
    · simp [ha.owner, ha.messageId, howner]
    · simp
  | started ha hinactive hb hr =>
    refine ⟨hasked, .inr ?_, ?_, ⟨messageId, ?_⟩, ?_, fun t s heq => ⟨_, rfl, haccepted hr t s heq⟩⟩
    · simp [ha.method, hb.method]
    · simp [ha.toConveys, hb.toConveys]
    · simp [ha.owner, ha.messageId, hb.owner, hb.messageId, howner]
    · simp [hinactive, Attempt.conflictBefore, hb.steers]
  | resteered ha hinactive hb hactive hd hr =>
    refine ⟨hasked, .inr ?_, ?_, ⟨messageId, ?_⟩, ?_, fun t s heq => ⟨_, rfl, haccepted hr t s heq⟩⟩
    · simp [ha.method, hb.method, hd.method]
    · simp [ha.toConveys, hb.toConveys, hd.toConveys]
    · simp [ha.owner, ha.messageId, hb.owner, hb.messageId, hd.owner, hd.messageId, howner]
    · simp [hinactive, hactive, Attempt.conflictBefore, hb.steers, hd.steers]

/-! ## The App Server -/

variable {sessionId message : String} {asked : List Attempt}

/-- No request, no delivery. -/
theorem deliveredOnce_nil (hasked : OwnerAsked sessionId asked) :
    DeliveredOnce sessionId message asked [] none :=
  ⟨hasked, .inr List.nil_prefix, nofun, ⟨"", nofun⟩, .nil, nofun⟩

/-- One request to the App Server. -/
theorem deliveredOnce_server (hasked : OwnerAsked sessionId asked) {a : Attempt}
    {taken : Option (String × Bool)} (hconveys : a.Conveys sessionId message)
    (hmethod : a.method = some "turn/steer" ∨ a.method = some "turn/start")
    (haccepted : ∀ turnId steered, taken = some (turnId, steered) →
      a.turnId = some turnId ∧ a.steers = steered) :
    DeliveredOnce sessionId message asked [a] taken := by
  refine ⟨hasked, .inl ?_, ?_, ⟨"", ?_⟩, .singleton a, fun t s heq => ⟨a, rfl, haccepted t s heq⟩⟩
  · rcases hmethod with hmethod | hmethod <;> simp [hmethod]
  · simpa using hconveys
  · rcases hmethod with hmethod | hmethod <;> simp [hmethod]

namespace CodexProvider

variable {p p' : CodexProvider} {tr : List (Prog.Event WireReply)}

/-- The turn and the way of a receipt. -/
def takenBy (r : Except Error MessageReceipt) : Option (String × Bool) :=
  r.toOption.map fun m => (m.turnId, m.steered)

theorem quiet_resume {methods : List String} (h : "thread/resume" ∉ methods) (params : Value) :
    Act.Uses (Quiet methods) (onClient (JsonRpcClient.request "thread/resume" params)) :=
  .zoom (quiet_requestInner h)

/-- One request to the App Server that carries a message. -/
theorem messageRequest_returns {method text : String} {params : Value} {steered : Bool}
    {r : Except Error MessageReceipt} (hasked : OwnerAsked sessionId asked)
    (hparams : ∀ id ending,
      (Attempt.mk (requestLine method id params) ending).Conveys sessionId message)
    (hmethod : method = "turn/steer" ∧ steered = true ∨ method = "turn/start" ∧ steered = false)
    (h : (do
      let result ← onClient (JsonRpcClient.request method params)
      match result.textAt [if steered then ["turnId"] else ["turn", "id"]] with
      | some turnId => return ⟨"codex", sessionId, turnId, steered, .appServer⟩
      | none => Act.fail (.message text) : Wire CodexProvider MessageReceipt).Returns p tr r p') :
    DeliveredOnce sessionId message asked (attemptsOf deliveryMethods tr) (takenBy r) := by
  have hwatched : method ∈ deliveryMethods := by
    rcases hmethod with ⟨rfl, _⟩ | ⟨rfl, _⟩ <;> decide
  have hattempt : ∀ (id : Nat) (ending : RequestEnding),
      (Attempt.mk (requestLine method id params) ending).method = some method := fun _ _ => rfl
  have hcarries : ∀ a : Attempt, a.method = some method →
      a.method = some "turn/steer" ∨ a.method = some "turn/start" := fun a ha =>
    hmethod.imp (fun hm => ha.trans (congrArg some hm.1)) fun hm => ha.trans (congrArg some hm.1)
  rcases Act.returns_andThen.mp h with ⟨e, rfl, hclient⟩ |
    ⟨first, second, result, mid, rfl, hclient, hrest⟩
  · obtain ⟨c, hrequest, _⟩ := Act.returns_zoom.mp hclient
    rw [attemptsOf]
    rcases serverRequest_returns hwatched hrequest [] with ⟨id, ending, hafter, _⟩ | ⟨_, hafter⟩
    · rw [hafter]
      exact deliveredOnce_server hasked (hparams id _) (hcarries _ (hattempt id ending))
        (by rintro _ _ ⟨⟩)
    · rw [hafter]
      exact deliveredOnce_nil hasked
  · obtain ⟨c, hrequest, _⟩ := Act.returns_zoom.mp hclient
    rcases serverRequest_returns hwatched hrequest [] with
      ⟨id, ending, hafter, hanswered⟩ | ⟨⟨e, he⟩, _⟩
    · obtain rfl := hanswered result rfl
      cases hturn : result.textAt [if steered then ["turnId"] else ["turn", "id"]] with
      | none =>
        rw [hturn] at hrest
        obtain ⟨rfl, rfl, _⟩ := Act.returns_fail.mp hrest
        rw [List.append_nil, attemptsOf, hafter]
        exact deliveredOnce_server hasked (hparams id _) (hcarries _ (hattempt id _))
          (by rintro _ _ ⟨⟩)
      | some turnId =>
        rw [hturn] at hrest
        obtain ⟨rfl, rfl, _⟩ := Act.returns_ret.mp hrest
        rw [List.append_nil, attemptsOf, hafter]
        refine deliveredOnce_server hasked (hparams id _) (hcarries _ (hattempt id _))
          fun t s heq => ?_
        obtain ⟨rfl, rfl⟩ := Prod.mk.inj (Option.some.inj heq)
        rcases hmethod with ⟨rfl, rfl⟩ | ⟨rfl, rfl⟩
        · exact ⟨hturn, rfl⟩
        · exact ⟨hturn, rfl⟩
    · cases he

/-- The App Server is asked for a message at most once. -/
theorem sendAppServer_returns {r : Except Error MessageReceipt}
    (hasked : OwnerAsked sessionId asked)
    (h : (sendAppServer sessionId message).Returns p tr r p') :
    DeliveredOnce sessionId message asked (attemptsOf deliveryMethods tr) (takenBy r) := by
  have hquiet : Act.Uses (Quiet deliveryMethods) (onClient (JsonRpcClient.request "thread/resume"
      (.obj [("threadId", .str sessionId)]))) := quiet_resume (by decide) _
  rcases returns_after_quiet hquiet h with ⟨⟨e, rfl⟩, hnone⟩ |
    ⟨_, second, resumed, mid, _, hattempts, hrest⟩
  · rw [hnone]
    exact deliveredOnce_nil hasked
  rw [hattempts]
  unfold codexMessageRequest at hrest
  cases hturn : resumedTurn resumed with
  | some turnId =>
    rw [hturn] at hrest
    exact messageRequest_returns hasked (fun _ _ => ⟨rfl, rfl⟩) (.inl ⟨rfl, rfl⟩) hrest
  | none =>
    rw [hturn] at hrest
    exact messageRequest_returns hasked (fun _ _ => ⟨rfl, rfl⟩) (.inr ⟨rfl, rfl⟩) hrest

theorem quiet_ensureStarted {methods : List String} (h : "initialize" ∉ methods)
    (h' : "initialized" ∉ methods) (version : String) :
    Act.Uses (Quiet methods) (ensureStarted version) := by
  have hstart : Act.Uses (Quiet methods) (start version) := by
    refine .andThen Act.uses_get fun p => Act.uses_ite (Act.uses_ret _) ?_
    refine .andThen (.zoom quiet_start) fun _ => ?_
    refine .andThen (.mapError (.zoom (quiet_requestInner h))) fun _ => ?_
    refine .andThen (.zoom (quiet_send ?_)) fun _ => Act.uses_modify _
    exact Bool.eq_false_iff.mpr fun hmem => h' (List.contains_iff_mem.mp hmem)
  have hrestart : Act.Uses (Quiet methods) (do
      Act.modify fun p => { p with started := false }
      start version : Wire CodexProvider Unit) :=
    .andThen (Act.uses_modify _) fun _ => hstart
  refine .andThen Act.uses_get fun p => Act.uses_ite ?_ hrestart
  exact .andThen (.zoom quiet_isRunning) fun running => Act.uses_ite (Act.uses_ret _) hrestart

theorem quiet_sessionCwd {methods : List String} (h : "thread/read" ∉ methods)
    (currentDirectory sessionId : String) :
    Act.Uses (Quiet methods) (sessionCwd currentDirectory sessionId) := by
  refine .andThen (.attempt (.zoom (quiet_requestInner h))) fun thread => ?_
  cases thread with
  | ok thread => exact Act.uses_ret _
  | error e => exact Act.uses_ret _

end CodexProvider

/-- The Desktop is asked for the owner of the session, and for the message at that owner. -/
theorem CodexDesktopIpc.sendMessage_returns {cwd : String} {first second : Nat}
    {c c' : CodexDesktopIpc} {tr : List (Prog.Event WireReply)}
    {r : Except Error (Option DesktopMessageReceipt)} (hplain : ∀ e ∈ tr, StreamPlain e)
    (h : (sendMessage sessionId message cwd first second).Returns c tr r c') :
    ∃ found, found.Discovers sessionId ∧
      ((r = .ok none ∧ (attemptMonitor deliveryMethods).after [] tr = [found] ∧ LastEnded [found]) ∨
        ∃ sent, ∃ r' : Except Error DesktopMessageReceipt, r = r'.map some ∧
          attemptsOf deliveryMethods tr = found :: sent ∧
          DeliveredOnce sessionId message [found] sent
            (r'.toOption.map fun m => (m.turnId, m.steered))) := by
  rcases Act.returns_andThen.mp h with ⟨e, rfl, hdiscover⟩ |
    ⟨before, rest, owner, mid, rfl, hdiscover, hrest⟩
  · obtain ⟨found, hafter, hfound, _⟩ := discoverOwner_returns hplain hdiscover []
    refine ⟨found, hfound, .inr ⟨[], .error e, rfl, ?_,
      deliveredOnce_nil (ownerAsked_singleton hfound)⟩⟩
    rw [attemptsOf, hafter]
    rfl
  · obtain ⟨found, hafter, hfound, hanswered⟩ := discoverOwner_returns
      (fun e he => hplain e (List.mem_append_left rest he)) hdiscover []
    have hplain := fun e he => hplain e (List.mem_append_right before he)
    obtain ⟨hending, howner⟩ := hanswered owner rfl
    have hended : LastEnded [found] := fun a ha => Option.some.inj ha ▸ hending
    refine ⟨found, hfound, ?_⟩
    cases owner with
    | none =>
      obtain ⟨rfl, rfl, _⟩ := Act.returns_ret.mp hrest
      rw [List.append_nil]
      exact .inl ⟨rfl, hafter, hended⟩
    | some owner =>
      obtain ⟨messageId, rest, rfl, hdrawn⟩ := Act.returns_perform_andThen.mp hrest
      have hplain := fun e he => hplain e (List.mem_cons_of_mem _ he)
      have hattempts : ∀ tr', attemptsOf deliveryMethods
          (before ++ ⟨.newRequestId, messageId⟩ :: tr') =
          found :: attemptsOf deliveryMethods tr' := by
        intro tr'
        rw [attemptsOf, Monitor.after_append, hafter, Monitor.after_cons]
        exact (congrArg List.reverse (after_append_ended hended tr' [])).trans
          List.reverse_append
      rw [hattempts]
      rcases Act.returns_andThen.mp hdrawn with ⟨e, rfl, hdeliver⟩ |
        ⟨turns, none', receipt, _, rfl, hdeliver, hret⟩
      · exact .inr ⟨_, .error e, rfl, rfl,
          (deliver_returns hplain hdeliver).deliveredOnce hfound (howner rfl)⟩
      · obtain ⟨rfl, rfl, _⟩ := Act.returns_ret.mp hret
        rw [List.append_nil] at hplain ⊢
        exact .inr ⟨_, .ok receipt, rfl, rfl,
          (deliver_returns hplain hdeliver).deliveredOnce hfound (howner rfl)⟩

/-- A message is delivered at most once: whatever the Desktop and the App Server answer, the App
Server is asked once, or the Desktop at most three times by turns, always with the text of the
message for its session, as one message and at the window that was named as the owner of the
session, and again only where the last request was refused outright because the turn had ended or
had begun. A receipt names the turn that was answered to the last request. -/
theorem message_delivered_once {version currentDirectory sessionId message : String}
    {first second : Nat} {p p' : CodexProvider} {tr : List (Prog.Event WireReply)}
    {r : Except Error MessageReceipt} (hplain : ∀ e ∈ tr, StreamPlain e)
    (h : (CodexProvider.sendMessage version currentDirectory sessionId message first
      second).Returns p tr r p') :
    ∃ asked sent, attemptsOf deliveryMethods tr = asked ++ sent ∧
      DeliveredOnce sessionId message asked sent (CodexProvider.takenBy r) := by
  have hstart : Act.Uses (Quiet deliveryMethods) (CodexProvider.ensureStarted version) :=
    CodexProvider.quiet_ensureStarted (by decide) (by decide) version
  have hconnect : Act.Uses (Quiet deliveryMethods) (CodexDesktopIpc.connectDefault :
      Wire CodexProvider (Option CodexDesktopIpc)) := quiet_connectDefault (by decide)
  have hcwd : Act.Uses (Quiet deliveryMethods)
      (CodexProvider.sessionCwd currentDirectory sessionId) :=
    CodexProvider.quiet_sessionCwd (by decide) currentDirectory sessionId
  rcases returns_after_quiet hstart h with ⟨⟨e, rfl⟩, hnone⟩ |
    ⟨before, rest, _, mid, rfl, hattempts, h⟩
  · exact ⟨[], [], hnone, deliveredOnce_nil ownerAsked_nil⟩
  have hplain := fun e he => hplain e (List.mem_append_right before he)
  rw [hattempts]
  rcases returns_after_quiet hconnect h with ⟨⟨e, rfl⟩, hnone⟩ |
    ⟨before, rest, desktop, mid, rfl, hattempts, h⟩
  · exact ⟨[], [], hnone, deliveredOnce_nil ownerAsked_nil⟩
  have hplain := fun e he => hplain e (List.mem_append_right before he)
  rw [hattempts]
  cases desktop with
  | none => exact ⟨[], _, rfl, CodexProvider.sendAppServer_returns ownerAsked_nil h⟩
  | some desktop =>
    rcases returns_after_quiet hcwd h with ⟨⟨e, rfl⟩, hnone⟩ |
      ⟨before, rest, cwd, mid, rfl, hattempts, h⟩
    · exact ⟨[], [], hnone, deliveredOnce_nil ownerAsked_nil⟩
    have hplain := fun e he => hplain e (List.mem_append_right before he)
    rw [hattempts]
    rcases Act.returns_andThen.mp h with ⟨e, rfl, hwithin⟩ |
      ⟨sending, rest, out, _, rfl, hwithin, hrest⟩
    · obtain ⟨_, x, client, hsend, hx⟩ := Act.returns_within.mp hwithin
      obtain ⟨found, hfound, ⟨rfl, _⟩ | ⟨sent, r', rfl, hsent, hdelivered⟩⟩ :=
        CodexDesktopIpc.sendMessage_returns hplain hsend
      · cases hx
      · cases r' with
        | error e => exact ⟨[found], sent, hsent, hdelivered⟩
        | ok receipt => cases hx
    · obtain ⟨_, x, client, hsend, hx⟩ := Act.returns_within.mp hwithin
      obtain ⟨found, hfound, ⟨rfl, hafter, hended⟩ | ⟨sent, r', rfl, hsent, hdelivered⟩⟩ :=
        CodexDesktopIpc.sendMessage_returns
          (fun e he => hplain e (List.mem_append_left rest he)) hsend
      · obtain rfl := Except.ok.inj hx
        refine ⟨[found], attemptsOf deliveryMethods rest, ?_,
          CodexProvider.sendAppServer_returns (ownerAsked_singleton hfound) hrest⟩
        rw [attemptsOf, Monitor.after_append, hafter]
        exact (congrArg List.reverse (after_append_ended hended rest [])).trans
          List.reverse_append
      · cases r' with
        | error e => cases hx
        | ok receipt =>
          obtain rfl := Except.ok.inj hx
          obtain ⟨rfl, rfl, _⟩ := Act.returns_ret.mp hrest
          rw [List.append_nil]
          exact ⟨[found], sent, hsent, hdelivered⟩

/-- A Desktop window that owns a thread; the turn that it is asked to steer has ended. -/
def sampleThreadOwner : String → List (String × Value)
  | "initialize" => [("resultType", .str "success"), ("result", .obj [("clientId", .str "client")])]
  | "discover" =>
    [("resultType", .str "success"), ("result", .obj [("handledByClientId", .str "window")])]
  | "steer" => [("resultType", .str "error"), ("error", .str "No active turn to steer")]
  | _ => [("resultType", .str "success"), ("result", .obj [("turn", .obj [("id", .str "turn")])])]

/-- The transports of the sample, by the number of calls before. -/
def sampleDesktopWire (n : Nat) : (op : WireCall) → WireReply op
  | .connectDesktop => .ok true
  | .newRequestId =>
    ["initialize", "discover", "message", "steer", "start"].getD ([2, 7, 10, 11, 14].idxOf n) ""
  | .awaitResponse requestId =>
    [.frame 1 (some (.obj ([("type", .str "response"), ("requestId", .str requestId)] ++
      sampleThreadOwner requestId))) (.ok ())]
  | op => sampleAppServer [] op

/-- A message of the sample. -/
def sampleSend : List (Prog.Event WireReply) × Except Error MessageReceipt × CodexProvider :=
  (CodexProvider.sendMessage "0.1.0" "/" "session" "continue" 0 0
    ⟨⟨true, true, 0⟩, true⟩).executeFrom sampleDesktopWire 0

/-- The stream of the sample reports no error. -/
theorem sampleDesktopWire_plain : ∀ e ∈ sampleSend.1, StreamPlain e := by
  rintro ⟨op, answer⟩ he
  obtain ⟨n, rfl⟩ : ∃ n, answer = sampleDesktopWire n op := Prog.executeFrom_answered _ he
  cases op with
  | awaitResponse requestId =>
    intro e hfailed
    have hread : readResponse requestId (sampleDesktopWire n (.awaitResponse requestId)) =
        .response (.obj ([("type", .str "response"), ("requestId", .str requestId)] ++
          sampleThreadOwner requestId)) := by
      simp [sampleDesktopWire, readResponse, readFrame, maxDesktopFrameBytes, isResponseTo,
        Value.textMember, Value.get, Value.asStr]
    rw [hread] at hfailed
    cases hfailed
  | _ => trivial

/-- The owner is found, refuses to steer and starts the message, once. -/
theorem message_delivered_once_sample :
    (∃ asked sent, attemptsOf deliveryMethods sampleSend.1 = asked ++ sent ∧
      DeliveredOnce "session" "continue" asked sent (some ("turn", false))) ∧
      (attemptsOf deliveryMethods sampleSend.1).map (fun a => (a.ownerFound, a.owner, a.refused)) =
        [(some "window", none, none), (none, some "window", some .inactive),
          (none, some "window", none)] := by
  have hreturns : (CodexProvider.sendMessage "0.1.0" "/" "session" "continue" 0 0).Returns
      ⟨⟨true, true, 0⟩, true⟩ sampleSend.1 sampleSend.2.1 sampleSend.2.2 :=
    Prog.executeFrom_returns sampleDesktopWire 0 _
  exact ⟨message_delivered_once sampleDesktopWire_plain hreturns, rfl⟩

end Watchcat
