import Watchcat.Providers.Codex

/-!
# When a failed resume is known not to have started a turn

A turn-start request is written as one line or one frame, and then answered, cut
off or left alone. The exchange that follows decides the result of the resume:
the result is a function of what arrived.
-/

namespace Watchcat

open Watchcat.Core Wire

/-- What followed a completely written turn-start request. -/
inductive Exchange
  /-- The App Server output, waited for the reply with this identifier. -/
  | appServer (id : Nat) (events : List ReaderEvent)
  /-- The Desktop stream, waited for the response with this identifier. -/
  | desktop (requestId : String) (frames : List FrameEvent)

/-- How far the turn start of a resume has got. -/
inductive StartPhase
  | before
  | written
  | settled (x : Exchange)

/-- The two methods that start a turn. -/
def isStartMethod (method : String) : Bool :=
  method == "turn/start" || method == "thread-follower-start-turn"

/-- A message that asks to start a turn. -/
def isTurnStart (message : Value) : Bool := (message.textMember "method").any isStartMethod

/-- The phase after a call. -/
def StartPhase.next : StartPhase → (op : WireCall) → WireReply op → StartPhase
  | phase, .writeLine message, .ok _ => if isTurnStart message then .written else phase
  | phase, .writeFrame message, .ok _ => if isTurnStart message then .written else phase
  | .written, .awaitReply id, events => .settled (.appServer id events)
  | .written, .awaitResponse requestId, frames => .settled (.desktop requestId frames)
  | phase, _, _ => phase

/-- The monitor that watches for the turn start. -/
def startMonitor : Monitor WireReply StartPhase where
  allowed := fun _ _ => True
  next := StartPhase.next

/-- The first line of the App Server output that replies to a request. -/
def replyLine (id : Nat) : List ReaderEvent → Option Value
  | .line none :: events => replyLine id events
  | .line (some message) :: events =>
    if isReplyTo id message then some message else replyLine id events
  | _ => none

/-- The App Server output ends inside the time limit, before a reply to the request. -/
def outputEnds (id : Nat) : List ReaderEvent → Bool
  | .line none :: events => outputEnds id events
  | .line (some message) :: events => !isReplyTo id message && outputEnds id events
  | .closed :: _ => true
  | .failed _ :: _ => true
  | _ => false

namespace Exchange

/-- The reply that was read for the request. -/
def reply : Exchange → Option Value
  | appServer id events => replyLine id events
  | desktop requestId frames =>
    match readResponse requestId frames with
    | .response message => some message
    | _ => none

/-- The App Server cut the request off. -/
def cutOff : Exchange → Bool
  | appServer id events => outputEnds id events
  | desktop _ _ => false

/-- The remote answered the request with an explicit error. -/
def explicitError : Exchange → Bool
  | x@(appServer _ _) => (x.reply.bind (Value.get "error")).any Value.isObject
  | x@(desktop _ _) => x.reply.bind (·.textMember "resultType") == some "error"

/-- A reply that neither names an explicit error nor the started turn. -/
def unreadable : Exchange → Bool
  | x@(appServer _ _) => x.reply.any fun message =>
    match message.get "error" with
    | some error => !error.isObject
    | none => (((message.get "result").getD .null).textAt [["turn", "id"]]).isNone
  | x@(desktop _ _) => x.reply.any fun message =>
    message.textMember "resultType" != some "error" &&
      (message.textMember "resultType" != some "success" || (startedTurnId message).isNone)

/-- What the request that waited for the exchange ends with. -/
def answer : Exchange → Except Error Value
  | appServer id events =>
    match readReply id events with
    | .answered result => result
    | .dropped => .error (.acknowledgementUnknown "app-server closed while waiting for turn/start")
    | .elapsed => .error (.acknowledgementUnknown "app-server request timed out: turn/start")
  | desktop requestId frames =>
    settleResponse "thread-follower-start-turn" true (readResponse requestId frames)

/-- The turn that a successful answer names, and how the resume fails where it names none. -/
def turnOf : Exchange → Value → Except Error String
  | appServer _ _, result =>
    match result.textAt [["turn", "id"]] with
    | some turnId => .ok turnId
    | none => .error (.message "Codex accepted turn/start without returning a turn id")
  | desktop _ _, response =>
    match startedTurnId response with
    | some turnId => .ok turnId
    | none => .error (.message "Codex Desktop accepted turn start without a turn id")

/-- The transport of the exchange. -/
def transport : Exchange → MessageTransport
  | appServer _ _ => .appServer
  | desktop _ _ => .desktopIpc

/-- The outcome of the resume that waited for the exchange. -/
def outcome (sessionId : String) (x : Exchange) : Except Error ResumeReceipt := do
  let value ← x.answer
  let turnId ← x.turnOf value
  return ⟨"codex", sessionId, turnId, x.transport⟩

/-- The kinds of answer that the resume takes for a plain failure without an explicit error. -/
def misread (x : Exchange) : Bool := x.cutOff || x.unreadable

/-- What the reader makes of the App Server output. -/
theorem readReply_cases (id : Nat) (events : List ReaderEvent) :
    (∃ message, replyLine id events = some message ∧ outputEnds id events = false ∧
      readReply id events = .answered (replyResult message)) ∨
    (replyLine id events = none ∧ outputEnds id events = true ∧
      readReply id events = .answered (.error (.message "app-server stdout closed"))) ∨
    (replyLine id events = none ∧ outputEnds id events = false ∧
      (readReply id events = .dropped ∨ readReply id events = .elapsed)) := by
  induction events with
  | nil => exact Or.inr (Or.inr ⟨rfl, rfl, Or.inr rfl⟩)
  | cons event events ih =>
    cases event with
    | closed => exact Or.inr (Or.inl ⟨rfl, rfl, rfl⟩)
    | failed e => exact Or.inr (Or.inl ⟨rfl, rfl, rfl⟩)
    | dropped => exact Or.inr (Or.inr ⟨rfl, rfl, Or.inl rfl⟩)
    | line content =>
      cases content with
      | none => exact ih
      | some message =>
        simp only [replyLine, outputEnds, readReply]
        by_cases hreply : isReplyTo id message = true
        · exact Or.inl ⟨message, by simp only [hreply, if_true],
            by simp only [hreply, Bool.not_true, Bool.false_and], by simp only [hreply, if_true]⟩
        · simpa only [hreply, Bool.false_eq_true, if_false, Bool.not_false, Bool.true_and] using ih

theorem outcome_of_error {x : Exchange} {e : Error} (sessionId : String)
    (h : x.answer = .error e) : x.outcome sessionId = .error e := by
  rw [outcome, h]
  rfl

theorem outcome_of_ok {x : Exchange} {value : Value} (sessionId : String)
    (h : x.answer = .ok value) : x.outcome sessionId =
      (x.turnOf value).map fun turnId => ⟨"codex", sessionId, turnId, x.transport⟩ := by
  rw [outcome, h]
  change (do
    let turnId ← x.turnOf value
    return (⟨"codex", sessionId, turnId, x.transport⟩ : ResumeReceipt)) = _
  cases x.turnOf value <;> rfl

/-- An error that is not plain leaves nothing to be explained. -/
theorem plain_iff_of_unknown {x : Exchange} {detail : String} (sessionId : String)
    (h : x.answer = .error (.acknowledgementUnknown detail)) (hmisread : x.misread = false) :
    (∀ e, x.outcome sessionId = .error e → e.acknowledgementIsUnknown = false →
      x.explicitError = true) ↔ x.misread = false := by
  refine iff_of_true (fun e he hplain => ?_) hmisread
  rw [outcome_of_error sessionId h] at he
  cases he
  cases hplain

/-- A plain failure of the App Server path is an explicit error, unless the answer is misread. -/
theorem appServer_plain_iff (sessionId : String) (id : Nat) (events : List ReaderEvent) :
    (∀ e, (appServer id events).outcome sessionId = .error e →
        e.acknowledgementIsUnknown = false → (appServer id events).explicitError = true) ↔
      (appServer id events).misread = false := by
  rcases readReply_cases id events with
    ⟨message, hreply, hended, hread⟩ | ⟨hreply, hended, hread⟩ | ⟨hreply, hended, hread⟩
  · have hanswer : (appServer id events).answer = replyResult message := by
      simp only [answer, hread]
    cases herror : message.get "error" with
    | some error =>
      rw [replyResult, herror] at hanswer
      rw [outcome_of_error sessionId hanswer]
      simp [misread, cutOff, hended, unreadable, explicitError, reply, hreply, herror,
        parseRpcError]
    | none =>
      rw [replyResult, herror] at hanswer
      rw [outcome_of_ok sessionId hanswer]
      cases hturn : ((message.get "result").getD .null).textAt [["turn", "id"]] <;>
        simp [misread, cutOff, hended, unreadable, explicitError, reply, hreply, herror, turnOf,
          hturn, Except.map]
  · have hanswer : (appServer id events).answer =
        .error (.message "app-server stdout closed") := by
      simp only [answer, hread]
    rw [outcome_of_error sessionId hanswer]
    simp [misread, cutOff, hended, explicitError, reply, hreply]
  · have hmisread : (appServer id events).misread = false := by
      simp [misread, cutOff, hended, unreadable, reply, hreply]
    have hanswer : ∃ detail, (appServer id events).answer =
        .error (.acknowledgementUnknown detail) := by
      rcases hread with hread | hread <;> exact ⟨_, by rw [answer, hread]⟩
    exact plain_iff_of_unknown sessionId hanswer.choose_spec hmisread

/-- The same of the Desktop path. -/
theorem desktop_plain_iff (sessionId requestId : String) (frames : List FrameEvent) :
    (∀ e, (desktop requestId frames).outcome sessionId = .error e →
        e.acknowledgementIsUnknown = false → (desktop requestId frames).explicitError = true) ↔
      (desktop requestId frames).misread = false := by
  have hanswer : (desktop requestId frames).answer = settleResponse "thread-follower-start-turn"
    true (readResponse requestId frames) := rfl
  cases hread : readResponse requestId frames with
  | response message =>
    rw [hread, settleResponse, checkResponse] at hanswer
    by_cases herror : message.textMember "resultType" = some "error"
    · rw [if_pos herror] at hanswer
      rw [outcome_of_error sessionId hanswer]
      simp [misread, cutOff, unreadable, explicitError, reply, hread, herror]
    rw [if_neg herror] at hanswer
    by_cases hsuccess : message.textMember "resultType" = some "success"
    · rw [if_neg (not_not_intro hsuccess)] at hanswer
      rw [outcome_of_ok sessionId hanswer]
      cases hturn : startedTurnId message <;>
        simp [misread, cutOff, unreadable, explicitError, reply, hread, hsuccess, hturn, turnOf,
          Except.map]
    · rw [if_pos hsuccess] at hanswer
      rw [outcome_of_error sessionId hanswer]
      simp [misread, cutOff, unreadable, explicitError, reply, hread, herror, hsuccess]
  | failed e =>
    rw [hread] at hanswer
    exact plain_iff_of_unknown sessionId hanswer
      (by simp [misread, cutOff, unreadable, reply, hread])
  | elapsed =>
    rw [hread] at hanswer
    exact plain_iff_of_unknown sessionId hanswer
      (by simp [misread, cutOff, unreadable, reply, hread])

/-- A plain failure is an explicit error exactly where the answer is not misread. -/
theorem plain_iff (x : Exchange) (sessionId : String) :
    (∀ e, x.outcome sessionId = .error e → e.acknowledgementIsUnknown = false →
      x.explicitError = true) ↔ x.misread = false := by
  cases x with
  | appServer id events => exact appServer_plain_iff sessionId id events
  | desktop requestId frames => exact desktop_plain_iff sessionId requestId frames

end Exchange

/-! ## Requests that start no turn -/

/-- A method keeps the phase in which no turn start was written. -/
def StartsNothing {σ α : Type} (m : Wire σ α) : Prop :=
  ∀ s, m.Follows startMonitor .before s fun phase _ _ => phase = .before

section StartsNothing

variable {σ τ α β : Type}

theorem startsNothing_andThen {m : Wire σ α} {f : α → Wire σ β} (hm : StartsNothing m)
    (hf : ∀ a, StartsNothing (f a)) : StartsNothing (Act.andThen m f) := by
  intro s
  rw [Act.follows_andThen]
  refine (hm s).mono fun phase r s' hphase => ?_
  subst hphase
  cases r with
  | ok a => exact hf a s'
  | error e => rfl

theorem startsNothing_attempt {m : Wire σ α} (hm : StartsNothing m) :
    StartsNothing (Act.attempt m : Wire σ (Except Error α)) :=
  fun s => Act.follows_attempt.mpr (hm s)

theorem startsNothing_zoom {get : σ → τ} {put : τ → σ → σ} {m : Wire τ α} (hm : StartsNothing m) :
    StartsNothing (Act.zoom get put m) :=
  fun s => Act.follows_zoom.mpr (hm (get s))

theorem startsNothing_within {t : τ} {m : Wire τ α} (hm : StartsNothing m) :
    StartsNothing (Act.within t m : Wire σ (α × τ)) :=
  fun _ => Act.follows_within.mpr (hm t)

theorem startsNothing_mapError {f : Error → Error} {m : Wire σ α} (hm : StartsNothing m) :
    StartsNothing (Act.mapError f m) :=
  fun s => Act.follows_mapError.mpr (hm s)

theorem startsNothing_ite {c : Prop} [Decidable c] {m m' : Wire σ α} (hm : StartsNothing m)
    (hm' : StartsNothing m') : StartsNothing (if c then m else m') := by
  by_cases h : c
  · simpa only [h, if_true] using hm
  · simpa only [h, if_false] using hm'

theorem startsNothing_ret (a : α) : StartsNothing (Act.ret a : Wire σ α) := fun _ => rfl

theorem startsNothing_get : StartsNothing (Act.get : Wire σ σ) := fun _ => rfl

theorem startsNothing_modify (f : σ → σ) : StartsNothing (Act.modify f : Wire σ Unit) :=
  fun _ => rfl

theorem startsNothing_update (f : σ → α × σ) : StartsNothing (Act.update f : Wire σ α) :=
  fun _ => rfl

theorem startsNothing_fail (e : Error) : StartsNothing (Act.fail e : Wire σ α) := fun _ => rfl

theorem startsNothing_ofExcept (r : Except Error α) : StartsNothing (Act.ofExcept r : Wire σ α) :=
  fun _ => rfl

/-- A call starts nothing unless it writes a turn start. -/
theorem startsNothing_perform {op : WireCall} (h : ∀ r, StartPhase.before.next op r = .before) :
    StartsNothing (perform op : Wire σ (WireReply op)) :=
  fun _ => ⟨trivial, h⟩

end StartsNothing

@[simp] theorem isTurnStart_line (method : String) (id : Nat) (params : Value) :
    isTurnStart (.obj [("method", .str method), ("id", .int id), ("params", params)]) =
      isStartMethod method := rfl

@[simp] theorem isTurnStart_notice (method : String) (params : Value) :
    isTurnStart (.obj [("method", .str method), ("params", params)]) = isStartMethod method := rfl

theorem startsNothing_send {message : Value} (h : isTurnStart message = false) :
    StartsNothing (JsonRpcClient.send message) := by
  refine startsNothing_andThen startsNothing_get fun c =>
    startsNothing_ite ?_ (startsNothing_fail _)
  refine startsNothing_andThen (startsNothing_perform fun r => ?_) fun r => startsNothing_ofExcept r
  cases r with
  | ok _ => simp only [StartPhase.next, h, Bool.false_eq_true, if_false]
  | error e => rfl

theorem startsNothing_discard : StartsNothing JsonRpcClient.discardUnhealthyProcess :=
  startsNothing_andThen (startsNothing_perform fun _ => rfl) fun _ => startsNothing_modify _

theorem startsNothing_requestInner {method : String} {params : Value} {mayHaveStarted : Bool}
    (h : isStartMethod method = false) :
    StartsNothing (JsonRpcClient.requestInner method params mayHaveStarted) := by
  refine startsNothing_andThen (startsNothing_update _) fun id => ?_
  refine startsNothing_andThen (startsNothing_attempt (startsNothing_send h))
    fun sent => ?_
  cases sent with
  | error e => exact startsNothing_andThen startsNothing_discard fun _ => startsNothing_fail e
  | ok _ =>
    refine startsNothing_andThen (startsNothing_perform fun _ => rfl) fun events => ?_
    cases readReply id events with
    | answered result => exact startsNothing_ofExcept result
    | dropped => exact startsNothing_andThen startsNothing_discard fun _ => startsNothing_fail _
    | elapsed => exact startsNothing_andThen startsNothing_discard fun _ => startsNothing_fail _

theorem startsNothing_isRunning : StartsNothing JsonRpcClient.isRunning := by
  refine startsNothing_andThen startsNothing_get fun c => startsNothing_ite (startsNothing_ret _) ?_
  refine startsNothing_andThen (startsNothing_perform fun _ => rfl) fun r => ?_
  refine startsNothing_andThen (startsNothing_ofExcept r) fun exited => ?_
  exact startsNothing_ite
    (startsNothing_andThen (startsNothing_modify _) fun _ => startsNothing_ret _)
    (startsNothing_ret _)

theorem startsNothing_spawn : StartsNothing JsonRpcClient.start := by
  have hspawn : StartsNothing (do
      Act.ofExcept (← perform .spawn)
      Act.modify fun c => { c with child := true, stdin := true } : Wire JsonRpcClient Unit) :=
    startsNothing_andThen (startsNothing_perform fun _ => rfl) fun r =>
      startsNothing_andThen (startsNothing_ofExcept r) fun _ => startsNothing_modify _
  refine startsNothing_andThen startsNothing_get fun c => startsNothing_ite ?_ hspawn
  refine startsNothing_andThen (startsNothing_perform fun _ => rfl) fun r => ?_
  refine startsNothing_andThen (startsNothing_ofExcept r) fun exited => ?_
  exact startsNothing_ite (startsNothing_ret _)
    (startsNothing_andThen (startsNothing_modify _) fun _ => hspawn)

theorem startsNothing_start (version : String) : StartsNothing (CodexProvider.start version) := by
  refine startsNothing_andThen startsNothing_get fun p => startsNothing_ite (startsNothing_ret _) ?_
  refine startsNothing_andThen (startsNothing_zoom startsNothing_spawn) fun _ => ?_
  refine startsNothing_andThen (startsNothing_mapError (startsNothing_zoom
    (startsNothing_requestInner rfl))) fun _ => ?_
  refine startsNothing_andThen (startsNothing_zoom (startsNothing_send rfl)) fun _ => ?_
  exact startsNothing_modify _

theorem startsNothing_ensureStarted (version : String) :
    StartsNothing (CodexProvider.ensureStarted version) := by
  have hrestart : StartsNothing (do
      Act.modify fun p => { p with started := false }
      CodexProvider.start version : Wire CodexProvider Unit) :=
    startsNothing_andThen (startsNothing_modify _) fun _ => startsNothing_start version
  refine startsNothing_andThen startsNothing_get fun p => startsNothing_ite ?_ hrestart
  exact startsNothing_andThen (startsNothing_zoom startsNothing_isRunning) fun running =>
    startsNothing_ite (startsNothing_ret _) hrestart

/-- The frame of a Desktop request. -/
theorem isTurnStart_frame (requestId clientId method : String) (version : Nat) (params : Value)
    (target : List (String × Value)) :
    isTurnStart (.obj ([("type", .str "request"), ("requestId", .str requestId),
      ("sourceClientId", .str clientId), ("version", .int version), ("method", .str method),
      ("params", params), ("timeoutMs", .int 10000)] ++ target)) = isStartMethod method := rfl

theorem startsNothing_desktopRequest {method : String} {version : Nat} {params : Value}
    {target : Option String} {mayHaveStarted : Bool} (h : isStartMethod method = false) :
    StartsNothing (CodexDesktopIpc.requestInner method version params target mayHaveStarted) := by
  refine startsNothing_andThen (startsNothing_perform fun _ => rfl) fun requestId => ?_
  refine startsNothing_andThen startsNothing_get fun client => ?_
  refine startsNothing_andThen (startsNothing_perform fun r => ?_) fun r => ?_
  · cases r with
    | ok _ => simp only [StartPhase.next, isTurnStart_frame, h, Bool.false_eq_true, if_false]
    | error e => rfl
  · refine startsNothing_andThen (startsNothing_ofExcept r) fun _ => ?_
    exact startsNothing_andThen (startsNothing_perform fun _ => rfl) fun frames =>
      startsNothing_ofExcept _

theorem startsNothing_connectDefault {σ : Type} :
    StartsNothing (CodexDesktopIpc.connectDefault : Wire σ (Option CodexDesktopIpc)) := by
  have hinit : StartsNothing CodexDesktopIpc.initializeClient := by
    refine startsNothing_andThen (startsNothing_desktopRequest rfl) fun response => ?_
    cases response.textAt [["result", "clientId"]] with
    | some id => exact startsNothing_modify _
    | none => exact startsNothing_fail _
  refine startsNothing_andThen (startsNothing_perform fun _ => rfl) fun r => ?_
  refine startsNothing_andThen (startsNothing_ofExcept r) fun found => ?_
  exact startsNothing_ite (startsNothing_andThen
    (startsNothing_within (startsNothing_mapError hinit)) fun _ => startsNothing_ret _)
    (startsNothing_ret _)

theorem startsNothing_discoverOwner (sessionId : String) :
    StartsNothing (CodexDesktopIpc.discoverOwner sessionId) := by
  refine startsNothing_andThen (startsNothing_attempt (startsNothing_desktopRequest rfl))
    fun answer => ?_
  cases answer with
  | error e => exact startsNothing_ite (startsNothing_ret _) (startsNothing_fail _)
  | ok response =>
    dsimp only
    cases response.textAt [["result", "handledByClientId"], ["handledByClientId"]] with
    | some owner => exact startsNothing_ret _
    | none => exact startsNothing_fail _

/-! ## The turn start -/

/-- A line that asks for a turn is written completely or not at all. -/
theorem sendStart_follows (id : Nat) (params : Value) (c : JsonRpcClient) :
    (JsonRpcClient.send (.obj [("method", .str "turn/start"), ("id", .int id),
      ("params", params)])).Follows startMonitor .before c fun phase r _ =>
        phase = if r.toOption.isSome then .written else .before := by
  simp only [JsonRpcClient.send, Act.bind_eq, Act.follows_andThen, Act.follows_get, perform,
    Act.follows_ite, Act.follows_perform, Act.follows_ofExcept, Act.follows_fail]
  refine ⟨fun _ => ⟨trivial, fun r => ?_⟩, fun _ => rfl⟩
  cases r <;> rfl

/-- Discarding the process moves no phase. -/
theorem discard_follows (phase : StartPhase) (c : JsonRpcClient) :
    JsonRpcClient.discardUnhealthyProcess.Follows startMonitor phase c
      fun phase' r _ => phase' = phase ∧ r = .ok () := by
  refine ⟨trivial, fun _ => ⟨?_, rfl⟩⟩
  cases phase <;> rfl

/-- The App Server request that starts a turn. -/
theorem startLine_follows (params : Value) (c : JsonRpcClient) :
    (JsonRpcClient.requestWithUnknownAck "turn/start" params).Follows startMonitor .before c
      fun phase r _ => ∀ x, phase = .settled x →
        r = x.answer ∧ ∃ id events, x = .appServer id events := by
  simp only [JsonRpcClient.requestWithUnknownAck, JsonRpcClient.requestInner, Act.bind_eq,
    Act.follows_andThen, Act.follows_update, Act.follows_attempt]
  refine (sendStart_follows _ _ _).mono fun phase sent c' hsent => ?_
  subst hsent
  cases sent with
  | error e =>
    rw [Act.follows_andThen]
    refine (discard_follows _ c').mono fun phase r c'' hr => ?_
    obtain ⟨rfl, rfl⟩ := hr
    exact fun x hx => by cases hx
  | ok _ =>
    simp only [perform, Act.follows_andThen, Act.follows_perform]
    refine ⟨trivial, fun events => ?_⟩
    have hsettled : ∀ r, r = (Exchange.appServer c.nextId events).answer →
        ∀ x, StartPhase.settled (.appServer c.nextId events) = .settled x →
          r = x.answer ∧ ∃ id events, x = .appServer id events := by
      intro r hr x hx
      cases hx
      exact ⟨hr, _, _, rfl⟩
    cases hread : readReply c.nextId events with
    | answered result => exact hsettled result (by rw [Exchange.answer, hread])
    | dropped =>
      rw [Act.follows_andThen]
      refine (discard_follows _ c').mono fun phase r c'' hr => ?_
      obtain ⟨rfl, rfl⟩ := hr
      exact hsettled _ (by rw [Exchange.answer, hread]; rfl)
    | elapsed =>
      rw [Act.follows_andThen]
      refine (discard_follows _ c').mono fun phase r c'' hr => ?_
      obtain ⟨rfl, rfl⟩ := hr
      exact hsettled _ (by rw [Exchange.answer, hread]; rfl)

/-- The Desktop request that starts a turn. -/
theorem startFrame_follows (params : Value) (target : Option String) (c : CodexDesktopIpc) :
    (CodexDesktopIpc.requestInner "thread-follower-start-turn" 1 params target true).Follows
      startMonitor .before c fun phase r _ => ∀ x, phase = .settled x →
        r = x.answer ∧ ∃ requestId frames, x = .desktop requestId frames := by
  simp only [CodexDesktopIpc.requestInner, Act.bind_eq, Act.follows_andThen, perform,
    Act.follows_perform, Act.follows_get, Act.follows_ofExcept]
  refine ⟨trivial, fun requestId => ⟨trivial, fun r => ?_⟩⟩
  cases r with
  | error e => exact fun x hx => by cases hx
  | ok _ =>
    refine ⟨trivial, fun frames x hx => ?_⟩
    cases hx
    exact ⟨rfl, _, _, rfl⟩

/-- The result of a resume agrees with the exchange, if its turn start was settled. -/
def SettledBy (sessionId : String) (phase : StartPhase) (r : Except Error ResumeReceipt) : Prop :=
  ∀ x, phase = .settled x → r = x.outcome sessionId

theorem settledBy_before (sessionId : String) (r : Except Error ResumeReceipt) :
    SettledBy sessionId .before r := fun x hx => by cases hx

/-- The App Server path ends as its exchange says. -/
theorem resumeAppServer_settledBy (sessionId prompt idempotencyKey : String) (p : CodexProvider) :
    (CodexProvider.resumeAppServer sessionId prompt idempotencyKey).Follows startMonitor .before p
      fun phase r _ => SettledBy sessionId phase r := by
  simp only [CodexProvider.resumeAppServer, CodexProvider.onClient, Act.bind_eq,
    Act.follows_andThen, Act.follows_zoom]
  refine (startsNothing_requestInner rfl _).mono fun phase r c hphase => ?_
  subst hphase
  cases r with
  | error e => exact settledBy_before sessionId _
  | ok _ =>
    refine (startLine_follows _ _).mono fun phase r c' hsettled => ?_
    cases r with
    | error e =>
      intro x hx
      obtain ⟨hr, _⟩ := hsettled x hx
      exact (Exchange.outcome_of_error sessionId hr.symm).symm
    | ok value =>
      have hok : ∀ x, phase = .settled x → x.outcome sessionId =
          (match value.textAt [["turn", "id"]] with
            | some turnId => .ok ⟨"codex", sessionId, turnId, .appServer⟩
            | none =>
              .error (.message "Codex accepted turn/start without returning a turn id")) := by
        intro x hx
        obtain ⟨hr, id, events, rfl⟩ := hsettled x hx
        rw [Exchange.outcome_of_ok sessionId hr.symm, Exchange.turnOf]
        cases value.textAt [["turn", "id"]] <;> rfl
      dsimp only
      cases hturn : value.textAt [["turn", "id"]] <;> rw [hturn] at hok <;>
        exact fun x hx => (hok x hx).symm

/-- The Desktop path ends as its exchange says, or starts nothing where nobody owns the session. -/
theorem startRecovery_settledBy (sessionId prompt idempotencyKey : String) (c : CodexDesktopIpc) :
    (CodexDesktopIpc.startRecovery sessionId prompt idempotencyKey).Follows startMonitor .before c
      fun phase r _ => match r with
        | .ok (some turnId) =>
          SettledBy sessionId phase (.ok ⟨"codex", sessionId, turnId, .desktopIpc⟩)
        | .ok none => phase = .before
        | .error e => SettledBy sessionId phase (.error e) := by
  simp only [CodexDesktopIpc.startRecovery, Act.bind_eq, Act.follows_andThen]
  refine (startsNothing_discoverOwner sessionId c).mono fun phase r c' hphase => ?_
  subst hphase
  cases r with
  | error e => exact settledBy_before sessionId _
  | ok owner =>
    cases owner with
    | none => rfl
    | some owner =>
      simp only [CodexDesktopIpc.startTurn, Act.bind_eq, Act.follows_andThen]
      refine (startFrame_follows _ _ _).mono fun phase r c'' hsettled => ?_
      cases r with
      | error e =>
        intro x hx
        obtain ⟨hr, _⟩ := hsettled x hx
        exact (Exchange.outcome_of_error sessionId hr.symm).symm
      | ok response =>
        have hok : ∀ x, phase = .settled x → x.outcome sessionId =
            (match startedTurnId response with
              | some turnId => .ok ⟨"codex", sessionId, turnId, .desktopIpc⟩
              | none =>
                .error (.message "Codex Desktop accepted turn start without a turn id")) := by
          intro x hx
          obtain ⟨hr, requestId, frames, rfl⟩ := hsettled x hx
          rw [Exchange.outcome_of_ok sessionId hr.symm, Exchange.turnOf]
          cases startedTurnId response <;> rfl
        dsimp only
        cases hturn : startedTurnId response <;> rw [hturn] at hok <;>
          exact fun x hx => (hok x hx).symm

/-- A resume ends as the exchange that followed its turn start says. -/
theorem resume_settledBy (version sessionId prompt idempotencyKey : String) (p : CodexProvider) :
    (CodexProvider.resume version sessionId prompt idempotencyKey).Follows startMonitor .before p
      fun phase r _ => SettledBy sessionId phase r := by
  simp only [CodexProvider.resume, Act.bind_eq, Act.follows_andThen]
  refine (startsNothing_ensureStarted version p).mono fun phase r p₁ hphase => ?_
  subst hphase
  cases r with
  | error e => exact settledBy_before sessionId _
  | ok _ =>
    refine (startsNothing_connectDefault p₁).mono fun phase r p₂ hphase => ?_
    subst hphase
    cases r with
    | error e => exact settledBy_before sessionId _
    | ok desktop =>
      cases desktop with
      | none => exact resumeAppServer_settledBy sessionId prompt idempotencyKey p₂
      | some desktop =>
        simp only [Act.follows_andThen, Act.follows_within]
        refine (startRecovery_settledBy _ _ _ _).mono fun phase r c hr => ?_
        cases r with
        | error e => exact hr
        | ok turn =>
          cases turn with
          | some turnId => exact hr
          | none =>
            subst hr
            exact resumeAppServer_settledBy sessionId prompt idempotencyKey p₂

/-! ## Plain failures -/

/-- After the turn start was written, a resume fails plainly only on an explicit error of the
remote exactly where the answer is not misread. -/
theorem resume_plain_iff {version sessionId prompt idempotencyKey : String} {p p' : CodexProvider}
    {calls : List (Prog.Event WireReply)} {r : Except Error ResumeReceipt} {x : Exchange}
    (h : (CodexProvider.resume version sessionId prompt idempotencyKey).Returns p calls r p')
    (hx : startMonitor.after .before calls = .settled x) :
    (∀ e, r = .error e → e.acknowledgementIsUnknown = false → x.explicitError = true) ↔
      x.misread = false := by
  rw [(resume_settledBy version sessionId prompt idempotencyKey p).returns h x hx]
  exact x.plain_iff sessionId

/-- A remote for samples: no Desktop, and an App Server that knows the session and answers the
turn start with the given output. -/
def sampleRemote (output : List ReaderEvent) : (op : WireCall) → WireReply op
  | .childExited => .ok false
  | .spawn => .ok ()
  | .discard => ()
  | .writeLine _ => .ok ()
  | .awaitReply 0 => [.line (some (.obj [("id", .int 0), ("result", .obj [])]))]
  | .awaitReply _ => output
  | .connectDesktop => .ok false
  | .newRequestId => "request"
  | .writeFrame _ => .ok ()
  | .awaitResponse _ => []

/-- The resume of a started provider against that remote. -/
def sampleResume (output : List ReaderEvent) :
    List (Prog.Event WireReply) × Except Error ResumeReceipt × CodexProvider :=
  (CodexProvider.resume "0.1.0" "session" "continue" "key" ⟨⟨true, true, 0⟩, true⟩).execute
    (sampleRemote output)

/-- An App Server that ends after it read the turn start makes the resume fail plainly. -/
theorem resume_plain_without_answer :
    ¬ ∀ (version sessionId prompt idempotencyKey : String) (p p' : CodexProvider)
      (calls : List (Prog.Event WireReply)) (r : Except Error ResumeReceipt) (x : Exchange),
      (CodexProvider.resume version sessionId prompt idempotencyKey).Returns p calls r p' →
      startMonitor.after .before calls = .settled x →
      ∀ e, r = .error e → e.acknowledgementIsUnknown = false → x.explicitError = true := by
  intro h
  have hrun : (CodexProvider.resume "0.1.0" "session" "continue" "key").Returns
      ⟨⟨true, true, 0⟩, true⟩ (sampleResume [.closed]).1 (sampleResume [.closed]).2.1
      (sampleResume [.closed]).2.2 := Prog.execute_returns _ _
  have hexplicit := h _ _ _ _ _ _ _ _ (.appServer 1 [.closed]) hrun rfl
    (.message "app-server stdout closed") rfl rfl
  cases hexplicit

/-- An error reply to the turn start. -/
def sampleErrorReply : ReaderEvent :=
  .line (some (.obj [("id", .int 1), ("error", .obj [("code", .int (-32600)),
    ("message", .str "thread not found")])]))

/-- The resume that is answered by an error object fails plainly, and rightly so. -/
theorem resume_plain_iff_refused :
    (∀ e, (sampleResume [sampleErrorReply]).2.1 = .error e → e.acknowledgementIsUnknown = false →
      (Exchange.appServer 1 [sampleErrorReply]).explicitError = true) ↔
      (Exchange.appServer 1 [sampleErrorReply]).misread = false :=
  resume_plain_iff (Prog.execute_returns (sampleRemote [sampleErrorReply])
    (CodexProvider.resume "0.1.0" "session" "continue" "key" ⟨⟨true, true, 0⟩, true⟩)) rfl

end Watchcat
