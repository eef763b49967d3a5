import Watchcat.Protocol.Messages

/-!
# The registry of manual retries

Operations by identifier. A request is answered by the operation of its key, or
by the operation that is active for its session, or by a new one. The map is
searched in its iteration order, which the callers supply.
-/

namespace Watchcat

open Watchcat.Core

/-- The life of a manual retry; the texts are in `RetryStatus.text`. -/
inductive RetryStatus
  | accepted
  | running
  | succeeded
  | failed
  | unknown
  deriving DecidableEq, Repr

/-- The text a status is stored under. -/
def RetryStatus.text : RetryStatus → String
  | accepted => "accepted"
  | running => "running"
  | succeeded => "succeeded"
  | failed => "failed"
  | unknown => "unknown"

/-- `matches!(status, "accepted" | "running")`. -/
def RetryStatus.isActive : RetryStatus → Bool
  | accepted | running => true
  | _ => false

/-- `RetryOperation`. -/
structure RetryOperation where
  operationId : String
  provider : String
  sessionId : String
  requestKey : String
  status : RetryStatus
  result : Option ResumeReceipt
  error : Option String
  updatedAt : Int
  deriving DecidableEq, Repr

namespace RetryOperation

/-- Whether the operation belongs to the session. -/
def isFor (o : RetryOperation) (s : SessionRef) : Bool :=
  o.provider == s.provider && o.sessionId == s.sessionId

/-- A new operation. -/
def fresh (id : String) (s : SessionRef) (requestKey : String) (now : Int) : RetryOperation where
  operationId := id
  provider := s.provider
  sessionId := s.sessionId
  requestKey := requestKey
  status := .accepted
  result := none
  error := none
  updatedAt := now

/-- The operation once its task has begun. -/
def started (o : RetryOperation) (now : Int) : RetryOperation :=
  { o with status := .running, updatedAt := now }

/-- The operation with the outcome of its task. -/
def ended (o : RetryOperation) (result : Except Error ResumeReceipt) (now : Int) :
    RetryOperation :=
  match result with
  | .ok receipt =>
    { o with status := .succeeded, result := some receipt, error := none, updatedAt := now }
  | .error e =>
    { o with
      status := if e.acknowledgementIsUnknown then .unknown else .failed
      result := none
      error := some e.displayChain
      updatedAt := now }

/-- The operation as it is found again after a restart. -/
def interrupted (o : RetryOperation) (now : Int) : RetryOperation :=
  { o with
    status := .unknown
    error := some "Watchcat restarted before this retry reached a confirmed result"
    updatedAt := now }

/-- What stays of an operation for as long as it is stored. -/
structure Identity where
  operationId : String
  requestKey : String
  provider : String
  sessionId : String
  deriving DecidableEq, Repr

/-- The identity of an operation. -/
def identity (o : RetryOperation) : Identity :=
  ⟨o.operationId, o.requestKey, o.provider, o.sessionId⟩

@[simp] theorem fresh_identity (id : String) (s : SessionRef) (k : String) (now : Int) :
    (fresh id s k now).identity = ⟨id, k, s.provider, s.sessionId⟩ := rfl

@[simp] theorem started_identity (o : RetryOperation) (now : Int) :
    (o.started now).identity = o.identity := rfl

@[simp] theorem ended_identity (o : RetryOperation) (r : Except Error ResumeReceipt)
    (now : Int) : (o.ended r now).identity = o.identity := by
  cases r <;> rfl

@[simp] theorem interrupted_identity (o : RetryOperation) (now : Int) :
    (o.interrupted now).identity = o.identity := rfl

/-- An operation belongs to the session its identity names. -/
theorem isFor_iff (o : RetryOperation) (s : SessionRef) :
    o.isFor s = true ↔ o.identity.provider = s.provider ∧ o.identity.sessionId = s.sessionId := by
  simp only [isFor, Bool.and_eq_true, beq_iff_eq, identity]

end RetryOperation

/-- The registry file. -/
structure RetryOperationDocument where
  version : Nat
  operations : List RetryOperation
  deriving DecidableEq, Repr

/-- `RetryOperationRegistry`. -/
structure RetryOperationRegistry where
  operations : Table String RetryOperation := .empty

namespace RetryOperationRegistry

/-- The document that `save` writes: the operations by their last update. -/
def document (order : List RetryOperation) : RetryOperationDocument where
  version := 1
  operations := order.insertionSort fun a b => a.updatedAt ≤ b.updatedAt

/-- The first operation of the map with the request key. -/
def findKey (order : List RetryOperation) (requestKey : String) : Option RetryOperation :=
  order.find? fun o => o.requestKey == requestKey

/-- The first active operation of the map for the session. -/
def findActive (order : List RetryOperation) (s : SessionRef) : Option RetryOperation :=
  order.find? fun o => o.status.isActive && o.isFor s

/-- `find_request`. -/
def findRequest (order : List RetryOperation) (s : SessionRef) (requestKey : String) :
    Except Error (Option RetryOperation) :=
  match findKey order requestKey with
  | none => .ok none
  | some o =>
    if o.isFor s then .ok (some o)
    else .error (.message "request_key already belongs to another session")

/-- The part of `accept` before a new operation is made: the operation that answers the
request, or none where a new one is due. -/
def admission (order : List RetryOperation) (s : SessionRef) (requestKey : String) :
    Except Error (Option RetryOperation) :=
  if isBlank requestKey then .error (.message "request_key is required for manual retry")
  else match findKey order requestKey with
    | some o =>
      if o.isFor s then .ok (some o)
      else .error (.message "request_key already belongs to another session")
    | none => match findActive order s with
      | some o => .ok (some o)
      | none =>
        if 32 ≤ order.countP fun o => o.status.isActive then
          .error (.message "too many manual retry operations are already pending")
        else .ok none

/-- `min_by_key` over the last update: the first of the oldest operations. -/
def oldest : List RetryOperation → Option RetryOperation
  | [] => none
  | o :: os => match oldest os with
    | none => some o
    | some p => if o.updatedAt ≤ p.updatedAt then some o else some p

/-- The eviction of `accept`: at 256 operations the oldest one that is not active goes. -/
def evict (order : List RetryOperation) (r : RetryOperationRegistry) : RetryOperationRegistry :=
  if 256 ≤ r.operations.size then
    match oldest (order.filter fun o => !o.status.isActive) with
    | some o => ⟨r.operations.erase o.operationId⟩
    | none => r
  else r

/-- Store a new operation. -/
def store (r : RetryOperationRegistry) (o : RetryOperation) : RetryOperationRegistry :=
  ⟨r.operations.insert o.operationId o⟩

/-- Update the stored operation of an identifier. -/
def adjust (r : RetryOperationRegistry) (id : String) (f : RetryOperation → RetryOperation) :
    RetryOperationRegistry :=
  match r.operations.lookup id with
  | some o => ⟨r.operations.insert id (f o)⟩
  | none => r

/-- Drop the operation of an identifier. -/
def discard (r : RetryOperationRegistry) (id : String) : RetryOperationRegistry :=
  ⟨r.operations.erase id⟩

/-! ## What the operations leave -/

theorem findKey_some {order : List RetryOperation} {k : String} {o : RetryOperation}
    (h : findKey order k = some o) : o ∈ order ∧ o.requestKey = k :=
  ⟨List.mem_of_find?_eq_some h, by simpa using List.find?_some h⟩

theorem findKey_none {order : List RetryOperation} {k : String} (h : findKey order k = none) :
    ∀ o ∈ order, o.requestKey ≠ k := by
  simpa [findKey] using h

/-- A registry below the limit keeps its operations. -/
theorem evict_of_lt {order : List RetryOperation} {r : RetryOperationRegistry}
    (h : r.operations.size < 256) : evict order r = r := by
  rw [evict, if_neg (by omega)]

/-- A request is answered by a stored operation of its session: the one with its key, or an active
one where no operation has the key. -/
theorem admission_some {order : List RetryOperation} {s : SessionRef} {k : String}
    {o : RetryOperation} (h : admission order s k = .ok (some o)) :
    o ∈ order ∧ o.isFor s = true ∧ (o.requestKey = k ∨
      (∀ p ∈ order, p.requestKey ≠ k) ∧ o.status.isActive = true) := by
  unfold admission at h
  split at h
  · cases h
  · cases hk : findKey order k with
    | some o' =>
      simp only [hk] at h
      split at h
      · rename_i hfor
        cases h
        exact ⟨(findKey_some hk).1, hfor, Or.inl (findKey_some hk).2⟩
      · cases h
    | none =>
      simp only [hk] at h
      cases ha : findActive order s with
      | some o' =>
        simp only [ha] at h
        cases h
        have hp := List.find?_some ha
        simp only [Bool.and_eq_true] at hp
        exact ⟨List.mem_of_find?_eq_some ha, hp.2, Or.inr ⟨findKey_none hk, hp.1⟩⟩
      | none =>
        simp only [ha] at h
        split at h <;> cases h

/-- Only a request with a key that is not blank is admitted. -/
theorem isBlank_of_admission {order : List RetryOperation} {s : SessionRef} {k : String}
    {answer : Option RetryOperation} (h : admission order s k = .ok answer) :
    isBlank k = false := by
  by_contra hblank
  rw [Bool.not_eq_false] at hblank
  rw [admission, if_pos hblank] at h
  cases h

/-- A request is found by its key. -/
theorem findRequest_some {order : List RetryOperation} {s : SessionRef} {k : String}
    {o : RetryOperation} (h : findRequest order s k = .ok (some o)) :
    o ∈ order ∧ o.requestKey = k := by
  unfold findRequest at h
  split at h
  · cases h
  · rename_i p hk
    split at h
    · cases h
      exact findKey_some hk
    · cases h

/-- A new operation is due only where no stored one has the request key. -/
theorem admission_none {order : List RetryOperation} {s : SessionRef} {k : String}
    (h : admission order s k = .ok none) : findKey order k = none ∧ findActive order s = none := by
  unfold admission at h
  split at h
  · cases h
  · cases hk : findKey order k with
    | some o' =>
      simp only [hk] at h
      split at h <;> cases h
    | none =>
      simp only [hk] at h
      cases ha : findActive order s with
      | some o' => simp only [ha] at h; cases h
      | none => exact ⟨rfl, rfl⟩

theorem lookup_adjust (r : RetryOperationRegistry) (id k : String)
    (f : RetryOperation → RetryOperation) :
    (r.adjust id f).operations.lookup k =
      if k = id then (r.operations.lookup id).map f else r.operations.lookup k := by
  unfold adjust
  cases h : r.operations.lookup id with
  | none =>
    by_cases hk : k = id
    · subst hk
      simp only [h, if_true, Option.map_none]
    · simp only [if_neg hk]
  | some o => simp only [Table.lookup_insert, Option.map_some]

end RetryOperationRegistry

end Watchcat
