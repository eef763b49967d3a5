import Watchcat.State.RetryRegistry

/-!
# The operations a registry may hold

The limits of the registry as a property of the list of its operations, in any
order: how many are stored and active, that request keys differ, and that no
session has two active ones. Each update of the registry is an update of this
list.
-/

namespace Watchcat

open Watchcat.Core

/-! ## The life of an operation -/

/-- The order in which an operation passes through its statuses. -/
def RetryStatus.rank : RetryStatus → Nat
  | accepted => 0
  | running => 1
  | _ => 2

theorem RetryStatus.rank_le_two (s : RetryStatus) : s.rank ≤ 2 := by
  cases s <;> decide

namespace RetryOperation

/-- What an operation can be later on: its statuses are passed through in order, and once it has
ended it stays as it is. -/
structure Later (o o' : RetryOperation) : Prop where
  identity : o'.identity = o.identity
  forward : o.status.rank ≤ o'.status.rank
  settled : o.status.isActive = false → o' = o

theorem Later.refl (o : RetryOperation) : Later o o := ⟨rfl, le_rfl, fun _ => rfl⟩

theorem Later.trans {o p q : RetryOperation} (h : Later o p) (h' : Later p q) : Later o q := by
  refine ⟨h'.identity.trans h.identity, h.forward.trans h'.forward, fun hsettled => ?_⟩
  have hp : p = o := h.settled hsettled
  subst hp
  exact h'.settled hsettled

theorem ended_settled (o : RetryOperation) (result : Except Error ResumeReceipt) (now : Int) :
    (o.ended result now).status.isActive = false := by
  cases result with
  | ok receipt => rfl
  | error e =>
    simp only [ended]
    split <;> rfl

theorem rank_of_settled {o : RetryOperation} (h : o.status.isActive = false) :
    o.status.rank = 2 := by
  cases hs : o.status <;> rw [hs] at h <;> first | rfl | cases h

/-- An accepted operation is started. -/
theorem later_started {o : RetryOperation} (h : o.status = .accepted) (now : Int) :
    Later o (o.started now) := by
  refine ⟨rfl, ?_, fun hsettled => ?_⟩
  · rw [h]
    exact Nat.zero_le _
  · rw [h] at hsettled
    cases hsettled

/-- An active operation is ended. -/
theorem later_ended {o : RetryOperation} (h : o.status.isActive = true)
    (result : Except Error ResumeReceipt) (now : Int) : Later o (o.ended result now) := by
  refine ⟨o.ended_identity result now, ?_, fun hsettled => ?_⟩
  · rw [rank_of_settled (o.ended_settled result now)]
    exact o.status.rank_le_two
  · rw [h] at hsettled
    cases hsettled

/-- An active operation is interrupted. -/
theorem later_interrupted {o : RetryOperation} (h : o.status.isActive = true) (now : Int) :
    Later o (o.interrupted now) := by
  refine ⟨rfl, o.status.rank_le_two, fun hsettled => ?_⟩
  rw [h] at hsettled
  cases hsettled

/-- Two operations are active for one session. -/
def Rivals (o p : RetryOperation) : Prop :=
  o.status.isActive = true ∧ p.status.isActive = true ∧
    o.provider = p.provider ∧ o.sessionId = p.sessionId

theorem Rivals.symm {o p : RetryOperation} (h : Rivals o p) : Rivals p o :=
  ⟨h.2.1, h.1, h.2.2.1.symm, h.2.2.2.symm⟩

end RetryOperation

/-! ## Lists of operations within the limits -/

/-- The limits on the stored operations. -/
structure Admissible (ops : List RetryOperation) : Prop where
  stored : ops.length ≤ 256
  active : (ops.countP fun o => o.status.isActive) ≤ 32
  keys : (ops.map RetryOperation.requestKey).Nodup
  lone : ops.Pairwise fun o p => ¬ o.Rivals p

namespace Admissible

variable {o p : RetryOperation} {ops ops' : List RetryOperation}

theorem nil : Admissible [] := ⟨Nat.zero_le _, Nat.zero_le _, List.nodup_nil, .nil⟩

theorem perm (h : Admissible ops) (hp : ops.Perm ops') : Admissible ops' where
  stored := hp.length_eq ▸ h.stored
  active := hp.countP_eq _ ▸ h.active
  keys := (hp.map _).nodup_iff.mp h.keys
  lone := hp.pairwise h.lone fun hxy hyx => hxy hyx.symm

theorem sublist (h : Admissible ops) (hs : ops'.Sublist ops) : Admissible ops' where
  stored := hs.length_le.trans h.stored
  active := hs.countP_le.trans h.active
  keys := h.keys.sublist (hs.map _)
  lone := h.lone.sublist hs

/-- A new operation is within the limits where there is room for it, no stored operation has its
request key and none is active for its session. -/
theorem cons (h : Admissible ops) (hroom : ops.length < 256)
    (hactive : (ops.countP fun o => o.status.isActive) < 32)
    (hkey : ∀ p ∈ ops, p.requestKey ≠ o.requestKey) (hlone : ∀ p ∈ ops, ¬ o.Rivals p) :
    Admissible (o :: ops) where
  stored := hroom
  active := by
    rw [List.countP_cons]
    split <;> omega
  keys := by
    refine List.nodup_cons.mpr ⟨fun hmem => ?_, h.keys⟩
    obtain ⟨p, hp, heq⟩ := List.mem_map.mp hmem
    exact hkey p hp heq
  lone := List.pairwise_cons.mpr ⟨hlone, h.lone⟩

/-- An operation is replaced by one of the same identity that is active only where it was. -/
theorem replace (h : Admissible (o :: ops)) (hid : p.identity = o.identity)
    (hact : p.status.isActive = true → o.status.isActive = true) : Admissible (p :: ops) := by
  have hkey : p.requestKey = o.requestKey := congrArg RetryOperation.Identity.requestKey hid
  have hprovider : p.provider = o.provider := congrArg RetryOperation.Identity.provider hid
  have hsession : p.sessionId = o.sessionId := congrArg RetryOperation.Identity.sessionId hid
  refine ⟨h.stored, ?_, ?_, ?_⟩
  · have hcount := h.active
    rw [List.countP_cons] at hcount ⊢
    split <;> rename_i hp
    · rw [if_pos (hact hp)] at hcount
      exact hcount
    · split at hcount <;> omega
  · have hkeys := h.keys
    rw [List.map_cons] at hkeys ⊢
    rwa [hkey]
  · obtain ⟨hfirst, hrest⟩ := List.pairwise_cons.mp h.lone
    refine List.pairwise_cons.mpr ⟨fun q hq hrivals => hfirst q hq ?_, hrest⟩
    obtain ⟨hp, hactive, hprov, hsess⟩ := hrivals
    exact ⟨hact hp, hactive, hprovider ▸ hprov, hsession ▸ hsess⟩

/-- Operations that have all ended are within the limits where their number and keys are. -/
theorem of_settled (hstored : ops.length ≤ 256)
    (hkeys : (ops.map RetryOperation.requestKey).Nodup)
    (hsettled : ∀ o ∈ ops, o.status.isActive = false) : Admissible ops where
  stored := hstored
  active := by
    have hnone : (ops.countP fun o => o.status.isActive) = 0 := by
      refine List.countP_eq_zero.mpr fun o ho => ?_
      rw [hsettled o ho]
      decide
    omega
  keys := hkeys
  lone := by
    refine List.Pairwise.imp_of_mem (R := fun _ _ => True) (fun {o p} ho _ _ hrivals => ?_) ?_
    · have hactive := hrivals.1
      rw [hsettled o ho] at hactive
      cases hactive
    · exact List.pairwise_of_forall fun _ _ => trivial

end Admissible

/-! ## The updates of a registry -/

namespace RetryOperationRegistry

/-- The operation of an identifier is active. -/
def Active (r : RetryOperationRegistry) (id : String) : Prop :=
  ∃ o, r.operations.lookup id = some o ∧ o.status.isActive = true

theorem lookup_discard (r : RetryOperationRegistry) (id k : String) :
    (r.discard id).operations.lookup k = if k = id then none else r.operations.lookup k :=
  Table.lookup_erase _ _ _

theorem lookup_store (r : RetryOperationRegistry) (o : RetryOperation) (k : String) :
    (r.store o).operations.lookup k =
      if k = o.operationId then some o else r.operations.lookup k :=
  Table.lookup_insert _ _ _ _

/-- A new operation is due only below the limit of active ones. -/
theorem admission_none_active {order : List RetryOperation} {s : SessionRef} {k : String}
    (h : admission order s k = .ok none) : (order.countP fun o => o.status.isActive) < 32 := by
  obtain ⟨hkey, hactive⟩ := admission_none h
  unfold admission at h
  simp only [hkey, hactive] at h
  split at h
  · cases h
  · split at h
    · cases h
    · omega

theorem findActive_none {order : List RetryOperation} {s : SessionRef}
    (h : findActive order s = none) :
    ∀ o ∈ order, o.status.isActive = true → o.isFor s = false := by
  intro o ho hactive
  have hno := List.find?_eq_none.mp h o ho
  simpa [hactive] using hno

theorem oldest_mem {ops : List RetryOperation} {o : RetryOperation} (h : oldest ops = some o) :
    o ∈ ops := by
  induction ops generalizing o with
  | nil => cases h
  | cons p ops ih =>
    unfold oldest at h
    split at h
    · cases h
      exact List.mem_cons_self
    · rename_i q hq
      split at h <;> cases h
      · exact List.mem_cons_self
      · exact List.mem_cons_of_mem _ (ih hq)

theorem oldest_none {ops : List RetryOperation} (h : oldest ops = none) : ops = [] := by
  cases ops with
  | nil => rfl
  | cons o ops =>
    unfold oldest at h
    split at h
    · cases h
    · split at h <;> cases h

/-- What an eviction removes: nothing, or one operation that has ended. -/
theorem evict_cases {r : RetryOperationRegistry} {order : List RetryOperation}
    (horder : order.Perm r.operations.values)
    (hr : r.operations.Indexed RetryOperation.operationId) :
    evict order r = r ∨ ∃ o, r.operations.lookup o.operationId = some o ∧
      o.status.isActive = false ∧ evict order r = r.discard o.operationId := by
  unfold evict
  split
  · split
    · rename_i o ho
      obtain ⟨hmem, hsettled⟩ := List.mem_filter.mp (oldest_mem ho)
      refine Or.inr ⟨o, hr.lookup_mem (horder.mem_iff.mp hmem), ?_, rfl⟩
      simpa using hsettled
    · exact Or.inl rfl
  · exact Or.inl rfl

/-- What is stored after an eviction was stored before. -/
theorem lookup_of_evict {r : RetryOperationRegistry} {order : List RetryOperation} {id : String}
    {o : RetryOperation} (ho : (evict order r).operations.lookup id = some o) :
    r.operations.lookup id = some o := by
  unfold evict at ho
  split at ho
  · split at ho
    · have hdiscard : (r.discard _).operations.lookup id = some o := ho
      rw [lookup_discard] at hdiscard
      split at hdiscard
      · cases hdiscard
      · exact hdiscard
    · exact ho
  · exact ho

/-- An eviction makes room where not all operations are active. -/
theorem evict_room {r : RetryOperationRegistry} {order : List RetryOperation}
    (horder : order.Perm r.operations.values)
    (hr : r.operations.Indexed RetryOperation.operationId)
    (hstored : r.operations.values.length ≤ 256)
    (hactive : (r.operations.values.countP fun o => o.status.isActive) < 32) :
    (evict order r).operations.values.length < 256 := by
  have hsize : r.operations.size = r.operations.values.length := by
    rw [Table.size, Table.values, List.length_map]
  unfold evict
  split
  · rename_i hfull
    split
    · rename_i o ho
      have hmem := horder.mem_iff.mp (List.mem_filter.mp (oldest_mem ho)).1
      have hlen := (Table.values_erase_perm (hr.lookup_mem hmem)).length_eq
      rw [List.length_cons] at hlen
      change (r.operations.erase o.operationId).values.length < 256
      omega
    · -- all operations of a full registry would be active
      rename_i hnone
      have hall : ∀ o ∈ order, o.status.isActive = true := by
        intro o ho
        by_contra hsettled
        have hfiltered : o ∈ order.filter fun o => !o.status.isActive :=
          List.mem_filter.mpr ⟨ho, by simpa using hsettled⟩
        rw [oldest_none hnone] at hfiltered
        cases hfiltered
      have hcount := horder.countP_eq fun o => o.status.isActive
      rw [List.countP_eq_length.mpr hall, horder.length_eq] at hcount
      omega
  · omega

end RetryOperationRegistry

end Watchcat
