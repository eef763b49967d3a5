import Mathlib.Algebra.Order.Monoid.Unbundled.WithTop
import Mathlib.Algebra.Ring.Nat
import Mathlib.Data.Finset.Basic
import Mathlib.Logic.Relation
import Watchcat.Core.Imperative
import Watchcat.Core.Interleaving

/-!
# Locks taken in an order

Every lock has a rank, and a thread waits only for a lock above all it holds. Then
no threads wait for each other in a circle. A thread that joins others is ranked
like one that waits for a lock.
-/

namespace Watchcat.Core

/-- What calls have to do with locks, and what is expected of the threads that make them. -/
structure LockOrder (Op Tid Lock : Type) where
  takes : Op → Option Lock
  leaves : Op → Option Lock
  /-- The call waits for the end of every thread whose floor is above the rank. -/
  joins : Op → Option Nat
  rank : Lock → Nat
  /-- The thread never waits below its floor. -/
  floor : Tid → Nat
  /-- The locks that a thread may end with. -/
  final : Tid → Finset Lock
  /-- The calls that are not made while the lock is held. -/
  barred : Lock → Op → Prop

/-- A thread and the locks it holds. -/
structure Holding (Tid Lock : Type) where
  thread : Tid
  locks : Finset Lock

namespace LockOrder

variable {Op : Type} {Ans : Op → Type} {Tid Lock σ ε α β : Type}

/-- The rank at which a call waits. -/
def waits (L : LockOrder Op Tid Lock) (op : Op) : Option Nat :=
  match L.takes op with
  | some l => some (L.rank l)
  | none => L.joins op

variable (L : LockOrder Op Tid Lock)

/-- A thread ends with no lock but those it may keep. -/
def Ended (s : Holding Tid Lock) : Prop := s.locks ⊆ L.final s.thread

/-! ## Who holds the locks -/

/-- Each lock is among those of the thread that holds it, and no thread holds one below its
floor. -/
structure Held (holder : Lock → Option Tid) (g : Tid → Option (Holding Tid Lock)) : Prop where
  own : ∀ t s, g t = some s → s.thread = t ∧ ∀ l ∈ s.locks, L.floor t ≤ L.rank l
  held : ∀ l t, holder l = some t → ∃ s, g t = some s ∧ l ∈ s.locks

variable {L} {t : Tid} {locks : Finset Lock} {holder holder' : Lock → Option Tid}
  {g : Tid → Option (Holding Tid Lock)}

/-- A thread that holds nothing begins or is gone. -/
theorem Held.reset [DecidableEq Tid] (h : L.Held holder g) {o : Option (Holding Tid Lock)}
    (ho : o = none ∨ o = some ⟨t, ∅⟩)
    (hholder : ∀ l u, holder' l = some u → holder l = some u ∧ u ≠ t) :
    L.Held holder' (Function.update g t o) := by
  refine ⟨fun u s hu => ?_, fun l u hu => ?_⟩
  · by_cases hut : u = t
    · subst hut
      rw [Function.update_self] at hu
      rcases ho with rfl | rfl
      · cases hu
      · obtain rfl := Option.some.inj hu
        exact ⟨rfl, fun l hl => absurd hl (Finset.notMem_empty l)⟩
    · rw [Function.update_of_ne hut] at hu
      exact h.own u s hu
  · obtain ⟨hl, hut⟩ := hholder l u hu
    rw [Function.update_of_ne hut]
    exact h.held l u hl

/-- A thread that has ended holds no lock but those it may keep. -/
theorem Held.ended (h : L.Held holder g) (ht : ∀ s, g t = some s → L.Ended s) {l : Lock}
    (hl : holder l = some t) : l ∈ L.final t := by
  obtain ⟨s, hs, hmem⟩ := h.held l t hl
  have hend := ht s hs
  rw [Ended, (h.own t s hs).1] at hend
  exact hend hmem

/-- A thread holds no lock below its floor. -/
theorem Held.floor (h : L.Held holder g) {l : Lock} (hl : holder l = some t) :
    L.floor t ≤ L.rank l := by
  obtain ⟨s, hs, hmem⟩ := h.held l t hl
  exact (h.own t s hs).2 l hmem

/-! ## Waiting -/

variable (L)

/-- The thread stands at a call that has to wait for the other thread. -/
inductive WaitsFor (holder : Lock → Option Tid) (pool : Tid → Option (Prog Ans Unit)) :
    Tid → Tid → Prop
  /-- The other thread holds the lock that the call takes. -/
  | lock {t u : Tid} {op : Op} {next : Ans op → Prog Ans Unit} {l : Lock}
      (hp : pool t = some (.call op next)) (hl : L.takes op = some l) (hu : holder l = some u) :
      WaitsFor holder pool t u
  /-- The other thread has still to end. -/
  | join {t u : Tid} {op : Op} {next : Ans op → Prog Ans Unit} {n : Nat} {p : Prog Ans Unit}
      (hp : pool t = some (.call op next)) (hn : L.takes op = none ∧ L.joins op = some n)
      (hu : pool u = some p) (hfloor : n < L.floor u) : WaitsFor holder pool t u

/-- The rank at which a thread waits, or above them all. -/
def height (pool : Tid → Option (Prog Ans Unit)) (t : Tid) : WithTop Nat :=
  match pool t with
  | some (.call op _) => (L.waits op).elim ⊤ fun n => n
  | _ => ⊤

variable {L} {pool : Tid → Option (Prog Ans Unit)}

/-- What a thread stands at is above what it is held up by. -/
theorem lt_height {n : Nat} (h : ∀ op next m, pool t = some (.call op next) →
    L.waits op = some m → n < m) : (n : WithTop Nat) < L.height pool t := by
  unfold height
  split
  · rename_i op next hp
    cases hm : L.waits op with
    | none => exact WithTop.coe_lt_top n
    | some m => exact WithTop.coe_lt_coe.mpr (h op next m hp hm)
  · exact WithTop.coe_lt_top n

/-! ## Threads that follow the order -/

variable (L)

/-- The lock may be taken by a thread that holds the locks. -/
structure Above (t : Tid) (locks : Finset Lock) (l : Lock) : Prop where
  floor : L.floor t ≤ L.rank l
  rank : ∀ k ∈ locks, L.rank k < L.rank l

variable {L}

theorem Above.notMem {l : Lock} (h : L.Above t locks l) : l ∉ locks :=
  fun hl => lt_irrefl _ (h.rank l hl)

variable [DecidableEq Lock] (L)

/-- The locks held after a call. -/
def after (op : Op) (locks : Finset Lock) : Finset Lock :=
  match L.takes op, L.leaves op with
  | some l, _ => insert l locks
  | none, some l => locks.erase l
  | none, none => locks

/-- The threads wait only above their floor and above the locks they hold. -/
def monitor : Monitor Ans (Holding Tid Lock) where
  allowed s op :=
    (∀ n, L.waits op = some n → L.floor s.thread ≤ n ∧ ∀ l ∈ s.locks, L.rank l < n) ∧
      ∀ l ∈ s.locks, ¬L.barred l op
  next s op _ := ⟨s.thread, L.after op s.locks⟩

/-- The holders after a call of the thread. -/
def holderAfter (t : Tid) (op : Op) (holder : Lock → Option Tid) (l : Lock) : Option Tid :=
  if L.takes op = some l then some t
  else if L.takes op = none ∧ L.leaves op = some l then none else holder l

variable {L}

theorem mem_after {op : Op} {l : Lock} (h : l ∈ L.after op locks) :
    l ∈ locks ∨ L.takes op = some l := by
  unfold after at h
  split at h
  · rename_i _ _ _ htakes
    rcases Finset.mem_insert.mp h with rfl | h
    · exact .inr htakes
    · exact .inl h
  · exact .inl (Finset.mem_of_mem_erase h)
  · exact .inl h

theorem mem_after_of_mem {op : Op} {l : Lock} (h : l ∈ locks)
    (hkept : ¬(L.takes op = none ∧ L.leaves op = some l)) : l ∈ L.after op locks := by
  unfold after
  split
  · exact Finset.mem_insert_of_mem h
  · rename_i k htakes hleaves
    refine Finset.mem_erase_of_ne_of_mem ?_ h
    rintro rfl
    exact hkept ⟨htakes, hleaves⟩
  · exact h

theorem mem_after_of_takes {op : Op} {l : Lock} (h : L.takes op = some l) :
    l ∈ L.after op locks := by
  rw [after, h]
  exact Finset.mem_insert_self l locks

/-- A call that its thread may make leaves each lock with the thread that holds it. -/
theorem Held.call [DecidableEq Tid] (h : L.Held holder g) {s : Holding Tid Lock} {op : Op}
    {r : Ans op} (hs : g t = some s) (hm : (L.monitor : Monitor Ans _).allowed s op)
    (hholder : ∀ l, holder' l = L.holderAfter t op holder l) :
    L.Held holder' (Function.update g t (some (L.monitor.next s op r))) := by
  obtain ⟨rfl, hfloor⟩ := h.own t s hs
  refine ⟨fun u s' hu => ?_, fun l u hu => ?_⟩
  · by_cases hut : u = s.thread
    · subst hut
      rw [Function.update_self] at hu
      obtain rfl := Option.some.inj hu
      refine ⟨rfl, fun l hl => ?_⟩
      rcases mem_after hl with hl | htakes
      · exact hfloor l hl
      · exact (hm.1 _ (by rw [waits, htakes])).1
    · rw [Function.update_of_ne hut] at hu
      exact h.own u s' hu
  · rw [hholder, holderAfter] at hu
    split at hu
    · rename_i htakes
      obtain rfl := Option.some.inj hu
      rw [Function.update_self]
      exact ⟨_, rfl, mem_after_of_takes htakes⟩
    split at hu
    · cases hu
    rename_i hkept
    obtain ⟨s', hs', hl⟩ := h.held l u hu
    by_cases hut : u = s.thread
    · subst hut
      rw [hs] at hs'
      obtain rfl := Option.some.inj hs'
      rw [Function.update_self]
      exact ⟨_, rfl, mem_after_of_mem hl hkept⟩
    · rw [Function.update_of_ne hut]
      exact ⟨s', hs', hl⟩

theorem WaitsFor.height_lt (hg : System.Tracked L.monitor L.Ended pool g)
    (hheld : L.Held holder g) {t u : Tid} (h : L.WaitsFor holder pool t u) :
    L.height pool t < L.height pool u := by
  cases h with
  | @lock op next l hp hl hu =>
    have ht : L.height pool t = (L.rank l : WithTop Nat) := by
      rw [height, hp]
      simp only [waits, hl, Option.elim_some]
    rw [ht]
    refine lt_height fun op' next' m hp' hm => ?_
    obtain ⟨s, hs, hmem⟩ := hheld.held l u hu
    obtain ⟨s', hs', hf⟩ := hg.follows hp'
    rw [hs] at hs'
    obtain rfl := Option.some.inj hs'
    exact (hf.1.1 m hm).2 l hmem
  | @join op next n p hp hn hu hfloor =>
    have ht : L.height pool t = (n : WithTop Nat) := by
      rw [height, hp]
      simp only [waits, hn.1, hn.2, Option.elim_some]
    rw [ht]
    refine lt_height fun op' next' m hp' hm => ?_
    obtain ⟨s, hs, hf⟩ := hg.follows hp'
    have hlow := (hf.1.1 m hm).1
    rw [(hheld.own u s hs).1] at hlow
    exact lt_of_lt_of_le hfloor hlow

/-- No threads wait for each other in a circle. -/
theorem waitsFor_acyclic (hg : System.Tracked L.monitor L.Ended pool g)
    (hheld : L.Held holder g) (t : Tid) :
    ¬Relation.TransGen (L.WaitsFor holder pool) t t := by
  have hrises : ∀ {t u : Tid}, Relation.TransGen (L.WaitsFor holder pool) t u →
      L.height pool t < L.height pool u := by
    intro t u h
    induction h with
    | single hw => exact hw.height_lt hg hheld
    | tail _ hw ih => exact ih.trans (hw.height_lt hg hheld)
  exact fun h => lt_irrefl _ (hrises h)

/-! ## Methods that give back what they take -/

variable (L)

/-- A thread that holds the locks follows the order and holds them in the end. -/
abbrev Orderly (t : Tid) (locks : Finset Lock) (m : Act Ans σ ε α) : Prop :=
  m.Keeps L.monitor fun s => s = ⟨t, locks⟩

/-- The call has nothing to do with locks and may be made while these are held. -/
def Quiet (locks : Finset Lock) (op : Op) : Prop :=
  L.takes op = none ∧ L.leaves op = none ∧ L.joins op = none ∧ ∀ l ∈ locks, ¬L.barred l op

/-- The call takes the lock. -/
def Takes (locks : Finset Lock) (op : Op) (l : Lock) : Prop :=
  L.takes op = some l ∧ ∀ k ∈ locks, ¬L.barred k op

/-- The call leaves the lock. -/
def Leaves (locks : Finset Lock) (op : Op) (l : Lock) : Prop :=
  L.takes op = none ∧ L.leaves op = some l ∧ L.joins op = none ∧
    ∀ k ∈ insert l locks, ¬L.barred k op

variable {L}

theorem Quiet.allowed {op : Op} (h : L.Quiet locks op) :
    (L.monitor : Monitor Ans _).allowed ⟨t, locks⟩ op := by
  refine ⟨fun n hn => ?_, h.2.2.2⟩
  rw [waits, h.1] at hn
  rw [h.2.2.1] at hn
  cases hn

theorem Quiet.after {op : Op} (h : L.Quiet locks op) : L.after op locks = locks := by
  rw [LockOrder.after, h.1, h.2.1]

theorem orderly_uses {m : Act Ans σ ε α} (h : m.Uses (L.Quiet locks)) :
    L.Orderly t locks m := by
  refine h.keeps fun op s hop hs => ?_
  subst hs
  exact ⟨hop.allowed, fun r => by simp only [monitor, hop.after]⟩

theorem Takes.allowed {op : Op} {l : Lock} (h : L.Takes locks op l) (ha : L.Above t locks l) :
    (L.monitor : Monitor Ans _).allowed ⟨t, locks⟩ op := by
  refine ⟨fun n hn => ?_, h.2⟩
  rw [waits, h.1] at hn
  obtain rfl := Option.some.inj hn
  exact ⟨ha.floor, ha.rank⟩

theorem Takes.after {op : Op} {l : Lock} (h : L.Takes locks op l) :
    L.after op locks = insert l locks := by
  rw [LockOrder.after, h.1]

theorem Leaves.allowed {op : Op} {l : Lock} (h : L.Leaves locks op l) :
    (L.monitor : Monitor Ans _).allowed ⟨t, insert l locks⟩ op := by
  refine ⟨fun n hn => ?_, h.2.2.2⟩
  rw [waits, h.1] at hn
  rw [h.2.2.1] at hn
  cases hn

theorem Leaves.after {op : Op} {l : Lock} (h : L.Leaves locks op l) (ha : L.Above t locks l) :
    L.after op (insert l locks) = locks := by
  rw [LockOrder.after, h.1, h.2.1]
  exact Finset.erase_insert ha.notMem

/-- What follows a method that gives back what it takes. -/
theorem follows_after {m : Act Ans σ ε α} {f : α → Act Ans σ ε β} {s : σ}
    {Q : Holding Tid Lock → Except ε β → σ → Prop} (hm : L.Orderly t locks m)
    (hf : ∀ a s, (f a).Follows L.monitor ⟨t, locks⟩ s Q)
    (herror : ∀ e s, Q ⟨t, locks⟩ (.error e) s) :
    (Act.andThen m f).Follows L.monitor ⟨t, locks⟩ s Q := by
  refine Act.follows_andThen.mpr ((hm _ s rfl).mono fun g r s hg => ?_)
  subst hg
  cases r with
  | error e => exact herror e s
  | ok a => exact hf a s

/-- A section between taking a lock and leaving it. -/
theorem follows_section {take : Op} {leave : β → Op} {l : Lock} {body : Ans take → Prog Ans β}
    {out : β → α} (htake : L.Takes locks take l) (ha : L.Above t locks l)
    (hleave : ∀ b, L.Leaves locks (leave b) l)
    (hbody : ∀ r, (body r).Follows L.monitor ⟨t, insert l locks⟩ fun s _ =>
      s = ⟨t, insert l locks⟩) :
    (Prog.call take fun r => (body r).bind fun b => .call (leave b) fun _ => .pure (out b)).Follows
      L.monitor ⟨t, locks⟩ fun s _ => s = ⟨t, locks⟩ := by
  refine ⟨htake.allowed ha, fun r => Prog.follows_bind.mpr ?_⟩
  simp only [monitor, htake.after]
  refine (hbody r).mono fun s b hs => ?_
  subst hs
  exact ⟨(hleave b).allowed, fun _ => by simp only [(hleave b).after ha]; exact rfl⟩

/-- A lock taken by a call and left by a closing one. -/
theorem orderly_closing {take leave : Op} {l : Lock} {m : Act Ans σ ε α}
    {close : σ → Prog Ans Unit} (hclose : ∀ s, close s = .call leave fun _ => .pure ())
    (htake : L.Takes locks take l) (ha : L.Above t locks l) (hleave : L.Leaves locks leave l)
    (hm : L.Orderly t (insert l locks) m) :
    L.Orderly t locks (Act.andThen (Act.perform take) fun _ => m.closing close) := by
  rintro _ s rfl
  refine Act.follows_andThen.mpr (Act.follows_perform.mpr ⟨htake.allowed ha, fun r => ?_⟩)
  simp only [monitor, htake.after]
  refine Act.follows_closing.mpr ((hm _ s rfl).mono fun g r s hg => ?_)
  subst hg
  rw [hclose]
  exact ⟨hleave.allowed, fun _ => by simp only [hleave.after ha]; exact rfl⟩

end LockOrder

end Watchcat.Core
