import Mathlib.Data.List.DropRight

/-!
# The last entries of a list

A queue that drops its first entry when it grows beyond a bound holds the last
entries of everything pushed into it. A value that entries may overwrite is the
last one written.
-/

namespace Watchcat.Core

variable {α β : Type} {n : Nat}

theorem length_rtake (n : Nat) (l : List α) : (l.rtake n).length = min n l.length := by
  rw [List.rtake.eq_1, List.length_drop]
  omega

theorem rtake_suffix (n : Nat) (l : List α) : l.rtake n <:+ l := List.drop_suffix _ l

theorem rtake_of_length_le {l : List α} (h : l.length ≤ n) : l.rtake n = l := by
  rw [List.rtake.eq_1, Nat.sub_eq_zero_of_le h, List.drop_zero]

theorem mem_of_mem_rtake {l : List α} {a : α} (h : a ∈ l.rtake n) : a ∈ l :=
  (rtake_suffix n l).subset h

theorem map_rtake (f : α → β) (n : Nat) (l : List α) : (l.rtake n).map f = (l.map f).rtake n := by
  rw [List.rtake.eq_1, List.rtake.eq_1, List.map_drop, List.length_map]

/-- The last entries of a list are those of its last part where that is long enough. -/
theorem rtake_append_of_le_length {l m : List α} (h : n ≤ m.length) :
    (l ++ m).rtake n = m.rtake n := by
  rw [List.rtake.eq_1, List.rtake.eq_1, List.length_append,
    show l.length + m.length - n = l.length + (m.length - n) by omega, List.drop_length_add_append]

/-- Only the last entries of the first part can be among the last ones. -/
theorem rtake_rtake_append (l m : List α) : (l.rtake n ++ m).rtake n = (l ++ m).rtake n := by
  obtain ⟨first, hfirst⟩ := rtake_suffix n l
  rcases Nat.lt_or_ge l.length n with hlt | hge
  · rw [rtake_of_length_le hlt.le]
  · have hlen : n ≤ (l.rtake n ++ m).length := by
      rw [List.length_append, length_rtake]
      omega
    calc (l.rtake n ++ m).rtake n = (first ++ (l.rtake n ++ m)).rtake n :=
          (rtake_append_of_le_length hlen).symm
      _ = (l ++ m).rtake n := by rw [← List.append_assoc, hfirst]

/-- Where every entry stands for at least one, the last ones come from the last entries. -/
theorem rtake_flatMap_rtake {f : α → List β} (h : ∀ a, 1 ≤ (f a).length) (n : Nat) (l : List α) :
    ((l.rtake n).flatMap f).rtake n = (l.flatMap f).rtake n := by
  obtain ⟨first, hfirst⟩ := rtake_suffix n l
  rcases Nat.lt_or_ge l.length n with hlt | hge
  · rw [rtake_of_length_le hlt.le]
  · have hlength : ∀ m : List α, m.length ≤ (m.flatMap f).length := fun m => by
      induction m with
      | nil => exact Nat.le_refl 0
      | cons a m ih =>
        rw [List.flatMap_cons, List.length_append, List.length_cons]
        have := h a
        omega
    have hn : n ≤ ((l.rtake n).flatMap f).length := by
      refine Nat.le_trans ?_ (hlength _)
      rw [length_rtake]
      exact Nat.le_min.mpr ⟨Nat.le_refl n, hge⟩
    conv_rhs => rw [← hfirst, List.flatMap_append]
    exact (rtake_append_of_le_length hn).symm

/-- Push an entry and drop the first one where the queue is longer than the bound. -/
def pushRecent (n : Nat) (queue : List α) (a : α) : List α :=
  if n < (queue ++ [a]).length then (queue ++ [a]).tail else queue ++ [a]

theorem pushRecent_eq {queue : List α} (h : queue.length ≤ n) (a : α) :
    pushRecent n queue a = (queue ++ [a]).rtake n := by
  rw [pushRecent]
  split
  · rename_i hlt
    rw [List.length_append, List.length_singleton] at hlt
    rw [List.rtake.eq_1, ← List.drop_one, List.length_append, List.length_singleton,
      show queue.length + 1 - n = 1 by omega]
  · rename_i hge
    exact (rtake_of_length_le (Nat.not_lt.mp hge)).symm

theorem length_pushRecent_le {queue : List α} (h : queue.length ≤ n) (a : α) :
    (pushRecent n queue a).length ≤ n := by
  rw [pushRecent_eq h, length_rtake]
  exact Nat.min_le_left _ _

/-! ## The last value written -/

/-- The last value that an entry gives. -/
def lastSome (f : α → Option β) (l : List α) : Option β := l.reverse.findSome? f

@[simp] theorem lastSome_nil (f : α → Option β) : lastSome f [] = none := rfl

theorem lastSome_append (f : α → Option β) (l m : List α) :
    lastSome f (l ++ m) = (lastSome f m).or (lastSome f l) := by
  rw [lastSome, List.reverse_append, List.findSome?_append]
  rfl

/-- Later values replace earlier ones. -/
theorem getD_lastSome_append (f : α → Option β) (l m : List α) (b : β) :
    (lastSome f (l ++ m)).getD b = (lastSome f m).getD ((lastSome f l).getD b) := by
  rw [lastSome_append]
  cases lastSome f m <;> rfl

end Watchcat.Core
