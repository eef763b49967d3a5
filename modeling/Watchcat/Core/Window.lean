import Mathlib.Algebra.Order.Group.Defs
import Mathlib.Data.List.Basic

/-!
# Sliding windows

Points on a line, as lists. A list covers another from a point on if it has at
least as many entries from every later point on; a limit checked against a
covering list bounds the covered one in every window.
-/

namespace Watchcat.Core

section Cover

variable {α : Type} [LinearOrder α]

/-- Counted from any point that is not before `start`, `kept` has at least the entries of `all`. -/
def Covers (start : α) (kept all : List α) : Prop :=
  ∀ x, start ≤ x → all.countP (x ≤ ·) ≤ kept.countP (x ≤ ·)

namespace Covers

variable {start : α} {kept mid all : List α}

theorem refl (start : α) (l : List α) : Covers start l l := fun _ _ => le_rfl

theorem nil (start : α) (kept : List α) : Covers start kept [] := fun _ _ => Nat.zero_le _

theorem trans (h : Covers start kept mid) (h' : Covers start mid all) : Covers start kept all :=
  fun x hx => (h' x hx).trans (h x hx)

/-- What covers from a point covers from every later point. -/
theorem mono {later : α} (h : Covers start kept all) (hle : start ≤ later) :
    Covers later kept all := fun x hx => h x (hle.trans hx)

theorem snoc (h : Covers start kept all) (a : α) : Covers start (kept ++ [a]) (all ++ [a]) := by
  intro x hx
  rw [List.countP_append, List.countP_append]
  exact Nat.add_le_add_right (h x hx) _

theorem grow (h : Covers start kept all) (a : α) : Covers start (kept ++ [a]) all := by
  intro x hx
  rw [List.countP_append]
  exact (h x hx).trans (Nat.le_add_right _ _)

/-- Dropping entries before the point keeps a list covered. -/
theorem filter (keep : α → Bool) (l : List α) (h : ∀ a ∈ l, start ≤ a → keep a) :
    Covers start (l.filter keep) l := by
  intro x hx
  rw [List.countP_filter]
  refine List.countP_mono_left fun a ha hxa => ?_
  rw [h a ha (hx.trans (of_decide_eq_true hxa)), hxa]
  rfl

/-- A list without entries from the point on needs no cover. -/
theorem of_past (kept : List α) (h : ∀ a ∈ all, a < start) : Covers start kept all := by
  intro x hx
  have hzero : all.countP (x ≤ ·) = 0 := by
    refine List.countP_eq_zero.mpr fun a ha hxa => ?_
    exact absurd (hx.trans (of_decide_eq_true hxa)) (not_le.mpr (h a ha))
  rw [hzero]
  exact Nat.zero_le _

end Covers

end Cover

section Limit

variable {α : Type} [AddCommGroup α] [LinearOrder α]

/-- No window of the width has more than the limit. -/
def WithinLimit (width : α) (limit : Nat) (l : List α) : Prop :=
  ∀ a, l.countP (fun x => a ≤ x ∧ x ≤ a + width) ≤ limit

theorem WithinLimit.nil (width : α) (limit : Nat) : WithinLimit width limit [] :=
  fun _ => Nat.zero_le _

/-- An entry that a covering list below the limit admits keeps every window within it. -/
theorem WithinLimit.snoc [IsOrderedAddMonoid α] {width now : α} {limit : Nat} {kept all : List α}
    (h : WithinLimit width limit all)
    (hcover : Covers (now - width) kept all)
    (hroom : kept.countP (now - width ≤ ·) < limit) : WithinLimit width limit (all ++ [now]) := by
  intro a
  rw [List.countP_append, List.countP_singleton]
  split
  · rename_i hin
    -- The window reaches `now`, so it lies where the covering list counts.
    have hstart : now - width ≤ a := sub_le_iff_le_add.mpr (of_decide_eq_true hin).2
    have hold : all.countP (fun x => a ≤ x ∧ x ≤ a + width) < limit :=
      calc all.countP (fun x => a ≤ x ∧ x ≤ a + width)
          ≤ all.countP (a ≤ ·) := List.countP_mono_left fun x _ hx =>
            decide_eq_true (of_decide_eq_true hx).1
        _ ≤ kept.countP (a ≤ ·) := hcover a hstart
        _ ≤ kept.countP (now - width ≤ ·) := List.countP_mono_left fun x _ hx =>
            decide_eq_true (hstart.trans (of_decide_eq_true hx))
        _ < limit := hroom
    exact hold
  · exact h a

end Limit

end Watchcat.Core
