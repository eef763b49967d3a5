import Mathlib.Data.List.Sort
import Watchcat.Core.Recent

/-!
# The last entries of a merge

Two ordered lists are merged by sorting them together, stably, and only the last
entries are kept. It makes no difference to cut each list to its last entries
before.
-/

namespace Watchcat.Core

variable {α : Type} {r : α → α → Prop} [DecidableRel r] {n : Nat}

/-- Before at least so many entries an entry is not among the last. -/
theorem rtake_orderedInsert_of_le_countP {a : α} {l : List α}
    (h : n ≤ l.countP fun b => decide (r a b)) : (l.orderedInsert r a).rtake n = l.rtake n := by
  induction l with
  | nil =>
    obtain rfl : n = 0 := Nat.le_zero.mp h
    rfl
  | cons b l ih =>
    rw [List.orderedInsert_cons]
    by_cases hab : r a b
    · rw [if_pos hab, ← List.singleton_append]
      exact rtake_append_of_le_length (h.trans List.countP_le_length)
    · have hrest : n ≤ l.countP fun b => decide (r a b) := by simpa [List.countP_cons, hab] using h
      have hlength : n ≤ l.length := hrest.trans List.countP_le_length
      rw [if_neg hab, ← List.singleton_append, ← List.singleton_append (l := l),
        rtake_append_of_le_length hlength, rtake_append_of_le_length, ih hrest]
      rw [List.orderedInsert_length]
      omega

/-- A part of an ordered list that has its last entries, if not all of them. -/
def IsWindow (n : Nat) (l' l : List α) : Prop := l' <:+ l ∧ (n ≤ l'.length ∨ l' = l)

theorem isWindow_rtake {k : Nat} (h : n ≤ k) (l : List α) : IsWindow n (l.rtake k) l := by
  refine ⟨rtake_suffix k l, ?_⟩
  rcases Nat.lt_or_ge l.length k with hlt | hge
  · exact .inr (rtake_of_length_le hlt.le)
  · left
    rw [length_rtake]
    exact Nat.le_min.mpr ⟨h, h.trans hge⟩

/-- The first of two merged lists can be cut before. -/
theorem IsWindow.rtake_merged_left {l l' m : List α} (h : IsWindow n l' l) (hl : l.Pairwise r) :
    ((l' ++ m).insertionSort r).rtake n = ((l ++ m).insertionSort r).rtake n := by
  obtain ⟨⟨first, rfl⟩, hlength | hall⟩ := h
  · induction first with
    | nil => rfl
    | cons a first ih =>
      obtain ⟨ha, hrest⟩ := List.pairwise_cons.mp hl
      have hcount : n ≤ ((first ++ l' ++ m).insertionSort r).countP fun b => decide (r a b) := by
        rw [(List.perm_insertionSort r _).countP_eq, List.countP_append, List.countP_append]
        have hall : l'.countP (fun b => decide (r a b)) = l'.length :=
          List.countP_eq_length.mpr fun b hb => decide_eq_true (ha b (List.mem_append_right _ hb))
        omega
      rw [List.cons_append, List.cons_append, List.insertionSort_cons,
        rtake_orderedInsert_of_le_countP hcount]
      exact ih hrest
  · rw [← hall]

variable [IsTrans α r]

/-- The last entries after an insertion are known from the last entries before it. -/
theorem rtake_orderedInsert_append {a : α} {l m : List α} (h : (l ++ m).Pairwise r)
    (hn : n ≤ m.length) : ((l ++ m).orderedInsert r a).rtake n = (m.orderedInsert r a).rtake n := by
  induction l with
  | nil => rfl
  | cons b l ih =>
    obtain ⟨hb, hlm⟩ := List.pairwise_cons.mp h
    have hlength : n ≤ ((l ++ m).orderedInsert r a).length := by
      rw [List.orderedInsert_length, List.length_append]
      omega
    rw [List.cons_append, List.orderedInsert_cons]
    by_cases hab : r a b
    · have hall : m.countP (fun c => decide (r a c)) = m.length :=
        List.countP_eq_length.mpr fun c hc =>
          decide_eq_true (IsTrans.trans a b c hab (hb c (List.mem_append_right l hc)))
      rw [if_pos hab, rtake_orderedInsert_of_le_countP (hall ▸ hn),
        show a :: b :: (l ++ m) = (a :: b :: l) ++ m from rfl, rtake_append_of_le_length hn]
    · rw [if_neg hab, ← List.singleton_append, rtake_append_of_le_length hlength, ih hlm]

/-- Insertions agree on the last entries where the lists do. -/
theorem rtake_orderedInsert_congr {a : α} {l m : List α} (hl : l.Pairwise r) (hm : m.Pairwise r)
    (hnl : n ≤ l.length) (hnm : n ≤ m.length) (h : l.rtake n = m.rtake n) :
    (l.orderedInsert r a).rtake n = (m.orderedInsert r a).rtake n := by
  have hlast : ∀ {l : List α}, l.Pairwise r → n ≤ l.length →
      (l.orderedInsert r a).rtake n = ((l.rtake n).orderedInsert r a).rtake n := by
    intro l hl hn
    obtain ⟨first, hfirst⟩ := rtake_suffix n l
    have hlength : n ≤ (l.rtake n).length := by
      rw [length_rtake]
      exact Nat.le_min.mpr ⟨Nat.le_refl n, hn⟩
    have hsplit : (first ++ l.rtake n).Pairwise r := by rwa [hfirst]
    have hinsert := rtake_orderedInsert_append (a := a) hsplit hlength
    rwa [hfirst] at hinsert
  rw [hlast hl hnl, hlast hm hnm, h]

variable [Std.Total r]

/-- What is merged into lists with the same last entries does not tell them apart. -/
theorem rtake_insertionSort_append {k l m : List α} (hnl : n ≤ l.length) (hnm : n ≤ m.length)
    (h : (l.insertionSort r).rtake n = (m.insertionSort r).rtake n) :
    ((k ++ l).insertionSort r).rtake n = ((k ++ m).insertionSort r).rtake n := by
  induction k with
  | nil => exact h
  | cons a k ih =>
    rw [List.cons_append, List.cons_append, List.insertionSort_cons, List.insertionSort_cons]
    refine rtake_orderedInsert_congr (List.pairwise_insertionSort r _)
      (List.pairwise_insertionSort r _) ?_ ?_ ih
    · rw [List.length_insertionSort, List.length_append]
      omega
    · rw [List.length_insertionSort, List.length_append]
      omega

/-- The second of two merged lists can be cut before. -/
theorem IsWindow.rtake_merged_right {l m m' : List α} (h : IsWindow n m' m) (hm : m.Pairwise r) :
    ((l ++ m').insertionSort r).rtake n = ((l ++ m).insertionSort r).rtake n := by
  obtain ⟨hsuffix, hlength | rfl⟩ := h
  · refine rtake_insertionSort_append hlength (hlength.trans hsuffix.length_le) ?_
    rw [List.Pairwise.insertionSort_eq hm,
      List.Pairwise.insertionSort_eq (hm.sublist hsuffix.sublist)]
    obtain ⟨first, rfl⟩ := hsuffix
    exact (rtake_append_of_le_length hlength).symm
  · rfl

/-- Cutting both lists before the merge does not change its last entries. -/
theorem rtake_merged {l l' m m' : List α} (hl : l.Pairwise r) (hm : m.Pairwise r)
    (hl' : IsWindow n l' l) (hm' : IsWindow n m' m) :
    ((l' ++ m').insertionSort r).rtake n = ((l ++ m).insertionSort r).rtake n :=
  (hl'.rtake_merged_left hl).trans (hm'.rtake_merged_right hm)

end Watchcat.Core
