import Mathlib.Data.List.Nodup
import Mathlib.Data.List.Perm.Basic

/-!
# Depth-first walks over trees reached through handles

The nodes of a tree are fetched as handles, and a walk skips a handle whose mark
it has seen. A walk visits a part of the nodes in document order, each mark once;
it visits them all exactly if no two fetched handles have one mark.
-/

namespace Watchcat.Core

/-- A finite tree with ordered children. -/
inductive RoseTree (α : Type) : Type
  | node (label : α) (children : List (RoseTree α))

namespace RoseTree

variable {α : Type}

/-- The label of the root. -/
def label : RoseTree α → α
  | node a _ => a

/-- The children of the root. -/
def children : RoseTree α → List (RoseTree α)
  | node _ ts => ts

mutual

/-- The labels in document order. -/
def preorder : RoseTree α → List α
  | node a ts => a :: preorderAll ts

/-- The labels of the trees, one tree after another. -/
def preorderAll : List (RoseTree α) → List α
  | [] => []
  | t :: ts => t.preorder ++ preorderAll ts

/-- The trees in it in document order, itself first. -/
def subtrees : RoseTree α → List (RoseTree α)
  | node a ts => node a ts :: subtreesAll ts

/-- The trees in the given ones. -/
def subtreesAll : List (RoseTree α) → List (RoseTree α)
  | [] => []
  | t :: ts => t.subtrees ++ subtreesAll ts

end

@[simp] theorem preorder_node (a : α) (ts : List (RoseTree α)) :
    (node a ts).preorder = a :: preorderAll ts := by rw [preorder]

@[simp] theorem preorderAll_nil : preorderAll ([] : List (RoseTree α)) = [] := by rw [preorderAll]

@[simp] theorem preorderAll_cons (t : RoseTree α) (ts : List (RoseTree α)) :
    preorderAll (t :: ts) = t.preorder ++ preorderAll ts := by rw [preorderAll]

theorem preorderAll_append (ts us : List (RoseTree α)) :
    preorderAll (ts ++ us) = preorderAll ts ++ preorderAll us := by
  induction ts with
  | nil => rfl
  | cons t ts ih => rw [List.cons_append, preorderAll_cons, preorderAll_cons, ih, List.append_assoc]

theorem mem_subtreesAll {u : RoseTree α} {ts : List (RoseTree α)} :
    u ∈ subtreesAll ts ↔ ∃ t ∈ ts, u ∈ t.subtrees := by
  induction ts with
  | nil => simp [subtreesAll]
  | cons t ts ih => simp [subtreesAll, ih]

theorem mem_subtrees_self (t : RoseTree α) : t ∈ t.subtrees := by
  cases t with
  | node a ts =>
    rw [subtrees]
    exact List.mem_cons_self

mutual

/-- The children of a tree in it are in it. -/
theorem children_mem_subtrees {u c : RoseTree α} (hc : c ∈ u.children) :
    ∀ t : RoseTree α, u ∈ t.subtrees → c ∈ t.subtrees
  | node a ts, h => by
    rw [subtrees] at h ⊢
    rcases List.mem_cons.mp h with rfl | h
    · exact List.mem_cons_of_mem _ (mem_subtreesAll.mpr ⟨c, hc, mem_subtrees_self c⟩)
    · exact List.mem_cons_of_mem _ (children_mem_subtreesAll hc ts h)

theorem children_mem_subtreesAll {u c : RoseTree α} (hc : c ∈ u.children) :
    ∀ ts : List (RoseTree α), u ∈ subtreesAll ts → c ∈ subtreesAll ts
  | [], h => by
    rw [subtreesAll] at h
    exact absurd h List.not_mem_nil
  | t :: ts, h => by
    rw [subtreesAll] at h ⊢
    rcases List.mem_append.mp h with h | h
    · exact List.mem_append_left _ (children_mem_subtrees hc t h)
    · exact List.mem_append_right _ (children_mem_subtreesAll hc ts h)

end

theorem preorder_ne_nil (t : RoseTree α) : t.preorder ≠ [] := by
  cases t with
  | node a ts => simp

end RoseTree

open RoseTree

/-! ## Walks -/

section Walk

variable {α η μ : Type} {mark : η → μ}

/-- A walk over a stack of handles: which of them it visits, with the labels it finds there, and
which handles it fetches for their children. -/
inductive Walk (mark : η → μ) :
    List μ → List (η × RoseTree α) → List (η × α) → List η → Prop
  | done {visited : List μ} : Walk mark visited [] [] []
  | skip {visited : List μ} {h : η} {t : RoseTree α} {stack : List (η × RoseTree α)}
      {visits : List (η × α)} {fetched : List η} (hseen : mark h ∈ visited)
      (hrest : Walk mark visited stack visits fetched) :
      Walk mark visited ((h, t) :: stack) visits fetched
  | visit {visited : List μ} {h : η} {t : RoseTree α} {stack : List (η × RoseTree α)}
      {handles : List η} {visits : List (η × α)} {fetched : List η} (hnew : mark h ∉ visited)
      (hlength : handles.length = t.children.length)
      (hrest : Walk mark (mark h :: visited) (handles.zip t.children ++ stack) visits fetched) :
      Walk mark visited ((h, t) :: stack) ((h, t.label) :: visits) (handles ++ fetched)

namespace Walk

variable {visited : List μ} {stack : List (η × RoseTree α)} {visits : List (η × α)}
  {fetched : List η}

theorem map_snd_zip_append {handles : List η} {ts : List (RoseTree α)}
    (hlength : handles.length = ts.length) (stack : List (η × RoseTree α)) :
    (handles.zip ts ++ stack).map Prod.snd = ts ++ stack.map Prod.snd := by
  rw [List.map_append, List.map_snd_zip (Nat.le_of_eq hlength.symm)]

theorem map_fst_zip_append {handles : List η} {ts : List (RoseTree α)}
    (hlength : handles.length = ts.length) (stack : List (η × RoseTree α)) :
    (handles.zip ts ++ stack).map Prod.fst = handles ++ stack.map Prod.fst := by
  rw [List.map_append, List.map_fst_zip (Nat.le_of_eq hlength)]

/-- Handles that have been visited are skipped. -/
theorem skips {skipped : List (η × RoseTree α)} (hseen : ∀ p ∈ skipped, mark p.1 ∈ visited)
    (h : Walk mark visited stack visits fetched) :
    Walk mark visited (skipped ++ stack) visits fetched := by
  induction skipped with
  | nil => exact h
  | cons p skipped ih =>
    exact .skip (hseen p List.mem_cons_self) (ih fun q hq => hseen q (List.mem_cons_of_mem p hq))

/-- Nothing is visited under handles that have all been visited. -/
theorem of_seen (hseen : ∀ p ∈ stack, mark p.1 ∈ visited) : Walk mark visited stack [] [] := by
  rw [← List.append_nil stack]
  exact skips hseen .done

/-- What is visited is visited in document order. -/
theorem sublist (h : Walk mark visited stack visits fetched) :
    (visits.map Prod.snd).Sublist (preorderAll (stack.map Prod.snd)) := by
  induction h with
  | done => exact List.Sublist.slnil
  | @skip _ _ t _ _ _ _ _ ih =>
    rw [List.map_cons, preorderAll_cons]
    exact ih.trans (List.sublist_append_right _ _)
  | @visit _ _ t _ _ _ _ _ hlength _ ih =>
    rw [map_snd_zip_append hlength, preorderAll_append] at ih
    cases t with
    | node a ts =>
      rw [List.map_cons, List.map_cons, preorderAll_cons, preorder_node, List.cons_append]
      exact ih.cons_cons a

/-- No mark is visited twice. -/
theorem nodup (h : Walk mark visited stack visits fetched) :
    (visits.map fun v => mark v.1).Nodup ∧ ∀ v ∈ visits, mark v.1 ∉ visited := by
  induction h with
  | done => exact ⟨List.nodup_nil, fun _ hv => absurd hv List.not_mem_nil⟩
  | skip _ _ ih => exact ih
  | visit hnew _ _ ih =>
    refine ⟨List.nodup_cons.mpr ⟨fun hmem => ?_, ih.1⟩, fun v hv => ?_⟩
    · obtain ⟨v, hv, heq⟩ := List.mem_map.mp hmem
      exact ih.2 v hv (heq ▸ List.mem_cons_self)
    · rcases List.mem_cons.mp hv with rfl | hv
      · exact hnew
      · exact fun hmem => ih.2 v hv (List.mem_cons_of_mem _ hmem)

/-- A walk that skips nothing visits every handle. -/
theorem perm_of_complete (h : Walk mark visited stack visits fetched)
    (hall : visits.map Prod.snd = preorderAll (stack.map Prod.snd)) :
    (stack.map Prod.fst ++ fetched).Perm (visits.map Prod.fst) := by
  induction h with
  | done => exact List.Perm.refl _
  | @skip _ _ t stack visits _ _ hrest _ =>
    -- the labels below the skipped handle are missing
    have hle := hrest.sublist.length_le
    have hlength := congrArg List.length hall
    rw [List.map_cons, preorderAll_cons, List.length_append] at hlength
    have hpos : 0 < t.preorder.length := List.length_pos_iff.mpr t.preorder_ne_nil
    dsimp only at hlength
    omega
  | @visit _ h t stack handles visits fetched _ hlength _ ih =>
    rw [map_snd_zip_append hlength, preorderAll_append, map_fst_zip_append hlength] at ih
    cases t with
    | node a ts =>
      rw [List.map_cons, List.map_cons, preorderAll_cons, preorder_node, List.cons_append] at hall
      have hperm := ih (List.cons.inj hall).2
      rw [List.map_cons, List.map_cons, List.cons_append]
      refine List.Perm.cons h (List.Perm.trans ?_ hperm)
      rw [← List.append_assoc]
      exact List.perm_append_comm.append_right fetched

/-- A walk over handles with different marks skips nothing. -/
theorem complete_of_nodup (h : Walk mark visited stack visits fetched)
    (hnodup : ((stack.map Prod.fst ++ fetched).map mark).Nodup)
    (hfresh : ∀ x ∈ stack.map Prod.fst ++ fetched, mark x ∉ visited) :
    visits.map Prod.snd = preorderAll (stack.map Prod.snd) := by
  induction h with
  | done => rfl
  | skip hseen _ _ => exact absurd hseen (hfresh _ (by simp))
  | @visit visited h t stack handles visits fetched _ hlength _ ih =>
    have hperm : (handles ++ stack.map Prod.fst ++ fetched).Perm
        (stack.map Prod.fst ++ (handles ++ fetched)) := by
      rw [← List.append_assoc]
      exact List.perm_append_comm.append_right fetched
    rw [List.map_cons, List.cons_append, List.map_cons, List.nodup_cons] at hnodup
    have hrest := ih (by
        rw [map_fst_zip_append hlength, (hperm.map mark).nodup_iff]
        exact hnodup.2) (fun x hx => by
        rw [map_fst_zip_append hlength] at hx
        have hx := hperm.mem_iff.mp hx
        rw [List.mem_cons, not_or]
        refine ⟨fun heq => hnodup.1 (heq ▸ List.mem_map_of_mem hx), hfresh x ?_⟩
        rw [List.map_cons, List.cons_append]
        exact List.mem_cons_of_mem _ hx)
    rw [map_snd_zip_append hlength, preorderAll_append] at hrest
    cases t with
    | node a ts =>
      rw [List.map_cons, List.map_cons, preorderAll_cons, preorder_node, List.cons_append]
      exact congrArg (a :: ·) hrest

/-- A walk visits every node exactly if no two of its handles have one mark. -/
theorem complete_iff (h : Walk mark [] stack visits fetched) :
    visits.map Prod.snd = preorderAll (stack.map Prod.snd) ↔
      ((stack.map Prod.fst ++ fetched).map mark).Nodup := by
  constructor
  · intro hall
    have hperm := (h.perm_of_complete hall).map mark
    rw [List.map_map] at hperm
    exact hperm.nodup_iff.mpr h.nodup.1
  · exact fun hnodup => h.complete_of_nodup hnodup fun _ _ => List.not_mem_nil

end Walk

end Walk

end Watchcat.Core
