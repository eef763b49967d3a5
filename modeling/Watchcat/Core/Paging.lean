import Mathlib.Data.List.Basic

/-!
# Following cursors

A list is served in pages. Each page covers a stretch of the list from where its
cursor stands and shows the selected entries of it; the next cursor stands at
its end. Who follows the cursors sees each selected entry once and in order, and
comes to the end of the list after finitely many pages.
-/

namespace Watchcat.Core

variable {σ α κ : Type}

/-- How a page is fetched: from a state and a cursor to its entries, the next cursor and the state
after it. -/
abbrev Fetch (σ α κ : Type) : Type := σ → Option κ → List α → Option κ → σ → Prop

/-- Follow the cursors for some pages: what they show together, and the cursor after the last. -/
inductive Paged (fetch : Fetch σ α κ) : σ → Option κ → Nat → List α → Option κ → σ → Prop
  | one {s s' : σ} {cursor next : Option κ} {page : List α} (h : fetch s cursor page next s') :
      Paged fetch s cursor 1 page next s'
  | more {s s' s'' : σ} {cursor last : Option κ} {next : κ} {page rest : List α} {n : Nat}
      (h : fetch s cursor page (some next) s')
      (hrest : Paged fetch s' (some next) n rest last s'') :
      Paged fetch s cursor (n + 1) (page ++ rest) last s''

/-- A page leads from where it begins to the next cursor, or to the end of the list. -/
def LeadsOn (stands : κ → Nat → Prop) (l : List α) (selects : α → Bool) (k : Nat)
    (items : List α) (next : Option κ) : Prop :=
  ∃ m, k ≤ m ∧ items = ((l.take m).drop k).filter selects ∧
    match next with
    | none => l.length ≤ m
    | some next => k < m ∧ m ≤ l.length ∧ stands next m

/-- The pages serve a list: from each cursor, with the state in which it is followed, they lead
on. -/
def Serves (fetch : Fetch σ α κ) (stands : σ → Option κ → Nat → Prop) (l : List α)
    (selects : α → Bool) : Prop :=
  ∀ {s cursor k items next s'}, stands s cursor k → fetch s cursor items next s' →
    LeadsOn (fun next m => stands s' (some next) m) l selects k items next

/-- Two stretches of a list that meet. -/
theorem drop_take_append_drop_take (l : List α) {k m m' : Nat} (hkm : k ≤ m) (hm : m ≤ m') :
    (l.take m).drop k ++ (l.take m').drop m = (l.take m').drop k := by
  rw [List.drop_take, List.drop_take, List.drop_take, show m' - k = (m - k) + (m' - m) by omega,
    List.take_add, List.drop_drop, show k + (m - k) = m by omega]

variable {l : List α} {selects : α → Bool}

/-- A page without entries at the end of the list. -/
theorem LeadsOn.nil {stands : κ → Nat → Prop} {k : Nat} (hk : l.length ≤ k) :
    LeadsOn stands l selects k [] none :=
  ⟨k, Nat.le_refl k, by rw [List.drop_take, Nat.sub_self, List.take_zero, List.filter_nil], hk⟩

/-- Select from a page. -/
theorem LeadsOn.filter {stands : κ → Nat → Prop} {k : Nat} {items : List α} {next : Option κ}
    (h : LeadsOn stands l (fun _ => true) k items next) :
    LeadsOn stands l selects k (items.filter selects) next := by
  obtain ⟨m, hkm, rfl, hnext⟩ := h
  exact ⟨m, hkm, by rw [List.filter_true], hnext⟩

/-- Where one page ends, the next begins. -/
theorem LeadsOn.trans {stands stands' : κ → Nat → Prop} {k : Nat} {items items' : List α}
    {next : κ} {last : Option κ} (h : LeadsOn stands l selects k items (some next))
    (h' : ∀ m, m ≤ l.length → stands next m → LeadsOn stands' l selects m items' last) :
    LeadsOn stands' l selects k (items ++ items') last := by
  obtain ⟨m, hkm, rfl, hlt, hml, hm⟩ := h
  obtain ⟨m', hmm', rfl, hlast⟩ := h' m hml hm
  refine ⟨m', Nat.le_trans hkm hmm', ?_, ?_⟩
  · rw [← List.filter_append, drop_take_append_drop_take l hkm hmm']
  · split at hlast
    · exact hlast
    · exact ⟨Nat.lt_trans hlt hlast.1, hlast.2⟩

variable {fetch : Fetch σ α κ} {stands : σ → Option κ → Nat → Prop}

/-- Following the cursors leads on, and takes no more pages than it passes entries, but one. -/
theorem Serves.paged (h : Serves fetch stands l selects) {s s' : σ} {cursor last : Option κ}
    {k n : Nat} {out : List α} (hk : stands s cursor k)
    (hout : Paged fetch s cursor n out last s') :
    LeadsOn (fun next m => stands s' (some next) m) l selects k out last ∧
      n ≤ l.length - k + 1 := by
  induction hout generalizing k with
  | one hfetch => exact ⟨h hk hfetch, by omega⟩
  | more hfetch _ ih =>
    have hpage := h hk hfetch
    refine ⟨hpage.trans fun m _ hm => (ih hm).1, ?_⟩
    obtain ⟨m, _, _, hlt, hml, hm⟩ := hpage
    have hn := (ih hm).2
    omega

/-- Where the cursors end, all of the rest of the list was shown. -/
theorem Serves.ended (h : Serves fetch stands l selects) {s s' : σ} {cursor : Option κ}
    {k n : Nat} {out : List α} (hk : stands s cursor k)
    (hout : Paged fetch s cursor n out none s') :
    out = (l.drop k).filter selects := by
  obtain ⟨⟨m, _, rfl, hm⟩, _⟩ := h.paged hk hout
  rw [List.take_of_length_le hm]

/-- Where every cursor is answered, following the cursors comes to the end. -/
theorem Serves.ends (h : Serves fetch stands l selects)
    (htotal : ∀ {s cursor k}, stands s cursor k → ∃ items next s', fetch s cursor items next s')
    {s : σ} {cursor : Option κ} {k : Nat} (hk : stands s cursor k) :
    ∃ n out s', Paged fetch s cursor n out none s' := by
  induction hn : l.length - k using Nat.strongRecOn generalizing s cursor k with
  | ind n ih =>
    obtain ⟨items, next, s', hfetch⟩ := htotal hk
    cases next with
    | none => exact ⟨1, items, s', .one hfetch⟩
    | some next =>
      obtain ⟨m, _, _, hkm, hml, hm⟩ := h hk hfetch
      obtain ⟨n', rest, s'', hrest⟩ := ih (l.length - m) (by omega) hm rfl
      exact ⟨n' + 1, items ++ rest, s'', .more hfetch hrest⟩

end Watchcat.Core
