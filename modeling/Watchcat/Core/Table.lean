import Mathlib.Data.List.AList

/-!
# Finite tables

A hash map is an association list without repeated keys. Lookup, insertion and
removal are those of `AList`; this file fixes their form on non-dependent
values and adds the bulk operations of a map whose entries are filtered or
rewritten in place, with the sizes of the results.
-/

namespace Watchcat.Core

/-- A finite map from `κ` to `β`. -/
abbrev Table (κ β : Type) : Type := AList fun _ : κ => β

namespace Table

variable {κ β γ : Type}

/-- The empty map. -/
def empty : Table κ β := ∅

/-- The number of entries. -/
def size (t : Table κ β) : Nat := t.entries.length

/-- The stored values, one for each key. -/
def values (t : Table κ β) : List β := t.entries.map Sigma.snd

/-- The value at a key. -/
def lookup [DecidableEq κ] (t : Table κ β) (k : κ) : Option β := AList.lookup k t

/-- Write a key, replacing its value if it is present. -/
def insert [DecidableEq κ] (t : Table κ β) (k : κ) (b : β) : Table κ β := AList.insert k b t

/-- Remove a key. -/
def erase [DecidableEq κ] (t : Table κ β) (k : κ) : Table κ β := AList.erase k t

/-- The entry list with every value rewritten, without the entries sent to `none`. -/
def filterEntries (f : β → Option γ) (es : List ((_ : κ) × β)) : List ((_ : κ) × γ) :=
  es.filterMap fun e => (f e.2).map fun c => ⟨e.1, c⟩

/-- The keys of a rewritten entry list stay a sublist of the keys. -/
theorem keys_filterEntries (f : β → Option γ) (es : List ((_ : κ) × β)) :
    (filterEntries f es).keys.Sublist es.keys := by
  induction es with
  | nil => exact List.Sublist.slnil
  | cons e es ih =>
    cases h : f e.2 with
    | none => simpa [filterEntries, h] using ih.cons e.1
    | some c => simpa [filterEntries, h] using ih.cons_cons e.1

/-- Rewrite every value, dropping the entries sent to `none`. -/
def filterMap (t : Table κ β) (f : β → Option γ) : Table κ γ where
  entries := filterEntries f t.entries
  nodupKeys := List.Nodup.sublist (keys_filterEntries f t.entries) t.nodupKeys

/-- Keep the entries whose value satisfies the test. -/
def retain (t : Table κ β) (test : β → Bool) : Table κ β :=
  t.filterMap fun b => if test b then some b else none

/-- Keep the entries whose key satisfies the test. -/
def retainKeys (t : Table κ β) (test : κ → Bool) : Table κ β where
  entries := t.entries.filter fun e => test e.1
  nodupKeys := List.Nodup.sublist (List.filter_sublist.map Sigma.fst) t.nodupKeys

/-- Keeping all keys changes nothing. -/
theorem retainKeys_eq_self {t : Table κ β} {test : κ → Bool} (h : ∀ k ∈ t.keys, test k = true) :
    t.retainKeys test = t :=
  AList.ext (List.filter_eq_self.mpr fun _ he => h _ (List.mem_map_of_mem he))

@[simp] theorem size_empty : (empty : Table κ β).size = 0 := rfl

theorem size_eq_length_keys (t : Table κ β) : t.size = t.keys.length := by
  simp only [size, AList.keys, List.keys, List.length_map]

variable [DecidableEq κ]

@[simp] theorem lookup_empty (k : κ) : (empty : Table κ β).lookup k = none := rfl

theorem lookup_filterMap (t : Table κ β) (f : β → Option γ) (k : κ) :
    (t.filterMap f).lookup k = (t.lookup k).bind f := by
  obtain ⟨entries, nodup⟩ := t
  simp only [lookup, AList.lookup, filterMap, filterEntries]
  induction entries with
  | nil => rfl
  | cons e es ih =>
    have hes := (List.nodupKeys_cons.mp nodup).2
    have ih := ih hes
    obtain ⟨k', b⟩ := e
    by_cases hk : k = k'
    · subst hk
      cases hf : f b with
      | some c => simp [hf]
      | none =>
        have hnone : List.dlookup k es = none :=
          List.dlookup_eq_none.mpr (List.nodupKeys_cons.mp nodup).1
        simp [hf, ih, hnone]
    · cases hf : f b with
      | some c => simp [hf, hk, ih]
      | none => simp [hf, hk, ih]

theorem lookup_retain (t : Table κ β) (test : β → Bool) (k : κ) :
    (t.retain test).lookup k = (t.lookup k).filter test := by
  rw [retain, lookup_filterMap]
  cases t.lookup k with
  | none => rfl
  | some b => simp only [Option.bind_some, Option.filter_some]

theorem lookup_retainKeys (t : Table κ β) (test : κ → Bool) (k : κ) :
    (t.retainKeys test).lookup k = if test k then t.lookup k else none := by
  obtain ⟨entries, nodup⟩ := t
  simp only [lookup, AList.lookup, retainKeys]
  induction entries with
  | nil => simp
  | cons e es ih =>
    have ih := ih (List.nodupKeys_cons.mp nodup).2
    obtain ⟨k', b⟩ := e
    by_cases hk : k = k'
    · subst hk
      cases htest : test k with
      | true => simp [htest]
      | false => simp [htest] at ih ⊢; exact ih
    · cases htest : test k' with
      | true => simp [htest, hk, ih]
      | false => simp [htest, hk, ih]

theorem lookup_insert (t : Table κ β) (k k' : κ) (b : β) :
    (t.insert k b).lookup k' = if k' = k then some b else t.lookup k' := by
  by_cases h : k' = k
  · subst h
    rw [if_pos rfl]
    exact AList.lookup_insert t
  · rw [if_neg h]
    exact AList.lookup_insert_ne h

@[simp] theorem lookup_insert_self (t : Table κ β) (k : κ) (b : β) :
    (t.insert k b).lookup k = some b := by
  rw [lookup_insert, if_pos rfl]

theorem lookup_insert_ne {t : Table κ β} {k k' : κ} {b : β} (h : k' ≠ k) :
    (t.insert k b).lookup k' = t.lookup k' := by
  rw [lookup_insert, if_neg h]

/-- Write a key, in its place if it is present. -/
def upsert (t : Table κ β) (k : κ) (b : β) : Table κ β :=
  if (t.lookup k).isSome then AList.replace k b t else t.insert k b

theorem lookup_replace (t : Table κ β) (k k' : κ) (b : β) :
    lookup (AList.replace k b t) k' =
      if k' = k then (t.lookup k).map fun _ => b else t.lookup k' := by
  obtain ⟨entries, nodup⟩ := t
  simp only [lookup, AList.lookup, AList.replace]
  induction entries with
  | nil => simp [List.kreplace]
  | cons e es ih =>
    have ih := ih (List.nodupKeys_cons.mp nodup).2
    obtain ⟨k₁, b₁⟩ := e
    by_cases hk : k = k₁
    · subst hk
      have hcons : List.kreplace k b (⟨k, b₁⟩ :: es) = ⟨k, b⟩ :: es :=
        List.lookmap_cons_some _ es (if_pos rfl)
      rw [hcons]
      by_cases hk' : k' = k
      · subst hk'
        simp
      · simp [hk']
    · have hcons : List.kreplace k b (⟨k₁, b₁⟩ :: es) = ⟨k₁, b₁⟩ :: List.kreplace k b es :=
        List.lookmap_cons_none _ es (if_neg hk)
      rw [hcons]
      by_cases hk' : k' = k₁
      · subst hk'
        simp [Ne.symm hk]
      · simp [hk', hk, ih]

theorem lookup_upsert (t : Table κ β) (k k' : κ) (b : β) :
    (t.upsert k b).lookup k' = if k' = k then some b else t.lookup k' := by
  unfold upsert
  split
  · rename_i h
    obtain ⟨b', hb'⟩ := Option.isSome_iff_exists.mp h
    rw [lookup_replace, hb', Option.map_some]
  · exact lookup_insert t k k' b

/-- Writing what is there changes nothing. -/
theorem upsert_eq_self {t : Table κ β} {k : κ} {b : β} (h : t.lookup k = some b) :
    t.upsert k b = t := by
  rw [upsert, if_pos (Option.isSome_iff_exists.mpr ⟨b, h⟩)]
  exact AList.ext (List.kreplace_self t.nodupKeys (AList.mem_lookup_iff.mp h))

theorem lookup_erase (t : Table κ β) (k k' : κ) :
    (t.erase k).lookup k' = if k' = k then none else t.lookup k' := by
  by_cases h : k' = k
  · subst h
    rw [if_pos rfl]
    exact AList.lookup_erase k' t
  · rw [if_neg h]
    exact AList.lookup_erase_ne h

theorem mem_keys_iff (t : Table κ β) (k : κ) : k ∈ t.keys ↔ (t.lookup k).isSome = true :=
  AList.lookup_isSome.symm

/-- Writing a fresh key adds one entry, writing a present key adds none. -/
theorem size_insert (t : Table κ β) (k : κ) (b : β) :
    (t.insert k b).size = if (t.lookup k).isSome then t.size else t.size + 1 := by
  rw [size_eq_length_keys, size_eq_length_keys, insert, AList.keys_insert, List.length_cons]
  by_cases hk : k ∈ t.keys
  · have hpos := List.length_pos_of_mem hk
    rw [List.length_erase_of_mem hk, if_pos ((mem_keys_iff t k).mp hk)]
    omega
  · rw [List.erase_of_not_mem hk, if_neg fun h => hk ((mem_keys_iff t k).mpr h)]

/-- Removing a present key removes one entry. -/
theorem size_erase (t : Table κ β) (k : κ) :
    (t.erase k).size = if (t.lookup k).isSome then t.size - 1 else t.size := by
  rw [size_eq_length_keys, size_eq_length_keys, erase, AList.keys_erase]
  by_cases hk : k ∈ t.keys
  · rw [List.length_erase_of_mem hk, if_pos ((mem_keys_iff t k).mp hk)]
  · rw [List.erase_of_not_mem hk, if_neg fun h => hk ((mem_keys_iff t k).mpr h)]

theorem size_pos_of_lookup {t : Table κ β} {k : κ} {b : β} (h : t.lookup k = some b) :
    0 < t.size := by
  rw [size_eq_length_keys]
  exact List.length_pos_of_mem ((mem_keys_iff t k).mpr (by rw [h]; rfl))

/-- The values are exactly what some key looks up. -/
theorem mem_values {t : Table κ β} {b : β} : b ∈ t.values ↔ ∃ k, t.lookup k = some b := by
  simp only [values, List.mem_map]
  constructor
  · rintro ⟨⟨k, c⟩, he, rfl⟩
    exact ⟨k, AList.mem_lookup_iff.mpr he⟩
  · rintro ⟨k, hk⟩
    exact ⟨⟨k, b⟩, AList.mem_lookup_iff.mp hk, rfl⟩

/-- The values after a write: the new one and those under the other keys. -/
theorem values_insert (t : Table κ β) (k : κ) (b : β) :
    (t.insert k b).values = b :: (t.erase k).values := rfl

/-- The values of a table without a key. -/
theorem values_erase_perm {t : Table κ β} {k : κ} {b : β} (h : t.lookup k = some b) :
    t.values.Perm (b :: (t.erase k).values) := by
  have hk : k ∈ t.entries.keys := (mem_keys_iff t k).mpr (by rw [h]; rfl)
  obtain ⟨c, front, back, hfresh, hentries, herased⟩ := List.exists_of_kerase hk
  have hc : t.lookup k = some c := by
    rw [lookup, AList.lookup, hentries, List.dlookup_append, List.dlookup_eq_none.mpr hfresh]
    simp only [List.dlookup_cons_eq, Option.none_or]
  obtain rfl : c = b := Option.some.inj (hc.symm.trans h)
  have hvalues : (t.erase k).values = (front ++ back).map Sigma.snd := congrArg _ herased
  rw [values, hentries, hvalues, List.map_append, List.map_append, List.map_cons]
  exact List.perm_middle

theorem erase_of_lookup_none {t : Table κ β} {k : κ} (h : t.lookup k = none) :
    (t.erase k).values = t.values := by
  have hk : k ∉ t.entries.keys := fun hk => by
    have hsome := (mem_keys_iff t k).mp hk
    rw [h] at hsome
    cases hsome
  exact congrArg (List.map Sigma.snd) (List.kerase_of_notMem_keys hk)

theorem values_erase_sublist (t : Table κ β) (k : κ) : (t.erase k).values.Sublist t.values :=
  List.Sublist.map (fun e : (_ : κ) × β => e.2) (List.kerase_sublist k t.entries)

/-! ## Tables indexed by a part of their values -/

/-- Every value is stored under its own key. -/
def Indexed (t : Table κ β) (key : β → κ) : Prop := ∀ k b, t.lookup k = some b → key b = k

theorem indexed_empty (key : β → κ) : (empty : Table κ β).Indexed key := fun _ _ h => nomatch h

theorem Indexed.insert {t : Table κ β} {key : β → κ} (h : t.Indexed key) (b : β) :
    (t.insert (key b) b).Indexed key := by
  intro k c hc
  rw [lookup_insert] at hc
  split at hc
  · rename_i hk
    rw [← Option.some.inj hc, hk]
  · exact h k c hc

theorem Indexed.erase {t : Table κ β} {key : β → κ} (h : t.Indexed key) (k : κ) :
    (t.erase k).Indexed key := by
  intro k' c hc
  rw [lookup_erase] at hc
  split at hc
  · cases hc
  · exact h k' c hc

theorem Indexed.entry {t : Table κ β} {key : β → κ} (h : t.Indexed key) :
    ∀ e ∈ t.entries, key e.2 = e.1 := by
  rintro ⟨k, b⟩ he
  exact h k b (AList.mem_lookup_iff.mpr he)

/-- The values of an indexed table have distinct keys. -/
theorem Indexed.nodup {t : Table κ β} {key : β → κ} (h : t.Indexed key) :
    (t.values.map key).Nodup := by
  have hkeys : t.values.map key = t.keys := by
    simp only [values, AList.keys, List.keys, List.map_map]
    exact List.map_congr_left h.entry
  rw [hkeys]
  exact t.keys_nodup

/-- A value is looked up by searching for its key. -/
theorem Indexed.lookup_mem {t : Table κ β} {key : β → κ} (h : t.Indexed key) {b : β}
    (hb : b ∈ t.values) : t.lookup (key b) = some b := by
  obtain ⟨k, hk⟩ := mem_values.mp hb
  rwa [h k b hk]

theorem find?_key {key : β → κ} {l : List β} {k : κ} {b : β}
    (h : l.find? (fun b => key b == k) = some b) : b ∈ l ∧ key b = k :=
  ⟨List.mem_of_find?_eq_some h, by simpa using List.find?_some h⟩

theorem find?_no_key {key : β → κ} {l : List β} {k : κ}
    (h : l.find? (fun b => key b == k) = none) : ∀ b ∈ l, key b ≠ k := by
  simpa using h

/-- Distinct keys find the same value in every arrangement. -/
theorem find?_perm {key : β → κ} {l l' : List β} (hp : l.Perm l') (hl : (l.map key).Nodup) (k : κ) :
    l.find? (fun b => key b == k) = l'.find? fun b => key b == k := by
  have hl' : (l'.map key).Nodup := (hp.map key).nodup_iff.mp hl
  cases h : l.find? fun b => key b == k with
  | none =>
    symm
    refine List.find?_eq_none.mpr fun b hb => ?_
    simpa using find?_no_key h b (hp.mem_iff.mpr hb)
  | some b =>
    obtain ⟨hb, hkey⟩ := find?_key h
    cases h' : l'.find? fun b => key b == k with
    | none => exact absurd hkey (find?_no_key h' b (hp.mem_iff.mp hb))
    | some b' =>
      obtain ⟨hb', hkey'⟩ := find?_key h'
      rw [List.inj_on_of_nodup_map hl' (hp.mem_iff.mp hb) hb' (hkey.trans hkey'.symm)]

theorem Indexed.lookup_eq_find? {t : Table κ β} {key : β → κ} (h : t.Indexed key) (k : κ) :
    t.lookup k = t.values.find? fun b => key b == k := by
  cases hf : t.values.find? fun b => key b == k with
  | none =>
    cases hl : t.lookup k with
    | none => rfl
    | some b => exact absurd (h k b hl) (find?_no_key hf b (mem_values.mpr ⟨k, hl⟩))
  | some b =>
    obtain ⟨hb, rfl⟩ := find?_key hf
    exact h.lookup_mem hb

/-- Storing values with distinct keys one after another stores each of them. -/
theorem lookup_foldl_insert (key : β → κ) {l : List β} (hl : (l.map key).Nodup) (t : Table κ β)
    (k : κ) : (l.foldl (fun t b => t.insert (key b) b) t).lookup k =
      (l.find? fun b => key b == k).or (t.lookup k) := by
  induction l generalizing t with
  | nil => rfl
  | cons b l ih =>
    obtain ⟨hfresh, hl⟩ := List.nodup_cons.mp hl
    rw [List.foldl_cons, ih hl, lookup_insert, List.find?_cons]
    by_cases hk : key b = k
    · have hnone : (l.find? fun b => key b == k) = none := by
        refine List.find?_eq_none.mpr fun c hc hkc => hfresh ?_
        rw [hk, ← beq_iff_eq.mp hkc]
        exact List.mem_map_of_mem hc
      simp only [hnone, hk, if_true, beq_self_eq_true]
      rfl
    · simp only [beq_eq_false_iff_ne.mpr hk, if_neg (Ne.symm hk)]

/-- Storing values with distinct keys that are not yet present adds exactly these values. -/
theorem values_foldl_insert (key : β → κ) {l : List β} (hl : (l.map key).Nodup) {t : Table κ β}
    (hfresh : ∀ b ∈ l, t.lookup (key b) = none) :
    (l.foldl (fun t b => t.insert (key b) b) t).values.Perm (l ++ t.values) := by
  induction l generalizing t with
  | nil => exact List.Perm.refl _
  | cons b l ih =>
    obtain ⟨hb, hl⟩ := List.nodup_cons.mp hl
    have hvalues : (t.insert (key b) b).values = b :: t.values := by
      rw [values_insert, erase_of_lookup_none (hfresh b List.mem_cons_self)]
    have hnext : ∀ c ∈ l, (t.insert (key b) b).lookup (key c) = none := by
      intro c hc
      have hne : key c ≠ key b := fun heq => hb (heq ▸ List.mem_map_of_mem hc)
      rw [lookup_insert_ne hne]
      exact hfresh c (List.mem_cons_of_mem b hc)
    have hperm := ih hl hnext
    rw [hvalues] at hperm
    exact hperm.trans List.perm_middle

end Table

end Watchcat.Core
