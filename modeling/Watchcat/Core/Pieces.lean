import Mathlib.Data.List.TakeWhile

/-!
# Replacing a delimited pattern

A pattern that opens with one symbol, closes with another and has neither inside
occurs in a text at places that do not overlap. A text is parsed into pieces,
its single items and the slots of the patterns; replacing a pattern in the text
replaces its slots, and what the items form an occurrence of it. The items carry
more than their symbol, so that they can be followed.
-/

namespace Watchcat.Core.Substitution

variable {α β : Type}

/-! ## Delimited patterns -/

/-- An opening symbol, a body without either symbol, and a closing symbol. -/
def Delimited (opening closing : α) (p : List α) : Prop :=
  ∃ body, p = opening :: (body ++ [closing]) ∧ opening ∉ body ++ [closing] ∧ closing ∉ body

variable {opening closing : α} {p q : List α}

theorem Delimited.ne_nil (hp : Delimited opening closing p) : p ≠ [] := by
  obtain ⟨body, rfl, -, -⟩ := hp
  exact List.cons_ne_nil _ _

/-- Two delimited patterns at the same place are the same. -/
theorem Delimited.eq_of_prefix [DecidableEq α] (hp : Delimited opening closing p)
    (hq : Delimited opening closing q) {t : List α} (hpt : p <+: t) (hqt : q <+: t) :
    p = q := by
  obtain ⟨b, rfl, -, hb⟩ := hp
  obtain ⟨d, rfl, -, hd⟩ := hq
  obtain ⟨u, rfl⟩ := hpt
  obtain ⟨v, hv⟩ := hqt
  have htail : d ++ closing :: v = b ++ closing :: u := by simpa using hv
  have htake := congrArg (List.takeWhile (· ≠ closing)) htail
  have hbody (body rest : List α) (h : closing ∉ body) :
      (body ++ closing :: rest).takeWhile (· ≠ closing) = body := by
    have hall : ∀ a ∈ body, decide (a ≠ closing) = true :=
      fun a ha => decide_eq_true fun heq => h (heq ▸ ha)
    rw [List.takeWhile_append_of_pos hall]
    simp
  rw [hbody _ _ hd, hbody _ _ hb] at htake
  rw [htake]

/-- A delimited pattern does not start at a symbol that is not the opening one. -/
theorem Delimited.not_prefix_cons (hp : Delimited opening closing p) {a : α} (ha : a ≠ opening)
    (t : List α) : ¬ p <+: a :: t := by
  obtain ⟨body, rfl, -, -⟩ := hp
  rw [List.cons_prefix_cons]
  exact fun h => ha h.1.symm

/-! ## Pieces of a text -/

/-- A single item of a text, or the place of a pattern. -/
inductive Piece (α β : Type)
  | item (b : β)
  | slot (p : List α)

/-- The text of a piece; the items of a slot's text carry nothing. -/
def Piece.text (mark : α → β) : Piece α β → List β
  | item b => [b]
  | slot p => p.map mark

/-- The text of pieces. -/
def flat (mark : α → β) (pieces : List (Piece α β)) : List β := pieces.flatMap (Piece.text mark)

/-- The items outside the slots. -/
def items : List (Piece α β) → List β
  | [] => []
  | .item b :: rest => b :: items rest
  | .slot _ :: rest => items rest

/-- The slots are those of delimited patterns. -/
def Slotted (opening closing : α) (pieces : List (Piece α β)) : Prop :=
  ∀ q, .slot q ∈ pieces → Delimited opening closing q

variable {symbol : β → α} {mark : α → β} {v : List β} {pieces rest : List (Piece α β)}

@[simp] theorem flat_nil : flat mark ([] : List (Piece α β)) = [] := rfl

@[simp] theorem flat_item_cons (b : β) (rest : List (Piece α β)) :
    flat mark (.item b :: rest) = b :: flat mark rest := rfl

@[simp] theorem flat_slot_cons (q : List α) (rest : List (Piece α β)) :
    flat mark (.slot q :: rest) = q.map mark ++ flat mark rest := rfl

@[simp] theorem flat_items_append (bs : List β) (rest : List (Piece α β)) :
    flat mark (bs.map .item ++ rest) = bs ++ flat mark rest := by
  induction bs with
  | nil => rfl
  | cons b bs ih => exact congrArg (b :: ·) ih

@[simp] theorem items_items_append (bs : List β) (rest : List (Piece α β)) :
    items (bs.map .item ++ rest) = bs ++ items rest := by
  induction bs with
  | nil => rfl
  | cons b bs ih => exact congrArg (b :: ·) ih

/-- Without slots a text is its items. -/
theorem flat_eq_items (h : ∀ q, Piece.slot q ∉ pieces) : flat mark pieces = items pieces := by
  induction pieces with
  | nil => rfl
  | cons piece rest ih =>
    have ih := ih fun q hq => h q (List.mem_cons_of_mem _ hq)
    cases piece with
    | item b => exact congrArg (b :: ·) ih
    | slot q => exact absurd List.mem_cons_self (h q)

theorem Slotted.tail {piece : Piece α β} (h : Slotted opening closing (piece :: rest)) :
    Slotted opening closing rest :=
  fun q hq => h q (List.mem_cons_of_mem _ hq)

theorem Slotted.of_append {front : List (Piece α β)}
    (h : Slotted opening closing (front ++ rest)) : Slotted opening closing rest :=
  fun q hq => h q (List.mem_append_right _ hq)

/-- The patterns of the slots can be read back from their text. -/
def Reads (symbol : β → α) (mark : α → β) : Prop := ∀ a, symbol (mark a) = a

theorem Reads.map_map (hread : Reads symbol mark) (s : List α) : (s.map mark).map symbol = s := by
  rw [List.map_map]
  exact (List.map_congr_left fun a _ => hread a).trans (List.map_id s)

/-- A text that starts with symbols which open no pattern starts with items. -/
theorem exists_items_of_prefix (hread : Reads symbol mark) {s : List α} (hs : opening ∉ s)
    (hslotted : Slotted opening closing pieces) (h : s <+: (flat mark pieces).map symbol) :
    ∃ (bs : List β) (rest : List (Piece α β)),
      pieces = bs.map .item ++ rest ∧ bs.map symbol = s := by
  induction s generalizing pieces with
  | nil => exact ⟨[], pieces, rfl, rfl⟩
  | cons a s ih =>
    rw [List.mem_cons, not_or] at hs
    cases pieces with
    | nil => exact nomatch List.prefix_nil.mp h
    | cons piece rest =>
      cases piece with
      | item b =>
        rw [flat_item_cons, List.map_cons, List.cons_prefix_cons] at h
        obtain ⟨bs, rest', rfl, hbs⟩ := ih hs.2 hslotted.tail h.2
        exact ⟨b :: bs, rest', rfl, by rw [List.map_cons, hbs, h.1]⟩
      | slot q =>
        obtain ⟨body, rfl, -, -⟩ := hslotted q List.mem_cons_self
        rw [flat_slot_cons, List.map_append, hread.map_map, List.cons_append,
          List.cons_prefix_cons] at h
        exact absurd h.1.symm hs.1

/-- An occurrence that starts at an item consists of items. -/
theorem items_of_occurrence (hread : Reads symbol mark) (hp : Delimited opening closing p) {b : β}
    (hslotted : Slotted opening closing rest)
    (h : p <+: (flat mark (.item b :: rest)).map symbol) :
    symbol b = opening ∧ ∃ (bs : List β) (rest' : List (Piece α β)),
      rest = bs.map .item ++ rest' ∧ bs.length = p.length - 1 := by
  obtain ⟨body, rfl, hbody, -⟩ := hp
  rw [flat_item_cons, List.map_cons, List.cons_prefix_cons] at h
  obtain ⟨bs, rest', rfl, hbs⟩ := exists_items_of_prefix hread hbody hslotted h.2
  refine ⟨h.1.symm, bs, rest', rfl, ?_⟩
  rw [List.length_cons, Nat.add_sub_cancel, ← hbs, List.length_map]

/-- The values are those of delimited patterns, and every slot has one. -/
structure Covers (opening closing : α) (values : List (List α × List β))
    (pieces : List (Piece α β)) : Prop where
  delimited : ∀ e ∈ values, Delimited opening closing e.1
  covered : ∀ q, Piece.slot q ∈ pieces → q ∈ values.map Prod.fst

theorem Covers.slotted {values : List (List α × List β)}
    (h : Covers opening closing values pieces) : Slotted opening closing pieces := by
  intro q hq
  obtain ⟨e, he, rfl⟩ := List.mem_map.mp (h.covered q hq)
  exact h.delimited e he

/-! ## Numbered values -/

/-- The values with the number of their replacement on every item. -/
def numbered : Nat → List (List α × List α) → List (List α × List (α × Nat))
  | _, [] => []
  | n, (p, v) :: values => (p, v.map (·, n)) :: numbered (n + 1) values

/-- The items of a template carry the number zero. -/
def unnumbered (a : α) : α × Nat := (a, 0)

theorem reads_unnumbered : Reads (Prod.fst : α × Nat → α) unnumbered := fun _ => rfl

theorem le_of_mem_numbered {n : Nat} {values : List (List α × List α)}
    {e : List α × List (α × Nat)} (he : e ∈ numbered n values) : ∀ b ∈ e.2, n ≤ b.2 := by
  induction values generalizing n with
  | nil => exact nomatch he
  | cons e' values ih =>
    rcases List.mem_cons.mp he with rfl | he
    · intro b hb
      obtain ⟨a, -, rfl⟩ := List.mem_map.mp hb
      exact Nat.le_refl n
    · exact fun b hb => Nat.le_of_succ_le (ih he b hb)

/-! ## Forgetting what the items carry -/

/-- A piece with the bare symbol of its item. -/
def Piece.bare (symbol : β → α) : Piece α β → Piece α α
  | .item b => .item (symbol b)
  | .slot q => .slot q

/-- Values with bare symbols. -/
def bareValues (symbol : β → α) (values : List (List α × List β)) : List (List α × List α) :=
  values.map fun e => (e.1, e.2.map symbol)

theorem flat_bare (hread : Reads symbol mark) (pieces : List (Piece α β)) :
    flat id (pieces.map (Piece.bare symbol)) = (flat mark pieces).map symbol := by
  induction pieces with
  | nil => rfl
  | cons piece rest ih =>
    cases piece with
    | item b => exact congrArg (symbol b :: ·) ih
    | slot q =>
      rw [List.map_cons, Piece.bare, flat_slot_cons, flat_slot_cons, List.map_append,
        hread.map_map, ih, List.map_id]

theorem bareValues_numbered (n : Nat) (values : List (List α × List α)) :
    bareValues Prod.fst (numbered n values) = values := by
  induction values generalizing n with
  | nil => rfl
  | cons e values ih =>
    rw [numbered, bareValues, List.map_cons, ← bareValues, ih, List.map_map]
    exact congrArg (fun v => (e.1, v) :: values) (List.map_id e.2)

theorem numbered_fst (n : Nat) (values : List (List α × List α)) :
    (numbered n values).map Prod.fst = values.map Prod.fst := by
  have hbare := congrArg (List.map Prod.fst) (bareValues_numbered n values)
  rw [bareValues, List.map_map] at hbare
  exact hbare

theorem nil_notMem_patterns {values : List (List α × List α)}
    (hvalues : ∀ e ∈ values, Delimited opening closing e.1) :
    [] ∉ values.map Prod.fst := by
  intro h
  obtain ⟨e, he, heq⟩ := List.mem_map.mp h
  exact (hvalues e he).ne_nil heq

/-! ## Replacing one pattern -/

variable [DecidableEq α]

/-- Replace the occurrences of a pattern from left to right, without rescanning what was
inserted. The first number counts the items of an occurrence still to be dropped. -/
def scan (symbol : β → α) (p : List α) (v : List β) : Nat → List β → List β
  | _, [] => []
  | skip + 1, _ :: rest => scan symbol p v skip rest
  | 0, b :: rest =>
    if p <+: (b :: rest).map symbol then v ++ scan symbol p v (p.length - 1) rest
    else b :: scan symbol p v 0 rest

/-- The number of places at which a pattern occurs. -/
def occurrences (p : List α) : List α → Nat
  | [] => if p = [] then 1 else 0
  | a :: t => (if p <+: a :: t then 1 else 0) + occurrences p t

theorem scan_eq_scan_drop (p : List α) (v : List β) (skip : Nat) (t : List β) :
    scan symbol p v skip t = scan symbol p v 0 (t.drop skip) := by
  induction skip generalizing t with
  | zero => rfl
  | succ skip ih =>
    cases t with
    | nil => simp [scan]
    | cons b rest => rw [scan, ih, List.drop_succ_cons]

/-- Forgetting what the items carry commutes with replacing. -/
theorem map_scan (p : List α) (v : List β) (skip : Nat) (t : List β) :
    (scan symbol p v skip t).map symbol = scan id p (v.map symbol) skip (t.map symbol) := by
  induction t generalizing skip with
  | nil => cases skip <;> rfl
  | cons b rest ih =>
    cases skip with
    | succ skip => exact ih skip
    | zero =>
      rw [List.map_cons, scan, scan, List.map_id, List.map_cons]
      split
      · rw [List.map_append, ih]
      · rw [List.map_cons, ih]

/-- Items whose symbols do not open a pattern are kept. -/
theorem scan_append_of_not_opening (hp : Delimited opening closing p) {bs : List β}
    (hbs : opening ∉ bs.map symbol) (t : List β) :
    scan symbol p v 0 (bs ++ t) = bs ++ scan symbol p v 0 t := by
  induction bs with
  | nil => rfl
  | cons b bs ih =>
    rw [List.map_cons, List.mem_cons, not_or] at hbs
    have hno : ¬ p <+: (b :: (bs ++ t)).map symbol := by
      rw [List.map_cons]
      exact hp.not_prefix_cons (Ne.symm hbs.1) _
    rw [List.cons_append, scan, if_neg hno, ih hbs.2, List.cons_append]

theorem occurrences_append_of_not_opening (hp : Delimited opening closing p) {s : List α}
    (hs : opening ∉ s) (t : List α) : occurrences p (s ++ t) = occurrences p t := by
  induction s with
  | nil => rfl
  | cons a s ih =>
    rw [List.mem_cons, not_or] at hs
    rw [List.cons_append, occurrences, if_neg (hp.not_prefix_cons (Ne.symm hs.1) _), ih hs.2,
      Nat.zero_add]

/-! ## Replacing one pattern in pieces -/

/-- Put a value in the slots of a pattern. -/
def fillSlots (p : List α) (v : List β) (pieces : List (Piece α β)) : List (Piece α β) :=
  pieces.flatMap fun
    | .item b => [.item b]
    | .slot q => if q = p then v.map .item else [.slot q]

/-- The text with the value of each pattern in its slots. -/
def fill (mark : α → β) (values : List (List α × List β)) (pieces : List (Piece α β)) : List β :=
  pieces.flatMap fun
    | .item b => [b]
    | .slot p => (values.lookup p).getD (p.map mark)

/-- The slots of a pattern. -/
def slots (p : List α) : List (Piece α β) → Nat
  | [] => 0
  | .item _ :: rest => slots p rest
  | .slot q :: rest => (if q = p then 1 else 0) + slots p rest

/-- The occurrences of a pattern that are not its slots. -/
def formed (symbol : β → α) (mark : α → β) (p : List α) : List (Piece α β) → Nat
  | [] => 0
  | .item b :: rest =>
    (if p <+: (flat mark (.item b :: rest)).map symbol then 1 else 0) + formed symbol mark p rest
  | .slot _ :: rest => formed symbol mark p rest

/-- Parse a text: the first pattern that occurs at a place is a slot there. -/
def parse (mark : α → β) (patterns : List (List α)) : Nat → List α → List (Piece α β)
  | _, [] => []
  | skip + 1, _ :: rest => parse mark patterns skip rest
  | 0, a :: rest =>
    match patterns.find? fun p => decide (p <+: a :: rest) with
    | some p => .slot p :: parse mark patterns (p.length - 1) rest
    | none => .item (mark a) :: parse mark patterns 0 rest

/-- Replace a pattern in a text of pieces: its slots, and the occurrences formed by the items. -/
def replacePieces (symbol : β → α) (mark : α → β) (p : List α) (v : List β) :
    Nat → List (Piece α β) → List (Piece α β)
  | _, [] => []
  | skip + 1, _ :: rest => replacePieces symbol mark p v skip rest
  | 0, .slot q :: rest =>
    if q = p then v.map .item ++ replacePieces symbol mark p v 0 rest
    else .slot q :: replacePieces symbol mark p v 0 rest
  | 0, .item b :: rest =>
    if p <+: (flat mark (.item b :: rest)).map symbol then
      v.map .item ++ replacePieces symbol mark p v (p.length - 1) rest
    else .item b :: replacePieces symbol mark p v 0 rest

/-- Dropped items do not take part in a replacement. -/
theorem replacePieces_items_append (p : List α) (v bs : List β) (rest : List (Piece α β)) :
    replacePieces symbol mark p v bs.length (bs.map .item ++ rest) =
      replacePieces symbol mark p v 0 rest := by
  induction bs with
  | nil => rfl
  | cons b bs ih => exact ih

/-- Replacing in the text of pieces replaces in the pieces. -/
theorem scan_flat (hread : Reads symbol mark) (hp : Delimited opening closing p) (v : List β)
    (hslotted : Slotted opening closing pieces) :
    scan symbol p v 0 (flat mark pieces) =
      flat mark (replacePieces symbol mark p v 0 pieces) := by
  -- An occurrence drops several pieces at once, so the induction is on their number.
  induction hlen : pieces.length using Nat.strong_induction_on generalizing pieces with
  | _ n ih =>
    subst hlen
    match pieces with
    | [] => rfl
    | .slot q :: rest =>
      have ih := ih rest.length (Nat.lt_succ_self _) hslotted.tail rfl
      have hq := hslotted q List.mem_cons_self
      obtain ⟨body, hbody, hopen, -⟩ := id hq
      rw [flat_slot_cons, replacePieces]
      split
      · rename_i heq
        subst heq
        have hhere : q <+: (q.map mark ++ flat mark rest).map symbol := by
          rw [List.map_append, hread.map_map]
          exact List.prefix_append _ _
        rw [flat_items_append, ← ih]
        rw [hbody, List.map_cons, List.cons_append] at hhere ⊢
        rw [scan, if_pos hhere, List.length_cons, Nat.add_sub_cancel, scan_eq_scan_drop,
          List.drop_left' (by rw [List.length_map])]
      · rename_i hne
        have hno : ¬ p <+: (q.map mark ++ flat mark rest).map symbol := by
          rw [List.map_append, hread.map_map]
          exact fun h => hne (hq.eq_of_prefix hp (List.prefix_append _ _) h)
        have hkept : opening ∉ ((body ++ [closing]).map mark).map symbol := by
          rwa [hread.map_map]
        rw [flat_slot_cons, ← ih]
        rw [hbody, List.map_cons, List.cons_append] at hno ⊢
        rw [scan, if_neg hno, scan_append_of_not_opening hp hkept, List.cons_append]
    | .item b :: rest =>
      rw [flat_item_cons, replacePieces]
      split
      · rename_i hhere
        obtain ⟨-, bs, rest', rfl, hlength⟩ := items_of_occurrence hread hp hslotted.tail hhere
        have hlt : rest'.length < (Piece.item b :: (bs.map Piece.item ++ rest')).length := by
          rw [List.length_cons, List.length_append]
          omega
        rw [flat_item_cons] at hhere
        rw [scan, if_pos hhere, scan_eq_scan_drop, ← hlength, flat_items_append, List.drop_left,
          replacePieces_items_append, flat_items_append,
          ih _ hlt hslotted.tail.of_append rfl]
      · rename_i hno
        rw [flat_item_cons] at hno
        rw [scan, if_neg hno, flat_item_cons,
          ih rest.length (Nat.lt_succ_self _) hslotted.tail rfl]

@[simp] theorem fillSlots_nil (p : List α) (v : List β) : fillSlots p v [] = [] := rfl

@[simp] theorem fillSlots_item_cons (p : List α) (v : List β) (b : β) (rest : List (Piece α β)) :
    fillSlots p v (.item b :: rest) = .item b :: fillSlots p v rest := rfl

theorem fillSlots_slot_cons (p q : List α) (v : List β) (rest : List (Piece α β)) :
    fillSlots p v (.slot q :: rest) =
      if q = p then v.map .item ++ fillSlots p v rest else .slot q :: fillSlots p v rest := by
  rw [fillSlots, List.flatMap_cons, ← fillSlots]
  dsimp only
  split <;> rfl

/-- Where the items form no occurrence, exactly the slots are replaced. -/
theorem replacePieces_eq_fillSlots (p : List α) (v : List β)
    (h : formed symbol mark p pieces = 0) :
    replacePieces symbol mark p v 0 pieces = fillSlots p v pieces := by
  induction pieces with
  | nil => rfl
  | cons piece rest ih =>
    cases piece with
    | slot q =>
      rw [replacePieces, ih h, fillSlots_slot_cons]
    | item b =>
      obtain ⟨hhere, hrest⟩ := Nat.add_eq_zero_iff.mp h
      have hno : ¬ p <+: (flat mark (.item b :: rest)).map symbol := by
        intro hp
        rw [if_pos hp] at hhere
        exact nomatch hhere
      rw [replacePieces, if_neg hno, ih hrest]
      rfl

/-- The slots after a replacement are slots of other patterns from before it. -/
theorem slot_of_mem_replacePieces {skip : Nat}
    (h : Piece.slot q ∈ replacePieces symbol mark p v skip pieces) :
    Piece.slot q ∈ pieces ∧ q ≠ p := by
  have hvalue : Piece.slot q ∉ v.map Piece.item := by simp
  induction pieces generalizing skip with
  | nil => cases skip <;> exact nomatch h
  | cons piece rest ih =>
    have later {skip : Nat} (h : Piece.slot q ∈ replacePieces symbol mark p v skip rest) :
        Piece.slot q ∈ piece :: rest ∧ q ≠ p :=
      ⟨List.mem_cons_of_mem _ (ih h).1, (ih h).2⟩
    cases skip with
    | succ skip => exact later h
    | zero =>
      cases piece with
      | slot q' =>
        rw [replacePieces] at h
        split at h
        · exact later ((List.mem_append.mp h).resolve_left hvalue)
        · rename_i hne
          rcases List.mem_cons.mp h with heq | h
          · cases heq
            exact ⟨List.mem_cons_self, hne⟩
          · exact later h
      | item b =>
        rw [replacePieces] at h
        split at h
        · exact later ((List.mem_append.mp h).resolve_left hvalue)
        · rcases List.mem_cons.mp h with heq | h
          · exact nomatch heq
          · exact later h

/-! ## Counting what is kept -/

variable {kept : β → Bool}

theorem countP_items_replacePieces_aux (hread : Reads symbol mark)
    (hp : Delimited opening closing p) (hv : ∀ b ∈ v, kept b = false)
    (hslotted : Slotted opening closing pieces) :
    (items (replacePieces symbol mark p v 0 pieces)).countP kept ≤ (items pieces).countP kept ∧
      (formed symbol mark p pieces ≠ 0 →
        (∀ b ∈ items pieces, symbol b = opening → kept b = true) →
        (items (replacePieces symbol mark p v 0 pieces)).countP kept <
          (items pieces).countP kept) := by
  have hvalue : v.countP kept = 0 := List.countP_eq_zero.mpr fun b hb => by rw [hv b hb]; decide
  induction hlen : pieces.length using Nat.strong_induction_on generalizing pieces with
  | _ n ih =>
    subst hlen
    match pieces with
    | [] => exact ⟨Nat.le_refl _, fun h => absurd rfl h⟩
    | .slot q :: rest =>
      have ih := ih rest.length (Nat.lt_succ_self _) hslotted.tail rfl
      rw [replacePieces]
      split
      · rw [items_items_append, List.countP_append, hvalue, Nat.zero_add]
        exact ih
      · exact ih
    | .item b :: rest =>
      rw [replacePieces]
      split
      · rename_i hhere
        obtain ⟨hopen, bs, rest', rfl, hlength⟩ := items_of_occurrence hread hp hslotted.tail hhere
        have hlt : rest'.length < (Piece.item b :: (bs.map Piece.item ++ rest')).length := by
          rw [List.length_cons, List.length_append]
          omega
        have ih := (ih _ hlt hslotted.tail.of_append rfl).1
        rw [items_items_append, List.countP_append, hvalue, Nat.zero_add, ← hlength,
          replacePieces_items_append]
        simp only [items, items_items_append, List.countP_cons, List.countP_append]
        refine ⟨by omega, fun _ hkept => ?_⟩
        rw [if_pos (hkept b List.mem_cons_self hopen)]
        omega
      · rename_i hno
        have ih := ih rest.length (Nat.lt_succ_self _) hslotted.tail rfl
        simp only [items, List.countP_cons, formed, if_neg hno, Nat.zero_add]
        exact ⟨Nat.add_le_add_right ih.1 _, fun hformed hkept => Nat.add_lt_add_right
          (ih.2 hformed fun c hc => hkept c (List.mem_cons_of_mem _ hc)) _⟩

end Watchcat.Core.Substitution
