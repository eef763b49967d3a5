import Watchcat.Core.Pieces

/-!
# Replacing delimited patterns one after another

Filling the slots of a parsed text is the simultaneous substitution. Replacing
the patterns one after another does the same exactly as long as no replacement
forms an occurrence of a later pattern: what is replaced there is lost.
-/

namespace Watchcat.Core.Substitution

variable {α β : Type} [DecidableEq α] {opening closing : α} {p q : List α} {symbol : β → α}
  {mark : α → β} {v : List β} {pieces rest : List (Piece α β)} {kept : β → Bool}

/-- Patterns and their values, replaced one after another. -/
def replaceAll (symbol : β → α) (values : List (List α × List β)) (text : List β) : List β :=
  values.foldl (fun text e => scan symbol e.1 e.2 0 text) text

/-- No replacement before it forms an occurrence of a pattern. -/
def Clean (symbol : β → α) (mark : α → β) :
    List (List α × List β) → List (Piece α β) → Prop
  | [], _ => True
  | (p, v) :: values, pieces =>
    formed symbol mark p pieces = 0 ∧ Clean symbol mark values (fillSlots p v pieces)

variable {values : List (List α × List β)}

theorem Covers.replacePieces (h : Covers opening closing ((p, v) :: values) pieces)
    (symbol : β → α) (mark : α → β) :
    Covers opening closing values (replacePieces symbol mark p v 0 pieces) := by
  refine ⟨fun e he => h.delimited e (List.mem_cons_of_mem _ he), fun q hq => ?_⟩
  obtain ⟨hold, hne⟩ := slot_of_mem_replacePieces hq
  exact (List.mem_cons.mp (h.covered q hold)).resolve_left hne

theorem replaceAll_flat_cons (hread : Reads symbol mark)
    (h : Covers opening closing ((p, v) :: values) pieces) :
    replaceAll symbol ((p, v) :: values) (flat mark pieces) =
      replaceAll symbol values (flat mark (replacePieces symbol mark p v 0 pieces)) := by
  rw [replaceAll, List.foldl_cons,
    scan_flat hread (h.delimited _ List.mem_cons_self) v h.slotted, replaceAll]

@[simp] theorem fill_item_cons (b : β) (rest : List (Piece α β)) :
    fill mark values (.item b :: rest) = b :: fill mark values rest := rfl

@[simp] theorem fill_slot_cons (q : List α) (rest : List (Piece α β)) :
    fill mark values (.slot q :: rest) =
      (values.lookup q).getD (q.map mark) ++ fill mark values rest := rfl

@[simp] theorem fill_items_append (bs : List β) (rest : List (Piece α β)) :
    fill mark values (bs.map .item ++ rest) = bs ++ fill mark values rest := by
  induction bs with
  | nil => rfl
  | cons b bs ih => exact congrArg (b :: ·) ih

@[simp] theorem fill_nil_values (pieces : List (Piece α β)) :
    fill mark [] pieces = flat mark pieces := by
  induction pieces with
  | nil => rfl
  | cons piece rest ih =>
    cases piece with
    | item b => exact congrArg (b :: ·) ih
    | slot q => exact congrArg (q.map mark ++ ·) ih

/-- Filling the slots of the first pattern and then those of the others fills all. -/
theorem fill_fillSlots (p : List α) (v : List β) (values : List (List α × List β))
    (pieces : List (Piece α β)) :
    fill mark values (fillSlots p v pieces) = fill mark ((p, v) :: values) pieces := by
  induction pieces with
  | nil => rfl
  | cons piece rest ih =>
    cases piece with
    | item b => exact congrArg (b :: ·) ih
    | slot q =>
      rw [fillSlots_slot_cons]
      split
      · rename_i hq
        subst hq
        have hlookup : ((q, v) :: values).lookup q = some v := List.lookup_cons_self
        rw [fill_items_append, ih, fill_slot_cons, hlookup, Option.getD_some]
      · rename_i hq
        have hlookup : ((p, v) :: values).lookup q = values.lookup q := by
          rw [List.lookup_cons, beq_eq_false_iff_ne.mpr hq]
        rw [fill_slot_cons, ih, fill_slot_cons, hlookup]

/-- The text with the values in the slots has all the items. -/
theorem items_sublist_fill (mark : α → β) (values : List (List α × List β))
    (pieces : List (Piece α β)) : (items pieces).Sublist (fill mark values pieces) := by
  induction pieces with
  | nil => exact List.Sublist.slnil
  | cons piece rest ih =>
    cases piece with
    | item b => exact ih.cons_cons b
    | slot q => exact ih.trans (List.sublist_append_right _ _)

/-- Replacing adds nothing that is kept. -/
theorem countP_replaceAll_le (hread : Reads symbol mark)
    (h : Covers opening closing values pieces) (hvalues : ∀ e ∈ values, ∀ b ∈ e.2, kept b = false) :
    (replaceAll symbol values (flat mark pieces)).countP kept ≤ (items pieces).countP kept := by
  induction values generalizing pieces with
  | nil =>
    have hnone : ∀ q, Piece.slot q ∉ pieces := fun q hq => nomatch h.covered q hq
    exact (congrArg (List.countP kept) (flat_eq_items hnone)).le
  | cons e values ih =>
    obtain ⟨p, v⟩ := e
    rw [replaceAll_flat_cons hread h]
    exact (ih (h.replacePieces symbol mark) fun e he => hvalues e (List.mem_cons_of_mem _ he)).trans
      (countP_items_replacePieces_aux hread (h.delimited _ List.mem_cons_self)
        (hvalues _ List.mem_cons_self) h.slotted).1

/-- Where the first pattern has an occurrence that is no slot, some of what the values in
the slots leave in the text is lost. -/
theorem replaceAll_ne_fill (kept : β → Bool) (hread : Reads symbol mark)
    (h : Covers opening closing ((p, v) :: values) pieces)
    (hvalues : ∀ e ∈ (p, v) :: values, ∀ b ∈ e.2, kept b = false)
    (hkept : ∀ b ∈ items pieces, symbol b = opening → kept b = true)
    (hformed : formed symbol mark p pieces ≠ 0) :
    replaceAll symbol ((p, v) :: values) (flat mark pieces) ≠
      fill mark ((p, v) :: values) pieces := by
  intro heq
  have hlost := (countP_items_replacePieces_aux hread (h.delimited _ List.mem_cons_self)
    (hvalues _ List.mem_cons_self) h.slotted).2 hformed hkept
  have hlater := countP_replaceAll_le hread (h.replacePieces symbol mark)
    fun e he => hvalues e (List.mem_cons_of_mem _ he)
  have hall : (items pieces).countP kept ≤ (fill mark ((p, v) :: values) pieces).countP kept :=
    (items_sublist_fill mark _ pieces).countP_le
  rw [← heq, replaceAll_flat_cons hread h] at hall
  exact absurd hall (Nat.not_le.mpr (hlater.trans_lt hlost))

/-- The first replacement of a clean text leaves the others to be made. -/
theorem replaceAll_flat_cons_clean (hread : Reads symbol mark)
    (h : Covers opening closing ((p, v) :: values) pieces)
    (hclean : formed symbol mark p pieces = 0) :
    (replaceAll symbol ((p, v) :: values) (flat mark pieces) =
        fill mark ((p, v) :: values) pieces ↔
      replaceAll symbol values (flat mark (fillSlots p v pieces)) =
        fill mark values (fillSlots p v pieces)) ∧
      Covers opening closing values (fillSlots p v pieces) := by
  have hslots := replacePieces_eq_fillSlots p v hclean
  rw [replaceAll_flat_cons hread h, ← fill_fillSlots, ← hslots]
  exact ⟨Iff.rfl, h.replacePieces symbol mark⟩

/-- Where no value has the opening symbol, replacing one after another is the simultaneous
substitution exactly if no occurrence is formed. -/
theorem replaceAll_eq_fill_iff_of_not_opening (hread : Reads symbol mark)
    (h : Covers opening closing values pieces)
    (hvalues : ∀ e ∈ values, opening ∉ e.2.map symbol) :
    replaceAll symbol values (flat mark pieces) = fill mark values pieces ↔
      Clean symbol mark values pieces := by
  induction values generalizing pieces with
  | nil =>
    exact iff_of_true (fill_nil_values pieces).symm trivial
  | cons e values ih =>
    obtain ⟨p, v⟩ := e
    by_cases hformed : formed symbol mark p pieces = 0
    · obtain ⟨hiff, hcovers⟩ := replaceAll_flat_cons_clean hread h hformed
      rw [hiff, ih hcovers fun e he => hvalues e (List.mem_cons_of_mem _ he)]
      exact (and_iff_right hformed).symm
    · refine iff_of_false ?_ fun hclean => hformed hclean.1
      refine replaceAll_ne_fill (fun b => decide (symbol b = opening)) hread h ?_
        (fun b _ hb => decide_eq_true hb) hformed
      exact fun e he b hb => decide_eq_false fun heq =>
        hvalues e he (heq ▸ List.mem_map_of_mem hb)

/-! ## Following the values -/

theorem mem_items_fillSlots {pieces : List (Piece α β)} {b : β}
    (h : b ∈ items (fillSlots p v pieces)) : b ∈ v ∨ b ∈ items pieces := by
  induction pieces with
  | nil => exact nomatch h
  | cons piece rest ih =>
    cases piece with
    | item c =>
      rcases List.mem_cons.mp h with rfl | h
      · exact Or.inr List.mem_cons_self
      · exact (ih h).imp_right (List.mem_cons_of_mem c)
    | slot q =>
      rw [fillSlots_slot_cons] at h
      split at h
      · rw [items_items_append] at h
        exact (List.mem_append.mp h).elim Or.inl ih
      · exact ih h

/-- Followed item by item, replacing one after another is the simultaneous substitution
exactly if no occurrence is formed. -/
theorem replaceAll_numbered_eq_fill_iff {n : Nat} {values : List (List α × List α)}
    {pieces : List (Piece α (α × Nat))} (h : Covers opening closing (numbered n values) pieces)
    (hitems : ∀ b ∈ items pieces, b.2 < n) :
    replaceAll Prod.fst (numbered n values) (flat unnumbered pieces) =
        fill unnumbered (numbered n values) pieces ↔
      Clean Prod.fst unnumbered (numbered n values) pieces := by
  induction values generalizing n pieces with
  | nil => exact iff_of_true (fill_nil_values pieces).symm trivial
  | cons e values ih =>
    obtain ⟨p, v⟩ := e
    by_cases hformed : formed Prod.fst unnumbered p pieces = 0
    · obtain ⟨hiff, hcovers⟩ := replaceAll_flat_cons_clean reads_unnumbered h hformed
      have hlater : ∀ b ∈ items (fillSlots p (v.map (·, n)) pieces), b.2 < n + 1 := by
        intro b hb
        rcases mem_items_fillSlots hb with hb | hb
        · obtain ⟨a, -, rfl⟩ := List.mem_map.mp hb
          exact Nat.lt_succ_self n
        · exact Nat.lt_succ_of_lt (hitems b hb)
      rw [numbered, hiff, ih hcovers hlater]
      exact (and_iff_right hformed).symm
    · refine iff_of_false ?_ fun hclean => hformed hclean.1
      refine replaceAll_ne_fill (fun b => decide (b.2 < n)) reads_unnumbered h ?_
        (fun b hb _ => decide_eq_true (hitems b hb)) hformed
      intro e he b hb
      have hn : n ≤ b.2 := le_of_mem_numbered (numbered.eq_2 n p v values ▸ he) b hb
      exact decide_eq_false (Nat.not_lt.mpr hn)

/-! ## Occurrences -/

theorem occurrences_cons (p : List α) (a : α) (t : List α) :
    occurrences p (a :: t) = (if p <+: a :: t then 1 else 0) + occurrences p t := rfl

/-- A pattern occurs at its slots and where the items form it. -/
theorem occurrences_flat (hread : Reads symbol mark) (hp : Delimited opening closing p)
    (hslotted : Slotted opening closing pieces) :
    occurrences p ((flat mark pieces).map symbol) =
      slots p pieces + formed symbol mark p pieces := by
  induction pieces with
  | nil => exact if_neg hp.ne_nil
  | cons piece rest ih =>
    have ih := ih hslotted.tail
    cases piece with
    | item b =>
      rw [flat_item_cons, List.map_cons, occurrences_cons, ih, slots, formed, flat_item_cons,
        List.map_cons]
      omega
    | slot q =>
      have hq := hslotted q List.mem_cons_self
      obtain ⟨body, hbody, hopen, -⟩ := id hq
      have hhere : p <+: q ++ (flat mark rest).map symbol ↔ q = p :=
        ⟨fun h => hq.eq_of_prefix hp (List.prefix_append _ _) h,
          fun h => h ▸ List.prefix_append _ _⟩
      rw [flat_slot_cons, List.map_append, hread.map_map, slots, formed]
      have hcons : q ++ (flat mark rest).map symbol =
          opening :: ((body ++ [closing]) ++ (flat mark rest).map symbol) := by
        rw [hbody, List.cons_append]
      rw [hcons, occurrences_cons, ← hcons, occurrences_append_of_not_opening hp hopen, ih]
      simp only [hhere]
      omega

/-- Filling the slots of another pattern keeps the slots. -/
theorem slots_fillSlots (hne : q ≠ p) (v : List β) (pieces : List (Piece α β)) :
    slots q (fillSlots p v pieces) = slots q pieces := by
  induction pieces with
  | nil => rfl
  | cons piece rest ih =>
    cases piece with
    | item b => exact ih
    | slot q' =>
      rw [fillSlots_slot_cons]
      split
      · rename_i hq
        have hvalue (bs : List β) (rest : List (Piece α β)) :
            slots q (bs.map .item ++ rest) = slots q rest := by
          induction bs with
          | nil => rfl
          | cons b bs ih => exact ih
        rw [hvalue, ih, slots, if_neg (hq ▸ hne.symm), Nat.zero_add]
      · rw [slots, ih, slots]

/-- No occurrence is formed exactly if each pattern occurs, once the values of those before it
are in their slots, only at its own slots. -/
theorem clean_iff (hread : Reads symbol mark) (h : Covers opening closing values pieces)
    (hnodup : (values.map Prod.fst).Nodup) :
    Clean symbol mark values pieces ↔ ∀ before e after, values = before ++ e :: after →
      occurrences e.1 ((fill mark before pieces).map symbol) = slots e.1 pieces := by
  induction values generalizing pieces with
  | nil => exact iff_of_true trivial fun before e after heq => by simp at heq
  | cons e values ih =>
    obtain ⟨p, v⟩ := e
    obtain ⟨hp, hnodup⟩ := List.nodup_cons.mp hnodup
    have hdelimited : Delimited opening closing p := h.delimited _ List.mem_cons_self
    have hfirst := occurrences_flat hread hdelimited h.slotted
    have hother {before after : List (List α × List β)} {e : List α × List β}
        (heq : values = before ++ e :: after) : e.1 ≠ p := by
      intro he
      subst heq
      exact hp (List.mem_map.mpr ⟨e, List.mem_append_right _ List.mem_cons_self, he⟩)
    constructor
    · rintro ⟨hformed, hclean⟩ before e after heq
      have hcovers := (replaceAll_flat_cons_clean hread h hformed).2
      cases before with
      | nil =>
        obtain ⟨rfl, -⟩ := List.cons.inj heq
        rw [fill_nil_values, hfirst, hformed, Nat.add_zero]
      | cons e' before =>
        obtain ⟨rfl, hvalues⟩ := List.cons.inj heq
        rw [← fill_fillSlots, (ih hcovers hnodup).mp hclean before e after hvalues,
          slots_fillSlots (hother hvalues)]
    · intro hall
      have hformed : formed symbol mark p pieces = 0 := by
        have hslots : _ = slots p pieces := hall [] (p, v) values rfl
        rw [fill_nil_values, hfirst] at hslots
        omega
      have hcovers := (replaceAll_flat_cons_clean hread h hformed).2
      refine ⟨hformed, (ih hcovers hnodup).mpr fun before e after heq => ?_⟩
      rw [fill_fillSlots, slots_fillSlots (hother heq)]
      exact hall ((p, v) :: before) e after (by rw [heq, List.cons_append])

/-! ## Parsed texts -/

theorem flat_parse {patterns : List (List α)} (hne : [] ∉ patterns) (skip : Nat) (t : List α) :
    flat mark (parse mark patterns skip t) = (t.drop skip).map mark := by
  induction t generalizing skip with
  | nil => cases skip <;> rfl
  | cons a rest ih =>
    cases skip with
    | succ skip => exact ih skip
    | zero =>
      rw [parse]
      split
      · rename_i q hq
        have hprefix : q <+: a :: rest := by simpa using List.find?_some hq
        obtain ⟨u, hu⟩ := hprefix
        rw [flat_slot_cons, ih, ← hu, List.drop_zero]
        cases q with
        | nil => exact absurd (List.mem_of_find?_eq_some hq) hne
        | cons c q =>
          have hrest : rest = q ++ u := (List.cons.inj hu).2.symm
          subst hrest
          rw [List.length_cons, Nat.add_sub_cancel, List.drop_left, List.map_append]
      · rw [flat_item_cons, ih]
        rfl

/-- Every slot of a parsed text is that of one of the patterns. -/
theorem mem_of_slot_mem_parse {patterns : List (List α)} {skip : Nat} {t : List α}
    (h : Piece.slot q ∈ parse mark patterns skip t) : q ∈ patterns := by
  induction t generalizing skip with
  | nil => cases skip <;> exact nomatch h
  | cons a rest ih =>
    cases skip with
    | succ skip => exact ih h
    | zero =>
      rw [parse] at h
      split at h
      · rename_i q' hq'
        rcases List.mem_cons.mp h with heq | h
        · cases heq
          exact List.mem_of_find?_eq_some hq'
        · exact ih h
      · rcases List.mem_cons.mp h with heq | h
        · exact nomatch heq
        · exact ih h

theorem mem_items_parse {patterns : List (List α)} {skip : Nat} {t : List α} {b : β}
    (h : b ∈ items (parse mark patterns skip t)) : ∃ a, b = mark a := by
  induction t generalizing skip with
  | nil => cases skip <;> exact nomatch h
  | cons a rest ih =>
    cases skip with
    | succ skip => exact ih h
    | zero =>
      rw [parse] at h
      split at h
      · exact ih h
      · rcases List.mem_cons.mp h with rfl | h
        · exact ⟨a, rfl⟩
        · exact ih h

/-- The items of a parsed text form no occurrence of a pattern. -/
theorem formed_parse (hread : Reads symbol mark) {patterns : List (List α)} (hne : [] ∉ patterns)
    (hp : p ∈ patterns) (skip : Nat) (t : List α) :
    formed symbol mark p (parse mark patterns skip t) = 0 := by
  induction t generalizing skip with
  | nil => cases skip <;> rfl
  | cons a rest ih =>
    cases skip with
    | succ skip => exact ih skip
    | zero =>
      rw [parse]
      split
      · exact ih _
      · rename_i hnone
        have hno : ¬ p <+: a :: rest := by simpa using List.find?_eq_none.mp hnone p hp
        rw [formed, flat_item_cons, flat_parse hne, List.map_cons, hread, List.drop_zero,
          hread.map_map, if_neg hno, ih]

/-! ## Replacing bare symbols -/

theorem formed_bare (hread : Reads symbol mark) (p : List α) (pieces : List (Piece α β)) :
    formed id id p (pieces.map (Piece.bare symbol)) = formed symbol mark p pieces := by
  induction pieces with
  | nil => rfl
  | cons piece rest ih =>
    cases piece with
    | item b =>
      have hflat := flat_bare hread (.item b :: rest)
      rw [List.map_cons, Piece.bare] at hflat
      rw [List.map_cons, Piece.bare, formed, formed, hflat, List.map_id, ih]
    | slot q => exact ih

theorem fillSlots_bare (p : List α) (v : List β) (pieces : List (Piece α β)) :
    fillSlots p (v.map symbol) (pieces.map (Piece.bare symbol)) =
      (fillSlots p v pieces).map (Piece.bare symbol) := by
  induction pieces with
  | nil => rfl
  | cons piece rest ih =>
    cases piece with
    | item b => exact congrArg (Piece.item (symbol b) :: ·) ih
    | slot q =>
      rw [List.map_cons, Piece.bare, fillSlots_slot_cons, fillSlots_slot_cons, ih]
      split
      · rw [List.map_append, List.map_map, List.map_map]
        rfl
      · rfl

theorem fill_bare (hread : Reads symbol mark) (values : List (List α × List β))
    (pieces : List (Piece α β)) :
    fill id (bareValues symbol values) (pieces.map (Piece.bare symbol)) =
      (fill mark values pieces).map symbol := by
  induction values generalizing pieces with
  | nil => rw [fill_nil_values, ← flat_bare hread, bareValues, List.map_nil, fill_nil_values]
  | cons e values ih =>
    rw [← fill_fillSlots, ← ih, ← fillSlots_bare, fill_fillSlots]
    rfl

theorem clean_bare (hread : Reads symbol mark) (values : List (List α × List β))
    (pieces : List (Piece α β)) :
    Clean id id (bareValues symbol values) (pieces.map (Piece.bare symbol)) ↔
      Clean symbol mark values pieces := by
  induction values generalizing pieces with
  | nil => exact Iff.rfl
  | cons e values ih =>
    rw [bareValues, List.map_cons, ← bareValues, Clean, Clean, formed_bare hread, fillSlots_bare,
      ih]

theorem parse_bare (hread : Reads symbol mark) (patterns : List (List α)) (skip : Nat)
    (t : List α) :
    (parse mark patterns skip t).map (Piece.bare symbol) = parse id patterns skip t := by
  induction t generalizing skip with
  | nil => cases skip <;> rfl
  | cons a rest ih =>
    cases skip with
    | succ skip => exact ih skip
    | zero =>
      rw [parse, parse]
      split
      · rw [List.map_cons, ih, Piece.bare]
      · rw [List.map_cons, ih, Piece.bare, hread, id]

theorem map_replaceAll (values : List (List α × List β)) (text : List β) :
    (replaceAll symbol values text).map symbol =
      replaceAll id (bareValues symbol values) (text.map symbol) := by
  induction values generalizing text with
  | nil => rfl
  | cons e values ih =>
    rw [replaceAll, List.foldl_cons, ← replaceAll, ih, map_scan]
    rfl

/-! ## Substitution in a text -/

/-- The simultaneous substitution: parse the text, then put the values in the slots. -/
def substitute (values : List (List α × List α)) (text : List α) : List α :=
  fill id values (parse id (values.map Prod.fst) 0 text)

/-- The simultaneous substitution with the number of the replacement on every item. -/
def substituteNumbered (values : List (List α × List α)) (text : List α) : List (α × Nat) :=
  fill unnumbered (numbered 1 values) (parse unnumbered (values.map Prod.fst) 0 text)

/-- The replacements one after another, with the number of the replacement on every item. -/
def replaceNumbered (values : List (List α × List α)) (text : List α) : List (α × Nat) :=
  replaceAll Prod.fst (numbered 1 values) (text.map unnumbered)

/-- Each pattern occurs, once the values of those before it are in their slots, exactly as often
as in the text itself. -/
def NothingFormed (values : List (List α × List α)) (text : List α) : Prop :=
  ∀ before e after, values = before ++ e :: after →
    occurrences e.1 (fill id before (parse id (values.map Prod.fst) 0 text)) =
      occurrences e.1 text

variable {values : List (List α × List α)}

theorem covers_parse (hvalues : ∀ e ∈ values, Delimited opening closing e.1) (text : List α) :
    Covers opening closing values (parse id (values.map Prod.fst) 0 text) :=
  ⟨hvalues, fun _ hq => mem_of_slot_mem_parse hq⟩

theorem covers_numbered_parse (hvalues : ∀ e ∈ values, Delimited opening closing e.1)
    (text : List α) :
    Covers opening closing (numbered 1 values)
      (parse unnumbered (values.map Prod.fst) 0 text) := by
  refine ⟨fun e he => ?_, fun q hq => ?_⟩
  · have hmem := List.mem_map_of_mem (f := Prod.fst) he
    rw [numbered_fst] at hmem
    obtain ⟨e', he', heq⟩ := List.mem_map.mp hmem
    exact heq ▸ hvalues e' he'
  · rw [numbered_fst]
    exact mem_of_slot_mem_parse hq

/-- The condition on the text is that of its pieces. -/
theorem clean_parse_iff (hvalues : ∀ e ∈ values, Delimited opening closing e.1)
    (hnodup : (values.map Prod.fst).Nodup) (text : List α) :
    Clean id id values (parse id (values.map Prod.fst) 0 text) ↔ NothingFormed values text := by
  have hread : Reads (id : α → α) id := fun _ => rfl
  have hne := nil_notMem_patterns hvalues
  have hcovers := covers_parse hvalues text
  have hslots (e : List α × List α) (he : e ∈ values) :
      slots e.1 (parse id (values.map Prod.fst) 0 text) = occurrences e.1 text := by
    have hflat := occurrences_flat hread (hvalues e he) hcovers.slotted
    rw [formed_parse hread hne (List.mem_map_of_mem he), flat_parse hne] at hflat
    simpa using hflat.symm
  rw [clean_iff hread hcovers hnodup, NothingFormed]
  refine forall_congr' fun before => forall_congr' fun e => forall_congr' fun after =>
    forall_congr' fun heq => ?_
  rw [List.map_id, hslots e (heq ▸ List.mem_append_right _ List.mem_cons_self)]

/-- Followed item by item, the replacements are the simultaneous substitution exactly if none
forms an occurrence of a later pattern. -/
theorem replaceNumbered_eq_iff (hvalues : ∀ e ∈ values, Delimited opening closing e.1)
    (hnodup : (values.map Prod.fst).Nodup) (text : List α) :
    replaceNumbered values text = substituteNumbered values text ↔ NothingFormed values text := by
  have hflat : flat unnumbered (parse unnumbered (values.map Prod.fst) 0 text) =
      text.map unnumbered := flat_parse (nil_notMem_patterns hvalues) 0 text
  have hitems : ∀ b ∈ items (parse unnumbered (values.map Prod.fst) 0 text), b.2 < 1 := by
    intro b hb
    obtain ⟨a, rfl⟩ := mem_items_parse hb
    exact Nat.one_pos
  rw [replaceNumbered, substituteNumbered, ← hflat,
    replaceAll_numbered_eq_fill_iff (covers_numbered_parse hvalues text) hitems,
    ← clean_bare reads_unnumbered, bareValues_numbered, parse_bare reads_unnumbered,
    clean_parse_iff hvalues hnodup]

/-- The symbols of the followed replacements are those of the replacements. -/
theorem map_replaceNumbered (values : List (List α × List α)) (text : List α) :
    (replaceNumbered values text).map Prod.fst = replaceAll id values text := by
  rw [replaceNumbered, map_replaceAll, bareValues_numbered, reads_unnumbered.map_map]

/-- The symbols of the followed substitution are those of the substitution. -/
theorem map_substituteNumbered (values : List (List α × List α)) (text : List α) :
    (substituteNumbered values text).map Prod.fst = substitute values text := by
  rw [substituteNumbered, ← fill_bare reads_unnumbered, bareValues_numbered,
    parse_bare reads_unnumbered, substitute]

/-- Where no value has the opening symbol, the replacements yield the simultaneous substitution
exactly if none forms an occurrence of a later pattern. -/
theorem replaceAll_eq_substitute_iff (hvalues : ∀ e ∈ values, Delimited opening closing e.1)
    (hnodup : (values.map Prod.fst).Nodup) (hopening : ∀ e ∈ values, opening ∉ e.2)
    (text : List α) :
    replaceAll id values text = substitute values text ↔ NothingFormed values text := by
  have hread : Reads (id : α → α) id := fun _ => rfl
  have hflat : flat id (parse id (values.map Prod.fst) 0 text) = text := by
    rw [flat_parse (nil_notMem_patterns hvalues), List.map_id, List.drop_zero]
  have hiff := replaceAll_eq_fill_iff_of_not_opening hread (covers_parse hvalues text)
    fun e he => by rw [List.map_id]; exact hopening e he
  rw [hflat] at hiff
  rw [substitute, hiff, clean_parse_iff hvalues hnodup]

end Watchcat.Core.Substitution
