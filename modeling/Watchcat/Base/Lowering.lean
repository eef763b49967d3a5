import Watchcat.Base.Text

/-!
# Lower-casing

A text is lower-cased character by character, a character becoming one or more;
only a capital sigma depends on what is around it and may become the final
letter instead. Characters without a case stay.
-/

namespace Watchcat

/-- The lower-casings of a text, by those of its characters. -/
inductive LoweredBy (lower : Char → List Char) : List Char → List Char → Prop
  | nil : LoweredBy lower [] []
  | char {text lowered : List Char} (c : Char) (rest : LoweredBy lower text lowered) :
      LoweredBy lower (c :: text) (lower c ++ lowered)
  | finalSigma {text lowered : List Char} (rest : LoweredBy lower text lowered) :
      LoweredBy lower ('Σ' :: text) ('ς' :: lowered)

/-- What is known of lower-casing: it goes by characters, the given characters and white space
stay, and nothing else becomes white space. -/
structure LowercaseLaws [Lowercase] (lower : Char → List Char) (stays : List Char) : Prop where
  text : ∀ text, LoweredBy lower text.toList (toLowercase text).toList
  sigma : lower 'Σ' = ['σ']
  stays : ∀ c, c ∈ stays ∨ isWhiteSpace c = true → lower c = [c]
  nonempty : ∀ c, lower c ≠ []
  whiteSpace : ∀ c, ∀ d ∈ lower c, isWhiteSpace d = true → c = d

namespace LoweredBy

variable {lower : Char → List Char}

/-- A lower-casing of two texts is one of each. -/
theorem append_inv {a b u : List Char} (h : LoweredBy lower (a ++ b) u) :
    ∃ v w, u = v ++ w ∧ LoweredBy lower a v ∧ LoweredBy lower b w := by
  induction a generalizing u with
  | nil => exact ⟨[], u, rfl, .nil, h⟩
  | cons c a ih =>
    cases h with
    | char _ rest =>
      obtain ⟨v, w, rfl, hv, hw⟩ := ih rest
      exact ⟨lower c ++ v, w, (List.append_assoc _ _ _).symm, .char c hv, hw⟩
    | finalSigma rest =>
      obtain ⟨v, w, rfl, hv, hw⟩ := ih rest
      exact ⟨'ς' :: v, w, rfl, .finalSigma hv, hw⟩

/-- Characters that stay are their own lower-casing. -/
theorem eq_of_stays {a u : List Char} (h : LoweredBy lower a u)
    (hstays : ∀ c ∈ a, lower c = [c] ∧ c ≠ 'Σ') : u = a := by
  induction h with
  | nil => rfl
  | char c rest ih =>
    rw [(hstays c List.mem_cons_self).1, List.singleton_append,
      ih fun d hd => hstays d (List.mem_cons_of_mem _ hd)]
  | finalSigma rest _ => exact absurd rfl (hstays 'Σ' List.mem_cons_self).2

/-- Without a small sigma there was no capital one, and the lower-casing is the only one. -/
theorem eq_flatMap (hsigma : lower 'Σ' = ['σ']) {a u : List Char} (h : LoweredBy lower a u)
    (hsmall : 'σ' ∉ u) (hfinal : 'ς' ∉ u) : u = a.flatMap lower ∧ 'Σ' ∉ a := by
  induction h with
  | nil => exact ⟨rfl, List.not_mem_nil⟩
  | char c rest ih =>
    rw [List.mem_append, not_or] at hsmall hfinal
    obtain ⟨heq, hcapital⟩ := ih hsmall.2 hfinal.2
    refine ⟨by rw [List.flatMap_cons, heq], ?_⟩
    rw [List.mem_cons, not_or]
    refine ⟨fun hc => hsmall.1 ?_, hcapital⟩
    rw [← hc, hsigma]
    exact List.mem_singleton_self _
  | finalSigma rest _ => exact absurd List.mem_cons_self hfinal

/-- A lower-casing without small sigmas is the only one. -/
theorem unique (hsigma : lower 'Σ' = ['σ']) {a u v : List Char} (hu : LoweredBy lower a u)
    (hv : LoweredBy lower a v) (hsmall : 'σ' ∉ u) (hfinal : 'ς' ∉ u) : v = u := by
  obtain ⟨heq, hcapital⟩ := hu.eq_flatMap hsigma hsmall hfinal
  rw [heq]
  clear heq hu
  induction hv with
  | nil => rfl
  | char c rest ih =>
    rw [List.mem_cons, not_or] at hcapital
    rw [List.flatMap_cons, ih hcapital.2]
  | finalSigma rest _ => exact absurd List.mem_cons_self hcapital

/-- Where no character vanishes, only the empty text has the empty lower-casing. -/
theorem eq_nil (hnonempty : ∀ c, lower c ≠ []) {a u : List Char} (h : LoweredBy lower a u)
    (hu : u = []) : a = [] := by
  cases h with
  | nil => rfl
  | char c _ => exact absurd (List.append_eq_nil_iff.mp hu).1 (hnonempty c)
  | finalSigma _ => exact nomatch hu

end LoweredBy

/-- White space at the end of a lower-casing was there before. -/
theorem LowercaseLaws.getLast_eq [Lowercase] {lower : Char → List Char} {stays : List Char}
    (laws : LowercaseLaws lower stays) {a u : List Char} (h : LoweredBy lower a u) {d : Char}
    (hlast : u.getLast? = some d) (hspace : isWhiteSpace d = true) : a.getLast? = some d := by
  induction h with
  | nil => exact nomatch hlast
  | char c rest ih =>
    rename_i text lowered
    rw [List.getLast?_append] at hlast
    cases hrest : lowered.getLast? with
    | some e =>
      rw [hrest, Option.some_or] at hlast
      have htext := ih (hrest.trans hlast)
      rw [List.getLast?_cons, htext, Option.getD_some]
    | none =>
      rw [hrest, Option.none_or] at hlast
      obtain rfl := List.getLast?_eq_none_iff.mp hrest
      have hc : c = d := laws.whiteSpace c d (List.mem_of_getLast? hlast) hspace
      rw [rest.eq_nil laws.nonempty rfl, hc, List.getLast?_singleton]
  | finalSigma rest ih =>
    rename_i text lowered
    cases hrest : lowered.getLast? with
    | some e =>
      rw [List.getLast?_cons, hrest, Option.getD_some] at hlast
      rw [List.getLast?_cons, ih (hrest.trans hlast), Option.getD_some]
    | none =>
      rw [List.getLast?_cons, hrest, Option.getD_none] at hlast
      obtain rfl := Option.some.inj hlast
      exact absurd hspace (by decide)

/-- A text of characters that stay is its own lower-casing. -/
theorem LowercaseLaws.eq_of_stays [Lowercase] {lower : Char → List Char} {stays : List Char}
    (laws : LowercaseLaws lower stays) (hsigma : 'Σ' ∉ stays) {a u : List Char}
    (h : LoweredBy lower a u) (hstays : ∀ c ∈ a, c ∈ stays ∨ isWhiteSpace c = true) : u = a := by
  refine h.eq_of_stays fun c hc => ⟨laws.stays c (hstays c hc), ?_⟩
  rintro rfl
  rcases hstays 'Σ' hc with hmem | hspace
  · exact hsigma hmem
  · exact absurd hspace (by decide)

end Watchcat
