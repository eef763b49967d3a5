import Mathlib.Data.List.DropRight

/-!
# Texts of lines

A text over any alphabet with a separator is a list of complete lines and an
unfinished one. Appending to a text extends its unfinished line; where there is
none, the lines of the two parts follow each other.
-/

namespace Watchcat.Core

variable {α : Type}

/-- The text of complete lines. -/
def unlines (sep : α) (lines : List (List α)) : List α := lines.flatMap fun line => line ++ [sep]

variable {sep : α}

@[simp] theorem unlines_nil : unlines sep [] = [] := rfl

@[simp] theorem unlines_cons (line : List α) (lines : List (List α)) :
    unlines sep (line :: lines) = line ++ sep :: unlines sep lines := by
  simp [unlines]

@[simp] theorem unlines_append (lines lines' : List (List α)) :
    unlines sep (lines ++ lines') = unlines sep lines ++ unlines sep lines' := by
  simp [unlines]

/-- The text of complete lines is empty or ends with a separator. -/
theorem unlines_eq_nil_or_concat (sep : α) (lines : List (List α)) :
    unlines sep lines = [] ∨ ∃ init, unlines sep lines = init ++ [sep] := by
  rcases List.eq_nil_or_concat lines with rfl | ⟨init, line, rfl⟩
  · exact Or.inl rfl
  · exact Or.inr ⟨unlines sep init ++ line, by simp⟩

variable [DecidableEq α]

/-- The complete lines, without their separators, and what follows the last separator. -/
def splitLines (sep : α) : List α → List (List α) × List α
  | [] => ([], [])
  | c :: text =>
    let rest := splitLines sep text
    if c = sep then ([] :: rest.1, rest.2)
    else match rest.1 with
      | [] => ([], c :: rest.2)
      | line :: lines => ((c :: line) :: lines, rest.2)

/-- The complete lines of a text. -/
def linesOf (sep : α) (text : List α) : List (List α) := (splitLines sep text).1

/-- The unfinished line of a text. -/
def unfinished (sep : α) (text : List α) : List α := (splitLines sep text).2

@[simp] theorem linesOf_nil : linesOf sep [] = [] := rfl

@[simp] theorem unfinished_nil : unfinished sep [] = [] := rfl

@[simp] theorem linesOf_sep_cons (text : List α) :
    linesOf sep (sep :: text) = [] :: linesOf sep text := by
  simp [linesOf, splitLines]

@[simp] theorem unfinished_sep_cons (text : List α) :
    unfinished sep (sep :: text) = unfinished sep text := by
  simp [unfinished, splitLines]

/-- A character that is no separator joins the first line. -/
theorem splitLines_cons {c : α} (hc : c ≠ sep) (text : List α) :
    splitLines sep (c :: text) = match linesOf sep text with
      | [] => ([], c :: unfinished sep text)
      | line :: lines => ((c :: line) :: lines, unfinished sep text) := by
  rw [splitLines, if_neg hc]
  rfl

/-- A part without separators joins the line before it and the first one after it. -/
theorem splitLines_append_of_notMem {line : List α} (hline : sep ∉ line) (text : List α) :
    splitLines sep (line ++ text) = match linesOf sep text with
      | [] => ([], line ++ unfinished sep text)
      | first :: lines => ((line ++ first) :: lines, unfinished sep text) := by
  induction line with
  | nil =>
    rw [List.nil_append]
    cases h : linesOf sep text with
    | nil => exact Prod.ext h rfl
    | cons first lines => exact Prod.ext h rfl
  | cons c line ih =>
    have ih := ih fun hmem => hline (List.mem_cons_of_mem c hmem)
    have hc : c ≠ sep := fun heq => hline (heq ▸ List.mem_cons_self)
    rw [List.cons_append, splitLines_cons hc, linesOf, unfinished, ih]
    cases linesOf sep text <;> rfl

/-- A complete line comes first. -/
theorem linesOf_line_append {line : List α} (hline : sep ∉ line) (text : List α) :
    linesOf sep (line ++ sep :: text) = line :: linesOf sep text := by
  rw [linesOf, splitLines_append_of_notMem hline, linesOf_sep_cons]
  exact congrArg (· :: linesOf sep text) (List.append_nil line)

theorem unfinished_line_append {line : List α} (hline : sep ∉ line) (text : List α) :
    unfinished sep (line ++ sep :: text) = unfinished sep text := by
  rw [unfinished, splitLines_append_of_notMem hline, linesOf_sep_cons]
  exact unfinished_sep_cons text

/-- Complete lines come before the lines of what follows. -/
theorem linesOf_unlines_append {lines : List (List α)} (h : ∀ line ∈ lines, sep ∉ line)
    (text : List α) : linesOf sep (unlines sep lines ++ text) = lines ++ linesOf sep text := by
  induction lines with
  | nil => rfl
  | cons line lines ih =>
    rw [unlines_cons, List.append_assoc, List.cons_append,
      linesOf_line_append (h line List.mem_cons_self),
      ih fun l hl => h l (List.mem_cons_of_mem _ hl), List.cons_append]

theorem unfinished_unlines_append {lines : List (List α)} (h : ∀ line ∈ lines, sep ∉ line)
    (text : List α) : unfinished sep (unlines sep lines ++ text) = unfinished sep text := by
  induction lines with
  | nil => rfl
  | cons line lines ih =>
    rw [unlines_cons, List.append_assoc, List.cons_append,
      unfinished_line_append (h line List.mem_cons_self),
      ih fun l hl => h l (List.mem_cons_of_mem _ hl)]

theorem linesOf_unlines {lines : List (List α)} (h : ∀ line ∈ lines, sep ∉ line) :
    linesOf sep (unlines sep lines) = lines := by
  simpa using linesOf_unlines_append h []

theorem unfinished_unlines {lines : List (List α)} (h : ∀ line ∈ lines, sep ∉ line) :
    unfinished sep (unlines sep lines) = [] := by
  simpa using unfinished_unlines_append h []

/-- A text without a separator is one unfinished line. -/
theorem linesOf_of_notMem {text : List α} (h : sep ∉ text) : linesOf sep text = [] := by
  have hsplit := splitLines_append_of_notMem h []
  rw [List.append_nil] at hsplit
  rw [linesOf, hsplit]
  rfl

theorem unfinished_of_notMem {text : List α} (h : sep ∉ text) : unfinished sep text = text := by
  have hsplit := splitLines_append_of_notMem h []
  rw [List.append_nil] at hsplit
  rw [unfinished, hsplit]
  simp

/-- A text is its lines and its unfinished line. -/
theorem unlines_linesOf (sep : α) (text : List α) :
    unlines sep (linesOf sep text) ++ unfinished sep text = text := by
  induction text with
  | nil => rfl
  | cons c text ih =>
    by_cases hc : c = sep
    · subst hc
      simpa using ih
    · rw [linesOf, unfinished, splitLines_cons hc]
      cases h : linesOf sep text with
      | nil => simpa [h] using ih
      | cons line lines => simpa [h] using ih

theorem notMem_linesOf (text : List α) : ∀ line ∈ linesOf sep text, sep ∉ line := by
  induction text with
  | nil => exact fun line hline => absurd hline List.not_mem_nil
  | cons c text ih =>
    by_cases hc : c = sep
    · subst hc
      rw [linesOf_sep_cons]
      intro line hline
      rcases List.mem_cons.mp hline with rfl | hline
      · exact List.not_mem_nil
      · exact ih line hline
    · rw [linesOf, splitLines_cons hc]
      cases h : linesOf sep text with
      | nil => exact fun line hline => absurd hline List.not_mem_nil
      | cons first lines =>
        rw [h] at ih
        intro line hline
        rcases List.mem_cons.mp hline with rfl | hline
        · intro hmem
          rcases List.mem_cons.mp hmem with rfl | hmem
          · exact hc rfl
          · exact ih first List.mem_cons_self hmem
        · exact ih line (List.mem_cons_of_mem first hline)

theorem notMem_unfinished (text : List α) : sep ∉ unfinished sep text := by
  induction text with
  | nil => exact List.not_mem_nil
  | cons c text ih =>
    by_cases hc : c = sep
    · subst hc
      rwa [unfinished_sep_cons]
    · rw [unfinished, splitLines_cons hc]
      cases linesOf sep text with
      | nil =>
        intro hmem
        rcases List.mem_cons.mp hmem with rfl | hmem
        · exact hc rfl
        · exact ih hmem
      | cons first lines => exact ih

/-- Appending to a text without an unfinished line adds the lines of what is appended. -/
theorem linesOf_append {text : List α} (h : unfinished sep text = []) (more : List α) :
    linesOf sep (text ++ more) = linesOf sep text ++ linesOf sep more := by
  have htext := unlines_linesOf sep text
  rw [h, List.append_nil] at htext
  conv_lhs => rw [← htext]
  exact linesOf_unlines_append (notMem_linesOf text) more

theorem unfinished_append {text : List α} (h : unfinished sep text = []) (more : List α) :
    unfinished sep (text ++ more) = unfinished sep more := by
  have htext := unlines_linesOf sep text
  rw [h, List.append_nil] at htext
  conv_lhs => rw [← htext]
  exact unfinished_unlines_append (notMem_linesOf text) more

/-! ## The last separator -/

/-- A text has an unfinished line where it does not end with a separator. -/
theorem unfinished_ne_nil_iff {text : List α} :
    unfinished sep text ≠ [] ↔ text ≠ [] ∧ text.getLast? ≠ some sep := by
  have htext := unlines_linesOf sep text
  constructor
  · intro hne
    rw [← htext]
    refine ⟨fun hnil => hne (List.append_eq_nil_iff.mp hnil).2, fun hlast => ?_⟩
    rw [List.getLast?_append_of_ne_nil _ hne] at hlast
    exact notMem_unfinished text (List.mem_of_getLast? hlast)
  · rintro ⟨hne, hlast⟩ hnil
    rw [hnil, List.append_nil] at htext
    rcases unlines_eq_nil_or_concat sep (linesOf sep text) with h | ⟨init, h⟩
    · exact hne (htext.symm.trans h)
    · rw [← htext, h] at hlast
      simp at hlast

/-- What stands before the unfinished line. -/
theorem rdropWhile_ne_sep (text : List α) :
    text.rdropWhile (· ≠ sep) = unlines sep (linesOf sep text) := by
  have htext := unlines_linesOf sep text
  have hall : ∀ c ∈ (unfinished sep text).reverse, (decide (c ≠ sep)) = true := fun c hc =>
    decide_eq_true fun heq => notMem_unfinished text (heq ▸ List.mem_reverse.mp hc)
  conv_lhs => rw [← htext]
  rw [List.rdropWhile, List.reverse_append, List.dropWhile_append_of_pos hall]
  rcases unlines_eq_nil_or_concat sep (linesOf sep text) with h | ⟨init, h⟩
  · rw [h]
    rfl
  · rw [h]
    simp

end Watchcat.Core
