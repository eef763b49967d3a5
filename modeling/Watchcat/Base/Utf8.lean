import Watchcat.Base.Jsonl

/-!
# Texts cut at line breaks

Bytes are a text if and only if all their complete lines and the unfinished one
are: a line break is no part of a longer sequence.
-/

namespace Watchcat

open Watchcat.Core

/-- What follows a first byte is never in the range of ASCII. -/
theorem utf8Following_le {b : UInt8} {expected : List (UInt8 × UInt8)}
    (h : utf8Following b = some expected) : ∀ range ∈ expected, 0x80 ≤ range.1 := by
  unfold utf8Following at h
  repeat' split at h
  all_goals cases h
  all_goals
    simp only [List.forall_mem_cons, List.not_mem_nil, false_implies, implies_true, and_true]
  all_goals decide

/-- A text goes on with a text. -/
theorem utf8From_append {expected : List (UInt8 × UInt8)} {a : Bytes}
    (ha : utf8From expected a = true) (b : Bytes) :
    utf8From expected (a ++ b) = isUtf8 b := by
  induction a generalizing expected with
  | nil =>
    cases expected with
    | nil => rfl
    | cons range expected => exact nomatch ha
  | cons c a ih =>
    cases expected with
    | nil =>
      rw [List.cons_append, utf8From]
      rw [utf8From] at ha
      split at ha
      · rename_i expected hfollowing
        exact ih ha
      · exact nomatch ha
    | cons range expected =>
      simp only [utf8From, Bool.and_eq_true] at ha
      rw [List.cons_append, utf8From, ih ha.2, ha.1.1, ha.1.2]
      rfl

/-- Texts follow each other as texts. -/
theorem isUtf8_append {a : Bytes} (ha : isUtf8 a = true) (b : Bytes) :
    isUtf8 (a ++ b) = isUtf8 b := utf8From_append ha b

/-- An ASCII byte ends a sequence. -/
theorem utf8From_ascii {expected : List (UInt8 × UInt8)}
    (hexpected : ∀ range ∈ expected, 0x80 ≤ range.1) {a b : Bytes} {c : UInt8} (hc : c < 0x80)
    (h : utf8From expected (a ++ c :: b) = true) : utf8From expected a = true := by
  induction a generalizing expected with
  | nil =>
    cases expected with
    | nil => rfl
    | cons range expected =>
      have hlow := hexpected range List.mem_cons_self
      simp only [List.nil_append, utf8From, Bool.and_eq_true, decide_eq_true_eq] at h
      exact absurd (UInt8.le_trans hlow h.1.1) (UInt8.not_le.mpr hc)
  | cons d a ih =>
    cases expected with
    | nil =>
      rw [List.cons_append, utf8From] at h
      rw [utf8From]
      split at h
      · rename_i expected hfollowing
        exact ih (utf8Following_le hfollowing) h
      · exact nomatch h
    | cons range expected =>
      simp only [List.cons_append, utf8From, Bool.and_eq_true] at h ⊢
      exact ⟨h.1, ih (fun r hr => hexpected r (List.mem_cons_of_mem _ hr)) h.2⟩

/-- What comes before an ASCII byte in a text is one. -/
theorem isUtf8_of_ascii {a b : Bytes} {c : UInt8} (hc : c < 0x80)
    (h : isUtf8 (a ++ c :: b) = true) : isUtf8 a = true :=
  utf8From_ascii (fun _ hr => absurd hr List.not_mem_nil) hc h

/-- The first line of a text is one, and so is the rest. -/
theorem isUtf8_line {a b : Bytes} (h : isUtf8 (a ++ newline :: b) = true) :
    isUtf8 (a ++ [newline]) = true ∧ isUtf8 b = true := by
  have ha : isUtf8 (a ++ [newline]) = true :=
    isUtf8_append (isUtf8_of_ascii (by decide) h) [newline]
  refine ⟨ha, ?_⟩
  rw [← isUtf8_append ha b]
  simpa using h

/-- A line of a text is one without its line break. -/
theorem isUtf8_stripReturn {line : Bytes} (h : isUtf8 (line ++ [newline]) = true) :
    isUtf8 (stripReturn line) = true := by
  have hline : isUtf8 line = true := isUtf8_of_ascii (by decide) h
  rw [stripReturn]
  split
  · rename_i hlast
    rw [← List.dropLast_append_getLast? carriageReturn hlast] at hline
    exact isUtf8_of_ascii (by decide) hline
  · exact hline

/-- The complete lines of a text and its unfinished line are texts. -/
theorem isUtf8_lines {text : Bytes} (h : isUtf8 text = true) :
    (∀ line ∈ linesOf newline text, isUtf8 (line ++ [newline]) = true) ∧
      isUtf8 (unfinished newline text) = true := by
  rw [← unlines_linesOf newline text] at h
  generalize linesOf newline text = lines at h
  induction lines with
  | nil => exact ⟨fun _ hline => absurd hline List.not_mem_nil, h⟩
  | cons line lines ih =>
    rw [unlines_cons, List.append_assoc, List.cons_append] at h
    obtain ⟨hline, hrest⟩ := isUtf8_line h
    obtain ⟨hlines, hunfinished⟩ := ih hrest
    exact ⟨List.forall_mem_cons.mpr ⟨hline, hlines⟩, hunfinished⟩

/-- What follows complete lines in a text is a text. -/
theorem isUtf8_rest {a b : Bytes} (h : isUtf8 (a ++ b) = true) (ha : unfinished newline a = []) :
    isUtf8 b = true := by
  have htext := unlines_linesOf newline a
  rw [ha, List.append_nil] at htext
  rw [← htext] at h
  generalize linesOf newline a = lines at h
  induction lines with
  | nil => exact h
  | cons line lines ih =>
    rw [unlines_cons, List.append_assoc, List.cons_append] at h
    exact ih (isUtf8_line h).2

end Watchcat
