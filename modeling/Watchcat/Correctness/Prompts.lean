import Watchcat.Core.Substitution
import Watchcat.Engine.Pass
import Watchcat.Service.Sample

/-!
# Prompts are rendered one placeholder after another

The placeholders of a prompt template are replaced in turn, each in the text that
already holds the values of those before it. The prompt is the simultaneous
substitution, with every inserted value left as it is, exactly if no placeholder
is formed on the way: by a value that contains one, or by a value and the text
around it.
-/

namespace Watchcat

open Watchcat.Core.Substitution

/-! ## The placeholders and their values -/

/-- The placeholders of a template, in the order of their replacement. -/
def placeholders : List String :=
  ["\x7bprovider\x7d", "\x7bmodel\x7d", "\x7bcondition\x7d", "\x7bprovider_code\x7d",
    "\x7battempt\x7d", "\x7bmax_attempts\x7d"]

/-- The values of the placeholders for an attempt. -/
def placeholderTexts (failure : Failure) (attempt maxAttempts : Nat) : List String :=
  [failure.provider, failure.model.getD "unknown", failure.condition, failure.providerCode,
    toString attempt, toString maxAttempts]

/-- The placeholders with their values. -/
def placeholderValues (failure : Failure) (attempt maxAttempts : Nat) :
    List (List Char × List Char) :=
  (placeholders.map String.toList).zip
    ((placeholderTexts failure attempt maxAttempts).map String.toList)

theorem placeholderValues_fst (failure : Failure) (attempt maxAttempts : Nat) :
    (placeholderValues failure attempt maxAttempts).map Prod.fst =
      placeholders.map String.toList := rfl

/-- A placeholder is a name in braces. -/
theorem delimited_placeholder {placeholder : List Char}
    (h : placeholder ∈ placeholders.map String.toList) : Delimited '{' '}' placeholder := by
  have hnamed : ∃ name ∈ ["provider", "model", "condition", "provider_code", "attempt",
      "max_attempts"], placeholder = '{' :: (name.toList ++ ['}']) := by
    revert placeholder
    decide
  obtain ⟨name, hname, rfl⟩ := hnamed
  refine ⟨name.toList, rfl, ?_, ?_⟩
  · revert name
    decide
  · revert name
    decide

theorem delimited_placeholderValues (failure : Failure) (attempt maxAttempts : Nat) :
    ∀ e ∈ placeholderValues failure attempt maxAttempts, Delimited '{' '}' e.1 :=
  fun _ he => delimited_placeholder
    (placeholderValues_fst failure attempt maxAttempts ▸ List.mem_map_of_mem he)

theorem nodup_placeholderValues (failure : Failure) (attempt maxAttempts : Nat) :
    ((placeholderValues failure attempt maxAttempts).map Prod.fst).Nodup := by
  rw [placeholderValues_fst]
  decide

/-! ## The code as replacements one after another -/

/-- The bounded scan of a text is the scan. -/
theorem replaceFrom_eq_scan {pattern : List Char} (hne : pattern ≠ []) (value : List Char)
    {fuel : Nat} {text : List Char} (h : text.length ≤ fuel) :
    replaceFrom pattern value fuel text = scan id pattern value 0 text := by
  induction fuel generalizing text with
  | zero =>
    rw [List.eq_nil_of_length_eq_zero (Nat.le_zero.mp h)]
    rfl
  | succ fuel ih =>
    cases text with
    | nil => rfl
    | cons c rest =>
      rw [List.length_cons, Nat.succ_le_succ_iff] at h
      rw [replaceFrom, scan, List.map_id]
      simp only [List.isPrefixOf_iff_prefix]
      split
      · obtain ⟨d, pattern, rfl⟩ := List.exists_cons_of_ne_nil hne
        have hdrop : (rest.drop pattern.length).length ≤ fuel := by
          rw [List.length_drop]
          omega
        rw [List.length_cons, List.drop_succ_cons, Nat.add_sub_cancel, ih hdrop,
          scan_eq_scan_drop _ _ pattern.length]
      · rw [ih h]

theorem toList_replaceText {pattern : String} (hne : pattern.toList ≠ []) (text value : String) :
    (replaceText text pattern value).toList =
      scan id pattern.toList value.toList 0 text.toList := by
  rw [replaceText, String.toList_ofList, replaceFrom_eq_scan hne value.toList (Nat.le_refl _)]

/-- Rendering a prompt replaces the placeholders one after another. -/
theorem toList_renderPrompt (template : String) (failure : Failure) (attempt maxAttempts : Nat) :
    (renderPrompt template failure attempt maxAttempts).toList =
      replaceAll id (placeholderValues failure attempt maxAttempts) template.toList := by
  have hne {placeholder : String} (h : placeholder ∈ placeholders) : placeholder.toList ≠ [] :=
    (delimited_placeholder (List.mem_map_of_mem h)).ne_nil
  rw [renderPrompt, toList_replaceText (hne (by decide)), toList_replaceText (hne (by decide)),
    toList_replaceText (hne (by decide)), toList_replaceText (hne (by decide)),
    toList_replaceText (hne (by decide)), toList_replaceText (hne (by decide))]
  rfl

/-! ## The simultaneous substitution -/

/-- The template with every placeholder in it replaced by its value, in one pass. -/
def renderedAtOnce (template : String) (failure : Failure) (attempt maxAttempts : Nat) : String :=
  String.ofList (substitute (placeholderValues failure attempt maxAttempts) template.toList)

/-- The prompt is the template with every placeholder in it replaced by its value, and every
inserted character reaches it: followed through the replacements, the characters of the prompt
are those of the template's literal text and of the inserted values, each in its place. -/
structure RendersAtOnce (template : String) (failure : Failure) (attempt maxAttempts : Nat) :
    Prop where
  text : renderPrompt template failure attempt maxAttempts =
    renderedAtOnce template failure attempt maxAttempts
  verbatim : replaceNumbered (placeholderValues failure attempt maxAttempts) template.toList =
    substituteNumbered (placeholderValues failure attempt maxAttempts) template.toList

/-- With the values before it filled in, the template contains each placeholder exactly as often
as it does itself. -/
def NoPlaceholderFormed (template : String) (failure : Failure) (attempt maxAttempts : Nat) :
    Prop :=
  NothingFormed (placeholderValues failure attempt maxAttempts) template.toList

/-- What is followed through the replacements is the prompt. -/
theorem map_replaceNumbered_eq_renderPrompt (template : String) (failure : Failure)
    (attempt maxAttempts : Nat) :
    (replaceNumbered (placeholderValues failure attempt maxAttempts) template.toList).map Prod.fst =
      (renderPrompt template failure attempt maxAttempts).toList := by
  rw [map_replaceNumbered, toList_renderPrompt]

/-- The prompt is the simultaneous substitution with every inserted value left as it is exactly
if no placeholder is formed on the way; where no value contains an opening brace, already its
text is the simultaneous substitution exactly then. -/
theorem prompt_rendered_at_once_iff (template : String) (failure : Failure)
    (attempt maxAttempts : Nat) :
    (RendersAtOnce template failure attempt maxAttempts ↔
      NoPlaceholderFormed template failure attempt maxAttempts) ∧
    ((∀ value ∈ placeholderTexts failure attempt maxAttempts, '{' ∉ value.toList) →
      (renderPrompt template failure attempt maxAttempts =
          renderedAtOnce template failure attempt maxAttempts ↔
        NoPlaceholderFormed template failure attempt maxAttempts)) := by
  have hfollowed := replaceNumbered_eq_iff
    (delimited_placeholderValues failure attempt maxAttempts)
    (nodup_placeholderValues failure attempt maxAttempts) template.toList
  have htext : renderPrompt template failure attempt maxAttempts =
      renderedAtOnce template failure attempt maxAttempts ↔
      replaceAll id (placeholderValues failure attempt maxAttempts) template.toList =
        substitute (placeholderValues failure attempt maxAttempts) template.toList := by
    rw [← toList_renderPrompt, renderedAtOnce, ← String.toList_inj, String.toList_ofList]
  refine ⟨⟨fun h => hfollowed.mp h.verbatim, fun h => ?_⟩, fun hbraces => ?_⟩
  · have hverbatim := hfollowed.mpr h
    refine ⟨htext.mpr ?_, hverbatim⟩
    rw [← map_replaceNumbered, hverbatim, map_substituteNumbered]
  · rw [htext]
    refine replaceAll_eq_substitute_iff
      (delimited_placeholderValues failure attempt maxAttempts)
      (nodup_placeholderValues failure attempt maxAttempts) (fun e he => ?_) template.toList
    obtain ⟨value, hvalue, heq⟩ := List.mem_map.mp (List.of_mem_zip he).2
    exact heq ▸ hbraces value hvalue

/-- A template that names the attempt and its limit. -/
def sampleTemplate : String := "Attempt \x7battempt\x7d/\x7bmax_attempts\x7d."

/-- The attempt and its limit reach a prompt that names them. -/
theorem prompt_rendered_at_once_sample :
    (∀ value ∈ placeholderTexts (sampleFailure "t") 1 8, '{' ∉ value.toList) ∧
      renderPrompt sampleTemplate (sampleFailure "t") 1 8 = "Attempt 1/8." ∧
      NoPlaceholderFormed sampleTemplate (sampleFailure "t") 1 8 :=
  ⟨by decide, by decide,
    ((prompt_rendered_at_once_iff sampleTemplate (sampleFailure "t") 1 8).2 (by decide)).mp
      (by decide)⟩

/-- A failure of a model whose name is a placeholder. -/
def attemptModelFailure : Failure :=
  { sampleFailure "t" with model := some "\x7battempt\x7d" }

/-- A model whose name is a placeholder is replaced by that placeholder's value. -/
theorem prompt_value_replaced :
    ¬ ∀ template failure attempt maxAttempts,
      renderPrompt template failure attempt maxAttempts =
        renderedAtOnce template failure attempt maxAttempts := by
  intro h
  have hmodel := h "\x7bmodel\x7d" attemptModelFailure 1 8
  have hprompt : renderPrompt "\x7bmodel\x7d" attemptModelFailure 1 8 = "1" := by decide
  have honce : renderedAtOnce "\x7bmodel\x7d" attemptModelFailure 1 8 = "\x7battempt\x7d" := by
    decide
  rw [hprompt, honce] at hmodel
  exact absurd hmodel (by decide)

end Watchcat
