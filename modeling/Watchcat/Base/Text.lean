import Mathlib.Data.List.Sublists
import Mathlib.Data.List.TakeWhile

/-!
# Text predicates

The character tests of the source's string checks, on the code points of a
string. Lower-casing is that of the standard library and stands for itself here.
-/

namespace Watchcat

/-- `char::is_whitespace`: the Unicode property White_Space. -/
def isWhiteSpace (c : Char) : Bool :=
  (0x9 ≤ c.toNat && c.toNat ≤ 0xd) || c.toNat == 0x20 || c.toNat == 0x85 || c.toNat == 0xa0 ||
    c.toNat == 0x1680 || (0x2000 ≤ c.toNat && c.toNat ≤ 0x200a) || c.toNat == 0x2028 ||
    c.toNat == 0x2029 || c.toNat == 0x202f || c.toNat == 0x205f || c.toNat == 0x3000

/-- `char::is_control`: the Unicode category Cc. -/
def isControl (c : Char) : Bool := c.toNat ≤ 0x1f || (0x7f ≤ c.toNat && c.toNat ≤ 0x9f)

/-- `text.trim().is_empty()`. -/
def isBlank (text : String) : Bool := text.toList.all isWhiteSpace

/-- `text.trim()`. -/
def trimText (text : String) : String :=
  String.ofList ((text.toList.dropWhile isWhiteSpace).reverse.dropWhile isWhiteSpace).reverse

/-- `text.starts_with(first)` for one character. -/
def startsWithChar (text : String) (first : Char) : Bool := text.toList.head? == some first

/-- `text.contains(chars)` for a set of characters. -/
def containsAny (text : String) (chars : List Char) : Bool :=
  text.toList.any fun c => chars.contains c

/-- `str::to_lowercase`. -/
class Lowercase where
  toLowercase : String → String

export Lowercase (toLowercase)

/-- `str::to_ascii_lowercase`. -/
def asciiLowercase (text : String) : String := String.ofList (text.toList.map Char.toLower)

/-- `text.contains(part)`. -/
def containsText (text part : String) : Bool :=
  text.toList.tails.any fun rest => part.toList.isPrefixOf rest

/-- The text before the first occurrence of a character: `text.split(c).next()`. -/
def textBefore (c : Char) (text : String) : String :=
  String.ofList (text.toList.takeWhile (· ≠ c))

/-- `text.split_once(c)`. -/
def splitPair (c : Char) (text : String) : Option (String × String) :=
  match text.toList.dropWhile (· ≠ c) with
  | [] => none
  | _ :: rest => some (textBefore c text, String.ofList rest)

/-- A text splits at the first occurrence of the character. -/
theorem splitPair_eq_some {c : Char} {text before after : String} :
    splitPair c text = some (before, after) ↔
      text.toList = before.toList ++ c :: after.toList ∧ c ∉ before.toList := by
  have hparts := List.takeWhile_append_dropWhile (p := (· ≠ c)) (l := text.toList)
  constructor
  · intro h
    rw [splitPair] at h
    split at h
    · exact nomatch h
    · rename_i d rest hdrop
      obtain ⟨rfl, rfl⟩ := Prod.mk.inj (Option.some.inj h)
      have hd : d = c := by
        have hhead := List.head?_dropWhile_not (· ≠ c) text.toList
        rw [hdrop] at hhead
        simpa using hhead
      rw [hdrop, hd] at hparts
      rw [textBefore, String.toList_ofList, String.toList_ofList]
      exact ⟨hparts.symm, fun hmem => by simpa using List.mem_takeWhile_imp hmem⟩
  · rintro ⟨htext, hbefore⟩
    have hall : ∀ d ∈ before.toList, (decide (d ≠ c)) = true :=
      fun d hd => decide_eq_true fun heq => hbefore (heq ▸ hd)
    have htake : text.toList.takeWhile (· ≠ c) = before.toList := by
      rw [htext, List.takeWhile_append_of_pos hall]
      simp
    have hdrop : text.toList.dropWhile (· ≠ c) = c :: after.toList := by
      rw [htext, List.dropWhile_append_of_pos hall]
      simp
    rw [splitPair, hdrop, textBefore, htake]
    simp only [String.ofList_toList]

/-- Replace the occurrences of a nonempty pattern from left to right, without
rescanning what was inserted. The first argument bounds the scan. -/
def replaceFrom (pattern value : List Char) : Nat → List Char → List Char
  | 0, text => text
  | _, [] => []
  | fuel + 1, c :: rest =>
    if pattern.isPrefixOf (c :: rest) then
      value ++ replaceFrom pattern value fuel ((c :: rest).drop pattern.length)
    else c :: replaceFrom pattern value fuel rest

/-- `text.replace(pattern, value)` for a nonempty pattern; the scan consumes at
least one character at each step, so the length of the text bounds it. -/
def replaceText (text pattern value : String) : String :=
  String.ofList (replaceFrom pattern.toList value.toList text.toList.length text.toList)

example : replaceText "try {n} of {n}" "{n}" "{n}" = "try {n} of {n}" := by decide

end Watchcat
