import Watchcat.Base.Clock
import Watchcat.Base.Error

/-!
# Decimal numerals

What `to_string` writes for a machine number and `parse` reads.
-/

namespace Watchcat

/-- The digits of a number, after what was read of it. -/
def parseDigits : Nat → List Char → Except Error Nat
  | n, [] => .ok n
  | n, c :: chars =>
    if !c.isDigit then .error (.message "invalid digit found in string")
    else if 10 * n + (c.toNat - '0'.toNat) ≤ u64Max then
      parseDigits (10 * n + (c.toNat - '0'.toNat)) chars
    else .error (.message "number too large to fit in target type")

/-- `text.parse::<usize>()`: decimal digits, a plus sign may come first. -/
def parseUsize (text : String) : Except Error Nat :=
  match text.toList with
  | [] => .error (.message "cannot parse integer from empty string")
  | ['+'] => .error (.message "invalid digit found in string")
  | '+' :: chars => parseDigits 0 chars
  | chars => parseDigits 0 chars

/-- Digits of a machine number are read as it. -/
theorem parseDigits_eq {chars : List Char} {n : Nat} (hdigits : ∀ c ∈ chars, c.isDigit = true)
    (h : Nat.ofDigitChars 10 chars n ≤ u64Max) :
    parseDigits n chars = .ok (Nat.ofDigitChars 10 chars n) := by
  induction chars generalizing n with
  | nil => rfl
  | cons c chars ih =>
    obtain ⟨hc, hchars⟩ := List.forall_mem_cons.mp hdigits
    rw [Nat.ofDigitChars_cons] at h ⊢
    have hle : 10 * n + (c.toNat - '0'.toNat) ≤ u64Max := by
      rw [Nat.ofDigitChars_eq_ofDigitChars_zero] at h
      have hone : 1 ≤ 10 ^ chars.length := Nat.one_le_pow _ _ (by decide)
      calc 10 * n + (c.toNat - '0'.toNat)
          ≤ 10 ^ chars.length * (10 * n + (c.toNat - '0'.toNat)) := Nat.le_mul_of_pos_left _ hone
        _ ≤ u64Max := le_trans (Nat.le_add_right _ _) h
    rw [parseDigits, hc, if_neg (by decide), if_pos hle, ih hchars h]

/-- A machine number is read back from its numeral. -/
theorem parseUsize_repr {n : Nat} (h : n ≤ u64Max) : parseUsize n.repr = .ok n := by
  have hdigits : n.repr.toList = Nat.toDigits 10 n := Nat.toList_repr
  have hall : ∀ c ∈ Nat.toDigits 10 n, c.isDigit = true :=
    fun c hc => Nat.isDigit_of_mem_toDigits (by decide) (by decide) hc
  have hplus : ∀ rest, Nat.toDigits 10 n ≠ '+' :: rest := fun rest heq =>
    absurd (hall '+' (heq ▸ List.mem_cons_self)) (by decide)
  have hvalue : Nat.ofDigitChars 10 (Nat.toDigits 10 n) 0 = n := Nat.ofDigitChars_ten_toDigits
  rw [parseUsize, hdigits]
  split
  · rename_i heq
    exact absurd heq Nat.toDigits_ne_nil
  · rename_i heq
    exact absurd heq (hplus [])
  · rename_i chars _ heq
    exact absurd heq (hplus chars)
  · rw [parseDigits_eq hall (hvalue.symm ▸ h), hvalue]

example : parseUsize "+7" = .ok 7 := by decide

end Watchcat
