import Watchcat.Base.Jsonl

/-!
# Texts in JSON

A text in JSON stands between quotes, with escapes for what cannot stand there
itself. Every escape is at least as long as what it stands for, so a text has no
more bytes than the literal it is read from; the writer's escapes are at most
six times as long.
-/

namespace Watchcat.JsonText

/-- The bytes of a text. -/
def utf8 (text : String) : Bytes := text.toList.flatMap String.utf8EncodeChar

/-- `b'"'`. -/
def quote : UInt8 := 0x22

/-- `b'\\'`. -/
def backslash : UInt8 := 0x5c

/-- The letters of the escapes of two bytes, with what they stand for. -/
def shortEscapes : List (UInt8 × UInt8) :=
  [(0x22, 0x22), (0x5c, 0x5c), (0x2f, 0x2f), (0x62, 0x08), (0x66, 0x0c), (0x6e, 0x0a),
    (0x72, 0x0d), (0x74, 0x09)]

/-- The value of a hexadecimal digit. -/
def hexDigit (b : UInt8) : Option Nat :=
  if 0x30 ≤ b ∧ b ≤ 0x39 then some (b.toNat - 0x30)
  else if 0x61 ≤ b ∧ b ≤ 0x66 then some (b.toNat - 0x57)
  else if 0x41 ≤ b ∧ b ≤ 0x46 then some (b.toNat - 0x37)
  else none

/-- The value of four hexadecimal digits. -/
def hexValue (a b c d : UInt8) : Option Nat := do
  pure ((((← hexDigit a) * 16 + (← hexDigit b)) * 16 + (← hexDigit c)) * 16 + (← hexDigit d))

/-- What stands between the quotes, and the bytes it stands for. -/
inductive Body : Bytes → Bytes → Prop
  | nil : Body [] []
  | plain {b : UInt8} {body text : Bytes} (hcontrol : 0x20 ≤ b) (hquote : b ≠ quote)
      (hbackslash : b ≠ backslash) (rest : Body body text) : Body (b :: body) (b :: text)
  | short {c b : UInt8} {body text : Bytes} (hc : (c, b) ∈ shortEscapes) (rest : Body body text) :
      Body (backslash :: c :: body) (b :: text)
  | unicode {h₁ h₂ h₃ h₄ : UInt8} {c : Char} {body text : Bytes}
      (hc : hexValue h₁ h₂ h₃ h₄ = some c.toNat) (rest : Body body text) :
      Body (backslash :: 0x75 :: h₁ :: h₂ :: h₃ :: h₄ :: body) (String.utf8EncodeChar c ++ text)
  | surrogates {h₁ h₂ h₃ h₄ l₁ l₂ l₃ l₄ : UInt8} {high low : Nat} {c : Char} {body text : Bytes}
      (hhigh : hexValue h₁ h₂ h₃ h₄ = some (0xd800 + high))
      (hlow : hexValue l₁ l₂ l₃ l₄ = some (0xdc00 + low)) (hrange : high < 0x400 ∧ low < 0x400)
      (hc : c.toNat = 0x10000 + high * 0x400 + low) (rest : Body body text) :
      Body (backslash :: 0x75 :: h₁ :: h₂ :: h₃ :: h₄ ::
        backslash :: 0x75 :: l₁ :: l₂ :: l₃ :: l₄ :: body) (String.utf8EncodeChar c ++ text)

/-- A literal and the bytes it stands for. -/
def Literal (literal text : Bytes) : Prop :=
  ∃ body, literal = quote :: (body ++ [quote]) ∧ Body body text

theorem length_utf8EncodeChar_le (c : Char) : (String.utf8EncodeChar c).length ≤ 4 := by
  rw [String.length_utf8EncodeChar]
  exact Char.utf8Size_le_four c

/-- A text has no more bytes than what stands between the quotes. -/
theorem Body.length_le {body text : Bytes} (h : Body body text) : text.length ≤ body.length := by
  induction h with
  | nil => exact Nat.le_refl _
  | plain _ _ _ _ ih => exact Nat.succ_le_succ ih
  | short _ _ ih =>
    simp only [List.length_cons]
    omega
  | @unicode _ _ _ _ c _ _ _ _ ih =>
    have hc := length_utf8EncodeChar_le c
    simp only [List.length_append, List.length_cons]
    omega
  | @surrogates _ _ _ _ _ _ _ _ _ _ c _ _ _ _ _ _ _ ih =>
    have hc := length_utf8EncodeChar_le c
    simp only [List.length_append, List.length_cons]
    omega

/-- A text has fewer bytes than its literal. -/
theorem Literal.length_le {literal text : Bytes} (h : Literal literal text) :
    text.length ≤ literal.length := by
  obtain ⟨body, rfl, hbody⟩ := h
  have hle := hbody.length_le
  rw [List.length_cons, List.length_append]
  omega

/-! ## Writing -/

/-- A hexadecimal digit. -/
def hexByte (n : Nat) : UInt8 := UInt8.ofNat (if n < 10 then 0x30 + n else 0x57 + n)

/-- The escape of a byte, or the byte itself. -/
def escapeByte (b : UInt8) : Bytes :=
  if b = 0x08 then [backslash, 0x62]
  else if b = 0x09 then [backslash, 0x74]
  else if b = 0x0a then [backslash, 0x6e]
  else if b = 0x0c then [backslash, 0x66]
  else if b = 0x0d then [backslash, 0x72]
  else if b = quote then [backslash, quote]
  else if b = backslash then [backslash, backslash]
  else if b < 0x20 then
    [backslash, 0x75, 0x30, 0x30, hexByte (b.toNat / 16), hexByte (b.toNat % 16)]
  else [b]

/-- The literal of a text. -/
def write (text : String) : Bytes := quote :: ((utf8 text).flatMap escapeByte ++ [quote])

theorem length_escapeByte_le (b : UInt8) : (escapeByte b).length ≤ 6 := by
  unfold escapeByte
  repeat' split
  all_goals simp

/-- A literal has at most six bytes for each byte of its text, and its quotes. -/
theorem length_write_le (text : String) : (write text).length ≤ 6 * (utf8 text).length + 2 := by
  have hbody (bytes : Bytes) : (bytes.flatMap escapeByte).length ≤ 6 * bytes.length := by
    induction bytes with
    | nil => exact Nat.le_refl _
    | cons b bytes ih =>
      have hb := length_escapeByte_le b
      rw [List.flatMap_cons, List.length_append, List.length_cons]
      omega
  have hle := hbody (utf8 text)
  rw [write, List.length_cons, List.length_append, List.length_singleton]
  omega

/-- The escape of a control byte stands for it. -/
theorem unicode_control : ∀ n < 0x20,
    hexValue 0x30 0x30 (hexByte (n / 16)) (hexByte (n % 16)) = some (Char.ofNat n).toNat ∧
      String.utf8EncodeChar (Char.ofNat n) = [UInt8.ofNat n] := by decide

/-- The escape of a byte stands for it. -/
theorem Body.escapeByte {body text : Bytes} (rest : Body body text) (b : UInt8) :
    Body (escapeByte b ++ body) (b :: text) := by
  unfold JsonText.escapeByte
  -- The bytes with an escape of two bytes come first.
  iterate 7
    split
    · subst b
      exact .short (by decide) rest
  split
  · rename_i hcontrol
    obtain ⟨hvalue, hbytes⟩ := unicode_control b.toNat (UInt8.lt_iff_toNat_lt.mp hcontrol)
    rw [UInt8.ofNat_toNat] at hbytes
    have hunicode := Body.unicode hvalue rest
    rwa [hbytes] at hunicode
  · rename_i hquote hbackslash hcontrol
    exact .plain (UInt8.not_lt.mp hcontrol) hquote hbackslash rest

/-- The literal of a text is read as the text. -/
theorem literal_write (text : String) : Literal (write text) (utf8 text) := by
  refine ⟨_, rfl, ?_⟩
  induction utf8 text with
  | nil => exact .nil
  | cons b bytes ih => exact ih.escapeByte b

end Watchcat.JsonText
