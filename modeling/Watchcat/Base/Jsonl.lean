import Watchcat.Base.Error
import Watchcat.Core.Lines

/-!
# Files of records

A file of records has one JSON text on each line. The encoding itself is a
parameter; what is read line by line, and what a reader makes of a line that is
no text, is not.
-/

namespace Watchcat

open Watchcat.Core

/-- The bytes of a file. -/
abbrev Bytes : Type := List UInt8

/-- `b'\n'`. -/
def newline : UInt8 := 10

/-- `b'\r'`. -/
def carriageReturn : UInt8 := 13

/-- The bytes that may follow a first byte of a UTF-8 sequence, as ranges. -/
def utf8Following (b : UInt8) : Option (List (UInt8 × UInt8)) :=
  if b < 0x80 then some []
  else if b < 0xc2 then none
  else if b < 0xe0 then some [(0x80, 0xbf)]
  else if b = 0xe0 then some [(0xa0, 0xbf), (0x80, 0xbf)]
  else if b = 0xed then some [(0x80, 0x9f), (0x80, 0xbf)]
  else if b < 0xf0 then some [(0x80, 0xbf), (0x80, 0xbf)]
  else if b = 0xf0 then some [(0x90, 0xbf), (0x80, 0xbf), (0x80, 0xbf)]
  else if b < 0xf4 then some [(0x80, 0xbf), (0x80, 0xbf), (0x80, 0xbf)]
  else if b = 0xf4 then some [(0x80, 0x8f), (0x80, 0xbf), (0x80, 0xbf)]
  else none

/-- The bytes continue with the expected ones and are sequences after that. -/
def utf8From : List (UInt8 × UInt8) → Bytes → Bool
  | [], [] => true
  | _ :: _, [] => false
  | [], b :: bytes => match utf8Following b with
    | some expected => utf8From expected bytes
    | none => false
  | (low, high) :: expected, b :: bytes => low ≤ b && b ≤ high && utf8From expected bytes

/-- The bytes are a text. -/
def isUtf8 (bytes : Bytes) : Bool := utf8From [] bytes

/-- The error of a reader of texts on other bytes. -/
def invalidUtf8 : Error := .message "stream did not contain valid UTF-8"

/-- A complete line as `BufRead::lines` yields it. -/
def stripReturn (line : Bytes) : Bytes :=
  if line.getLast? = some carriageReturn then line.dropLast else line

/-- The lines that `BufRead::lines` yields: also an unfinished last one. -/
def lineItems (content : Bytes) : List Bytes :=
  (linesOf newline content).map stripReturn ++
    if unfinished newline content = [] then [] else [unfinished newline content]

/-- How a record is written as JSON and read from it. -/
structure Codec (α : Type) where
  /-- `serde_json::to_writer`. -/
  encode : α → Bytes
  /-- `serde_json::from_str`. -/
  decode : Bytes → Except Error α

namespace Codec

variable {α : Type}

/-- The record is written as one line of text and read back as itself. -/
structure Writes (codec : Codec α) (a : α) : Prop where
  line : newline ∉ codec.encode a
  noReturn : (codec.encode a).getLast? ≠ some carriageReturn
  text : isUtf8 (codec.encode a) = true
  decode : codec.decode (codec.encode a) = .ok a

/-- The file of some records. -/
def records (codec : Codec α) (as : List α) : Bytes := unlines newline (as.map codec.encode)

@[simp] theorem records_nil (codec : Codec α) : codec.records [] = [] := rfl

@[simp] theorem records_cons (codec : Codec α) (a : α) (as : List α) :
    codec.records (a :: as) = codec.encode a ++ newline :: codec.records as := by
  simp [records]

@[simp] theorem records_append (codec : Codec α) (as bs : List α) :
    codec.records (as ++ bs) = codec.records as ++ codec.records bs := by
  simp [records]

variable {codec : Codec α} {as : List α}

/-- No record breaks the lines. -/
theorem notMem_encode (h : ∀ a ∈ as, codec.Writes a) :
    ∀ line ∈ as.map codec.encode, newline ∉ line := by
  intro line hline
  obtain ⟨a, ha, rfl⟩ := List.mem_map.mp hline
  exact (h a ha).line

theorem stripReturn_encode (h : ∀ a ∈ as, codec.Writes a) :
    (as.map codec.encode).map stripReturn = as.map codec.encode := by
  rw [List.map_map]
  refine List.map_congr_left fun a ha => ?_
  rw [Function.comp_apply, stripReturn, if_neg (h a ha).noReturn]

/-- What follows whole records is read after them. -/
theorem lineItems_records_append (h : ∀ a ∈ as, codec.Writes a) (rest : Bytes) :
    lineItems (codec.records as ++ rest) = as.map codec.encode ++ lineItems rest := by
  rw [lineItems, records, linesOf_unlines_append (notMem_encode h),
    unfinished_unlines_append (notMem_encode h), List.map_append, stripReturn_encode h,
    List.append_assoc, ← lineItems]

theorem lineItems_records (h : ∀ a ∈ as, codec.Writes a) :
    lineItems (codec.records as) = as.map codec.encode := by
  have hitems := lineItems_records_append h []
  rwa [List.append_nil, show lineItems [] = [] from rfl, List.append_nil] at hitems

end Codec

end Watchcat
