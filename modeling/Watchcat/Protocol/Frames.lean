import Mathlib.Algebra.Ring.Nat
import Watchcat.Base.Jsonl
import Watchcat.Core.Chunks

/-!
# Frames

A message of the local protocol is its length in four bytes, most significant
first, and its bytes. The writer refuses what is over the limit of a frame, the
reader what is over its own, before it reads on.
-/

namespace Watchcat.Client

open Watchcat.Core

/-- `MAX_FRAME_BYTES`. -/
def maxFrameBytes : Nat := 8 * 1024 * 1024

/-- The error of a frame over a limit. -/
def frameTooLarge (limit : Nat) : Error :=
  .message ("RPC frame exceeds " ++ toString limit ++ " bytes")

/-- The error of a stream that ends within the bytes of a frame. -/
def earlyEof : Error := .message "early eof"

/-- The error of a stream that ends within the length of a frame. -/
def unexpectedEof : Error := .message "unexpected end of file"

/-- `u32::to_be_bytes`. -/
def toBigEndian (n : Nat) : Bytes :=
  [UInt8.ofNat (n / 2 ^ 24), UInt8.ofNat (n / 2 ^ 16), UInt8.ofNat (n / 2 ^ 8), UInt8.ofNat n]

/-- `u32::from_be_bytes`. -/
def fromBigEndian (bytes : Bytes) : Nat := bytes.foldl (fun n b => n * 2 ^ 8 + b.toNat) 0

/-- `write_frame`: the bytes that reach the stream; the length is cast to 32 bits. -/
def writeFrame (bytes : Bytes) : Except Error Bytes :=
  if maxFrameBytes < bytes.length then .error (frameTooLarge maxFrameBytes)
  else .ok (toBigEndian (bytes.length % 2 ^ 32) ++ bytes)

/-- The chunks in which the bytes of a stream are still to arrive. -/
abbrev ByteStream : Type := List Bytes

/-- `read_exact`. -/
def readExact (n : Nat) (stream : ByteStream) : Except Error Bytes × ByteStream :=
  let taken := takeExact n stream
  (match taken.1 with
    | some bytes => .ok bytes
    | none => .error earlyEof, taken.2)

/-- `read_u32`. -/
def readU32 (stream : ByteStream) : Except Error Nat × ByteStream :=
  let taken := takeExact 4 stream
  (match taken.1 with
    | some bytes => .ok (fromBigEndian bytes)
    | none => .error unexpectedEof, taken.2)

/-- `read_frame_with_limit`. -/
def readFrameWithLimit (maxBytes : Nat) (stream : ByteStream) :
    Except Error Bytes × ByteStream :=
  match readU32 stream with
  | (.error e, stream) => (.error e, stream)
  | (.ok length, stream) =>
    if maxBytes < length then (.error (frameTooLarge maxBytes), stream)
    else readExact length stream

/-- `read_frame`. -/
def readFrame (stream : ByteStream) : Except Error Bytes × ByteStream :=
  readFrameWithLimit maxFrameBytes stream

/-- The limit of a reader is checked before the bytes of a frame are read. -/
example : readFrameWithLimit 1024 [toBigEndian 1025] =
    (.error (.message "RPC frame exceeds 1024 bytes"), [[]]) := by decide

end Watchcat.Client
