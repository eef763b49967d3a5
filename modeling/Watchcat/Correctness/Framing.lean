import Watchcat.Protocol.Frames

/-!
# Framing round-trips

What one side writes frame by frame is read frame by frame by the other, however
the stream is split into chunks. A stream that is cut off yields the frames it
contains completely and then the end of the stream, and a length over the limit
is refused with nothing but the length read.
-/

namespace Watchcat.Client

open Watchcat.Core

/-! ## One frame -/

theorem length_toBigEndian (n : Nat) : (toBigEndian n).length = 4 := rfl

/-- A length of 32 bits is read back. -/
theorem fromBigEndian_toBigEndian {n : Nat} (h : n < 2 ^ 32) :
    fromBigEndian (toBigEndian n) = n := by
  simp only [fromBigEndian, toBigEndian, List.foldl_cons, List.foldl_nil, UInt8.toNat_ofNat']
  omega

/-- The bytes of a frame on the stream. -/
def frameBytes (bytes : Bytes) : Bytes := toBigEndian bytes.length ++ bytes

/-- A frame within the limit of a frame is written. -/
theorem writeFrame_eq_ok {bytes : Bytes} (h : bytes.length ≤ maxFrameBytes) :
    writeFrame bytes = .ok (frameBytes bytes) := by
  have hlimit : maxFrameBytes < 2 ^ 32 := by decide
  rw [writeFrame, if_neg (Nat.not_lt.mpr h), Nat.mod_eq_of_lt (h.trans_lt hlimit), frameBytes]

/-- What has arrived is read. -/
theorem readExact_of_append {stream : ByteStream} {bytes rest : Bytes}
    (h : stream.flatten = bytes ++ rest) :
    ∃ left, readExact bytes.length stream = (.ok bytes, left) ∧ left.flatten = rest := by
  obtain ⟨left, htaken, hrest⟩ := takeExact_of_append h
  refine ⟨left, ?_, hrest⟩
  rw [readExact]
  rw [htaken]

/-- A stream that ends before is an error. -/
theorem readExact_of_short {stream : ByteStream} {n : Nat} (h : stream.flatten.length < n) :
    ∃ left, readExact n stream = (.error earlyEof, left) := by
  obtain ⟨left, htaken, -⟩ := takeExact_of_short h
  refine ⟨left, ?_⟩
  rw [readExact]
  rw [htaken]

theorem readU32_of_append {stream : ByteStream} {n : Nat} {rest : Bytes} (hn : n < 2 ^ 32)
    (h : stream.flatten = toBigEndian n ++ rest) :
    ∃ left, readU32 stream = (.ok n, left) ∧ left.flatten = rest := by
  obtain ⟨left, htaken, hrest⟩ := takeExact_of_append h
  rw [length_toBigEndian] at htaken
  refine ⟨left, ?_, hrest⟩
  rw [readU32]
  rw [htaken]
  dsimp only
  rw [fromBigEndian_toBigEndian hn]

/-- A declared length over the limit is refused; only its four bytes have been read. -/
theorem readFrameWithLimit_of_gt {limit n : Nat} {stream : ByteStream} {rest : Bytes}
    (hn : n < 2 ^ 32) (hlimit : limit < n) (h : stream.flatten = toBigEndian n ++ rest) :
    ∃ left, readFrameWithLimit limit stream = (.error (frameTooLarge limit), left) ∧
      left.flatten = rest := by
  obtain ⟨left, hread, hrest⟩ := readU32_of_append hn h
  refine ⟨left, ?_, hrest⟩
  rw [readFrameWithLimit, hread]
  exact if_pos hlimit

/-- A frame within both limits is read, and what follows it is left. -/
theorem readFrameWithLimit_of_append {limit : Nat} {stream : ByteStream} {bytes rest : Bytes}
    (hframe : bytes.length ≤ maxFrameBytes) (hlimit : bytes.length ≤ limit)
    (h : stream.flatten = frameBytes bytes ++ rest) :
    ∃ left, readFrameWithLimit limit stream = (.ok bytes, left) ∧ left.flatten = rest := by
  have hlength : bytes.length < 2 ^ 32 := hframe.trans_lt (by decide)
  rw [frameBytes, List.append_assoc] at h
  obtain ⟨behind, hread, hbehind⟩ := readU32_of_append hlength h
  obtain ⟨left, hbytes, hrest⟩ := readExact_of_append hbehind
  refine ⟨left, ?_, hrest⟩
  rw [readFrameWithLimit, hread]
  dsimp only
  rw [if_neg (Nat.not_lt.mpr hlimit), hbytes]

/-- The error of a frame of which only so many bytes arrive. -/
def cutError (arrived : Nat) : Error := if arrived < 4 then unexpectedEof else earlyEof

/-- A stream that ends within a frame, or before it, is an error. -/
theorem readFrameWithLimit_of_prefix {limit : Nat} {stream : ByteStream} {bytes : Bytes}
    (hframe : bytes.length ≤ maxFrameBytes) (hlimit : bytes.length ≤ limit)
    (h : stream.flatten <+: frameBytes bytes) (hne : stream.flatten ≠ frameBytes bytes) :
    ∃ left, readFrameWithLimit limit stream =
      (.error (cutError stream.flatten.length), left) := by
  have hlength : bytes.length < 2 ^ 32 := hframe.trans_lt (by decide)
  by_cases hshort : stream.flatten.length < 4
  · obtain ⟨left, htaken, -⟩ := takeExact_of_short hshort
    refine ⟨left, ?_⟩
    rw [readFrameWithLimit, readU32, cutError, if_pos hshort]
    rw [htaken]
  · have hhead : toBigEndian bytes.length <+: stream.flatten :=
      List.prefix_of_prefix_length_le (List.prefix_append _ _) h (Nat.not_lt.mp hshort)
    obtain ⟨part, hpart⟩ := hhead
    obtain ⟨behind, hread, hbehind⟩ := readU32_of_append hlength hpart.symm
    have hprefix : part <+: bytes := by
      rw [← hpart, frameBytes] at h
      exact (List.prefix_append_right_inj _).mp h
    have hpartial : behind.flatten.length < bytes.length := by
      rw [hbehind]
      refine lt_of_le_of_ne hprefix.length_le fun heq => hne ?_
      rw [← hpart, hprefix.eq_of_length heq, frameBytes]
    obtain ⟨left, hbytes⟩ := readExact_of_short hpartial
    refine ⟨left, ?_⟩
    rw [readFrameWithLimit, hread, cutError, if_neg hshort]
    dsimp only
    rw [if_neg (Nat.not_lt.mpr hlimit), hbytes]

/-! ## Frames one after another -/

/-- Write frames one after another; the bytes that reach the stream. -/
def writeFrames : List Bytes → Except Error Bytes
  | [] => .ok []
  | bytes :: frames => do
    let first ← writeFrame bytes
    let rest ← writeFrames frames
    pure (first ++ rest)

/-- Read a number of frames, up to the first error. -/
def readFrames (limit : Nat) : Nat → ByteStream → (List Bytes × Option Error) × ByteStream
  | 0, stream => (([], none), stream)
  | count + 1, stream =>
    match readFrameWithLimit limit stream with
    | (.error e, stream) => (([], some e), stream)
    | (.ok bytes, stream) =>
      let rest := readFrames limit count stream
      ((bytes :: rest.1.1, rest.1.2), rest.2)

/-- Frames within the limit are written. -/
theorem writeFrames_eq_ok {frames : List Bytes}
    (h : ∀ bytes ∈ frames, bytes.length ≤ maxFrameBytes) :
    writeFrames frames = .ok (frames.flatMap frameBytes) := by
  induction frames with
  | nil => rfl
  | cons bytes frames ih =>
    rw [writeFrames, writeFrame_eq_ok (h bytes List.mem_cons_self),
      ih fun bytes hbytes => h bytes (List.mem_cons_of_mem _ hbytes)]
    rfl

/-- Frames that arrived are read, and what follows them is left. -/
theorem readFrames_of_append {limit : Nat} (hlimit : limit ≤ maxFrameBytes) {frames : List Bytes}
    (hframes : ∀ bytes ∈ frames, bytes.length ≤ limit) {stream : ByteStream} {rest : Bytes}
    (h : stream.flatten = frames.flatMap frameBytes ++ rest) :
    ∃ left, readFrames limit frames.length stream = ((frames, none), left) ∧
      left.flatten = rest := by
  induction frames generalizing stream with
  | nil => exact ⟨stream, rfl, h⟩
  | cons bytes frames ih =>
    have hbytes := hframes bytes List.mem_cons_self
    rw [List.flatMap_cons, List.append_assoc] at h
    obtain ⟨behind, hread, hbehind⟩ :=
      readFrameWithLimit_of_append (hbytes.trans hlimit) hbytes h
    obtain ⟨left, hframes, hrest⟩ :=
      ih (fun bytes hb => hframes bytes (List.mem_cons_of_mem _ hb)) hbehind
    refine ⟨left, ?_, hrest⟩
    rw [List.length_cons, readFrames, hread]
    dsimp only
    rw [hframes]

/-- A stream that is cut off yields the frames it contains and then its end. -/
theorem readFrames_of_prefix {limit : Nat} (hlimit : limit ≤ maxFrameBytes) {frames : List Bytes}
    (hframes : ∀ bytes ∈ frames, bytes.length ≤ limit) {stream : ByteStream}
    (h : stream.flatten <+: frames.flatMap frameBytes)
    (hne : stream.flatten ≠ frames.flatMap frameBytes) :
    ∃ k < frames.length, (frames.take k).flatMap frameBytes <+: stream.flatten ∧
      ¬ (frames.take (k + 1)).flatMap frameBytes <+: stream.flatten ∧
      ∃ left, readFrames limit frames.length stream = ((frames.take k, some (cutError
        (stream.flatten.length - ((frames.take k).flatMap frameBytes).length))), left) := by
  induction frames generalizing stream with
  | nil => exact absurd (List.prefix_nil.mp h) hne
  | cons bytes frames ih =>
    have hbytes := hframes bytes List.mem_cons_self
    rw [List.flatMap_cons] at h hne
    by_cases hfirst : frameBytes bytes <+: stream.flatten
    · obtain ⟨part, hpart⟩ := hfirst
      obtain ⟨behind, hread, hbehind⟩ :=
        readFrameWithLimit_of_append (hbytes.trans hlimit) hbytes hpart.symm
      have hprefix : behind.flatten <+: frames.flatMap frameBytes := by
        rw [hbehind]
        rw [← hpart] at h
        exact (List.prefix_append_right_inj _).mp h
      have hproper : behind.flatten ≠ frames.flatMap frameBytes := by
        rintro heq
        rw [← hpart, ← hbehind, heq] at hne
        exact hne rfl
      obtain ⟨k, hk, hwhole, hcut, left, hrest⟩ :=
        ih (fun bytes hb => hframes bytes (List.mem_cons_of_mem _ hb)) hprefix hproper
      rw [hbehind] at hwhole hcut
      refine ⟨k + 1, Nat.succ_lt_succ hk, ?_, ?_, left, ?_⟩
      · rw [List.take_succ_cons, List.flatMap_cons, ← hpart]
        exact (List.prefix_append_right_inj _).mpr hwhole
      · rw [List.take_succ_cons, List.flatMap_cons, ← hpart]
        exact fun hwhole => hcut ((List.prefix_append_right_inj _).mp hwhole)
      · rw [List.length_cons, readFrames, hread]
        dsimp only
        rw [hrest, List.take_succ_cons, ← hpart, hbehind, List.flatMap_cons, List.length_append,
          List.length_append, Nat.add_sub_add_left]
    · have hwithin : stream.flatten <+: frameBytes bytes :=
        (List.prefix_or_prefix_of_prefix h (List.prefix_append _ _)).resolve_right hfirst
      have hproper : stream.flatten ≠ frameBytes bytes :=
        fun heq => hfirst (heq ▸ List.prefix_refl _)
      obtain ⟨left, hread⟩ :=
        readFrameWithLimit_of_prefix (hbytes.trans hlimit) hbytes hwithin hproper
      refine ⟨0, Nat.succ_pos _, List.nil_prefix, ?_, left, ?_⟩
      · rw [List.take_succ_cons, List.take_zero, List.flatMap_singleton]
        exact hfirst
      · rw [List.length_cons, readFrames, hread]
        rfl

/-- Frames of at most a limit are written, and read with that limit they are the same frames,
however the stream is split, with what follows them left to be read. Of a stream that is cut off
they are the frames that it contains completely, and then its end. A declared length over a limit
is refused with its four bytes read. -/
theorem framing_round_trip {limit : Nat} (hlimit : limit ≤ maxFrameBytes) {frames : List Bytes}
    (hframes : ∀ bytes ∈ frames, bytes.length ≤ limit) :
    ∃ written, writeFrames frames = .ok written ∧
      (∀ (stream : ByteStream) (rest : Bytes), stream.flatten = written ++ rest →
        ∃ left, readFrames limit frames.length stream = ((frames, none), left) ∧
          left.flatten = rest) ∧
      (∀ stream : ByteStream, stream.flatten <+: written → stream.flatten ≠ written →
        ∃ k < frames.length, ∃ whole cut, writeFrames (frames.take k) = .ok whole ∧
          whole <+: stream.flatten ∧ writeFrames (frames.take (k + 1)) = .ok cut ∧
          ¬ cut <+: stream.flatten ∧ ∃ left, readFrames limit frames.length stream =
            ((frames.take k, some (cutError (stream.flatten.length - whole.length))), left)) ∧
      ∀ (limit n : Nat) (stream : ByteStream) (rest : Bytes), n < 2 ^ 32 → limit < n →
        stream.flatten = toBigEndian n ++ rest →
        ∃ left, readFrameWithLimit limit stream = (.error (frameTooLarge limit), left) ∧
          left.flatten = rest := by
  have hwritten : ∀ bytes ∈ frames, bytes.length ≤ maxFrameBytes :=
    fun bytes hbytes => (hframes bytes hbytes).trans hlimit
  have htake (k : Nat) : writeFrames (frames.take k) =
      .ok ((frames.take k).flatMap frameBytes) :=
    writeFrames_eq_ok fun bytes hbytes => hwritten bytes (List.mem_of_mem_take hbytes)
  refine ⟨frames.flatMap frameBytes, writeFrames_eq_ok hwritten, fun stream rest h =>
    readFrames_of_append hlimit hframes h, fun stream hprefix hne => ?_,
    fun limit n stream rest hn hgt h => readFrameWithLimit_of_gt hn hgt h⟩
  obtain ⟨k, hk, hwhole, hcut, hread⟩ := readFrames_of_prefix hlimit hframes hprefix hne
  exact ⟨k, hk, _, _, htake k, hwhole, htake (k + 1), hcut, hread⟩

/-- A frame of two bytes and an empty one, split within both lengths and followed by a byte. -/
theorem framing_round_trip_sample :
    ∃ left, readFrames 16 2 [[0, 0, 0], [2, 7, 8, 0, 0], [0, 0, 9]] =
      (([[7, 8], []], none), left) ∧ left.flatten = [9] := by
  obtain ⟨written, hwritten, hread, -, -⟩ :=
    @framing_round_trip 16 (by decide) [[7, 8], []] (by decide)
  have hbytes : writeFrames [[7, 8], []] = .ok [0, 0, 0, 2, 7, 8, 0, 0, 0, 0] := by rfl
  obtain rfl := Except.ok.inj (hbytes.symm.trans hwritten)
  exact hread [[0, 0, 0], [2, 7, 8, 0, 0], [0, 0, 9]] [9] rfl

end Watchcat.Client
