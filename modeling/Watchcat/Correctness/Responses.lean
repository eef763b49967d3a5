import Watchcat.Correctness.Framing
import Watchcat.Daemon.Encoding

/-!
# Every response can be sent

The error that stands for a response over the limit carries the identifier its
client has chosen. Its bytes are bounded by the frame the request was read from,
its literal by six times as much, and the rest of the error by a constant, so
what is encoded always fits in a frame.
-/

namespace Watchcat

open JsonText Client Serde

/-! ## Sizes -/

/-- A text has at most four bytes for each character. -/
theorem length_utf8_le (text : String) : (utf8 text).length ≤ 4 * text.length := by
  have hchars (chars : List Char) :
      (chars.flatMap String.utf8EncodeChar).length ≤ 4 * chars.length := by
    induction chars with
    | nil => exact Nat.le_refl _
    | cons c chars ih =>
      have hc := length_utf8EncodeChar_le c
      rw [List.flatMap_cons, List.length_append, List.length_cons]
      omega
  rw [← String.length_toList]
  exact hchars text.toList

/-- A counter of 64 bits has at most twenty digits. -/
theorem length_utf8_counter_le {n : Nat} (h : n ≤ u64Max) : (utf8 (toString n)).length ≤ 80 := by
  have hdigits : (Nat.repr n).length ≤ 20 :=
    (Nat.length_repr_le_iff (by decide)).mpr (h.trans_lt (by decide))
  have hbytes := length_utf8_le (toString n)
  have hrepr : (toString n).length = (Nat.repr n).length := rfl
  omega

variable {serde : Serde}

/-- The error that stands for a response is its identifier and at most some thousand bytes. -/
theorem length_toVec_responseTooLarge_le (h : serde.Reliable) {response : RpcResponse}
    (hrevision : response.revision ≤ u64Max) :
    (serde.toVec (responseTooLarge response)).length ≤
      6 * (utf8 response.id).length + 4096 := by
  have hid := h.written response.id
  have hcode := h.written "response_too_large"
  have hmessage := h.written ("response exceeds the local RPC limit of " ++
    toString maxFrameBytes ++ " bytes; request fewer items")
  have hcounter := length_utf8_counter_le hrevision
  have hcodeBytes : (utf8 "response_too_large").length = 18 := by decide
  have hmessageBytes : (utf8 ("response exceeds the local RPC limit of " ++
      toString maxFrameBytes ++ " bytes; request fewer items")).length ≤ 100 := by decide
  have hversion : (utf8 (toString protocolVersion)).length = 1 := by decide
  have hmembers : (utf8 "\x7b\"version\":").length = 11 ∧ (utf8 ",\"id\":").length = 6 ∧
      (utf8 ",\"revision\":").length = 12 ∧ (utf8 ",\"error\":\x7b\"code\":").length = 17 ∧
      (utf8 ",\"message\":").length = 11 ∧ (utf8 "\x7d").length = 1 := by decide
  obtain ⟨hm₁, hm₂, hm₃, hm₄, hm₅, hm₆⟩ := hmembers
  simp only [toVec, responseTooLarge, resultMember, errorMember, List.length_append,
    List.length_nil]
  omega

/-- A response that fits is encoded itself. -/
theorem encodeResponse_of_le {response : RpcResponse}
    (h : (serde.toVec response).length ≤ maxFrameBytes) :
    serde.encodeResponse response = serde.toVec response := by
  rw [encodeResponse, if_pos h]

/-- A response that does not fit is replaced by an error. -/
theorem encodeResponse_of_lt {response : RpcResponse}
    (h : maxFrameBytes < (serde.toVec response).length) :
    serde.encodeResponse response = serde.toVec (responseTooLarge response) := by
  rw [encodeResponse, if_neg (Nat.not_le.mpr h)]

/-- Every response to a request that was read from a frame within the limit is encoded in bytes
that a frame holds: the response itself where it fits, and otherwise an error of the code
`response_too_large` under the same identifier and revision. -/
theorem every_response_sent (h : serde.Reliable) {frame : Bytes} {request : RpcRequest}
    {response : RpcResponse} (hframe : frame.length ≤ maxRpcRequestBytes)
    (hread : serde.readRequest frame = .ok request) (hid : response.id = request.id)
    (hrevision : response.revision ≤ u64Max) :
    writeFrame (serde.encodeResponse response) =
        .ok (frameBytes (serde.encodeResponse response)) ∧
      (serde.encodeResponse response).length ≤ maxFrameBytes ∧
      ((serde.toVec response).length ≤ maxFrameBytes →
        serde.encodeResponse response = serde.toVec response) ∧
      (maxFrameBytes < (serde.toVec response).length → ∃ fallback : RpcResponse,
        serde.encodeResponse response = serde.toVec fallback ∧ fallback.id = request.id ∧
          fallback.revision = response.revision ∧ fallback.result = none ∧
          fallback.error.map RpcError.code = some "response_too_large") := by
  have hfits : (serde.encodeResponse response).length ≤ maxFrameBytes := by
    rcases Nat.lt_or_ge maxFrameBytes (serde.toVec response).length with hlarge | hsmall
    · have hfallback := length_toVec_responseTooLarge_le h hrevision
      have hbytes := h.id_length_le hread
      have hlimit : maxRpcRequestBytes = 1048576 := by decide
      have hmax : maxFrameBytes = 8388608 := by decide
      rw [encodeResponse_of_lt hlarge]
      rw [hid] at hfallback
      omega
    · rw [encodeResponse_of_le hsmall]
      exact hsmall
  exact ⟨writeFrame_eq_ok hfits, hfits, encodeResponse_of_le, fun hlarge =>
    ⟨responseTooLarge response, encodeResponse_of_lt hlarge, hid, rfl, rfl, rfl⟩⟩

/-- A request whose identifier is a quote and a line break. -/
def pingRequest : RpcRequest where
  version := protocolVersion
  id := "\"\n"
  method := "service.ping"

/-- The frame of that request. -/
def pingFrame : Bytes :=
  utf8 "\x7b\"version\":2,\"id\":" ++ write pingRequest.id ++
    utf8 ",\"method\":\"service.ping\"\x7d"

/-- A serializer that reads that frame and writes these bytes for the answer. -/
def pingSerde (answer : Bytes) : Serde where
  writeString := write
  writeResult _ := answer
  readRequest frame :=
    if frame = pingFrame then .ok pingRequest else .error (.message "invalid request")

theorem readRequest_pingFrame (answer : Bytes) :
    (pingSerde answer).readRequest pingFrame = .ok pingRequest := by
  simp [pingSerde]

theorem reliable_pingSerde (answer : Bytes) : (pingSerde answer).Reliable := by
  refine ⟨length_write_le, fun frame request hread => ?_⟩
  have hframe : frame = pingFrame := by
    by_contra hne
    exact nomatch hread.symm.trans (if_neg hne)
  subst hframe
  have hrequest : pingRequest = request :=
    Except.ok.inj ((readRequest_pingFrame _).symm.trans hread)
  subst hrequest
  exact ⟨write pingRequest.id, ⟨_, _, rfl⟩, literal_write pingRequest.id⟩

/-- The answer to a ping. -/
def pingAnswer : Bytes := utf8 "\x7b\"online\":true,\"version\":\"0.7.0\"\x7d"

/-- As many bytes as a frame may have, with no room for the rest of a response. -/
def largeAnswer : Bytes := List.replicate maxFrameBytes 0

/-- A response with as many bytes of its own does not fit. -/
theorem lt_length_toVec_large :
    maxFrameBytes < ((pingSerde largeAnswer).toVec (.success pingRequest.id 7 .ping)).length := by
  have hresult : ((pingSerde largeAnswer).writeResult .ping).length = maxFrameBytes :=
    List.length_replicate
  have hclose : (utf8 "\x7d").length = 1 := by decide
  simp only [toVec, RpcResponse.success, resultMember, List.length_append, hresult, hclose]
  omega

/-- The answer to that request fits in a frame; a larger one is replaced by the error. -/
theorem every_response_sent_ping :
    writeFrame ((pingSerde pingAnswer).encodeResponse (.success pingRequest.id 7 .ping)) =
        .ok (frameBytes ((pingSerde pingAnswer).toVec (.success pingRequest.id 7 .ping))) ∧
      ∃ fallback : RpcResponse,
        writeFrame ((pingSerde largeAnswer).encodeResponse (.success pingRequest.id 7 .ping)) =
          .ok (frameBytes ((pingSerde largeAnswer).toVec fallback)) ∧
        fallback.id = pingRequest.id ∧
        fallback.error.map RpcError.code = some "response_too_large" := by
  have hframe : pingFrame.length ≤ maxRpcRequestBytes := by decide
  have hid : (RpcResponse.success pingRequest.id 7 .ping).id = pingRequest.id := rfl
  obtain ⟨hwritten, -, hitself, -⟩ := every_response_sent (reliable_pingSerde pingAnswer) hframe
    (readRequest_pingFrame _) hid (by decide)
  obtain ⟨hreplaced, -, -, hfallback⟩ := every_response_sent (reliable_pingSerde largeAnswer)
    hframe (readRequest_pingFrame _) hid (by decide)
  obtain ⟨fallback, hencoded, hsame, -, -, hcode⟩ := hfallback lt_length_toVec_large
  refine ⟨?_, fallback, ?_, hsame, hcode⟩
  · rw [hwritten, hitself (by decide)]
  · rw [hreplaced, hencoded]

end Watchcat
