import Watchcat.Base.JsonText
import Watchcat.Daemon.Types
import Watchcat.Protocol.Frames

/-!
# Encoding responses

A response is written as a JSON object with its members in their declared order.
How the serializer writes a text and the record of a result, and how it reads a
request, are parameters. A response over the limit of a frame is replaced by an
error under the same identifier and revision.
-/

namespace Watchcat

open JsonText Client

/-- `MAX_RPC_REQUEST_BYTES`. -/
def maxRpcRequestBytes : Nat := 1024 * 1024

/-- What the service uses of the JSON library. -/
structure Serde where
  /-- A text, in quotes and with its escapes. -/
  writeString : String → Bytes
  /-- The record of a result. -/
  writeResult : RpcResult → Bytes
  /-- `serde_json::from_slice::<RpcRequest>`. -/
  readRequest : Bytes → Except Error RpcRequest

namespace Serde

variable (serde : Serde)

/-- An error as the member of a response. -/
def errorMember : Option RpcError → Bytes
  | none => []
  | some e => utf8 ",\"error\":\x7b\"code\":" ++ serde.writeString e.code ++
      utf8 ",\"message\":" ++ serde.writeString e.message ++ utf8 "\x7d"

/-- A result as the member of a response. -/
def resultMember : Option RpcResult → Bytes
  | none => []
  | some r => utf8 ",\"result\":" ++ serde.writeResult r

/-- `serde_json::to_vec` of a response; writing into a vector does not fail. -/
def toVec (response : RpcResponse) : Bytes :=
  utf8 "\x7b\"version\":" ++ utf8 (toString response.version) ++
    utf8 ",\"id\":" ++ serde.writeString response.id ++
    utf8 ",\"revision\":" ++ utf8 (toString response.revision) ++
    serde.resultMember response.result ++ serde.errorMember response.error ++ utf8 "\x7d"

/-- The error that stands for a response over the limit. -/
def responseTooLarge (response : RpcResponse) : RpcResponse where
  version := protocolVersion
  id := response.id
  revision := response.revision
  result := none
  error := some ⟨"response_too_large", "response exceeds the local RPC limit of " ++
    toString maxFrameBytes ++ " bytes; request fewer items"⟩

/-- `encode_response`. -/
def encodeResponse (response : RpcResponse) : Bytes :=
  let bytes := serde.toVec response
  if bytes.length ≤ maxFrameBytes then bytes else serde.toVec (responseTooLarge response)

/-- What the service relies on: a text is written in at most six bytes for each of its bytes and
two quotes, and the identifier of a request that was read stands in its frame as a literal. -/
structure Reliable : Prop where
  written : ∀ text, (serde.writeString text).length ≤ 6 * (utf8 text).length + 2
  read : ∀ frame request, serde.readRequest frame = .ok request →
    ∃ literal, literal <:+: frame ∧ Literal literal (utf8 request.id)

variable {serde : Serde}

/-- The identifier of a request has no more bytes than its frame. -/
theorem Reliable.id_length_le (h : serde.Reliable) {frame : Bytes} {request : RpcRequest}
    (hread : serde.readRequest frame = .ok request) : (utf8 request.id).length ≤ frame.length := by
  obtain ⟨literal, hinfix, hliteral⟩ := h.read frame request hread
  exact hliteral.length_le.trans hinfix.length_le

end Serde

end Watchcat
