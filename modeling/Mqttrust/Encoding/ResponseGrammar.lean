import Mqttrust.Encoding.RequestRoundTrip

/-!
# The grammar of the responses of a client

A client answers with PUBACK, PUBREC, PUBREL and PUBCOMP, and keeps a connection alive
with PINGREQ. Their grammar is stated for a receiver of the protocol version of the
build: the first byte with its reserved flags, the remaining length, the packet
identifier, and in version 5 the reason code and the properties, which may be left out.
-/

namespace Mqttrust.Grammar

open MqttEncoder Parsing

/-- The fields of a response. Without a reason code it is success, without properties there are
none. -/
inductive ResponseFields where
  | ack (kind : AckKind) (pid : Pid) (reasonCode : UInt8) (properties : List Property)
  | pingReq

/-- What follows the packet identifier of an acknowledgement. -/
def ackDetail : Protocol → ByteParser (UInt8 × List Property)
  | .mqttv3 => pure (0x00, [])
  | .mqttv5 => trailing (0x00, []) do
      let reasonCode ← item
      let block ← trailing none (properties .mqttv5)
      pure (reasonCode, block.getD [])

/-- The body of an acknowledgement. -/
def ack (version : Protocol) (kind : AckKind) : ByteParser ResponseFields := do
  let pid ← pid
  let detail ← ackDetail version
  pure (.ack kind pid detail.1 detail.2)

/-- The body of the response with some first byte: the flags are reserved, and those of a PUBREL are
`0b0010`. -/
def responseBody (version : Protocol) (first : UInt8) : ByteParser ResponseFields :=
  if first = 0x40 then ack version .pubAck
  else if first = 0x50 then ack version .pubRec
  else if first = 0x62 then ack version .pubRel
  else if first = 0x70 then ack version .pubComp
  else if first = 0xC0 then pure .pingReq
  else ofOption none

/-- A response: its first byte, the remaining length, and as many bytes of a body. -/
def response (version : Protocol) : ByteParser ResponseFields := do
  let first ← item
  let len ← varint
  let bytes ← take len
  ofOption (parse (responseBody version first) bytes)

variable {version : Protocol} {first : UInt8} {body : List UInt8}

/-- A packet is a response when its body is one. -/
theorem parse_response (small : body.length < 2 ^ 28) :
    parse (response version) (packetBytes first body) =
      parse (responseBody version first) body := by
  have header : response version (packetBytes first body) =
      (ofOption (parse (responseBody version first) body) : ByteParser ResponseFields) [] := by
    have packet : packetBytes first body = [first] ++ (Varint.encode body.length ++ (body ++ [])) := by
      rw [List.append_nil]
      rfl
    unfold response
    rw [packet, bind_of_some (Reads.item first _), bind_of_some (reads_varint small _),
      bind_of_some (Reads.take body _)]
  cases parsed : parse (responseBody version first) body with
  | none =>
      rw [parse, header, parsed]
      rfl
  | some fields =>
      rw [parse, header, parsed]
      rfl

/-- An acknowledgement with nothing but its packet identifier. -/
theorem parse_ack (version : Protocol) (kind : AckKind) (identifier : Pid) :
    parse (ack version kind) identifier.bytes = some (.ack kind identifier 0x00 []) := by
  have detail : ReadsAll (ackDetail version) [] (0x00, []) := by
    cases version with
    | mqttv3 => rfl
    | mqttv5 => exact ReadsAll.trailing _ _
  have whole : ReadsAll (ack version kind) (identifier.bytes ++ [])
      (.ack kind identifier 0x00 []) := by
    apply ReadsAll.bind (reads_pid identifier)
    have last := detail.bindPure fun detail => ResponseFields.ack kind identifier detail.1 detail.2
    exact last
  rw [List.append_nil] at whole
  exact whole.parse_eq

end Mqttrust.Grammar
