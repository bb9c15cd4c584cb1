import Mqttrust.Encoding.PublishRoundTrip
import Mqttrust.Encoding.RequestRoundTrip

/-!
# The packets of a client in a stream of bytes

The grammar of the packets that a client sends through its TX channel: the requests
and PUBLISH. A broker takes packets off the bytes of a connection as long as a whole
one is there; the part of a packet that was broken off is left.
-/

namespace Mqttrust

open MqttEncoder Parsing

namespace Grammar

/-- The fields of a PUBLISH. -/
structure PublishFields where
  dup : Bool
  qos : QoS
  retain : Bool
  topic : Utf8
  pid : Option Pid
  properties : Option (List Property)
  payload : List UInt8

/-- The body of a PUBLISH with some first byte: there is a packet identifier unless the QoS is 0,
and the payload takes what is left. -/
def publish (version : Protocol) (first : UInt8) : ByteParser PublishFields := do
  let level ← ofOption (qos ((first &&& 0b00000110) >>> 1))
  let topic ← string
  let identifier ← optional (level != .atMostOnce) pid
  let properties ← properties version
  let payload ← many item
  pure ⟨first &&& 0b00001000 == 0b00001000, level, first &&& 0b00000001 == 0b00000001, topic,
    identifier, properties, payload⟩

/-- The fields of a packet of a client. -/
inductive ClientFields where
  | publish (fields : PublishFields)
  | request (fields : RequestFields)

/-- The body of the packet with some first byte. -/
def clientBody (version : Protocol) (first : UInt8) : ByteParser ClientFields :=
  if first &&& 0xF0 = 0x30 then .publish <$> publish version first
  else .request <$> body version first

/-- A packet of a client: its first byte, the remaining length, and as many bytes of a body. -/
def clientPacket (version : Protocol) : ByteParser ClientFields := do
  let first ← item
  let len ← varint
  let bytes ← take len
  ofOption (parse (clientBody version first) bytes)

/-- The bytes of a whole packet, of any type. -/
def wholePacket : ByteParser (List UInt8) := fun input =>
  match input with
  | [] => none
  | _ :: rest =>
      match Varint.decode rest with
      | .done remainingLen count =>
          if rest.length < count + remainingLen then none
          else some (input.take (count + remainingLen + 1), input.drop (count + remainingLen + 1))
      | _ => none

/-- The whole packets at the front of a stream. -/
def wholePackets (stream : List UInt8) : List (List UInt8) := front wholePacket stream

theorem reads_wholePacket {bytes : List UInt8} (framed : Framed bytes) :
    Reads wholePacket bytes bytes := by
  rcases framed with ⟨first, body, remainingLen, count, rfl, decoded, length⟩
  intro rest
  have decided : Varint.decode (body ++ rest) = .done remainingLen count := by
    rw [Varint.decode_append rest (by simp [decoded]), decoded]
  have enough : ¬(body ++ rest).length < body.length := by simp
  simp only [wholePacket, List.cons_append, decided, ← length, if_neg enough, List.take_succ_cons,
    List.drop_succ_cons, List.take_left, List.drop_left]

/-- No packet is taken off a part of a packet. -/
theorem wholePacket_of_part {bytes : List UInt8} (framed : Framed bytes) {count : ℕ}
    (short : count < bytes.length) : wholePacket (bytes.take count) = none := by
  rcases framed with ⟨first, body, remainingLen, digits, rfl, decoded, length⟩
  cases count with
  | zero => rfl
  | succ count =>
      rw [List.length_cons] at short
      rw [List.take_succ_cons]
      cases part : Varint.decode (body.take count) with
      | done remainingLen' digits' =>
          have same := Varint.decode_append (body.drop count)
            (by simp [part] : Varint.decode (body.take count) ≠ .incomplete)
          rw [List.take_append_drop, decoded, part] at same
          rcases Varint.Outcome.done.inj same with ⟨rfl, rfl⟩
          have missing : (body.take count).length < digits + remainingLen := by
            rw [List.length_take]
            omega
          simp only [wholePacket, part, if_pos missing]
      | incomplete => simp only [wholePacket, part]
      | tooLong => simp only [wholePacket, part]

/-- The whole packets of a stream are taken off it, and a part of a last one is left. -/
theorem wholePackets_flatten {packets : List (List UInt8)}
    (framed : ∀ packet ∈ packets, Framed packet) {rest : List UInt8}
    (stuck : wholePacket rest = none) : wholePackets (packets.flatten ++ rest) = packets := by
  have read : front wholePacket (packets.flatMap id ++ rest) = packets.map id :=
    front_flatMap (fun packet mem => reads_wholePacket (framed packet mem))
      (fun packet mem => (framed packet mem).ne_nil) stuck
  rwa [List.flatMap_id, List.map_id] at read

theorem parse_clientPacket {version : Protocol} {first : UInt8} {body : List UInt8}
    {fields : ClientFields} (small : body.length < 2 ^ 28)
    (reads : ReadsAll (clientBody version first) body fields) :
    parse (clientPacket version) (packetBytes first body) = some fields := by
  have whole : Reads (clientPacket version)
      ([first] ++ (Varint.encode body.length ++ body)) fields := by
    apply (Reads.item first).bind
    apply (reads_varint small).bind
    exact (Reads.take _).bindOption reads.parse_eq
  exact whole.readsAll.parse_eq

theorem reads_plainProperties {version : Protocol} {packet : Properties}
    (plain : version = .mqttv5 → packet.Plain ∧ ∀ one ∈ packet.toList, one.Representable)
    (small : (propertyBytes version packet.blockBytes).length < 2 ^ 28) :
    Reads (properties version) (propertyBytes version packet.blockBytes)
      (propertyFields version packet) := by
  cases version with
  | mqttv3 => exact Reads.pure none
  | mqttv5 =>
      rcases plain rfl with ⟨plain, each⟩
      have isList : packet.blockBytes = packet.toList.flatMap Property.bytes := by
        cases packet with
        | slice list => rfl
        | dataBlock block => exact absurd rfl (plain.isList block)
        | correlatedSlice correlation list => rfl
      rw [propertyBytes, List.length_append] at small
      have block : ReadsAll (many property) packet.blockBytes (packet.toList.map id) := by
        rw [isList]
        exact ReadsAll.many (fun one mem => reads_property (each one mem))
          (fun _ _ => List.cons_ne_nil _ _)
      rw [List.map_id] at block
      have parsed : some <$> parse (many property) packet.blockBytes =
          some (some packet.toList) := by
        rw [block.parse_eq]
        rfl
      exact (reads_varint (by omega)).bind ((Reads.take _).bindOption parsed)

end Grammar

namespace Publish

/-- The fields that a publish with a payload of some bytes has in some version. -/
def fields (version : Protocol) (packet : Publish) (payload : List UInt8) :
    Grammar.PublishFields where
  dup := packet.dup
  qos := packet.qos
  retain := packet.retain
  topic := packet.topicName
  pid := if packet.qos = .atMostOnce then none else packet.pid
  properties := Grammar.propertyFields version packet.properties
  payload := payload

variable {config : CrateConfig} {packet : Publish} {qosPid : QosPid} {payload buf bytes : List UInt8}

theorem reads_qosPid (identified : packet.qosPid = some qosPid) :
    Reads (optional (packet.qos != .atMostOnce) Grammar.pid) qosPid.bytes
      (if packet.qos = .atMostOnce then none else packet.pid) := by
  unfold Publish.qosPid at identified
  cases qos : packet.qos with
  | atMostOnce =>
      simp only [qos, Option.some.injEq] at identified
      subst identified
      exact Reads.pure none
  | atLeastOnce =>
      simp only [qos, Option.map_eq_some_iff] at identified
      rcases identified with ⟨pid, found, rfl⟩
      rw [found]
      exact (Grammar.reads_pid pid).map some
  | exactlyOnce =>
      simp only [qos, Option.map_eq_some_iff] at identified
      rcases identified with ⟨pid, found, rfl⟩
      rw [found]
      exact (Grammar.reads_pid pid).map some

namespace Plain

theorem reads_body (plain : packet.Plain config qosPid payload)
    (representable : config.protocol = .mqttv5 → ∀ one ∈ packet.properties.toList,
      one.Representable) :
    ReadsAll (Grammar.publish config.protocol (packet.onWire qosPid payload).firstByte)
      ((packet.onWire qosPid payload).body config) (packet.fields config.protocol payload) := by
  have bits := ServerPacket.publishByte_bits packet.dup packet.retain packet.qos
  have first : (packet.onWire qosPid payload).firstByte =
      ServerPacket.publishByte packet.dup packet.retain packet.qos := by
    rw [onWire, ServerPacket.firstByte_publish, plain.qos_eq]
  have level : Grammar.qos ((ServerPacket.publishByte packet.dup packet.retain packet.qos &&&
      0b00000110) >>> 1) = some packet.qos := by
    rw [bits.2.1]
    cases packet.qos <;> decide
  have block := Grammar.reads_plainProperties
    (fun v5 => ⟨plain.properties v5, representable v5⟩) plain.length_propertyBytes
  have rest : ReadsAll (many item) payload payload := by
    have each : ReadsAll (many item) (payload.flatMap fun byte => [byte]) (payload.map id) :=
      ReadsAll.many (fun byte _ => Reads.item byte) (fun byte _ => List.cons_ne_nil byte [])
    rwa [List.map_id, List.flatMap_singleton'] at each
  have body : (packet.onWire qosPid payload).body config = [] ++ (sliceBytes packet.topicName.bytes ++
      (qosPid.bytes ++ (propertyBytes config.protocol packet.properties.blockBytes ++ payload))) := by
    simp [onWire, ServerPacket.body, sliceBytes]
  rw [first, body, Grammar.publish]
  apply ReadsAll.bind (Reads.ofOption level)
  apply ReadsAll.bind (Grammar.reads_string plain.topic)
  apply ReadsAll.bind (reads_qosPid plain.identified)
  apply ReadsAll.bind block
  have fields : packet.fields config.protocol payload =
      ⟨ServerPacket.publishByte packet.dup packet.retain packet.qos &&& 0b00001000 == 0b00001000,
        packet.qos,
        ServerPacket.publishByte packet.dup packet.retain packet.qos &&& 0b00000001 == 0b00000001,
        packet.topicName, if packet.qos = .atMostOnce then none else packet.pid,
        Grammar.propertyFields config.protocol packet.properties, payload⟩ := by
    rw [bits.2.2.1, bits.2.2.2]
    rfl
  rw [fields]
  exact rest.bindPure _

/-- An encoded publish is in the grammar, with its fields. -/
theorem parse_of_encodePacket (plain : packet.Plain config qosPid payload)
    (representable : config.protocol = .mqttv5 → ∀ one ∈ packet.properties.toList,
      one.Representable) (encoded : encodePacket config buf packet = .ok bytes) :
    parse (Grammar.clientPacket config.protocol) bytes =
      some (.publish (packet.fields config.protocol payload)) := by
  rcases (plain.encodePacket_iff (header_of_encodePacket encoded)).mp encoded with ⟨_, rfl⟩
  apply Grammar.parse_clientPacket plain.small
  have upper : (packet.onWire qosPid payload).firstByte &&& 0xF0 = 0x30 := by
    rw [onWire, ServerPacket.firstByte_publish]
    exact (ServerPacket.publishByte_bits packet.dup packet.retain qosPid.qos).1
  rw [Grammar.clientBody, if_pos upper]
  exact (plain.reads_body representable).map _

end Plain

end Publish

/-- An encoded request is in the grammar, with its fields. -/
theorem ClientRequest.parse_of_encode {config : CrateConfig} {request : ClientRequest}
    {buf bytes : List UInt8} (valid : request.Valid config)
    (encoded : request.encode config buf = .ok bytes) :
    parse (Grammar.clientPacket config.protocol) bytes =
      some (.request (request.fields config)) := by
  rcases (encode_eq_ok valid (header_of_encode encoded)).mp encoded with ⟨_, small, rfl⟩
  apply Grammar.parse_clientPacket small
  have upper : request.firstByte &&& 0xF0 ≠ 0x30 := by
    cases request with
    | connect packet =>
        exact (by decide : (PacketType.connect.toByte ||| 0) &&& 0xF0 ≠ 0x30)
    | subscribe packet =>
        exact (by decide : (PacketType.subscribe.toByte ||| 0b0010) &&& 0xF0 ≠ 0x30)
    | unsubscribe packet =>
        exact (by decide : (PacketType.unsubscribe.toByte ||| 0b0010) &&& 0xF0 ≠ 0x30)
  rw [Grammar.clientBody, if_neg upper]
  exact (body_writes valid small).map _

end Mqttrust
