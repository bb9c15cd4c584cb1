import Mqttrust.Encoding.PropertiesIter
import Mqttrust.Encoding.ServerPacket

/-!
# Messages

A `Message` owns a frame of the channel that holds a complete PUBLISH. Its fields are
found once, when it is created, and are remembered as ranges of the frame.
-/

namespace Mqttrust

/-- A range of positions in a frame. -/
structure Range where
  start : ℕ
  stop : ℕ
deriving DecidableEq, Repr

/-- The bytes of a frame in a range. -/
def Range.slice (range : Range) (frame : List UInt8) : List UInt8 :=
  (frame.take range.stop).drop range.start

/-- `Message`; the properties exist with feature `mqttv5` only. -/
structure Message where
  grant : List UInt8
  header : FixedHeader
  qosPid : QosPid
  topicName : Range
  payload : Range
  properties : Option Range
deriving DecidableEq, Repr

/-- The quality of service and the packet identifier behind the topic, which are read. -/
def MqttDecoder.readQosPid (decoder : MqttDecoder) : Except Fault (QosPid × MqttDecoder) :=
  match decoder.fixedHeader.qos with
  | .atMostOnce => .ok (.atMostOnce, decoder)
  | .atLeastOnce => do
      let (pid, decoder) ← decoder.readPid
      .ok (.atLeastOnce pid, decoder)
  | .exactlyOnce => do
      let (pid, decoder) ← decoder.readPid
      .ok (.exactlyOnce pid, decoder)

/-- The range of the properties: it starts in front of their length. -/
def MqttDecoder.readPropertiesRange (protocol : Protocol) (decoder : MqttDecoder) :
    Except Fault (Option Range × MqttDecoder) :=
  match protocol with
  | .mqttv3 => .ok (none, decoder)
  | .mqttv5 => do
      let propertiesStart := decoder.offset
      let (_, decoder) ← decoder.readProperties
      .ok (some ⟨propertiesStart, decoder.offset⟩, decoder)

namespace Message

/-- `Message::try_new`. -/
def tryNew (config : CrateConfig) (grant : List UInt8) : Except Fault Message := do
  let decoder ← MqttDecoder.tryNew config grant
  let header := decoder.fixedHeader
  decoder.checkRemaining header.remainingLen
  let topicNameStart := decoder.offset + 2
  let (_, decoder) ← decoder.readStr
  let topicName := ⟨topicNameStart, decoder.offset⟩
  let (qosPid, decoder) ← decoder.readQosPid
  let (properties, decoder) ← decoder.readPropertiesRange config.protocol
  let payloadStart := decoder.offset
  let (_, decoder) ← decoder.readPayload
  .ok ⟨grant, header, qosPid, topicName, ⟨payloadStart, decoder.offset⟩, properties⟩

variable (message : Message)

/-- `Message::dup`. -/
def dup : Bool := message.header.dup

/-- `Message::retain`. -/
def retain : Bool := message.header.retain

/-- `Message::topic_name`: the bytes of the string. -/
def topicNameBytes : List UInt8 := message.topicName.slice message.grant

/-- `Message::properties`. -/
def propertyBlock : Option Properties :=
  message.properties.map fun range => .dataBlock (range.slice message.grant)

/-- `Message::payload`. -/
def payloadBytes : List UInt8 := message.payload.slice message.grant

end Message

section Publish

variable {config : CrateConfig} {dup retain : Bool} {qosPid : QosPid} {topicName : Utf8}
  {properties payload : List UInt8}

theorem readQosPid_bytes (rest : List UInt8) (offset headerLen : ℕ) {header : FixedHeader}
    (qos : header.qos = qosPid.qos) :
    (MqttDecoder.mk (qosPid.bytes ++ rest) offset headerLen header).readQosPid =
      .ok (qosPid, ⟨rest, offset + qosPid.bytes.length, headerLen, header⟩) := by
  cases qosPid with
  | atMostOnce =>
      have none : header.qos = .atMostOnce := qos
      simp only [MqttDecoder.readQosPid, none]
      rfl
  | atLeastOnce pid =>
      have once : header.qos = .atLeastOnce := qos
      simp only [MqttDecoder.readQosPid, once, QosPid.bytes, ServerPacket.readPid_bytes]
      rfl
  | exactlyOnce pid =>
      have once : header.qos = .exactlyOnce := qos
      simp only [MqttDecoder.readQosPid, once, QosPid.bytes, ServerPacket.readPid_bytes]
      rfl

/-- The range of some properties, which exist with feature `mqttv5` only. -/
def propertiesRange : Protocol → ℕ → List UInt8 → Option Range
  | .mqttv3, _, _ => none
  | .mqttv5, start, properties =>
      some ⟨start, start + (propertyBytes .mqttv5 properties).length⟩

theorem readPropertiesRange_bytes {protocol : Protocol}
    (fits : (propertyBytes protocol properties).length < 2 ^ 28) (rest : List UInt8)
    (offset headerLen : ℕ) (header : FixedHeader) :
    (MqttDecoder.mk (propertyBytes protocol properties ++ rest) offset headerLen
        header).readPropertiesRange protocol =
      .ok (propertiesRange protocol offset properties,
        ⟨rest, offset + (propertyBytes protocol properties).length, headerLen, header⟩) := by
  cases protocol with
  | mqttv3 => rfl
  | mqttv5 =>
      have inside : properties.length < 2 ^ 28 := by
        simp only [propertyBytes, List.length_append] at fits
        omega
      simp only [propertyBytes, List.append_assoc, MqttDecoder.readPropertiesRange,
        MqttDecoder.readProperties_encode inside, propertiesRange, List.length_append,
        Nat.add_assoc]
      rfl

theorem Range.slice_append (before bytes after : List UInt8) :
    Range.slice ⟨before.length, before.length + bytes.length⟩ (before ++ bytes ++ after) = bytes := by
  rw [Range.slice, ← List.length_append, List.take_left]
  exact List.drop_left

/-- The message of a PUBLISH with the given parts. -/
def publishMessage (config : CrateConfig) (packet : ServerPacket) (qosPid : QosPid)
    (topicName : Utf8) (properties payload : List UInt8) : Message :=
  let topicStart := (packet.headerBytes config).length + 2
  let propertiesStart := topicStart + topicName.bytes.length + qosPid.bytes.length
  let payloadStart := propertiesStart + (propertyBytes config.protocol properties).length
  { grant := packet.bytes config
    header := packet.fixedHeader config
    qosPid := qosPid
    topicName := ⟨topicStart, topicStart + topicName.bytes.length⟩
    payload := ⟨payloadStart, payloadStart + payload.length⟩
    properties := propertiesRange config.protocol propertiesStart properties }

variable {packet : ServerPacket}
  (isPublish : packet = .publish dup retain qosPid topicName properties payload)

include isPublish

theorem tryNew_publish (wellFormed : packet.WellFormed config) :
    Message.tryNew config (packet.bytes config) =
      .ok (publishMessage config packet qosPid topicName properties payload) := by
  have headerQos : (packet.fixedHeader config).qos = qosPid.qos := by rw [isPublish]; rfl
  have encodable := wellFormed.encodable
  have supported := wellFormed.supported
  rw [isPublish] at supported
  rcases ServerPacket.u16Bytes_eq supported.2 with ⟨high, low, split, value⟩
  have body_eq : packet.body config = high :: low :: (topicName.bytes ++
      (qosPid.bytes ++ (propertyBytes config.protocol properties ++ payload))) := by
    rw [isPublish]
    simp [ServerPacket.body, split]
  have length : (packet.body config).length = 2 + topicName.bytes.length + qosPid.bytes.length +
      (propertyBytes config.protocol properties).length + payload.length := by
    simp only [body_eq, List.length_cons, List.length_append]
    omega
  have created := ServerPacket.tryNew_headerBytes wellFormed (packet.body config)
  have remaining : (packet.decoder config (packet.body config)).checkRemaining
      (packet.fixedHeader config).remainingLen = .ok () :=
    if_neg (Nat.lt_irrefl _)
  have topic := MqttDecoder.readStr_cons
    (qosPid.bytes ++ (propertyBytes config.protocol properties ++ payload))
    (packet.headerBytes config).length (packet.headerBytes config).length
    (packet.fixedHeader config) value
  have pid := readQosPid_bytes (propertyBytes config.protocol properties ++ payload)
    ((packet.headerBytes config).length + 2 + topicName.bytes.length)
    (packet.headerBytes config).length headerQos
  have short : (propertyBytes config.protocol properties).length < 2 ^ 28 := by omega
  have block := readPropertiesRange_bytes short payload
    ((packet.headerBytes config).length + 2 + topicName.bytes.length + qosPid.bytes.length)
    (packet.headerBytes config).length (packet.fixedHeader config)
  have rest := ServerPacket.readPayload_codes payload
    ((packet.headerBytes config).length + 2 + topicName.bytes.length + qosPid.bytes.length +
      (propertyBytes config.protocol properties).length)
    (packet.headerBytes config).length (packet.fixedHeader config)
    (by simp only [ServerPacket.fixedHeader]; omega)
  have header : (packet.decoder config (packet.body config)).fixedHeader =
    packet.fixedHeader config := rfl
  rw [Message.tryNew, ServerPacket.bytes, created]
  simp only [bind, Except.bind]
  rw [header, remaining]
  simp only [ServerPacket.decoder, body_eq, topic, pid, block, rest]
  rw [publishMessage, ServerPacket.bytes, body_eq]

theorem publishMessage_fields :
    let message := publishMessage config packet qosPid topicName properties payload
    message.dup = dup ∧ message.retain = retain ∧ message.qosPid = qosPid ∧
      message.topicNameBytes = topicName.bytes ∧ message.payloadBytes = payload := by
  have whole : packet.bytes config = packet.headerBytes config ++ u16Bytes topicName.bytes.length ++
      topicName.bytes ++ (qosPid.bytes ++ propertyBytes config.protocol properties ++ payload) := by
    rw [ServerPacket.bytes, isPublish]
    simp [ServerPacket.body]
  have front : (packet.headerBytes config ++ u16Bytes topicName.bytes.length).length =
      (packet.headerBytes config).length + 2 := List.length_append
  refine ⟨?_, ?_, rfl, ?_, ?_⟩
  · rw [isPublish]
    rfl
  · rw [isPublish]
    rfl
  · rw [Message.topicNameBytes, publishMessage]
    dsimp only
    rw [whole, ← front]
    exact Range.slice_append _ _ _
  · have ending : packet.bytes config = packet.headerBytes config ++
        u16Bytes topicName.bytes.length ++ topicName.bytes ++ qosPid.bytes ++
          propertyBytes config.protocol properties ++ payload ++ [] := by
      rw [whole]
      simp
    have before : (packet.headerBytes config ++ u16Bytes topicName.bytes.length ++
        topicName.bytes ++ qosPid.bytes ++ propertyBytes config.protocol properties).length =
        (packet.headerBytes config).length + 2 + topicName.bytes.length + qosPid.bytes.length +
          (propertyBytes config.protocol properties).length := by
      rw [List.length_append, List.length_append, List.length_append, front]
    rw [Message.payloadBytes, publishMessage]
    dsimp only
    rw [ending, ← before]
    exact Range.slice_append _ _ _

/-- The properties of the message are the block together with the length in front of it. -/
theorem publishMessage_propertyBlock (v5 : config.protocol = .mqttv5) :
    (publishMessage config packet qosPid topicName properties payload).propertyBlock =
      some (.dataBlock (Varint.encode properties.length ++ properties)) := by
  have whole : packet.bytes config = packet.headerBytes config ++ u16Bytes topicName.bytes.length ++
      topicName.bytes ++ qosPid.bytes ++ propertyBytes .mqttv5 properties ++ payload := by
    rw [ServerPacket.bytes, isPublish]
    simp [ServerPacket.body, v5]
  have before : (packet.headerBytes config ++ u16Bytes topicName.bytes.length ++
      topicName.bytes ++ qosPid.bytes).length =
      (packet.headerBytes config).length + 2 + topicName.bytes.length + qosPid.bytes.length := by
    simp only [List.length_append]
    rfl
  rw [Message.propertyBlock, publishMessage]
  simp only [v5, propertiesRange, Option.map_some]
  rw [whole, ← before, Range.slice_append]
  rfl

omit isPublish

end Publish

/-- Iterating over the properties of a message never gives the properties of the packet: the length
in front of the block is taken for a part of it. -/
theorem message_properties_ne {config : CrateConfig} (v5 : config.protocol = .mqttv5)
    {dup retain : Bool} {qosPid : QosPid} {topicName : Utf8} {block payload : List UInt8}
    (wellFormed : (ServerPacket.publish dup retain qosPid topicName block payload).WellFormed
      config)
    {properties : List Property}
    (items : (Properties.dataBlock block).iter = some (properties.map .ok)) :
    ∃ message received,
      Message.tryNew config
          ((ServerPacket.publish dup retain qosPid topicName block payload).bytes config) =
        .ok message ∧
      message.propertyBlock = some received ∧ received.iter ≠ some (properties.map .ok) := by
  refine ⟨_, _, tryNew_publish rfl wellFormed, publishMessage_propertyBlock rfl v5, ?_⟩
  have same : PropertiesIter.collect block = properties.map .ok := Option.some.inj items
  rw [← same]
  intro impossible
  exact PropertiesIter.collect_encode_append_ne same block.length (Option.some.inj impossible)

theorem message_properties_ne_example :
    ∃ message received,
      Message.tryNew (.default .mqttv5 true) ((ServerPacket.publish false true (.atLeastOnce .new)
          ⟨[0x61], rfl⟩ [0x23, 0x00, 0x07] [1, 2]).bytes (.default .mqttv5 true)) = .ok message ∧
      message.propertyBlock = some received ∧
      received.iter ≠ some ([.topicAlias 7].map .ok) :=
  message_properties_ne rfl
    ⟨⟨by decide, (by decide : ([0x61] : List UInt8).length < 65536)⟩, by decide⟩ (by decide)

/-- Without properties, the length is an invalid property. -/
theorem message_properties_of_empty :
    (ServerPacket.publish false false .atMostOnce ⟨[0x61], rfl⟩ [] []).WellFormed
        (.default .mqttv5 true) ∧
      ∃ message received,
        Message.tryNew (.default .mqttv5 true) ((ServerPacket.publish false false .atMostOnce
            ⟨[0x61], rfl⟩ [] []).bytes (.default .mqttv5 true)) = .ok message ∧
        message.propertyBlock = some received ∧
        received.iter = some [.error (.invalidProperty 0x00)] := by
  have wellFormed : (ServerPacket.publish false false .atMostOnce ⟨[0x61], rfl⟩ [] []).WellFormed
      (.default .mqttv5 true) :=
    ⟨⟨by decide, (by decide : ([0x61] : List UInt8).length < 65536)⟩, by decide⟩
  exact ⟨wellFormed, _, _, tryNew_publish rfl wellFormed, publishMessage_propertyBlock rfl rfl, rfl⟩

end Mqttrust
