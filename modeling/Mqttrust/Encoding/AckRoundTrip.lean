import Mqttrust.Encoding.PublishRoundTrip

/-!
# Acknowledgements that are encoded and decoded

The packets that acknowledge something, and a DISCONNECT, have an abbreviated form
that the encoder chooses by the reason code and the size of the properties, and the
decoder by the remaining length. Both choices agree, so a packet that is encoded is
decoded again, with properties that are the same when they are iterated over.
-/

namespace Mqttrust

open MqttEncoder

/-- The packets that acknowledge something, and `Disconnect`. -/
inductive Acknowledgement where
  | ack (packet : AckPacket)
  | codesAck (packet : CodesAckPacket)
  | connAck (packet : ConnAckPacket)
  | disconnect (packet : DisconnectPacket)

/-- The decoder of a packet type. -/
def AckKind.fromDecoder (config : CrateConfig) : AckKind → MqttDecoder → Except Fault Ack
  | pubAck => PubAck.fromDecoder config
  | pubRec => PubRec.fromDecoder config
  | pubRel => PubRel.fromDecoder config
  | pubComp => PubComp.fromDecoder config

namespace CodesKind

/-- The decoder of a packet type. -/
def fromDecoder (config : CrateConfig) : CodesKind → MqttDecoder → Except Fault CodesAck
  | subAck => SubAck.fromDecoder config
  | unsubAck => UnsubAck.fromDecoder config

/-- The received packet. -/
def received : CodesKind → CodesAck → ReceivedPacket
  | subAck => .subAck
  | unsubAck => .unsubAck

/-- The reason codes of the packet type. -/
def reasonCode (config : CrateConfig) : CodesKind → UInt8 → ReasonCode
  | subAck => SubAckReasonCode.fromPrimitive config.protocol
  | unsubAck => UnsubAckReasonCode.fromPrimitive

end CodesKind

/-- Properties that were received are those that were sent when both are iterated over. -/
def SameProperties (protocol : Protocol) (received : Option (List UInt8)) (sent : Properties) :
    Prop :=
  match protocol with
  | .mqttv3 => received = none
  | .mqttv5 => ∃ block, received = some block ∧ (Properties.dataBlock block).iter = sent.iter

/-- Properties given as a slice without a subscription identifier, of strings that can be
represented. -/
def PlainSlice (properties : Properties) : Prop :=
  ∃ list, properties = .slice list ∧
    ∀ property ∈ list, property.Representable ∧ ∀ id, property ≠ .subscriptionIdentifier id

namespace Acknowledgement

/-- Encodes the packet. -/
def encode (config : CrateConfig) (buf : List UInt8) :
    Acknowledgement → Except EncodeFault (List UInt8)
  | ack packet => encodePacket config buf packet
  | codesAck packet => encodePacket config buf packet
  | connAck packet => encodePacket config buf packet
  | disconnect packet => encodePacket config buf packet

/-- Decodes a packet of the same type. -/
def fromDecoder (config : CrateConfig) (decoder : MqttDecoder) :
    Acknowledgement → Except Fault ReceivedPacket
  | ack packet => packet.kind.received <$> packet.kind.fromDecoder config decoder
  | codesAck packet => packet.kind.received <$> packet.kind.fromDecoder config decoder
  | connAck _ => .connAck <$> ConnAck.fromDecoder config decoder
  | disconnect _ => .disconnect <$> Disconnect.fromDecoder config decoder

/-- How the packet is written. -/
def writes (config : CrateConfig) : Acknowledgement → List Write
  | ack packet => packet.writes config
  | codesAck packet => packet.writes config
  | connAck packet => packet.writes config
  | disconnect packet => packet.writes config

/-- The properties of the packet. -/
def properties : Acknowledgement → Properties
  | ack packet => packet.properties
  | codesAck packet => packet.properties
  | connAck packet => packet.properties
  | disconnect packet => packet.properties

/-- The reason codes are some of their enumeration, no more of them than a vector can hold, and the
type exists with the selected features. -/
def CodesValid (config : CrateConfig) : Acknowledgement → Prop
  | ack packet => packet.kind.typ.supported config = true ∧
      (config.protocol = .mqttv5 → packet.kind.reasonCode packet.reasonCode = packet.reasonCode)
  | codesAck packet =>
      (∀ code ∈ packet.presentCodes config, packet.kind.reasonCode config code = code) ∧
        (packet.presentCodes config).length ≤ config.maxSubTopicsPerMsg
  | connAck packet =>
      ConnAckReasonCode.fromPrimitive config.protocol packet.reasonCode = packet.reasonCode
  | disconnect packet =>
      DisconnectReasonCode.fromPrimitive config.protocol packet.reasonCode = packet.reasonCode

/-- The packets of the crate with properties given as a slice. -/
structure Valid (config : CrateConfig) (packet : Acknowledgement) : Prop where
  codes : packet.CodesValid config
  properties : config.protocol = .mqttv5 → PlainSlice packet.properties

/-- A received packet is the packet that was sent. -/
def Equals (config : CrateConfig) (received : ReceivedPacket) : Acknowledgement → Prop
  | ack packet => ∃ ack, received = packet.kind.received ack ∧ ack.pid = packet.pid ∧
      ack.detail.map Prod.fst = (match config.protocol with
        | .mqttv3 => none
        | .mqttv5 => some packet.reasonCode) ∧
      SameProperties config.protocol (ack.detail.map Prod.snd) packet.properties
  | codesAck packet => ∃ ack, received = packet.kind.received ack ∧ ack.pid = packet.pid ∧
      ack.codes = packet.presentCodes config ∧
      SameProperties config.protocol ack.properties packet.properties
  | connAck packet => ∃ ack, received = .connAck ack ∧
      ack.sessionPresent = packet.sessionPresent ∧ ack.reasonCode = packet.reasonCode ∧
      SameProperties config.protocol ack.properties packet.properties
  | disconnect packet => ∃ disconnect, received = .disconnect disconnect ∧
      disconnect.reasonCode = packet.reasonCode ∧
      SameProperties config.protocol disconnect.properties packet.properties

/-- The packet is encoded, and its bytes are decoded to the packet. -/
def RoundTrips (config : CrateConfig) (buf : List UInt8) (packet : Acknowledgement) : Prop :=
  ∃ bytes decoder received, packet.encode config buf = .ok bytes ∧
    MqttDecoder.tryNew config bytes = .ok decoder ∧
    packet.fromDecoder config decoder = .ok received ∧ packet.Equals config received

end Acknowledgement

/-- The decoder behind the fixed header of a packet without flags. -/
def bodyDecoder (typ : PacketType) (body : List UInt8) : MqttDecoder where
  rest := body
  offset := (Varint.encode body.length).length + 1
  headerLen := (Varint.encode body.length).length + 1
  fixedHeader := ⟨typ, false, .atMostOnce, false, body.length⟩

theorem tryNew_packetBytes {config : CrateConfig} {typ : PacketType}
    (supported : typ.supported config = true) {body : List UInt8} (small : body.length < 2 ^ 28) :
    MqttDecoder.tryNew config (packetBytes (typ.toByte ||| 0) body) =
      .ok (bodyDecoder typ body) := by
  have more : Varint.encode body.length ++ body ≠ [] := by simp [Varint.encode_ne_nil]
  have bits : ∀ typ : PacketType, (typ.toByte ||| 0) &&& 0xF0 = typ.toByte ∧
      ((typ.toByte ||| 0) &&& 0x06) >>> 1 = 0 ∧
      ((typ.toByte ||| 0) &&& 0x08 == 0x08) = false ∧
      ((typ.toByte ||| 0) &&& 0x01 == 0x01) = false := by
    intro typ
    cases typ <;> decide
  rcases bits typ with ⟨upper, qos, dup, retain⟩
  rw [packetBytes, MqttDecoder.tryNew_cons config _ more, upper,
    PacketType.tryFrom_toByte supported, MqttDecoder.readLen_encode small, qos, dup, retain]
  simp [QoS.tryFrom, bodyDecoder]

theorem Property.length_bytes_of_representable {property : Property}
    (representable : property.Representable) : property.bytes.length < 2 ^ 32 := by
  cases property with
  | contentType | responseTopic | assignedClientIdentifier | authenticationMethod
  | responseInformation | serverReference | reasonString | correlationData
  | authenticationData =>
      simp only [Representable] at representable
      simp only [bytes, content, List.length_cons, length_sliceBytes]
      omega
  | userProperty key value =>
      simp only [Representable] at representable
      simp only [bytes, content, List.length_cons, List.length_append, length_sliceBytes]
      omega
  | subscriptionIdentifier id =>
      have := Varint.encode_length_le id.toNat
      simp only [bytes, content, List.length_cons]
      omega
  | _ => simp [bytes, content, u16Bytes, u32Bytes]

namespace PlainSlice

variable {properties : Properties}

theorem plain (slice : PlainSlice properties) : properties.Plain := by
  rcases slice with ⟨list, rfl, each⟩
  exact ⟨fun _ => Properties.noConfusion, fun property mem => (each property mem).2⟩

theorem encodable (slice : PlainSlice properties) : properties.Encodable := by
  rcases slice with ⟨list, rfl, each⟩
  exact
    { varintFits := fun property mem => (each property mem).1.varintFits
      short := fun property mem => Property.length_bytes_of_representable (each property mem).1 }

theorem size_eq (slice : PlainSlice properties) :
    properties.size = some properties.blockBytes.length := by
  rcases slice.encodable.size_eq with ⟨size, sized, rfl | ⟨block, isBlock, _⟩⟩
  · rw [sized, slice.plain.excess_eq, Nat.add_zero]
  · exact absurd isBlock (slice.plain.isList block)

theorem iter_blockBytes (slice : PlainSlice properties) :
    (Properties.dataBlock properties.blockBytes).iter = properties.iter := by
  rcases slice with ⟨list, rfl, each⟩
  exact congrArg some
    (PropertiesIter.collect_flatMap_bytes fun property mem => (each property mem).1)

theorem length_blockBytes_le {config : CrateConfig} (v5 : config.protocol = .mqttv5) :
    properties.blockBytes.length ≤ (Write.allBytes (properties.v5Writes config)).length := by
  simp only [Properties.v5Writes, v5, Properties.writes, Write.allBytes_cons,
    Properties.allBytes_blockWrites, List.length_append]
  omega

theorem allBytes_v5Writes {config : CrateConfig}
    (slice : config.protocol = .mqttv5 → PlainSlice properties)
    (small : (Write.allBytes (properties.v5Writes config)).length < 2 ^ 28) :
    Write.allBytes (properties.v5Writes config) =
      propertyBytes config.protocol properties.blockBytes := by
  cases protocol : config.protocol with
  | mqttv3 =>
      unfold Properties.v5Writes
      rw [protocol]
      rfl
  | mqttv5 =>
      have shorter : properties.blockBytes.length ≤ _ := length_blockBytes_le protocol
      have modulus : properties.blockBytes.length % 2 ^ 32 = properties.blockBytes.length :=
        Nat.mod_eq_of_lt (by omega)
      simp only [Properties.v5Writes, protocol, (slice protocol).size_eq, Option.getD_some,
        Properties.writes, Write.allBytes_cons, Properties.allBytes_blockWrites, Write.bytes,
        propertyBytes, modulus]

theorem sameProperties {protocol : Protocol} (slice : protocol = .mqttv5 → PlainSlice properties) :
    SameProperties protocol (receivedProperties protocol properties.blockBytes) properties := by
  cases protocol with
  | mqttv3 => rfl
  | mqttv5 => exact ⟨_, rfl, (slice rfl).iter_blockBytes⟩

end PlainSlice

namespace Acknowledgement

variable {config : CrateConfig} {packet : Acknowledgement}

/-- The packet type. -/
def typ : Acknowledgement → PacketType
  | ack packet => packet.kind.typ
  | codesAck packet => packet.kind.typ
  | connAck _ => .connAck
  | disconnect _ => .disconnect

theorem typ_supported (valid : packet.Valid config) : packet.typ.supported config = true := by
  cases packet with
  | ack packet => exact valid.codes.1
  | codesAck packet =>
      rcases packet with ⟨kind, pid, properties, codes⟩
      cases kind <;> rfl
  | connAck packet => rfl
  | disconnect packet => rfl

theorem encode_eq_ok (valid : packet.Valid config) {buf bytes : List UInt8}
    (header : maxMqttHeaderLen ≤ buf.length) :
    packet.encode config buf = .ok bytes ↔
      Write.Fits (buf.length - maxMqttHeaderLen) (packet.writes config) ∧
        (Write.allBytes (packet.writes config)).length < 2 ^ 28 ∧
        bytes = packetBytes (packet.typ.toByte ||| 0) (Write.allBytes (packet.writes config)) := by
  have encodable : config.protocol = .mqttv5 → packet.properties.Encodable :=
    fun v5 => (valid.properties v5).encodable
  cases packet with
  | ack packet => exact encodePacket_eq_ok (AckPacket.performs encodable) header
  | codesAck packet => exact encodePacket_eq_ok (CodesAckPacket.performs encodable) header
  | connAck packet => exact encodePacket_eq_ok (ConnAckPacket.performs encodable) header
  | disconnect packet => exact encodePacket_eq_ok (DisconnectPacket.performs encodable) header

end Acknowledgement

section Decoding

variable {config : CrateConfig}

theorem sizeZero_iff {properties : Properties} (slice : PlainSlice properties) :
    properties.size = some 0 ↔ properties.blockBytes = [] := by
  rw [slice.size_eq, Option.some.injEq, List.length_eq_zero_iff]

/-- How an acknowledgement goes on behind its packet identifier. -/
def AckPacket.tail (config : CrateConfig) (packet : AckPacket) : Tail :=
  match config.protocol with
  | .mqttv3 => .none
  | .mqttv5 =>
      if packet.reasonCode = 0x00 ∧ packet.properties.blockBytes = [] then .none
      else .full packet.reasonCode packet.properties.blockBytes

theorem AckPacket.allBytes_writes {packet : AckPacket}
    (slice : config.protocol = .mqttv5 → PlainSlice packet.properties)
    (small : (Write.allBytes (packet.writes config)).length < 2 ^ 28) :
    Write.allBytes (packet.writes config) = packet.pid.bytes ++ (packet.tail config).bytes := by
  unfold writes detailWrites at small ⊢
  unfold tail
  cases protocol : config.protocol with
  | mqttv3 => rfl
  | mqttv5 =>
      simp only [protocol, sizeZero_iff (slice protocol)] at small ⊢
      split
      · rfl
      · rename_i detailed
        rw [if_neg detailed] at small
        have writes_eq : packet.properties.writes (packet.properties.size.getD 0) =
            packet.properties.v5Writes config := by
          rw [Properties.v5Writes, protocol]
        rw [writes_eq] at small ⊢
        simp only [Write.allBytes_cons, Write.bytes, List.length_append] at small ⊢
        rw [PlainSlice.allBytes_v5Writes slice (by omega), protocol]
        rfl

theorem AckPacket.exists_fromDecoder {packet : AckPacket}
    (slice : config.protocol = .mqttv5 → PlainSlice packet.properties)
    (code : config.protocol = .mqttv5 → packet.kind.reasonCode packet.reasonCode = packet.reasonCode)
    (small : (Write.allBytes (packet.writes config)).length < 2 ^ 28) :
    ∃ received,
      packet.kind.received <$> packet.kind.fromDecoder config
          (bodyDecoder packet.kind.typ (Write.allBytes (packet.writes config))) = .ok received ∧
        (Acknowledgement.ack packet).Equals config received := by
  have body := allBytes_writes slice small
  have wellFormed : (packet.tail config).WellFormed config.protocol := by
    unfold tail
    cases config.protocol with
    | mqttv3 => trivial
    | mqttv5 =>
        by_cases short : packet.reasonCode = 0x00 ∧ packet.properties.blockBytes = []
        · simp only [short, and_self, if_true]
          trivial
        · simp only [short, if_false]
          trivial
  rw [body, List.length_append, ServerPacket.length_pidBytes] at small
  have decoded := ServerPacket.ack_fromDecoder
    ((Varint.encode (packet.pid.bytes ++ (packet.tail config).bytes).length).length + 1)
    ((Varint.encode (packet.pid.bytes ++ (packet.tail config).bytes).length).length + 1)
    ⟨packet.kind.typ, false, .atMostOnce, false,
      (packet.pid.bytes ++ (packet.tail config).bytes).length⟩
    packet.kind.reasonCode packet.pid wellFormed (by omega)
    (by rw [List.length_append, ServerPacket.length_pidBytes])
  refine ⟨packet.kind.received ⟨packet.pid,
    (packet.tail config).detail packet.kind.reasonCode config.protocol⟩, ?_, _, rfl, rfl, ?_⟩
  · rw [body, bodyDecoder]
    cases kind : packet.kind <;>
      simp only [kind, AckKind.fromDecoder, PubAck.fromDecoder, PubRec.fromDecoder,
        PubRel.fromDecoder, PubComp.fromDecoder, AckKind.reasonCode] at decoded ⊢ <;>
      rw [decoded] <;> rfl
  · unfold tail
    cases protocol : config.protocol with
    | mqttv3 => exact ⟨rfl, rfl⟩
    | mqttv5 =>
        dsimp only
        split
        · rename_i short
          refine ⟨by rw [short.1]; rfl, [], rfl, ?_⟩
          rw [← (slice protocol).iter_blockBytes, short.2]
        · refine ⟨?_, packet.properties.blockBytes, rfl, (slice protocol).iter_blockBytes⟩
          exact congrArg some (code protocol)

theorem CodesAckPacket.exists_fromDecoder {packet : CodesAckPacket}
    (slice : config.protocol = .mqttv5 → PlainSlice packet.properties)
    (valid : (Acknowledgement.codesAck packet).CodesValid config)
    (small : (Write.allBytes (packet.writes config)).length < 2 ^ 28) :
    ∃ received,
      packet.kind.received <$> packet.kind.fromDecoder config
          (bodyDecoder packet.kind.typ (Write.allBytes (packet.writes config))) = .ok received ∧
        (Acknowledgement.codesAck packet).Equals config received := by
  have parts : (Write.allBytes (packet.writes config)) = packet.pid.bytes ++
      (Write.allBytes (packet.properties.v5Writes config) ++ packet.presentCodes config) := by
    simp [writes, Write.bytes]
  have fits : (Write.allBytes (packet.properties.v5Writes config)).length < 2 ^ 28 := by
    rw [parts] at small
    simp only [List.length_append] at small
    omega
  rw [PlainSlice.allBytes_v5Writes slice fits] at parts fits
  have same : (packet.presentCodes config).map (packet.kind.reasonCode config) =
      packet.presentCodes config := (List.map_congr_left valid.1).trans (List.map_id' _)
  have length : (Write.allBytes (packet.writes config)).length =
      2 + (propertyBytes config.protocol packet.properties.blockBytes).length +
        (packet.presentCodes config).length := by
    rw [parts, List.length_append, List.length_append, ServerPacket.length_pidBytes, Nat.add_assoc]
  refine ⟨packet.kind.received ⟨packet.pid,
    receivedProperties config.protocol packet.properties.blockBytes, packet.presentCodes config⟩,
    ?_, _, rfl, rfl, rfl, PlainSlice.sameProperties slice⟩
  rw [bodyDecoder, length, parts]
  cases kind : packet.kind with
  | subAck =>
      have decoded := @ServerPacket.subAck_fromDecoder config _ (packet.presentCodes config)
        ((Varint.encode (2 + (propertyBytes config.protocol packet.properties.blockBytes).length +
          (packet.presentCodes config).length)).length + 1) _
        ⟨CodesKind.subAck.typ, false, .atMostOnce, false, _⟩ packet.pid fits rfl
      rw [kind] at same
      rw [if_pos valid.2, ← CodesKind.reasonCode, same] at decoded
      rw [CodesKind.fromDecoder, decoded]
      rfl
  | unsubAck =>
      have noCodes : config.protocol = .mqttv3 → packet.presentCodes config = [] := by
        intro v3
        rw [presentCodes, kind, v3]
      have decoded := @ServerPacket.unsubAck_fromDecoder config _ (packet.presentCodes config)
        ((Varint.encode (2 + (propertyBytes config.protocol packet.properties.blockBytes).length +
          (packet.presentCodes config).length)).length + 1) _
        ⟨CodesKind.unsubAck.typ, false, .atMostOnce, false, _⟩ packet.pid fits noCodes rfl
      rw [kind] at same
      rw [if_pos valid.2, ← CodesKind.reasonCode, same] at decoded
      rw [CodesKind.fromDecoder, decoded]
      rfl

theorem ConnAckPacket.exists_fromDecoder {packet : ConnAckPacket}
    (slice : config.protocol = .mqttv5 → PlainSlice packet.properties)
    (code : ConnAckReasonCode.fromPrimitive config.protocol packet.reasonCode = packet.reasonCode)
    (small : (Write.allBytes (packet.writes config)).length < 2 ^ 28) :
    ∃ received,
      ReceivedPacket.connAck <$> ConnAck.fromDecoder config
          (bodyDecoder .connAck (Write.allBytes (packet.writes config))) = .ok received ∧
        (Acknowledgement.connAck packet).Equals config received := by
  have parts : Write.allBytes (packet.writes config) =
      packet.sessionPresent.toUInt8 :: packet.reasonCode ::
        Write.allBytes (packet.properties.v5Writes config) := rfl
  have fits : (Write.allBytes (packet.properties.v5Writes config)).length < 2 ^ 28 := by
    rw [parts] at small
    simp only [List.length_cons] at small
    omega
  have flag : packet.sessionPresent.toUInt8 = if packet.sessionPresent then 0x01 else 0x00 := by
    cases packet.sessionPresent <;> rfl
  rw [PlainSlice.allBytes_v5Writes slice fits, flag] at parts
  rw [PlainSlice.allBytes_v5Writes slice fits] at fits
  refine ⟨.connAck ⟨packet.sessionPresent, packet.reasonCode,
    receivedProperties config.protocol packet.properties.blockBytes⟩, ?_, _, rfl, rfl, rfl,
    PlainSlice.sameProperties slice⟩
  rw [parts, bodyDecoder, ServerPacket.connAck_fromDecoder _ _ _ _ _ fits, code]
  rfl

theorem DisconnectPacket.allBytes_writes {packet : DisconnectPacket}
    (slice : config.protocol = .mqttv5 → PlainSlice packet.properties)
    (code : DisconnectReasonCode.fromPrimitive config.protocol packet.reasonCode = packet.reasonCode)
    (small : (Write.allBytes (packet.writes config)).length < 2 ^ 28) :
    (packet.reasonCode = DisconnectReasonCode.normal ∧
      (config.protocol = .mqttv5 → packet.properties.blockBytes = []) ∧
      (Write.allBytes (packet.writes config)).length < 2) ∨
    (config.protocol = .mqttv5 ∧ Write.allBytes (packet.writes config) =
      (Tail.full packet.reasonCode packet.properties.blockBytes).bytes) := by
  unfold writes codeWrites at small ⊢
  rw [Write.allBytes_append, List.length_append] at small
  rw [Write.allBytes_append, PlainSlice.allBytes_v5Writes slice (by omega)]
  cases protocol : config.protocol with
  | mqttv3 =>
      have normal : packet.reasonCode = DisconnectReasonCode.normal := by
        rw [protocol] at code
        rw [← code]
        change (if packet.reasonCode ∈ [0x00] then packet.reasonCode
          else DisconnectReasonCode.normal) = _
        split
        · rename_i listed
          exact List.mem_singleton.mp listed
        · rfl
      refine Or.inl ⟨normal, nofun, ?_⟩
      simp [normal, propertyBytes]
  | mqttv5 =>
      simp only [sizeZero_iff (slice protocol), reduceCtorEq, false_or]
      by_cases short : packet.reasonCode = DisconnectReasonCode.normal ∧
          packet.properties.blockBytes = []
      · refine Or.inl ⟨short.1, fun _ => short.2, ?_⟩
        rw [if_pos short, short.2]
        decide
      · refine Or.inr ⟨trivial, ?_⟩
        rw [if_neg short]
        rfl

theorem DisconnectPacket.exists_fromDecoder {packet : DisconnectPacket}
    (slice : config.protocol = .mqttv5 → PlainSlice packet.properties)
    (code : DisconnectReasonCode.fromPrimitive config.protocol packet.reasonCode = packet.reasonCode)
    (small : (Write.allBytes (packet.writes config)).length < 2 ^ 28) :
    ∃ received,
      ReceivedPacket.disconnect <$> Disconnect.fromDecoder config
          (bodyDecoder .disconnect (Write.allBytes (packet.writes config))) = .ok received ∧
        (Acknowledgement.disconnect packet).Equals config received := by
  rcases allBytes_writes slice code small with ⟨normal, empty, short⟩ | ⟨v5, full⟩
  · have remaining : (bodyDecoder .disconnect
        (Write.allBytes (packet.writes config))).fixedHeader.remainingLen < 2 := short
    cases protocol : config.protocol with
    | mqttv3 =>
        refine ⟨.disconnect ⟨DisconnectReasonCode.normal, none⟩, ?_, _, rfl, normal.symm, ?_⟩
        · unfold Disconnect.fromDecoder
          rw [if_pos remaining, protocol]
          rfl
        · rw [protocol]
          rfl
    | mqttv5 =>
        refine ⟨.disconnect ⟨DisconnectReasonCode.normal, some []⟩, ?_, _, rfl, normal.symm, ?_⟩
        · unfold Disconnect.fromDecoder
          rw [if_pos remaining, protocol]
          rfl
        · rw [protocol]
          refine ⟨[], rfl, ?_⟩
          rw [← (slice protocol).iter_blockBytes, empty protocol]
  · rw [full] at small ⊢
    have wellFormed : (Tail.full packet.reasonCode packet.properties.blockBytes).WellFormed
        config.protocol := by
      rw [v5]
      trivial
    refine ⟨.disconnect ⟨packet.reasonCode, some packet.properties.blockBytes⟩, ?_, _, rfl, rfl, ?_⟩
    · rw [bodyDecoder, ServerPacket.disconnect_fromDecoder _ _ _ wellFormed small rfl]
      rw [v5] at code ⊢
      rw [Tail.disconnect, code]
      rfl
    · rw [v5]
      exact ⟨_, rfl, (slice v5).iter_blockBytes⟩

end Decoding

namespace Acknowledgement

variable {config : CrateConfig} {packet : Acknowledgement}

/-- A packet is decoded from its body when the length of the body can be announced. -/
theorem exists_fromDecoder (valid : packet.Valid config)
    (small : (Write.allBytes (packet.writes config)).length < 2 ^ 28) :
    ∃ received,
      packet.fromDecoder config
          (bodyDecoder packet.typ (Write.allBytes (packet.writes config))) = .ok received ∧
        packet.Equals config received := by
  cases packet with
  | ack packet => exact AckPacket.exists_fromDecoder valid.properties valid.codes.2 small
  | codesAck packet => exact CodesAckPacket.exists_fromDecoder valid.properties valid.codes small
  | connAck packet => exact ConnAckPacket.exists_fromDecoder valid.properties valid.codes small
  | disconnect packet =>
      exact DisconnectPacket.exists_fromDecoder valid.properties valid.codes small

end Acknowledgement

/-- In a buffer with room for it, a packet whose length can be announced is decoded again if and
only if no check of the remaining space is cut. -/
theorem acknowledgement_roundTrips_iff {config : CrateConfig} {packet : Acknowledgement}
    {buf : List UInt8} (valid : packet.Valid config)
    (small : (Write.allBytes (packet.writes config)).length < 2 ^ 28)
    (enough : maxMqttHeaderLen + (Write.allBytes (packet.writes config)).length ≤ buf.length) :
    packet.RoundTrips config buf ↔
      Write.Fits (buf.length - maxMqttHeaderLen) (packet.writes config) := by
  have header : maxMqttHeaderLen ≤ buf.length := by omega
  constructor
  · rintro ⟨bytes, decoder, received, encoded, _⟩
    exact ((Acknowledgement.encode_eq_ok valid header).mp encoded).1
  · intro fits
    rcases Acknowledgement.exists_fromDecoder valid small with ⟨received, decoded, equals⟩
    exact ⟨_, _, received, (Acknowledgement.encode_eq_ok valid header).mpr ⟨fits, small, rfl⟩,
      tryNew_packetBytes (Acknowledgement.typ_supported valid) small, decoded, equals⟩

theorem acknowledgement_roundTrips_iff_example :
    (Acknowledgement.ack ⟨.pubRec, .new, 0x10, .slice [.reasonString ⟨[0x61], rfl⟩]⟩).RoundTrips
      (.default .mqttv5 true) (List.replicate 32 0) := by
  have valid : (Acknowledgement.ack
      ⟨.pubRec, .new, 0x10, .slice [.reasonString ⟨[0x61], rfl⟩]⟩).Valid (.default .mqttv5 true) :=
    { codes := ⟨rfl, fun _ => rfl⟩
      properties := fun _ => ⟨_, rfl, by simp [Property.Representable]⟩ }
  exact (acknowledgement_roundTrips_iff valid (by decide) (by decide)).mpr (by decide)

theorem length_flatMap_replicate {Part Item : Type} (count : ℕ) (part : Part)
    (encode : Part → List Item) :
    ((List.replicate count part).flatMap encode).length = count * (encode part).length := by
  rw [List.length_flatMap, List.map_replicate, List.sum_replicate]
  rfl

theorem length_blockBytes_replicate (count : ℕ) (property : Property) :
    (Properties.slice (List.replicate count property)).blockBytes.length =
      count * property.bytes.length :=
  length_flatMap_replicate count property Property.bytes

/-- An acknowledgement whose properties are too long for a packet is not encoded in any buffer. -/
theorem not_roundTrips_of_long {config : CrateConfig} {packet : AckPacket}
    (v5 : config.protocol = .mqttv5) (valid : (Acknowledgement.ack packet).Valid config)
    (long : 2 ^ 28 ≤ packet.properties.blockBytes.length) {buf : List UInt8}
    (header : maxMqttHeaderLen ≤ buf.length) :
    ¬(Acknowledgement.ack packet).RoundTrips config buf := by
  rintro ⟨bytes, decoder, received, encoded, _⟩
  have small := ((Acknowledgement.encode_eq_ok valid header).mp encoded).2.1
  have nonempty : packet.properties.blockBytes ≠ [] := by
    rw [← List.length_pos_iff]
    omega
  rw [Acknowledgement.writes, AckPacket.allBytes_writes valid.properties small,
    AckPacket.tail] at small
  simp only [v5, nonempty, and_false, if_false, Tail.bytes, propertyBytes, List.length_append,
    List.length_cons] at small
  omega

theorem not_acknowledgement_roundTrips :
    ∃ packet : Acknowledgement, packet.Valid (.default .mqttv5 true) ∧
      ∀ buf : List UInt8, maxMqttHeaderLen ≤ buf.length →
        ¬packet.RoundTrips (.default .mqttv5 true) buf := by
  obtain ⟨blob, blob_eq⟩ : ∃ blob, blob = List.replicate 65535 (0 : UInt8) := ⟨_, rfl⟩
  have blob_length : blob.length = 65535 := by rw [blob_eq, List.length_replicate]
  obtain ⟨count, count_eq⟩ : ∃ count, count = 4096 := ⟨_, rfl⟩
  have valid : (Acknowledgement.ack ⟨.pubAck, .new, 0x00,
      .slice (List.replicate count (.correlationData blob))⟩).Valid (.default .mqttv5 true) :=
    { codes := ⟨rfl, fun _ => rfl⟩
      properties := by
        intro _
        refine ⟨_, rfl, ?_⟩
        intro property mem
        rw [List.eq_of_mem_replicate mem]
        refine ⟨?_, fun _ => Property.noConfusion⟩
        change blob.length < 65536
        omega }
  refine ⟨_, valid, fun buf header => not_roundTrips_of_long rfl valid ?_ header⟩
  dsimp only
  rw [length_blockBytes_replicate, count_eq, Property.bytes, Property.content, List.length_cons,
    Property.length_sliceBytes, blob_length]
  decide

end Mqttrust
