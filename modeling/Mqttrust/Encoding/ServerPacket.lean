import Mqttrust.Encoding.ReceivedPacket

/-!
# The packets of a broker

An abstract grammar of the packets that a broker sends to a client with the selected
features, their bytes on the wire, and what the client makes of them. Decoding the
bytes of a packet gives back the packet, with the two exceptions that the decoder has:
an acknowledgement that ends with its reason code is taken for a success, and more
reason codes than a vector can hold panic.
-/

namespace Mqttrust

/-- A `u16` as two bytes. -/
def u16Bytes (value : ℕ) : List UInt8 := [(value / 256).toUInt8, (value % 256).toUInt8]

/-- The packets that acknowledge a PUBLISH or another acknowledgement. -/
inductive AckKind where
  | pubAck
  | pubRec
  | pubRel
  | pubComp
deriving DecidableEq, Repr

/-- How an acknowledgement or a DISCONNECT goes on: a reason code and properties can be left out,
or the properties alone. -/
inductive Tail where
  | none
  | short (code : UInt8)
  | full (code : UInt8) (properties : List UInt8)
deriving DecidableEq, Repr

/-- A packet of a broker; properties and reason codes are kept as bytes. -/
inductive ServerPacket where
  | connAck (sessionPresent : Bool) (code : UInt8) (properties : List UInt8)
  | publish (dup retain : Bool) (qosPid : QosPid) (topicName : Utf8)
      (properties payload : List UInt8)
  | ack (kind : AckKind) (pid : Pid) (tail : Tail)
  | subAck (pid : Pid) (properties codes : List UInt8)
  | unsubAck (pid : Pid) (properties codes : List UInt8)
  | pingResp
  | disconnect (tail : Tail)

/-- The packet identifier on the wire. -/
def Pid.bytes (pid : Pid) : List UInt8 := u16Bytes pid.val

/-- The packet identifier of a PUBLISH on the wire. -/
def QosPid.bytes : QosPid → List UInt8
  | .atMostOnce => []
  | .atLeastOnce pid | .exactlyOnce pid => pid.bytes

/-- The bits of a quality of service in the first byte of a PUBLISH. -/
def QoS.flags : QoS → UInt8
  | .atMostOnce => 0x00
  | .atLeastOnce => 0x02
  | .exactlyOnce => 0x04

namespace AckKind

/-- The packet type. -/
def typ : AckKind → PacketType
  | pubAck => .pubAck
  | pubRec => .pubRec
  | pubRel => .pubRel
  | pubComp => .pubComp

/-- The reason codes of the packet type. -/
def reasonCode : AckKind → UInt8 → ReasonCode
  | pubAck => PubAckReasonCode.fromPrimitive
  | pubRec => PubRecReasonCode.fromPrimitive
  | pubRel => PubRelReasonCode.fromPrimitive
  | pubComp => PubCompReasonCode.fromPrimitive

/-- The received packet. -/
def received : AckKind → Ack → ReceivedPacket
  | pubAck => .pubAck
  | pubRec => .pubRec
  | pubRel => .pubRel
  | pubComp => .pubComp

end AckKind

/-- A block of properties on the wire: it exists with feature `mqttv5` only. -/
def propertyBytes : Protocol → List UInt8 → List UInt8
  | .mqttv3, _ => []
  | .mqttv5, properties => Varint.encode properties.length ++ properties

/-- A block of properties as the client keeps it. -/
def receivedProperties : Protocol → List UInt8 → Option (List UInt8)
  | .mqttv3, _ => none
  | .mqttv5, properties => some properties

namespace Tail

/-- The tail on the wire. -/
def bytes : Tail → List UInt8
  | none => []
  | short code => [code]
  | full code properties => code :: propertyBytes .mqttv5 properties

/-- Reason codes and properties exist with feature `mqttv5` only. -/
def WellFormed : Protocol → Tail → Prop
  | _, none => True
  | .mqttv3, _ => False
  | .mqttv5, _ => True

/-- What the client makes of the tail of an acknowledgement: a reason code without properties is
ignored. -/
def detail (reasonCode : UInt8 → ReasonCode) : Protocol → Tail → Option (ReasonCode × List UInt8)
  | .mqttv3, _ => Option.none
  | .mqttv5, full code properties => some (reasonCode code, properties)
  | .mqttv5, _ => some (0x00, [])

/-- What the client makes of the tail of a DISCONNECT. -/
def disconnect : Protocol → Tail → Disconnect
  | .mqttv3, _ => ⟨DisconnectReasonCode.normal, Option.none⟩
  | .mqttv5, full code properties =>
      ⟨DisconnectReasonCode.fromPrimitive .mqttv5 code, some properties⟩
  | .mqttv5, _ => ⟨DisconnectReasonCode.normal, some []⟩

end Tail

namespace ServerPacket

/-- The packet type. -/
def typ : ServerPacket → PacketType
  | connAck .. => .connAck
  | publish .. => .publish
  | ack kind .. => kind.typ
  | subAck .. => .subAck
  | unsubAck .. => .unsubAck
  | pingResp => .pingResp
  | disconnect .. => .disconnect

/-- The lower four bits of the first byte. -/
def flags : ServerPacket → UInt8
  | publish dup retain qosPid .. =>
      (if dup then 0x08 else 0x00) ||| qosPid.qos.flags ||| (if retain then 0x01 else 0x00)
  | ack .pubRel .. => 0x02
  | _ => 0x00

/-- The first byte. -/
def firstByte (packet : ServerPacket) : UInt8 := packet.typ.toByte ||| packet.flags

variable (config : CrateConfig)

/-- What follows the fixed header. -/
def body : ServerPacket → List UInt8
  | connAck sessionPresent code properties =>
      (if sessionPresent then 0x01 else 0x00) :: code :: propertyBytes config.protocol properties
  | publish _ _ qosPid topicName properties payload =>
      u16Bytes topicName.bytes.length ++ topicName.bytes ++
        (qosPid.bytes ++ propertyBytes config.protocol properties ++ payload)
  | ack _ pid tail => pid.bytes ++ tail.bytes
  | subAck pid properties codes => pid.bytes ++ (propertyBytes config.protocol properties ++ codes)
  | unsubAck pid properties codes =>
      pid.bytes ++ (propertyBytes config.protocol properties ++ codes)
  | pingResp => []
  | disconnect tail => tail.bytes

variable (packet : ServerPacket)

/-- The fixed header on the wire. -/
def headerBytes : List UInt8 := packet.firstByte :: Varint.encode (packet.body config).length

/-- The packet on the wire. -/
def bytes : List UInt8 := packet.headerBytes config ++ packet.body config

/-- What the selected features allow a packet to be. -/
def Supported : ServerPacket → Prop
  | publish _ _ qosPid topicName _ _ =>
      (qosPid.qos = .exactlyOnce → config.qos2 = true) ∧ topicName.bytes.length < 65536
  | ack kind _ tail => kind.typ.supported config = true ∧ tail.WellFormed config.protocol
  | unsubAck _ _ codes => config.protocol = .mqttv3 → codes = []
  | disconnect tail => tail.WellFormed config.protocol
  | _ => True

/-- The packets that a broker may send to a client with the selected features. -/
structure WellFormed : Prop where
  supported : packet.Supported config
  encodable : (packet.body config).length < 2 ^ 28

/-- The reason codes fit into a vector of capacity `MAX_SUB_TOPICS_PER_MSG`. -/
def CodesFit : ServerPacket → Prop
  | subAck _ _ codes => codes.length ≤ config.maxSubTopicsPerMsg
  | unsubAck _ _ codes => codes.length ≤ config.maxSubTopicsPerMsg
  | _ => True

instance (packet : ServerPacket) : Decidable (packet.CodesFit config) :=
  match packet with
  | subAck _ _ codes => inferInstanceAs (Decidable (codes.length ≤ config.maxSubTopicsPerMsg))
  | unsubAck _ _ codes => inferInstanceAs (Decidable (codes.length ≤ config.maxSubTopicsPerMsg))
  | connAck .. | publish .. | ack .. | pingResp | disconnect .. => inferInstanceAs (Decidable True)

/-- The quality of service that the decoder reads from the first byte. -/
def headerQos : ServerPacket → QoS
  | publish _ _ qosPid .. => qosPid.qos
  | ack .pubRel .. => .atLeastOnce
  | _ => .atMostOnce

/-- The flag of a duplicate, which only a PUBLISH can have. -/
def dup : ServerPacket → Bool
  | publish dup .. => dup
  | _ => false

/-- The flag of a retained message, which only a PUBLISH can have. -/
def retain : ServerPacket → Bool
  | publish _ retain .. => retain
  | _ => false

/-- The fixed header that the decoder reads. -/
def fixedHeader : FixedHeader where
  typ := packet.typ
  dup := packet.dup
  qos := packet.headerQos
  retain := packet.retain
  remainingLen := (packet.body config).length

/-- What the client makes of the packet when it has received all of it. -/
def received : ServerPacket → ReceivedPacket
  | connAck sessionPresent code properties =>
      .connAck ⟨sessionPresent, ConnAckReasonCode.fromPrimitive config.protocol code,
        receivedProperties config.protocol properties⟩
  | publish dup retain qosPid topicName properties payload =>
      .partialPublish qosPid topicName
        ⟨bytes config (publish dup retain qosPid topicName properties payload),
          (bytes config (publish dup retain qosPid topicName properties payload)).length⟩
  | ack kind pid tail => kind.received ⟨pid, tail.detail kind.reasonCode config.protocol⟩
  | subAck pid properties codes =>
      .subAck ⟨pid, receivedProperties config.protocol properties,
        codes.map (SubAckReasonCode.fromPrimitive config.protocol)⟩
  | unsubAck pid properties codes =>
      .unsubAck ⟨pid, receivedProperties config.protocol properties,
        codes.map UnsubAckReasonCode.fromPrimitive⟩
  | pingResp => .pingResp
  | disconnect tail => .disconnect (tail.disconnect config.protocol)

section Lemmas

variable {config : CrateConfig} {packet : ServerPacket}

theorem typ_supported (supported : packet.Supported config) :
    packet.typ.supported config = true := by
  cases packet with
  | ack kind pid tail => exact supported.1
  | _ => rfl

/-- The first byte of a PUBLISH. -/
def publishByte (dup retain : Bool) (qos : QoS) : UInt8 :=
  0x30 ||| ((if dup then 0x08 else 0x00) ||| qos.flags ||| (if retain then 0x01 else 0x00))

theorem publishByte_bits (dup retain : Bool) (qos : QoS) :
    publishByte dup retain qos &&& 0xF0 = 0x30 ∧
      (publishByte dup retain qos &&& 0x06) >>> 1 = qos.flags >>> 1 ∧
      (publishByte dup retain qos &&& 0x08 == 0x08) = dup ∧
      (publishByte dup retain qos &&& 0x01 == 0x01) = retain := by
  cases dup <;> cases retain <;> cases qos <;> decide

theorem firstByte_publish (dup retain : Bool) (qosPid : QosPid) (topicName : Utf8)
    (properties payload : List UInt8) :
    (publish dup retain qosPid topicName properties payload).firstByte =
      publishByte dup retain qosPid.qos := rfl

theorem firstByte_typ (supported : packet.Supported config) :
    PacketType.tryFrom config (packet.firstByte &&& 0xF0) = some packet.typ := by
  have upper : packet.firstByte &&& 0xF0 = packet.typ.toByte := by
    cases packet with
    | publish dup retain qosPid topicName properties payload =>
        exact (publishByte_bits dup retain qosPid.qos).1
    | ack kind pid tail =>
        cases kind <;> simp only [firstByte, typ, AckKind.typ, flags] <;> decide
    | _ =>
        simp only [firstByte, typ, flags]
        decide
  rw [upper, PacketType.tryFrom_toByte (typ_supported supported)]

theorem tryFrom_flags {qos : QoS} (supported : qos = .exactlyOnce → config.qos2 = true) :
    QoS.tryFrom config (qos.flags >>> 1) = some qos := by
  cases qos with
  | exactlyOnce =>
      have shifted : QoS.exactlyOnce.flags >>> 1 = 2 := by decide
      rw [shifted]
      simp [QoS.tryFrom, supported rfl]
  | atLeastOnce =>
      have shifted : QoS.atLeastOnce.flags >>> 1 = 1 := by decide
      rw [shifted]
      simp [QoS.tryFrom]
  | atMostOnce =>
      have shifted : QoS.atMostOnce.flags >>> 1 = 0 := by decide
      rw [shifted]
      simp [QoS.tryFrom]

theorem firstByte_qos (supported : packet.Supported config) :
    QoS.tryFrom config ((packet.firstByte &&& 0x06) >>> 1) = some packet.headerQos := by
  have bits : (packet.firstByte &&& 0x06) >>> 1 = packet.headerQos.flags >>> 1 := by
    cases packet with
    | publish dup retain qosPid topicName properties payload =>
        exact (publishByte_bits dup retain qosPid.qos).2.1
    | ack kind pid tail =>
        cases kind <;> simp only [firstByte, typ, AckKind.typ, flags, headerQos] <;> decide
    | _ =>
        simp only [firstByte, typ, flags, headerQos]
        decide
  have allowed : packet.headerQos = .exactlyOnce → config.qos2 = true := by
    cases packet with
    | publish dup retain qosPid topicName properties payload => exact supported.1
    | ack kind pid tail => cases kind <;> simp [headerQos]
    | _ => simp [headerQos]
  rw [bits, tryFrom_flags allowed]

theorem firstByte_flags (packet : ServerPacket) :
    (packet.firstByte &&& 0x08 == 0x08) = packet.dup ∧
      (packet.firstByte &&& 0x01 == 0x01) = packet.retain := by
  cases packet with
  | publish dup retain qosPid topicName properties payload =>
      rw [firstByte_publish]
      exact (publishByte_bits dup retain qosPid.qos).2.2
  | ack kind pid tail =>
      cases kind <;> simp only [firstByte, typ, AckKind.typ, flags, dup, retain] <;> decide
  | _ =>
      simp only [firstByte, typ, flags, dup, retain]
      decide

theorem length_headerBytes : (packet.headerBytes config).length =
    (Varint.encode (packet.body config).length).length + 1 := by
  simp [headerBytes]

theorem two_le_length_headerBytes (config : CrateConfig) (packet : ServerPacket) : 2 ≤ (packet.headerBytes config).length := by
  have := List.length_pos_iff.mpr (Varint.encode_ne_nil (packet.body config).length)
  rw [length_headerBytes]
  omega

theorem length_bytes (config : CrateConfig) (packet : ServerPacket) :
    (packet.bytes config).length =
    (packet.headerBytes config).length + (packet.body config).length := by
  simp [bytes]

/-- The decoder behind the fixed header, with some bytes left. -/
def decoder (config : CrateConfig) (packet : ServerPacket) (rest : List UInt8) : MqttDecoder :=
  ⟨rest, (packet.headerBytes config).length, (packet.headerBytes config).length,
    packet.fixedHeader config⟩

theorem packetLen_decoder (rest : List UInt8) :
    (packet.decoder config rest).packetLen = (packet.bytes config).length := by
  simp [decoder, MqttDecoder.packetLen, length_bytes, fixedHeader]

theorem tryNew_headerBytes (wellFormed : packet.WellFormed config) (rest : List UInt8) :
    MqttDecoder.tryNew config (packet.headerBytes config ++ rest) =
      .ok (packet.decoder config rest) := by
  have more : Varint.encode (packet.body config).length ++ rest ≠ [] := by
    simp [Varint.encode_ne_nil]
  have flags := firstByte_flags packet
  rw [headerBytes, List.cons_append, MqttDecoder.tryNew_cons config _ more,
    firstByte_typ wellFormed.supported, MqttDecoder.readLen_encode wellFormed.encodable,
    firstByte_qos wellFormed.supported]
  simp [decoder, fixedHeader, flags.1, flags.2, length_headerBytes]

theorem u16Bytes_eq {value : ℕ} (fits : value < 65536) :
    ∃ high low, u16Bytes value = [high, low] ∧ high.toNat * 256 + low.toNat = value := by
  refine ⟨_, _, rfl, ?_⟩
  simp only [Nat.toUInt8, UInt8.toNat_ofNat']
  omega

@[simp]
theorem readPid_bytes (pid : Pid) (rest : List UInt8) (offset headerLen : ℕ)
    (header : FixedHeader) :
    (MqttDecoder.mk (pid.bytes ++ rest) offset headerLen header).readPid =
      .ok (pid, ⟨rest, offset + 2, headerLen, header⟩) := by
  rcases u16Bytes_eq pid.lt with ⟨high, low, split, value⟩
  simp [MqttDecoder.readPid, Pid.bytes, split, value, bind, Except.bind]

theorem readProperties?_propertyBytes {protocol : Protocol} {properties : List UInt8}
    (fits : (propertyBytes protocol properties).length < 2 ^ 28) (rest : List UInt8)
    (offset headerLen : ℕ) (header : FixedHeader) :
    (MqttDecoder.mk (propertyBytes protocol properties ++ rest) offset headerLen
        header).readProperties? protocol =
      .ok (receivedProperties protocol properties,
        ⟨rest, offset + (propertyBytes protocol properties).length, headerLen, header⟩) := by
  cases protocol with
  | mqttv3 => rfl
  | mqttv5 =>
      have inside : properties.length < 2 ^ 28 := by
        simp only [propertyBytes, List.length_append] at fits
        omega
      simp only [propertyBytes, List.append_assoc, MqttDecoder.readProperties?,
        MqttDecoder.readProperties_encode inside, List.length_append, Nat.add_assoc]
      rfl

theorem length_pidBytes (pid : Pid) : pid.bytes.length = 2 := rfl

section Decoders

variable {protocol : Protocol} {properties codes : List UInt8} (offset headerLen : ℕ)
  (header : FixedHeader)

theorem connAck_fromDecoder (sessionPresent : Bool) (code : UInt8)
    (fits : (propertyBytes config.protocol properties).length < 2 ^ 28) :
    ConnAck.fromDecoder config
        ⟨(if sessionPresent then 0x01 else 0x00) :: code ::
          propertyBytes config.protocol properties, offset, headerLen, header⟩ =
      .ok ⟨sessionPresent, ConnAckReasonCode.fromPrimitive config.protocol code,
        receivedProperties config.protocol properties⟩ := by
  have read := readProperties?_propertyBytes fits [] (offset + 1 + 1) headerLen header
  rw [List.append_nil] at read
  have one : (1 : UInt8) &&& 0xFE = 0 := by decide
  cases sessionPresent <;> simp [ConnAck.fromDecoder, bind, Except.bind, read, one]

theorem ack_fromDecoder (reasonCode : UInt8 → ReasonCode) (pid : Pid) {tail : Tail}
    (wellFormed : tail.WellFormed config.protocol) (fits : tail.bytes.length < 2 ^ 28)
    (remaining : header.remainingLen = 2 + tail.bytes.length) :
    Ack.fromDecoder config ⟨pid.bytes ++ tail.bytes, offset, headerLen, header⟩ reasonCode =
      .ok ⟨pid, tail.detail reasonCode config.protocol⟩ := by
  cases tail with
  | none =>
      have two : header.remainingLen = 2 := remaining
      unfold Ack.fromDecoder
      rw [if_pos (Or.inl two), readPid_bytes]
      cases config.protocol <;> rfl
  | short code =>
      have three : header.remainingLen = 3 := remaining
      unfold Ack.fromDecoder
      rw [if_pos (Or.inr three), readPid_bytes]
      cases config.protocol <;> rfl
  | full code properties =>
      have some_length := List.length_pos_iff.mpr (Varint.encode_ne_nil properties.length)
      have notShort : ¬(header.remainingLen = 2 ∨ header.remainingLen = 3) := by
        simp only [Tail.bytes, propertyBytes, List.length_cons, List.length_append] at remaining
        omega
      unfold Ack.fromDecoder
      rw [if_neg notShort, readPid_bytes]
      cases protocol_eq : config.protocol with
      | mqttv3 => rfl
      | mqttv5 =>
          have inside : properties.length < 2 ^ 28 := by
            simp only [Tail.bytes, propertyBytes, List.length_cons, List.length_append] at fits
            omega
          have read := MqttDecoder.readProperties_encode inside [] (offset + 2 + 1) headerLen header
          rw [List.append_nil] at read
          simp [Tail.bytes, propertyBytes, Tail.detail, bind, Except.bind, read]

theorem disconnect_fromDecoder {tail : Tail} (wellFormed : tail.WellFormed config.protocol)
    (fits : tail.bytes.length < 2 ^ 28) (remaining : header.remainingLen = tail.bytes.length) :
    Disconnect.fromDecoder config ⟨tail.bytes, offset, headerLen, header⟩ =
      .ok (tail.disconnect config.protocol) := by
  cases tail with
  | none =>
      have short : header.remainingLen < 2 := by simp [remaining, Tail.bytes]
      unfold Disconnect.fromDecoder
      rw [if_pos short]
      cases config.protocol <;> rfl
  | short code =>
      have short : header.remainingLen < 2 := by simp [remaining, Tail.bytes]
      unfold Disconnect.fromDecoder
      rw [if_pos short]
      cases config.protocol <;> rfl
  | full code properties =>
      have some_length := List.length_pos_iff.mpr (Varint.encode_ne_nil properties.length)
      have notShort : ¬header.remainingLen < 2 := by
        simp only [Tail.bytes, propertyBytes, List.length_cons, List.length_append] at remaining
        omega
      unfold Disconnect.fromDecoder
      rw [if_neg notShort]
      cases protocol_eq : config.protocol with
      | mqttv3 =>
          rw [protocol_eq] at wellFormed
          exact absurd wellFormed id
      | mqttv5 =>
          have inside : (propertyBytes .mqttv5 properties).length < 2 ^ 28 := by
            simp only [Tail.bytes, List.length_cons] at fits
            omega
          have read := readProperties?_propertyBytes inside [] (offset + 1) headerLen header
          rw [List.append_nil] at read
          simp [Tail.bytes, Tail.disconnect, bind, Except.bind, read, receivedProperties]

theorem readPayload_codes (codes : List UInt8) (offset headerLen : ℕ) (header : FixedHeader)
    (remaining : headerLen + header.remainingLen = offset + codes.length) :
    (MqttDecoder.mk codes offset headerLen header).readPayload =
      .ok (codes, ⟨[], offset + codes.length, headerLen, header⟩) := by
  have length : (MqttDecoder.mk codes offset headerLen header).packetLen - offset =
      codes.length := by
    simp only [MqttDecoder.packetLen]
    omega
  have ordered : ¬(MqttDecoder.mk codes offset headerLen header).packetLen < offset := by
    simp only [MqttDecoder.packetLen]
    omega
  have read := MqttDecoder.readBytes_append codes [] offset headerLen header
  rw [List.append_nil] at read
  simp only [MqttDecoder.readPayload, length, ordered, if_false, read]

theorem subAck_fromDecoder (pid : Pid)
    (fits : (propertyBytes config.protocol properties).length < 2 ^ 28)
    (remaining : headerLen + header.remainingLen =
      offset + (2 + (propertyBytes config.protocol properties).length + codes.length)) :
    SubAck.fromDecoder config
        ⟨pid.bytes ++ (propertyBytes config.protocol properties ++ codes), offset, headerLen,
          header⟩ =
      if codes.length ≤ config.maxSubTopicsPerMsg then
        .ok ⟨pid, receivedProperties config.protocol properties,
          codes.map (SubAckReasonCode.fromPrimitive config.protocol)⟩
      else .error .panic := by
  have payload := readPayload_codes codes
    (offset + 2 + (propertyBytes config.protocol properties).length) headerLen header (by omega)
  simp only [SubAck.fromDecoder, bind, Except.bind, readPid_bytes,
    readProperties?_propertyBytes fits, payload, collectCodes, List.length_map]
  by_cases room : codes.length ≤ config.maxSubTopicsPerMsg
  · simp [room, Nat.not_lt.mpr room]
  · simp [room, Nat.not_le.mp room]

theorem unsubAck_fromDecoder (pid : Pid)
    (fits : (propertyBytes config.protocol properties).length < 2 ^ 28)
    (noCodes : config.protocol = .mqttv3 → codes = [])
    (remaining : headerLen + header.remainingLen =
      offset + (2 + (propertyBytes config.protocol properties).length + codes.length)) :
    UnsubAck.fromDecoder config
        ⟨pid.bytes ++ (propertyBytes config.protocol properties ++ codes), offset, headerLen,
          header⟩ =
      if codes.length ≤ config.maxSubTopicsPerMsg then
        .ok ⟨pid, receivedProperties config.protocol properties,
          codes.map UnsubAckReasonCode.fromPrimitive⟩
      else .error .panic := by
  have payload := readPayload_codes codes
    (offset + 2 + (propertyBytes config.protocol properties).length) headerLen header (by omega)
  simp only [UnsubAck.fromDecoder, bind, Except.bind, readPid_bytes,
    readProperties?_propertyBytes fits, payload, collectCodes, List.length_map]
  cases protocol_eq : config.protocol with
  | mqttv3 => simp [noCodes protocol_eq]
  | mqttv5 =>
      by_cases room : codes.length ≤ config.maxSubTopicsPerMsg
      · simp [room, Nat.not_lt.mpr room]
      · simp [room, Nat.not_le.mp room]

end Decoders

theorem fromBuffer_bytes (wellFormed : packet.WellFormed config)
    (notPublish : packet.typ ≠ .publish) :
    ReceivedPacket.fromBuffer config (packet.bytes config) =
      if packet.CodesFit config then .ok (packet.received config) else .error .panic := by
  have created := tryNew_headerBytes wellFormed (packet.body config)
  have encodable := wellFormed.encodable
  have supported := wellFormed.supported
  rw [ReceivedPacket.fromBuffer, bytes, created]
  simp only [bind, Except.bind, decoder, fixedHeader]
  cases packet with
  | publish => exact absurd rfl notPublish
  | pingResp => simp [typ, CodesFit, received]
  | connAck sessionPresent code properties =>
      have fits : (propertyBytes config.protocol properties).length < 2 ^ 28 := by
        simp only [body, List.length_cons] at encodable
        omega
      simp only [typ, body, connAck_fromDecoder _ _ _ sessionPresent code fits, CodesFit, received]
      rfl
  | ack kind pid tail =>
      have fits : tail.bytes.length < 2 ^ 28 := by
        simp only [body, List.length_append] at encodable
        omega
      simp only [body, CodesFit, received]
      cases kind <;>
        simp only [typ, AckKind.typ, PubAck.fromDecoder, PubRec.fromDecoder, PubRel.fromDecoder,
          PubComp.fromDecoder] <;>
        rw [ack_fromDecoder _ _ _ _ pid supported.2 fits (by simp [length_pidBytes])] <;>
        rfl
  | subAck pid properties codes =>
      have fits : (propertyBytes config.protocol properties).length < 2 ^ 28 := by
        simp only [body, List.length_append] at encodable
        omega
      have fit_iff : CodesFit config (subAck pid properties codes) ↔
          codes.length ≤ config.maxSubTopicsPerMsg := Iff.rfl
      simp only [typ, body, received, fit_iff]
      rw [subAck_fromDecoder _ _ _ pid fits (by simp [length_pidBytes, Nat.add_assoc])]
      split <;> rfl
  | unsubAck pid properties codes =>
      have fits : (propertyBytes config.protocol properties).length < 2 ^ 28 := by
        simp only [body, List.length_append] at encodable
        omega
      have fit_iff : CodesFit config (unsubAck pid properties codes) ↔
          codes.length ≤ config.maxSubTopicsPerMsg := Iff.rfl
      simp only [typ, body, received, fit_iff]
      rw [unsubAck_fromDecoder _ _ _ pid fits supported
        (by simp [length_pidBytes, Nat.add_assoc])]
      split <;> rfl
  | disconnect tail =>
      have decoded := disconnect_fromDecoder ((disconnect tail).headerBytes config).length
        ((disconnect tail).headerBytes config).length ((disconnect tail).fixedHeader config)
        supported encodable rfl
      simp only [fixedHeader] at decoded
      simp only [typ, body, CodesFit, received] at decoded ⊢
      rw [decoded]
      rfl

section Publish

variable {dup retain : Bool} {qosPid : QosPid} {topicName : Utf8} {properties payload : List UInt8}

/-- What follows the topic of a PUBLISH. -/
def afterTopic (config : CrateConfig) (qosPid : QosPid) (properties payload : List UInt8) :
    List UInt8 :=
  qosPid.bytes ++ propertyBytes config.protocol properties ++ payload

theorem exists_bytes_eq
    (isPublish : packet = publish dup retain qosPid topicName properties payload)
    (wellFormed : packet.WellFormed config) (more : List UInt8) :
    ∃ high low : UInt8, high.toNat * 256 + low.toNat = topicName.bytes.length ∧
      packet.bytes config ++ more = packet.headerBytes config ++ high :: low ::
        (topicName.bytes ++ (afterTopic config qosPid properties payload ++ more)) := by
  subst isPublish
  rcases u16Bytes_eq wellFormed.supported.2 with ⟨high, low, split, value⟩
  refine ⟨high, low, value, ?_⟩
  simp [bytes, body, split, afterTopic]

theorem exists_bytes_take
    (isPublish : packet = publish dup retain qosPid topicName properties payload)
    (wellFormed : packet.WellFormed config) (extra : ℕ) (more : List UInt8) :
    ∃ high low : UInt8, high.toNat * 256 + low.toNat = topicName.bytes.length ∧
      (packet.bytes config ++ more).take
          ((packet.headerBytes config).length + 2 + topicName.bytes.length + extra) =
        packet.headerBytes config ++ high :: low :: (topicName.bytes ++
          (afterTopic config qosPid properties payload ++ more).take extra) := by
  rcases exists_bytes_eq isPublish wellFormed more with ⟨high, low, value, whole⟩
  refine ⟨high, low, value, ?_⟩
  have split : packet.bytes config ++ more =
      (packet.headerBytes config ++ high :: low :: topicName.bytes) ++
        (afterTopic config qosPid properties payload ++ more) := by
    rw [whole]
    simp
  have length : (packet.headerBytes config ++ high :: low :: topicName.bytes).length =
      (packet.headerBytes config).length + 2 + topicName.bytes.length := by
    simp only [List.length_append, List.length_cons]
    omega
  rw [split, ← length, List.take_length_add_append]
  simp

/-- The packet identifier is read from the two bytes behind the topic. -/
theorem qosPid_fromDecoder (config : CrateConfig)
    (isPublish : packet = publish dup retain qosPid topicName properties payload) {extra : ℕ}
    (two : 2 ≤ extra) (more : List UInt8) (offset : ℕ) :
    QosPid.fromDecoder
        ⟨(afterTopic config qosPid properties payload ++ more).take extra, offset,
          (packet.headerBytes config).length, packet.fixedHeader config⟩ = .ok qosPid := by
  subst isPublish
  have pid_take : ∀ (pid : Pid) (tail : List UInt8),
      (pid.bytes ++ tail).take extra = pid.bytes ++ tail.take (extra - 2) := by
    intro pid tail
    rw [List.take_append, List.take_of_length_le (by rw [length_pidBytes]; exact two),
      length_pidBytes]
  cases qosPid with
  | atMostOnce => rfl
  | atLeastOnce pid =>
      simp only [afterTopic, QosPid.bytes, List.append_assoc, pid_take]
      simp [QosPid.fromDecoder, fixedHeader, headerQos, QosPid.qos, bind, Except.bind]
  | exactlyOnce pid =>
      simp only [afterTopic, QosPid.bytes, List.append_assoc, pid_take]
      simp [QosPid.fromDecoder, fixedHeader, headerQos, QosPid.qos, bind, Except.bind]

/-- Decoding a PUBLISH of which at least the two bytes behind the topic have been received. -/
theorem fromBuffer_publish
    (isPublish : packet = publish dup retain qosPid topicName properties payload)
    (wellFormed : packet.WellFormed config) (more : List UInt8) {count : ℕ}
    (enough : (packet.headerBytes config).length + 2 + topicName.bytes.length + 2 ≤ count) :
    ReceivedPacket.fromBuffer config ((packet.bytes config ++ more).take count) =
      .ok (.partialPublish qosPid topicName
        ⟨((packet.bytes config ++ more).take count).take (packet.bytes config).length,
          (packet.bytes config).length⟩) := by
  rcases Nat.exists_eq_add_of_le enough with ⟨extra, rfl⟩
  rcases exists_bytes_take isPublish wellFormed (2 + extra) more with ⟨high, low, value, split⟩
  have typ_eq : packet.typ = .publish := by rw [isPublish, typ]
  have qosPid_eq := qosPid_fromDecoder config isPublish (Nat.le_add_right 2 extra) more
    ((packet.headerBytes config).length + 2 + topicName.bytes.length)
  rw [Nat.add_assoc _ 2 extra, split, ReceivedPacket.fromBuffer, tryNew_headerBytes wellFormed]
  simp only [bind, Except.bind, decoder, MqttDecoder.readStr_cons _ _ _ _ value, qosPid_eq]
  have header_typ : (packet.fixedHeader config).typ = .publish := typ_eq
  rw [header_typ]
  simp only [MqttDecoder.packetLen, length_bytes, fixedHeader]

end Publish

end Lemmas

end ServerPacket

end Mqttrust
