import Mqttrust.Encoding.Property

/-!
# The packets of a client

The packets that a client sends, and how they are encoded: each of them writes its
body and then finalizes the fixed header. Whatever a packet holds, its encoding is
a complete packet when it succeeds.

Properties exist with feature `mqttv5` only.
-/

namespace Mqttrust

open MqttEncoder

/-- `MqttEncode`: a type of packets whose bodies are written to an encoder. -/
class MqttEncode (Packet : Type) where
  packetType : Packet → PacketType
  /-- `FixedHeader::flags`. -/
  flags : Packet → UInt8
  /-- The part of `to_buffer` before the fixed header is finalized. -/
  writeBody : CrateConfig → Packet → Encode Unit
  advances : ∀ config packet, Advances (writeBody config packet)

/-- `MqttEncode::to_buffer`. -/
def MqttEncode.toBuffer {Packet : Type} [MqttEncode Packet] (config : CrateConfig)
    (packet : Packet) : Encode Unit := do
  writeBody config packet
  finalizeFixedHeader (packetType packet) (flags packet)

/-- What a successful encoding leaves in the buffer. -/
structure Encoded (buf : List UInt8) (encoder : MqttEncoder) : Prop where
  length : encoder.buf.length = buf.length
  headerStart : encoder.headerStart = 0
  inside : encoder.offset ≤ encoder.buf.length
  framed : Framed (encoder.buf.take encoder.offset)

theorem encoded_of_toBuffer {Packet : Type} [MqttEncode Packet] {config : CrateConfig}
    {packet : Packet} {buf : List UInt8} {encoder : MqttEncoder}
    (encoded : MqttEncode.toBuffer config packet (MqttEncoder.new buf) = .ok () encoder) :
    Encoded buf encoder := by
  rcases Encode.bind_eq_ok.mp encoded with ⟨_, body, written, finalizes⟩
  have advanced := MqttEncode.advances config packet written
  have finalized := finalized_of_finalizeFixedHeader advanced.headerStart finalizes
  exact ⟨finalized.length.trans advanced.length, finalized.headerStart, finalized.inside,
    finalized.framed⟩

/-- `encode_packet`: the bytes of the packet, unless it cannot be encoded. -/
def encodePacket {Packet : Type} [MqttEncode Packet] (config : CrateConfig) (buf : List UInt8)
    (packet : Packet) : Except EncodeFault (List UInt8) :=
  match MqttEncode.toBuffer config packet (MqttEncoder.new buf) with
  | .ok () encoder => .ok encoder.intoPacketBytes
  | .error fault _ => .error fault

theorem framed_of_encodePacket {Packet : Type} [MqttEncode Packet] {config : CrateConfig}
    {buf bytes : List UInt8} {packet : Packet}
    (encoded : encodePacket config buf packet = .ok bytes) : Framed bytes := by
  unfold encodePacket at encoded
  split at encoded
  · rename_i encoder written
    have kept := encoded_of_toBuffer written
    rcases Except.ok.inj encoded with rfl
    rw [intoPacketBytes, kept.headerStart, List.drop_zero]
    exact kept.framed
  · simp at encoded

/-- Writes properties, with feature `mqttv5`. -/
def writeV5Properties (config : CrateConfig) (properties : Properties) : Encode Unit :=
  match config.protocol with
  | .mqttv3 => pure ()
  | .mqttv5 => writeProperties properties

theorem Advances.writeV5Properties (config : CrateConfig) (properties : Properties) :
    Advances (Mqttrust.writeV5Properties config properties) := by
  unfold Mqttrust.writeV5Properties
  split
  · exact pure _
  · exact writeProperties _

/-- The size of the length of some properties, with feature `mqttv5`. -/
def v5PropertiesLen (config : CrateConfig) (properties : Properties) : Option ℕ :=
  match config.protocol with
  | .mqttv3 => some 0
  | .mqttv5 => properties.size.bind varintLen

/-- `u8::from` for a quality of service. -/
def QoS.toByte : QoS → UInt8
  | .atMostOnce => 0
  | .atLeastOnce => 1
  | .exactlyOnce => 2

/-- `Publish`. -/
structure Publish where
  dup : Bool
  qos : QoS
  retain : Bool
  pid : Option Pid
  topicName : Utf8
  payload : ToPayload
  properties : Properties

namespace Publish

/-- `Publish::flags`. -/
def flags (packet : Publish) : UInt8 :=
  packet.qos.toByte <<< 1 ||| (if packet.dup then 0b1000 else 0) |||
    (if packet.retain then 0b0001 else 0)

/-- The packet identifier of a publish of QoS 1 or 2. -/
def writePid (packet : Publish) : Encode Unit :=
  match packet.qos, packet.pid with
  | .atMostOnce, _ => pure ()
  | _, some pid => writeU16 pid.val
  | _, none => throw (.error .pidMissing)

theorem advances_writePid (packet : Publish) : Advances packet.writePid := by
  unfold writePid
  split
  · exact .pure _
  · exact .writeU16 _
  · exact .throw _

instance : MqttEncode Publish where
  packetType _ := .publish
  flags := flags
  writeBody config packet := do
    writeStr packet.topicName
    packet.writePid
    writeV5Properties config packet.properties
    writePayload packet.payload
  advances _ _ :=
    (Advances.writeStr _).bind fun _ => (advances_writePid _).bind fun _ =>
      (Advances.writeV5Properties _ _).bind fun _ => .writePayload _

/-- `Publish::max_packet_size`. -/
def maxPacketSize (config : CrateConfig) (packet : Publish) : Option ℕ := do
  let pidLen := if packet.qos = .atMostOnce then 0 else 2
  let propertiesLen ← v5PropertiesLen config packet.properties
  some (2 + packet.topicName.bytes.length + pidLen + maxMqttHeaderLen + propertiesLen +
    packet.payload.maxSize)

end Publish

/-- `RetainHandling`. -/
inductive RetainHandling where
  | sendAtSubscribeTime
  | sendAtSubscribeTimeIfNonexistent
  | doNotSend
deriving DecidableEq, Repr

/-- `u8::from` for `RetainHandling`. -/
def RetainHandling.toByte : RetainHandling → UInt8
  | .sendAtSubscribeTime => 0
  | .sendAtSubscribeTimeIfNonexistent => 1
  | .doNotSend => 2

/-- `SubscribeTopic`; the options but the quality of service exist with feature `mqttv5` only. -/
structure SubscribeTopic where
  topicPath : Utf8
  maximumQos : QoS
  noLocal : Bool
  retainAsPublished : Bool
  retainHandling : RetainHandling

/-- The options byte of a topic. -/
def SubscribeTopic.options (config : CrateConfig) (topic : SubscribeTopic) : UInt8 :=
  let v5 : UInt8 :=
    match config.protocol with
    | .mqttv3 => 0
    | .mqttv5 =>
        topic.retainHandling.toByte <<< 4 ||| topic.retainAsPublished.toUInt8 <<< 3 |||
          topic.noLocal.toUInt8 <<< 2
  v5 ||| topic.maximumQos.toByte &&& 0b11

/-- `Subscribe`. -/
structure Subscribe where
  pid : Option Pid
  properties : Properties
  topics : List SubscribeTopic

namespace Subscribe

instance : MqttEncode Subscribe where
  packetType _ := .subscribe
  flags _ := 0b0010
  writeBody config packet := do
    writeU16 (packet.pid.getD Pid.new).val
    writeV5Properties config packet.properties
    packet.topics.forM fun topic => do
      writeStr topic.topicPath
      writeU8 (topic.options config)
  advances _ _ :=
    (Advances.writeU16 _).bind fun _ => (Advances.writeV5Properties _ _).bind fun _ =>
      .forM (fun _ => (Advances.writeStr _).bind fun _ => .writeU8 _) _

/-- `Subscribe::max_packet_size`. -/
def maxPacketSize (config : CrateConfig) (packet : Subscribe) : Option ℕ := do
  let propertiesLen ← v5PropertiesLen config packet.properties
  some (2 + maxMqttHeaderLen + propertiesLen +
    (packet.topics.map fun topic => 2 + topic.topicPath.bytes.length + 1).sum)

end Subscribe

/-- `Unsubscribe`. -/
structure Unsubscribe where
  pid : Option Pid
  properties : Properties
  topics : List Utf8

namespace Unsubscribe

instance : MqttEncode Unsubscribe where
  packetType _ := .unsubscribe
  flags _ := 0b0010
  writeBody config packet := do
    writeU16 (packet.pid.getD Pid.new).val
    writeV5Properties config packet.properties
    packet.topics.forM writeStr
  advances _ _ :=
    (Advances.writeU16 _).bind fun _ => (Advances.writeV5Properties _ _).bind fun _ =>
      .forM .writeStr _

/-- `Unsubscribe::max_packet_size`. -/
def maxPacketSize (config : CrateConfig) (packet : Unsubscribe) : Option ℕ := do
  let propertiesLen ← v5PropertiesLen config packet.properties
  some (2 + maxMqttHeaderLen + propertiesLen +
    (packet.topics.map fun topic => topic.bytes.length + 2).sum)

end Unsubscribe

/-- `Protocol`: the protocol of a CONNECT. -/
inductive ProtocolLevel where
  | mqIsdp
  | mqtt311
  | mqtt5
deriving DecidableEq, Repr

namespace ProtocolLevel

/-- `Protocol::name`. -/
def name : ProtocolLevel → List UInt8
  | mqtt311 | mqtt5 => [0x4D, 0x51, 0x54, 0x54]
  | mqIsdp => [0x4D, 0x51, 0x49, 0x73, 0x64, 0x70]

/-- `u8::from` for a protocol. -/
def toByte : ProtocolLevel → UInt8
  | mqIsdp => 3
  | mqtt311 => 4
  | mqtt5 => 5

end ProtocolLevel

/-- `LastWill`. -/
structure LastWill where
  topic : Utf8
  data : List UInt8
  qos : QoS
  retained : Bool
  properties : Properties

/-- `Connect`. -/
structure Connect where
  protocol : ProtocolLevel
  properties : Properties
  keepAlive : UInt16
  clientId : Utf8
  username : Option Utf8
  password : Option (List UInt8)
  lastWill : Option LastWill
  cleanStart : Bool

namespace Connect

/-- The connect flags. -/
def connectFlags (packet : Connect) : UInt8 :=
  let will : UInt8 :=
    match packet.lastWill with
    | some lastWill =>
        (0b00000100 : UInt8) ||| lastWill.qos.toByte <<< 3 ||| lastWill.retained.toUInt8 <<< 5
    | none => 0
  packet.cleanStart.toUInt8 <<< 1 ||| packet.username.isSome.toUInt8 <<< 7 |||
    packet.password.isSome.toUInt8 <<< 6 ||| will

/-- The last will in the payload of a CONNECT. -/
def writeLastWill (config : CrateConfig) : Option LastWill → Encode Unit
  | none => pure ()
  | some lastWill => do
      writeV5Properties config lastWill.properties
      writeStr lastWill.topic
      writeSlice lastWill.data

theorem advances_writeLastWill (config : CrateConfig) (lastWill : Option LastWill) :
    Advances (writeLastWill config lastWill) := by
  cases lastWill with
  | none => exact .pure _
  | some lastWill =>
      exact (Advances.writeV5Properties _ _).bind fun _ => (Advances.writeStr _).bind fun _ =>
        .writeSlice _

/-- A field that may be absent. -/
def writeOption : Option (List UInt8) → Encode Unit
  | none => pure ()
  | some bytes => writeSlice bytes

theorem advances_writeOption (field : Option (List UInt8)) : Advances (writeOption field) := by
  cases field with
  | none => exact .pure _
  | some bytes => exact .writeSlice _

instance : MqttEncode Connect where
  packetType _ := .connect
  flags _ := 0
  writeBody config packet := do
    writeSlice packet.protocol.name
    writeU8 packet.protocol.toByte
    writeU8 packet.connectFlags
    writeU16 packet.keepAlive.toNat
    writeV5Properties config packet.properties
    writeStr packet.clientId
    writeLastWill config packet.lastWill
    writeOption (packet.username.map Utf8.bytes)
    writeOption packet.password
  advances _ _ :=
    (Advances.writeSlice _).bind fun _ => (Advances.writeU8 _).bind fun _ =>
      (Advances.writeU8 _).bind fun _ => (Advances.writeU16 _).bind fun _ =>
      (Advances.writeV5Properties _ _).bind fun _ => (Advances.writeStr _).bind fun _ =>
      (advances_writeLastWill _ _).bind fun _ => (advances_writeOption _).bind fun _ =>
      advances_writeOption _

end Connect

/-- `PubAck`, `PubRec`, `PubRel` and `PubComp`; the reason code exists with feature `mqttv5`
only. -/
structure AckPacket where
  kind : AckKind
  pid : Pid
  reasonCode : ReasonCode
  properties : Properties

namespace AckPacket

/-- The acknowledgement that the stack sends. -/
def success (kind : AckKind) (pid : Pid) : AckPacket := ⟨kind, pid, 0x00, .slice []⟩

/-- A success without properties is left out. -/
def writeDetail (config : CrateConfig) (packet : AckPacket) : Encode Unit :=
  match config.protocol with
  | .mqttv3 => pure ()
  | .mqttv5 =>
      if packet.reasonCode ≠ 0x00 then do
        writeU8 packet.reasonCode
        writeProperties packet.properties
      else
        match packet.properties.size with
        | none => throw .panic
        | some 0 => pure ()
        | some _ => do
            writeU8 packet.reasonCode
            writeProperties packet.properties

theorem advances_writeDetail (config : CrateConfig) (packet : AckPacket) :
    Advances (packet.writeDetail config) := by
  have detail : Advances (do
      writeU8 packet.reasonCode
      writeProperties packet.properties) :=
    (Advances.writeU8 _).bind fun _ => .writeProperties _
  unfold writeDetail
  split
  · exact .pure _
  · split
    · exact detail
    · split
      · exact .throw _
      · exact .pure _
      · exact detail

instance : MqttEncode AckPacket where
  packetType packet := packet.kind.typ
  flags _ := 0
  writeBody config packet := do
    writeU16 packet.pid.val
    packet.writeDetail config
  advances config packet :=
    (Advances.writeU16 _).bind fun _ => advances_writeDetail config packet

end AckPacket

/-- `PingReq`. -/
inductive PingReq where
  | pingReq
deriving DecidableEq, Repr

instance : MqttEncode PingReq where
  packetType _ := .pingReq
  flags _ := 0
  writeBody _ _ := pure ()
  advances _ _ := .pure _

end Mqttrust
