import Mqttrust.Encoding.ClientPacket

/-!
# The packets of a broker that can be encoded

The crate can also encode the packets that it only ever receives.
-/

namespace Mqttrust

open MqttEncoder

/-- `ConnAck` as it is encoded. -/
structure ConnAckPacket where
  sessionPresent : Bool
  reasonCode : ReasonCode
  properties : Properties

instance : MqttEncode ConnAckPacket where
  packetType _ := .connAck
  flags _ := 0
  writeBody config packet := do
    writeU8 packet.sessionPresent.toUInt8
    writeU8 packet.reasonCode
    writeV5Properties config packet.properties
  advances _ _ :=
    (Advances.writeU8 _).bind fun _ => (Advances.writeU8 _).bind fun _ => .writeV5Properties _ _

/-- The packets that acknowledge a SUBSCRIBE or an UNSUBSCRIBE. -/
inductive CodesKind where
  | subAck
  | unsubAck
deriving DecidableEq, Repr

/-- The packet type. -/
def CodesKind.typ : CodesKind → PacketType
  | subAck => .subAck
  | unsubAck => .unsubAck

/-- `SubAck` and `UnsubAck` as they are encoded; the codes of an `UnsubAck` exist with feature
`mqttv5` only. -/
structure CodesAckPacket where
  kind : CodesKind
  pid : Pid
  properties : Properties
  codes : List ReasonCode

namespace CodesAckPacket

/-- The codes that the packet has. -/
def presentCodes (config : CrateConfig) (packet : CodesAckPacket) : List ReasonCode :=
  match packet.kind, config.protocol with
  | .unsubAck, .mqttv3 => []
  | _, _ => packet.codes

instance : MqttEncode CodesAckPacket where
  packetType packet := packet.kind.typ
  flags _ := 0
  writeBody config packet := do
    writeU16 packet.pid.val
    writeV5Properties config packet.properties
    (packet.presentCodes config).forM writeU8
  advances _ _ :=
    (Advances.writeU16 _).bind fun _ => (Advances.writeV5Properties _ _).bind fun _ =>
      .forM .writeU8 _

end CodesAckPacket

/-- `PingResp`. -/
inductive PingResp where
  | pingResp
deriving DecidableEq, Repr

instance : MqttEncode PingResp where
  packetType _ := .pingResp
  flags _ := 0
  writeBody _ _ := pure ()
  advances _ _ := .pure _

/-- `Disconnect` as it is encoded. -/
structure DisconnectPacket where
  reasonCode : ReasonCode
  properties : Properties

namespace DisconnectPacket

/-- A reason code other than `Normal`. -/
def writeCode (packet : DisconnectPacket) : Encode Unit :=
  if packet.reasonCode ≠ DisconnectReasonCode.normal then writeU8 packet.reasonCode else pure ()

/-- The code `Normal`, in front of properties. -/
def writeNormal (packet : DisconnectPacket) : Encode Unit :=
  match packet.properties.size with
  | none => throw .panic
  | some size =>
      if size ≠ 0 ∧ packet.reasonCode = DisconnectReasonCode.normal then
        writeU8 packet.reasonCode
      else pure ()

/-- The properties, with feature `mqttv5`. -/
def writeDetail (config : CrateConfig) (packet : DisconnectPacket) : Encode Unit :=
  match config.protocol with
  | .mqttv3 => pure ()
  | .mqttv5 => do
      packet.writeNormal
      writeProperties packet.properties

theorem advances_writeDetail (config : CrateConfig) (packet : DisconnectPacket) :
    Advances (packet.writeDetail config) := by
  unfold writeDetail
  split
  · exact .pure _
  · refine Advances.bind ?_ fun _ => .writeProperties _
    unfold writeNormal
    split
    · exact .throw _
    · exact .ite (.writeU8 _) (.pure _)

instance : MqttEncode DisconnectPacket where
  packetType _ := .disconnect
  flags _ := 0
  writeBody config packet := do
    packet.writeCode
    packet.writeDetail config
  advances config packet :=
    (Advances.ite (.writeU8 _) (.pure _)).bind fun _ => advances_writeDetail config packet

end DisconnectPacket

end Mqttrust
