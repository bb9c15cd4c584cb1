import Mqttrust.Encoding.BrokerPacket
import Mqttrust.Encoding.Writes

/-!
# How packets are written

Every packet that can be encoded is a series of writes, as long as its properties
can be encoded. Together with what is known of a series of writes, this says when a
packet is encoded and into which bytes.
-/

namespace Mqttrust

open MqttEncoder

namespace Properties

/-- The properties of a list. -/
def toList : Properties → List Property
  | slice properties => properties
  | dataBlock _ => []
  | correlatedSlice correlation properties => correlation :: properties

/-- What `size` counts too much. -/
def excess (properties : Properties) : ℕ := (properties.toList.map Property.excess).sum

/-- The properties that the encoder can write: their subscription identifiers are variable byte
integers, and they are short enough for the checks. -/
structure Encodable (properties : Properties) : Prop where
  varintFits : ∀ property ∈ properties.toList, property.VarintFits
  short : properties.Short

/-- The size that is computed: a block lacks its own length. -/
theorem Encodable.size_eq {properties : Properties} (encodable : properties.Encodable) :
    ∃ size, properties.size = some size ∧
      (size = properties.blockBytes.length + properties.excess ∨
        ∃ block, properties = .dataBlock block ∧ size = block.length) := by
  have fits := encodable.varintFits
  cases properties with
  | slice list => exact ⟨_, sumSizes_eq fits, Or.inl rfl⟩
  | dataBlock block => exact ⟨block.length, rfl, Or.inr ⟨block, rfl, rfl⟩⟩
  | correlatedSlice correlation list =>
      have all : ∀ property ∈ list ++ [correlation], property.VarintFits := by
        intro property mem
        rcases List.mem_append.mp mem with mem | mem
        · exact fits property (List.mem_cons_of_mem _ mem)
        · rw [List.mem_singleton.mp mem]
          exact fits correlation List.mem_cons_self
      refine ⟨_, sumSizes_eq all, Or.inl ?_⟩
      simp only [blockBytes, excess, toList, List.flatMap_append, List.flatMap_cons,
        List.flatMap_nil, List.map_append, List.map_cons, List.map_nil, List.sum_append,
        List.sum_cons, List.sum_nil, List.length_append, List.length_nil]
      omega

/-- How the encoder writes properties, which exist with feature `mqttv5` only. -/
def v5Writes (config : CrateConfig) (properties : Properties) : List Write :=
  match config.protocol with
  | .mqttv3 => []
  | .mqttv5 => properties.writes (properties.size.getD 0)

end Properties

theorem Performs.properties {properties : Properties} (encodable : properties.Encodable) :
    Performs (MqttEncoder.writeProperties properties)
      (properties.writes (properties.size.getD 0)) := by
  rcases encodable.size_eq with ⟨size, sized, _⟩
  have performs := writeProperties sized encodable.short
  rw [sized]
  exact performs

theorem Performs.v5Properties {config : CrateConfig} {properties : Properties}
    (encodable : config.protocol = .mqttv5 → properties.Encodable) :
    Performs (writeV5Properties config properties) (properties.v5Writes config) := by
  unfold writeV5Properties Properties.v5Writes
  cases protocol : config.protocol with
  | mqttv3 => exact pure
  | mqttv5 => exact Performs.properties (encodable protocol)

namespace Publish

variable {config : CrateConfig} {packet : Publish}

/-- The quality of service and the packet identifier of a publish, unless the latter is missing. -/
def qosPid (packet : Publish) : Option QosPid :=
  match packet.qos with
  | .atMostOnce => some .atMostOnce
  | .atLeastOnce => packet.pid.map .atLeastOnce
  | .exactlyOnce => packet.pid.map .exactlyOnce

theorem qos_of_qosPid {qosPid : QosPid} (identified : packet.qosPid = some qosPid) :
    qosPid.qos = packet.qos := by
  unfold Publish.qosPid at identified
  cases qos : packet.qos with
  | atMostOnce =>
      simp only [qos] at identified
      cases identified
      rfl
  | atLeastOnce =>
      simp only [qos, Option.map_eq_some_iff] at identified
      rcases identified with ⟨pid, _, rfl⟩
      rfl
  | exactlyOnce =>
      simp only [qos, Option.map_eq_some_iff] at identified
      rcases identified with ⟨pid, _, rfl⟩
      rfl

/-- How the packet identifier is written. -/
def pidWrites : QosPid → List Write
  | .atMostOnce => []
  | .atLeastOnce pid | .exactlyOnce pid => [.checked pid.bytes]

theorem allBytes_pidWrites (qosPid : QosPid) : Write.allBytes (pidWrites qosPid) = qosPid.bytes := by
  cases qosPid <;> simp [pidWrites, QosPid.bytes, Write.bytes]

theorem performs_writePid {qosPid : QosPid} (identified : packet.qosPid = some qosPid) :
    Performs packet.writePid (pidWrites qosPid) := by
  unfold Publish.qosPid at identified
  unfold writePid
  cases qos : packet.qos with
  | atMostOnce =>
      simp only [qos] at identified
      cases identified
      exact Performs.pure
  | atLeastOnce =>
      simp only [qos, Option.map_eq_some_iff] at identified
      rcases identified with ⟨pid, found, rfl⟩
      simp only [found]
      exact Performs.writeU16 _
  | exactlyOnce =>
      simp only [qos, Option.map_eq_some_iff] at identified
      rcases identified with ⟨pid, found, rfl⟩
      simp only [found]
      exact Performs.writeU16 _

/-- How a publish is written, up to its payload. -/
def headWrites (config : CrateConfig) (packet : Publish) (qosPid : QosPid) : List Write :=
  [.checked (sliceBytes packet.topicName.bytes)] ++
    (pidWrites qosPid ++ packet.properties.v5Writes config)

/-- The part of the body in front of the payload. -/
def writeHead (config : CrateConfig) (packet : Publish) : Encode Unit := do
  writeStr packet.topicName
  packet.writePid
  writeV5Properties config packet.properties

theorem writeBody_eq (config : CrateConfig) (packet : Publish) :
    MqttEncode.writeBody config packet =
      (packet.writeHead config >>= fun _ => writePayload packet.payload) := by
  simp [MqttEncode.writeBody, writeHead]

theorem performs_writeHead {qosPid : QosPid} (topic : packet.topicName.bytes.length < 65536)
    (identified : packet.qosPid = some qosPid)
    (encodable : config.protocol = .mqttv5 → packet.properties.Encodable) :
    Performs (packet.writeHead config) (packet.headWrites config qosPid) :=
  (Performs.writeStr (by omega)).bind
    ((performs_writePid identified).bind (Performs.v5Properties encodable))

theorem performs_ofSlice (bytes : List UInt8) :
    Performs (writePayload (.ofSlice bytes)) [.plain bytes] := by
  intro before after inside
  rw [← Performs.copyFromSlice bytes before after inside]
  have length : (before.buf.drop before.offset).length = before.buf.length - before.offset :=
    List.length_drop
  unfold writePayload ToPayload.ofSlice MqttEncoder.copyFromSlice overwrite
  rw [if_neg (Nat.not_lt.mpr inside)]
  by_cases fits : before.offset + bytes.length ≤ before.buf.length
  · simp only [length, if_pos fits, if_neg (by omega : ¬before.buf.length - before.offset <
      bytes.length), List.drop_drop, List.append_assoc]
  · simp only [length, if_neg fits, if_pos (by omega : before.buf.length - before.offset <
      bytes.length)]
    simp

end Publish

section Bytes

/-- Bytes that are written one by one. -/
def byteWrites (bytes : List UInt8) : List Write := bytes.flatMap fun byte => [.plain [byte]]

@[simp]
theorem allBytes_byteWrites (bytes : List UInt8) : Write.allBytes (byteWrites bytes) = bytes := by
  induction bytes with
  | nil => rfl
  | cons byte rest ih =>
      rw [byteWrites, List.flatMap_cons, Write.allBytes_append]
      exact congrArg _ ih

theorem Performs.bytes (bytes : List UInt8) : Performs (bytes.forM MqttEncoder.writeU8) (byteWrites bytes) :=
  forM fun byte _ => writeU8 byte

end Bytes

namespace AckPacket

variable {config : CrateConfig} {packet : AckPacket}

/-- How the reason code and the properties are written. -/
def detailWrites (config : CrateConfig) (packet : AckPacket) : List Write :=
  match config.protocol with
  | .mqttv3 => []
  | .mqttv5 =>
      if packet.reasonCode = 0x00 ∧ packet.properties.size = some 0 then []
      else .plain [packet.reasonCode] :: packet.properties.writes (packet.properties.size.getD 0)

/-- How an acknowledgement is written. -/
def writes (config : CrateConfig) (packet : AckPacket) : List Write :=
  .checked packet.pid.bytes :: packet.detailWrites config

theorem performs (encodable : config.protocol = .mqttv5 → packet.properties.Encodable) :
    Performs (MqttEncode.writeBody config packet) (packet.writes config) := by
  suffices detail : Performs (packet.writeDetail config) (packet.detailWrites config) from
    (Performs.writeU16 _).bind detail
  unfold writeDetail detailWrites
  cases protocol : config.protocol with
  | mqttv3 => exact Performs.pure
  | mqttv5 =>
      have full := (Performs.writeU8 packet.reasonCode).bind
        (Performs.properties (encodable protocol))
      rcases (encodable protocol).size_eq with ⟨size, sized, _⟩
      by_cases success : packet.reasonCode = 0x00
      · rw [if_neg (not_not_intro success)]
        rw [sized] at full ⊢
        cases size with
        | zero =>
            rw [if_pos ⟨success, rfl⟩]
            exact Performs.pure
        | succ size =>
            rw [if_neg (by simp)]
            exact full
      · rw [if_pos success, if_neg fun both => success both.1]
        exact full

end AckPacket

namespace CodesAckPacket

/-- How a SUBACK or an UNSUBACK is written. -/
def writes (config : CrateConfig) (packet : CodesAckPacket) : List Write :=
  .checked packet.pid.bytes ::
    (packet.properties.v5Writes config ++ byteWrites (packet.presentCodes config))

theorem performs {config : CrateConfig} {packet : CodesAckPacket}
    (encodable : config.protocol = .mqttv5 → packet.properties.Encodable) :
    Performs (MqttEncode.writeBody config packet) (packet.writes config) :=
  (Performs.writeU16 _).bind ((Performs.v5Properties encodable).bind (Performs.bytes _))

end CodesAckPacket

namespace ConnAckPacket

/-- How a CONNACK is written. -/
def writes (config : CrateConfig) (packet : ConnAckPacket) : List Write :=
  .plain [packet.sessionPresent.toUInt8] :: .plain [packet.reasonCode] ::
    packet.properties.v5Writes config

theorem performs {config : CrateConfig} {packet : ConnAckPacket}
    (encodable : config.protocol = .mqttv5 → packet.properties.Encodable) :
    Performs (MqttEncode.writeBody config packet) (packet.writes config) :=
  (Performs.writeU8 _).bind ((Performs.writeU8 _).bind (Performs.v5Properties encodable))

end ConnAckPacket

namespace DisconnectPacket

variable {config : CrateConfig} {packet : DisconnectPacket}

/-- The reason code, unless it can be left out. -/
def codeWrites (config : CrateConfig) (packet : DisconnectPacket) : List Write :=
  if packet.reasonCode = DisconnectReasonCode.normal ∧
      (config.protocol = .mqttv3 ∨ packet.properties.size = some 0) then []
  else [.plain [packet.reasonCode]]

/-- How a DISCONNECT is written. -/
def writes (config : CrateConfig) (packet : DisconnectPacket) : List Write :=
  packet.codeWrites config ++ packet.properties.v5Writes config

theorem performs (encodable : config.protocol = .mqttv5 → packet.properties.Encodable) :
    Performs (MqttEncode.writeBody config packet) (packet.writes config) := by
  have code : Performs packet.writeCode (if packet.reasonCode = DisconnectReasonCode.normal then []
      else [.plain [packet.reasonCode]]) := by
    unfold writeCode
    by_cases normal : packet.reasonCode = DisconnectReasonCode.normal
    · rw [if_neg (not_not_intro normal), if_pos normal]
      exact Performs.pure
    · rw [if_pos normal, if_neg normal]
      exact Performs.writeU8 _
  unfold writes codeWrites Properties.v5Writes
  change Performs (packet.writeCode >>= fun _ => packet.writeDetail config) _
  unfold writeDetail
  cases protocol : config.protocol with
  | mqttv3 =>
      simp only [true_or, and_true]
      exact code.bind Performs.pure
  | mqttv5 =>
      rcases (encodable protocol).size_eq with ⟨size, sized, _⟩
      have block := Performs.properties (encodable protocol)
      have normal : Performs packet.writeNormal
          (if size ≠ 0 ∧ packet.reasonCode = DisconnectReasonCode.normal then
            [.plain [packet.reasonCode]] else []) := by
        unfold writeNormal
        simp only [sized]
        split
        · exact Performs.writeU8 _
        · exact Performs.pure
      have whole := code.bind (normal.bind block)
      rw [← List.append_assoc] at whole
      convert whole using 2
      by_cases isNormal : packet.reasonCode = DisconnectReasonCode.normal
      · by_cases empty : size = 0
        · simp [isNormal, sized, empty]
        · simp [isNormal, sized, empty]
      · simp [isNormal]

end DisconnectPacket

namespace Subscribe

/-- How a SUBSCRIBE is written. -/
def writes (config : CrateConfig) (packet : Subscribe) : List Write :=
  .checked (packet.pid.getD Pid.new).bytes :: (packet.properties.v5Writes config ++
    packet.topics.flatMap fun topic =>
      [.checked (sliceBytes topic.topicPath.bytes), .plain [topic.options config]])

theorem performs {config : CrateConfig} {packet : Subscribe}
    (encodable : config.protocol = .mqttv5 → packet.properties.Encodable)
    (topics : ∀ topic ∈ packet.topics, topic.topicPath.bytes.length < 65536) :
    Performs (MqttEncode.writeBody config packet) (packet.writes config) := by
  apply (Performs.writeU16 _).bind
  apply (Performs.v5Properties encodable).bind
  apply Performs.forM
  intro topic mem
  have short := topics topic mem
  exact (Performs.writeStr (by omega)).bind (Performs.writeU8 _)

end Subscribe

namespace Unsubscribe

/-- How an UNSUBSCRIBE is written. -/
def writes (config : CrateConfig) (packet : Unsubscribe) : List Write :=
  .checked (packet.pid.getD Pid.new).bytes :: (packet.properties.v5Writes config ++
    packet.topics.flatMap fun topic => [.checked (sliceBytes topic.bytes)])

theorem performs {config : CrateConfig} {packet : Unsubscribe}
    (encodable : config.protocol = .mqttv5 → packet.properties.Encodable)
    (topics : ∀ topic ∈ packet.topics, topic.bytes.length < 65536) :
    Performs (MqttEncode.writeBody config packet) (packet.writes config) := by
  apply (Performs.writeU16 _).bind
  apply (Performs.v5Properties encodable).bind
  apply Performs.forM
  intro topic mem
  have short := topics topic mem
  exact Performs.writeStr (by omega)

end Unsubscribe

namespace Connect

/-- How a field that may be absent is written. -/
def optionWrites : Option (List UInt8) → List Write
  | none => []
  | some bytes => [.checked (sliceBytes bytes)]

theorem performs_writeOption {field : Option (List UInt8)}
    (short : ∀ bytes, field = some bytes → bytes.length < 65536) :
    Performs (writeOption field) (optionWrites field) := by
  cases field with
  | none => exact Performs.pure
  | some bytes =>
      have := short bytes rfl
      exact Performs.writeSlice (by omega)

/-- How the last will is written. -/
def willWrites (config : CrateConfig) : Option LastWill → List Write
  | none => []
  | some lastWill => lastWill.properties.v5Writes config ++
      [.checked (sliceBytes lastWill.topic.bytes), .checked (sliceBytes lastWill.data)]

theorem performs_writeLastWill {config : CrateConfig} {lastWill : Option LastWill}
    (encodable : ∀ will, lastWill = some will → config.protocol = .mqttv5 →
      will.properties.Encodable)
    (short : ∀ will, lastWill = some will →
      will.topic.bytes.length < 65536 ∧ will.data.length < 65536) :
    Performs (writeLastWill config lastWill) (willWrites config lastWill) := by
  cases lastWill with
  | none => exact Performs.pure
  | some will =>
      rcases short will rfl with ⟨topic, data⟩
      apply (Performs.v5Properties (encodable will rfl)).bind
      exact (Performs.writeStr (by omega)).bind (Performs.writeSlice (by omega))

/-- How a CONNECT is written. -/
def writes (config : CrateConfig) (packet : Connect) : List Write :=
  .checked (sliceBytes packet.protocol.name) :: .plain [packet.protocol.toByte] ::
    .plain [packet.connectFlags] :: .checked (u16Bytes packet.keepAlive.toNat) ::
    (packet.properties.v5Writes config ++ .checked (sliceBytes packet.clientId.bytes) ::
      (willWrites config packet.lastWill ++ (optionWrites (packet.username.map Utf8.bytes) ++
        optionWrites packet.password)))

/-- The fields of a CONNECT fit into their lengths. -/
structure FieldsFit (packet : Connect) : Prop where
  clientId : packet.clientId.bytes.length < 65536
  will : ∀ will, packet.lastWill = some will →
    will.topic.bytes.length < 65536 ∧ will.data.length < 65536
  username : ∀ bytes, packet.username.map Utf8.bytes = some bytes → bytes.length < 65536
  password : ∀ bytes, packet.password = some bytes → bytes.length < 65536

theorem performs {config : CrateConfig} {packet : Connect}
    (encodable : config.protocol = .mqttv5 → packet.properties.Encodable)
    (willEncodable : ∀ will, packet.lastWill = some will → config.protocol = .mqttv5 →
      will.properties.Encodable)
    (fields : packet.FieldsFit) :
    Performs (MqttEncode.writeBody config packet) (packet.writes config) := by
  have name : packet.protocol.name.length + 2 < 2 ^ 32 := by
    cases packet.protocol <;> decide
  have clientId := fields.clientId
  apply (Performs.writeSlice name).bind
  apply (Performs.writeU8 _).bind
  apply (Performs.writeU8 _).bind
  apply (Performs.writeU16 _).bind
  apply (Performs.v5Properties encodable).bind
  apply (Performs.writeStr (by omega)).bind
  apply (performs_writeLastWill willEncodable fields.will).bind
  exact (performs_writeOption fields.username).bind (performs_writeOption fields.password)

end Connect

end Mqttrust
