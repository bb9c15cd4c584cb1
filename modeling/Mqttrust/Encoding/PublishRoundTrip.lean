import Mathlib.Algebra.BigOperators.Group.List.Basic
import Mqttrust.Encoding.Message
import Mqttrust.Encoding.PacketWrites

/-!
# A publish and its message

An encoded publish is a packet of the grammar of a broker, so a message made of its
bytes has the fields of the publish. What remains to be said is when it is encoded:
in a buffer that has room for the packet, only a check of the remaining space that
is cut to 32 bits can fail.
-/

namespace Mqttrust

open MqttEncoder

/-- Properties given as a list, without a subscription identifier. -/
structure Properties.Plain (properties : Properties) : Prop where
  isList : ∀ block, properties ≠ .dataBlock block
  noIdentifier : ∀ property ∈ properties.toList, ∀ id, property ≠ .subscriptionIdentifier id

namespace Properties

variable {properties : Properties}

theorem Plain.encodable (plain : properties.Plain) (small : properties.blockBytes.length < 2 ^ 28) :
    properties.Encodable where
  varintFits := by
    intro property mem
    cases property with
    | subscriptionIdentifier id => exact absurd rfl (plain.noIdentifier _ mem id)
    | _ => trivial
  short := short_of_blockBytes (Nat.lt_trans small (by decide))

theorem Plain.excess_eq (plain : properties.Plain) : properties.excess = 0 := by
  apply List.sum_eq_zero
  intro excess mem
  rcases List.mem_map.mp mem with ⟨property, listed, rfl⟩
  cases property with
  | subscriptionIdentifier id => exact absurd rfl (plain.noIdentifier _ listed id)
  | _ => rfl

theorem Plain.size_eq (plain : properties.Plain) (small : properties.blockBytes.length < 2 ^ 28) :
    properties.size = some properties.blockBytes.length := by
  rcases (plain.encodable small).size_eq with ⟨size, sized, rfl | ⟨block, isBlock, _⟩⟩
  · rw [sized, plain.excess_eq, Nat.add_zero]
  · exact absurd isBlock (plain.isList block)

theorem Plain.allBytes_v5Writes {config : CrateConfig}
    (plain : config.protocol = .mqttv5 → properties.Plain)
    (small : (propertyBytes config.protocol properties.blockBytes).length < 2 ^ 28) :
    Write.allBytes (properties.v5Writes config) =
      propertyBytes config.protocol properties.blockBytes := by
  unfold v5Writes
  cases protocol : config.protocol with
  | mqttv3 => rfl
  | mqttv5 =>
      rw [protocol, propertyBytes, List.length_append] at small
      have fits : properties.blockBytes.length < 2 ^ 28 := by omega
      simp only [(plain protocol).size_eq fits, Option.getD_some, writes, Write.allBytes_cons,
        allBytes_blockWrites, Write.bytes, propertyBytes]
      rw [Nat.mod_eq_of_lt (Nat.lt_trans fits (by decide))]

end Properties

namespace Publish

variable {config : CrateConfig} {packet : Publish} {qosPid : QosPid} {payload : List UInt8}

/-- The packet of the grammar of a broker with the same fields. -/
def onWire (packet : Publish) (qosPid : QosPid) (payload : List UInt8) : ServerPacket :=
  .publish packet.dup packet.retain qosPid packet.topicName packet.properties.blockBytes payload

/-- How a publish with a payload of some bytes is written. -/
def writes (config : CrateConfig) (packet : Publish) (qosPid : QosPid) (payload : List UInt8) :
    List Write :=
  packet.headWrites config qosPid ++ [.plain payload]

/-- The publishes whose messages are looked at: a topic and a packet identifier that can be
represented, and a list of properties without a subscription identifier. -/
structure Plain (config : CrateConfig) (packet : Publish) (qosPid : QosPid) (payload : List UInt8) :
    Prop where
  supported : packet.qos = .exactlyOnce → config.qos2 = true
  identified : packet.qosPid = some qosPid
  topic : packet.topicName.bytes.length < 65536
  properties : config.protocol = .mqttv5 → packet.properties.Plain
  isSlice : packet.payload = .ofSlice payload
  small : ((packet.onWire qosPid payload).body config).length < 2 ^ 28

namespace Plain

theorem qos_eq (plain : packet.Plain config qosPid payload) : qosPid.qos = packet.qos :=
  qos_of_qosPid plain.identified

theorem wellFormed (plain : packet.Plain config qosPid payload) :
    (packet.onWire qosPid payload).WellFormed config where
  supported := ⟨fun exactly => plain.supported (plain.qos_eq.symm.trans exactly), plain.topic⟩
  encodable := plain.small

theorem length_propertyBytes (plain : packet.Plain config qosPid payload) :
    (propertyBytes config.protocol packet.properties.blockBytes).length < 2 ^ 28 := by
  have small := plain.small
  simp only [onWire, ServerPacket.body, List.length_append] at small
  omega

theorem performs (plain : packet.Plain config qosPid payload) :
    Performs (MqttEncode.writeBody config packet) (packet.writes config qosPid payload) := by
  rw [writeBody_eq, plain.isSlice]
  apply Performs.bind _ (performs_ofSlice payload)
  apply performs_writeHead plain.topic plain.identified
  intro v5
  have small := plain.length_propertyBytes
  rw [v5, propertyBytes, List.length_append] at small
  exact (plain.properties v5).encodable (by omega)

theorem allBytes_writes (plain : packet.Plain config qosPid payload) :
    Write.allBytes (packet.writes config qosPid payload) =
      (packet.onWire qosPid payload).body config := by
  simp only [writes, headWrites, Write.allBytes_append, Write.allBytes_cons, Write.allBytes_nil,
    Write.bytes, allBytes_pidWrites, List.append_nil,
    Properties.Plain.allBytes_v5Writes plain.properties plain.length_propertyBytes]
  simp [onWire, ServerPacket.body, sliceBytes]

theorem firstByte (plain : packet.Plain config qosPid payload) :
    (MqttEncode.packetType packet).toByte ||| MqttEncode.flags packet =
      (packet.onWire qosPid payload).firstByte := by
  have same : ∀ (dup retain : Bool) (qos : QoS),
      PacketType.publish.toByte ||| (qos.toByte <<< 1 ||| (if dup then 0b1000 else 0) |||
        (if retain then 0b0001 else 0)) = ServerPacket.publishByte dup retain qos := by
    intro dup retain qos
    cases dup <;> cases retain <;> cases qos <;> decide
  rw [onWire, ServerPacket.firstByte_publish, plain.qos_eq, ← same]
  rfl

/-- A publish is encoded when no check fails, and into the bytes of the grammar. -/
theorem encodePacket_iff (plain : packet.Plain config qosPid payload) {buf : List UInt8}
    (header : maxMqttHeaderLen ≤ buf.length) {bytes : List UInt8} :
    encodePacket config buf packet = .ok bytes ↔
      Write.Fits (buf.length - maxMqttHeaderLen) (packet.writes config qosPid payload) ∧
        bytes = (packet.onWire qosPid payload).bytes config := by
  rw [encodePacket_eq_ok plain.performs header, plain.allBytes_writes, plain.firstByte]
  have small := plain.small
  constructor
  · rintro ⟨fits, _, rfl⟩
    exact ⟨fits, rfl⟩
  · rintro ⟨fits, rfl⟩
    exact ⟨fits, small, rfl⟩

end Plain

/-- A publish is encoded, and its bytes make a message with its fields. -/
def RoundTrips (config : CrateConfig) (buf : List UInt8) (packet : Publish)
    (payload : List UInt8) : Prop :=
  ∃ bytes message, encodePacket config buf packet = .ok bytes ∧
    Message.tryNew config bytes = .ok message ∧
    message.dup = packet.dup ∧ message.retain = packet.retain ∧
    some message.qosPid = packet.qosPid ∧ message.topicNameBytes = packet.topicName.bytes ∧
    message.payloadBytes = payload

end Publish

/-- In a buffer with room for it, a publish makes a message with its fields if and only if no check
of the remaining space is cut. -/
theorem publish_roundTrips_iff {config : CrateConfig} {packet : Publish} {qosPid : QosPid}
    {payload buf : List UInt8} (plain : packet.Plain config qosPid payload)
    (enough : maxMqttHeaderLen + ((packet.onWire qosPid payload).body config).length ≤
      buf.length) :
    packet.RoundTrips config buf payload ↔
      Write.Fits (buf.length - maxMqttHeaderLen) (packet.writes config qosPid payload) := by
  have header : maxMqttHeaderLen ≤ buf.length := by omega
  constructor
  · rintro ⟨bytes, message, encoded, _⟩
    exact ((plain.encodePacket_iff header).mp encoded).1
  · intro fits
    have fields := @publishMessage_fields config _ _ _ _ _ _ (packet.onWire qosPid payload) rfl
    rcases fields with ⟨dup, retain, pid, topic, same⟩
    refine ⟨_, _, (plain.encodePacket_iff header).mpr ⟨fits, rfl⟩,
      tryNew_publish rfl plain.wellFormed, dup, retain, ?_, topic, same⟩
    rw [pid, plain.identified]

theorem publish_roundTrips_iff_example :
    (Publish.mk false .atLeastOnce true (some .new) ⟨[0x61], rfl⟩ (.ofSlice [1, 2])
      (.correlatedSlice (.correlationData [3]) [.topicAlias 7])).RoundTrips
        (.default .mqttv5 true) (List.replicate 40 0) [1, 2] :=
  have plain : Publish.Plain (.default .mqttv5 true) _ (.atLeastOnce .new) [1, 2] :=
    { supported := by decide
      identified := rfl
      topic := by decide
      properties := fun _ => ⟨fun _ => Properties.noConfusion, by simp [Properties.toList]⟩
      isSlice := rfl
      small := by decide }
  (publish_roundTrips_iff plain (by decide)).mpr (by decide)

/-- With 4 GiB behind the gap for the header, the first check finds no space at all. -/
theorem not_publish_roundTrips_of_full :
    ∃ packet : Publish, packet.Plain (.default .mqttv5 true) .atMostOnce [] ∧
      maxMqttHeaderLen + ((packet.onWire .atMostOnce []).body (.default .mqttv5 true)).length ≤
        (List.replicate (2 ^ 32 + 5) (0 : UInt8)).length ∧
      ¬packet.RoundTrips (.default .mqttv5 true) (List.replicate (2 ^ 32 + 5) 0) [] := by
  have plain : (Publish.mk false .atMostOnce false none ⟨[0x61], rfl⟩ (.ofSlice [])
      (.slice [])).Plain (.default .mqttv5 true) .atMostOnce [] :=
    { supported := by decide
      identified := rfl
      topic := by decide
      properties := fun _ => ⟨fun _ => Properties.noConfusion, by simp [Properties.toList]⟩
      isSlice := rfl
      small := by decide }
  have length : (List.replicate (2 ^ 32 + 5) (0 : UInt8)).length = 2 ^ 32 + 5 :=
    List.length_replicate
  refine ⟨_, plain, ?_, ?_⟩
  · rw [length]
    decide
  · rintro ⟨bytes, message, encoded, _⟩
    have header : maxMqttHeaderLen ≤ (List.replicate (2 ^ 32 + 5) (0 : UInt8)).length := by
      rw [length]
      decide
    have fits := ((plain.encodePacket_iff header).mp encoded).1
    rw [length] at fits
    exact absurd fits.1 (by decide)

end Mqttrust
