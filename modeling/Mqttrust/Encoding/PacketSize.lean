import Mqttrust.Encoding.AckRoundTrip

/-!
# The estimated size of a packet

`max_packet_size` is an estimate that a buffer is sized by before the packet is
encoded. It is written separately from the encoder: the packets of the session
leave out the bytes of their properties, and count only their length.
-/

namespace Mqttrust

open MqttEncoder

/-- The size of some properties together with their length, with feature `mqttv5`. -/
def v5PropertiesSize (config : CrateConfig) (properties : Properties) : Option ℕ :=
  match config.protocol with
  | .mqttv3 => some 0
  | .mqttv5 => do
      let size ← properties.size
      let len ← varintLen size
      some (len + size)

/-- `max_packet_size` of `PubAck`, `PubRec`, `PubRel` and `PubComp`. -/
def AckPacket.maxPacketSize (config : CrateConfig) (packet : AckPacket) : Option ℕ :=
  let length := 2 + maxMqttHeaderLen
  match config.protocol with
  | .mqttv3 => some length
  | .mqttv5 => do
      let size ← packet.properties.size
      if packet.reasonCode ≠ 0x00 ∨ size ≠ 0 then do
        let len ← varintLen size
        some (length + 1 + len)
      else some length

/-- `max_packet_size` of `SubAck` and `UnsubAck`. -/
def CodesAckPacket.maxPacketSize (config : CrateConfig) (packet : CodesAckPacket) : Option ℕ := do
  let len ← v5PropertiesLen config packet.properties
  some (2 + maxMqttHeaderLen + (packet.presentCodes config).length + len)

/-- `ConnAck::max_packet_size`. -/
def ConnAckPacket.maxPacketSize (config : CrateConfig) (packet : ConnAckPacket) : Option ℕ := do
  let len ← v5PropertiesLen config packet.properties
  some (2 + maxMqttHeaderLen + len)

namespace Connect

/-- The part of a last will. -/
def willSize (config : CrateConfig) : Option LastWill → Option ℕ
  | none => some 0
  | some lastWill => do
      let size ← v5PropertiesSize config lastWill.properties
      some (size + (2 + lastWill.topic.bytes.length) + (2 + lastWill.data.length))

/-- The part of a field that may be absent. -/
def optionSize : Option (List UInt8) → ℕ
  | none => 0
  | some bytes => 2 + bytes.length

/-- `Connect::max_packet_size`. -/
def maxPacketSize (config : CrateConfig) (packet : Connect) : Option ℕ := do
  let size ← v5PropertiesSize config packet.properties
  let will ← willSize config packet.lastWill
  some (2 + packet.protocol.name.length + 1 + 1 + 2 + size + (2 + packet.clientId.bytes.length) +
    will + optionSize (packet.username.map Utf8.bytes) + optionSize packet.password +
    maxMqttHeaderLen)

end Connect

/-- `Disconnect::max_packet_size`. -/
def DisconnectPacket.maxPacketSize (config : CrateConfig) (packet : DisconnectPacket) : Option ℕ :=
  let code := if packet.reasonCode ≠ DisconnectReasonCode.normal then 1 else 0
  match config.protocol with
  | .mqttv3 => some (code + maxMqttHeaderLen)
  | .mqttv5 => do
      let size ← packet.properties.size
      let normal := if size ≠ 0 ∧ packet.reasonCode = DisconnectReasonCode.normal then 1 else 0
      let len ← varintLen size
      some (code + normal + len + size + maxMqttHeaderLen)

/-- `ToPayload` for `DeferredPayload`. -/
def ToPayload.deferred (func : List UInt8 → Except EncodeFault ℕ × List UInt8) (maxLen : ℕ)
    (length_func : ∀ buffer, (func buffer).2.length = buffer.length) : ToPayload where
  serialize buffer :=
    if buffer.length < maxLen then (.error (.error .bufferSize), buffer) else func buffer
  maxSize := maxLen
  length_serialize := by
    intro buffer
    split
    · rfl
    · exact length_func buffer

/-- A payload that needs as much space as it declares, and then takes no more than that. -/
structure ToPayload.Honest (payload : ToPayload) : Prop where
  fails : ∀ buffer, buffer.length < payload.maxSize →
    ∃ fault rest, payload.serialize buffer = (.error fault, rest)
  succeeds : ∀ buffer, payload.maxSize ≤ buffer.length →
    ∃ count rest, payload.serialize buffer = (.ok count, rest) ∧ count ≤ payload.maxSize

theorem ToPayload.honest_ofSlice (bytes : List UInt8) : (ToPayload.ofSlice bytes).Honest where
  fails _ short := ⟨_, _, if_pos short⟩
  succeeds _ enough := ⟨_, _, if_neg (Nat.not_lt.mpr enough), Nat.le_refl _⟩

theorem ToPayload.honest_deferred {func : List UInt8 → Except EncodeFault ℕ × List UInt8}
    {maxLen : ℕ} (length_func : ∀ buffer, (func buffer).2.length = buffer.length)
    (writes : ∀ buffer, maxLen ≤ buffer.length →
      ∃ count rest, func buffer = (.ok count, rest) ∧ count ≤ maxLen) :
    (ToPayload.deferred func maxLen length_func).Honest where
  fails _ short := ⟨_, _, if_pos short⟩
  succeeds buffer enough := by
    rcases writes buffer enough with ⟨count, rest, written, bounded⟩
    exact ⟨count, rest, (if_neg (Nat.not_lt.mpr enough)).trans written, bounded⟩

/-- The packets that implement `MqttEncode`. -/
inductive EncodablePacket where
  | connect (packet : Connect)
  | connAck (packet : ConnAckPacket)
  | publish (packet : Publish)
  | ack (packet : AckPacket)
  | subscribe (packet : Subscribe)
  | codesAck (packet : CodesAckPacket)
  | unsubscribe (packet : Unsubscribe)
  | pingReq (packet : PingReq)
  | pingResp (packet : PingResp)
  | disconnect (packet : DisconnectPacket)

namespace EncodablePacket

/-- `MqttEncode::max_packet_size`. -/
def maxPacketSize (config : CrateConfig) : EncodablePacket → Option ℕ
  | connect packet => packet.maxPacketSize config
  | connAck packet => packet.maxPacketSize config
  | publish packet => packet.maxPacketSize config
  | ack packet => packet.maxPacketSize config
  | subscribe packet => packet.maxPacketSize config
  | codesAck packet => packet.maxPacketSize config
  | unsubscribe packet => packet.maxPacketSize config
  | pingReq _ | pingResp _ => some maxMqttHeaderLen
  | disconnect packet => packet.maxPacketSize config

/-- `MqttEncode::to_buffer`. -/
def toBuffer (config : CrateConfig) : EncodablePacket → Encode Unit
  | connect packet => MqttEncode.toBuffer config packet
  | connAck packet => MqttEncode.toBuffer config packet
  | publish packet => MqttEncode.toBuffer config packet
  | ack packet => MqttEncode.toBuffer config packet
  | subscribe packet => MqttEncode.toBuffer config packet
  | codesAck packet => MqttEncode.toBuffer config packet
  | unsubscribe packet => MqttEncode.toBuffer config packet
  | pingReq packet => MqttEncode.toBuffer config packet
  | pingResp packet => MqttEncode.toBuffer config packet
  | disconnect packet => MqttEncode.toBuffer config packet

/-- The packet is encoded into every buffer of exactly the estimated size. -/
def SizeSuffices (config : CrateConfig) (packet : EncodablePacket) : Prop :=
  ∃ size, packet.maxPacketSize config = some size ∧ ∀ buf : List UInt8, buf.length = size →
    ∃ encoder, packet.toBuffer config (MqttEncoder.new buf) = .ok () encoder

end EncodablePacket

/-- Properties whose fields can be represented. -/
def Properties.Representable : Properties → Prop
  | .dataBlock block => block.length < 65536
  | .slice properties => ∀ property ∈ properties, property.Representable
  | .correlatedSlice correlation properties =>
      ∀ property ∈ correlation :: properties, property.Representable

namespace Properties

variable {config : CrateConfig} {properties : Properties}

theorem Representable.encodable (representable : properties.Representable) :
    properties.Encodable := by
  cases properties with
  | slice list =>
      exact
        { varintFits := fun property mem => (representable property mem).varintFits
          short := fun property mem =>
            Property.length_bytes_of_representable (representable property mem) }
  | dataBlock block =>
      have bound : block.length < 65536 := representable
      exact
        { varintFits := nofun
          short := (by omega : block.length + 2 < 2 ^ 32) }
  | correlatedSlice correlation list =>
      exact
        { varintFits := fun property mem => (representable property mem).varintFits
          short := fun property mem =>
            Property.length_bytes_of_representable (representable property mem) }

theorem eq_slice_nil_iff : properties = .slice [] ↔ properties.blockBytes = [] := by
  constructor
  · rintro rfl
    rfl
  · intro empty
    cases properties with
    | slice list =>
        cases list with
        | nil => rfl
        | cons property rest => simp [blockBytes, Property.bytes] at empty
    | dataBlock block => simp [blockBytes, sliceBytes, u16Bytes] at empty
    | correlatedSlice correlation list => simp [blockBytes, Property.bytes] at empty

/-- The size that is computed, unless computing it panics. -/
def computed (properties : Properties) : ℕ := properties.size.getD 0

theorem Representable.size_eq (representable : properties.Representable) :
    properties.size = some properties.computed := by
  rcases representable.encodable.size_eq with ⟨size, sized, _⟩
  rw [computed, sized]
  rfl

/-- The bytes of properties behind their length, with feature `mqttv5`. -/
def presentLength (config : CrateConfig) (properties : Properties) : ℕ :=
  match config.protocol with
  | .mqttv3 => 0
  | .mqttv5 => properties.blockBytes.length

theorem length_v5Writes {len : ℕ} (representable : config.protocol = .mqttv5 →
      properties.Representable) (estimated : v5PropertiesLen config properties = some len) :
    (Write.allBytes (properties.v5Writes config)).length =
      len + properties.presentLength config := by
  unfold v5PropertiesLen at estimated
  unfold v5Writes presentLength
  cases protocol : config.protocol with
  | mqttv3 =>
      simp only [protocol, Option.some.injEq] at estimated
      simp [estimated.symm]
  | mqttv5 =>
      have sized := (representable protocol).size_eq
      simp only [protocol, sized, Option.bind_some] at estimated
      rcases varintLen_eq_some estimated with ⟨small, length⟩
      have same : properties.computed % 2 ^ 32 = properties.computed :=
        Nat.mod_eq_of_lt (by omega)
      simp only [sized, Option.getD_some, writes, same, Write.allBytes_cons, Write.bytes,
        allBytes_blockWrites, List.length_append, length]

/-- The estimate fails only for properties that are too long. -/
theorem presentLength_pos_of_none (representable : config.protocol = .mqttv5 →
      properties.Representable) (failed : v5PropertiesLen config properties = none) :
    config.protocol = .mqttv5 ∧ 2 ^ 28 ≤ properties.computed ∧ properties ≠ .slice [] := by
  unfold v5PropertiesLen at failed
  cases protocol : config.protocol with
  | mqttv3 => simp [protocol] at failed
  | mqttv5 =>
      have sized := (representable protocol).size_eq
      simp only [protocol, sized, Option.bind_some] at failed
      have large : 2 ^ 28 ≤ properties.computed := by
        by_contra small
        rw [varintLen_eq (Nat.not_le.mp small)] at failed
        simp at failed
      refine ⟨rfl, large, ?_⟩
      rintro rfl
      exact absurd large (by decide)

end Properties

theorem sizeSuffices_iff {Packet : Type} [MqttEncode Packet] {config : CrateConfig}
    {packet : Packet} {writes : List Write}
    (performs : Performs (MqttEncode.writeBody config packet) writes)
    (small : (Write.allBytes writes).length < 2 ^ 28) (size : ℕ)
    (header : maxMqttHeaderLen ≤ size) (bounded : size < 2 ^ 32) :
    (∀ buf : List UInt8, buf.length = size → ∃ encoder,
      MqttEncode.toBuffer config packet (MqttEncoder.new buf) = .ok () encoder) ↔
      maxMqttHeaderLen + (Write.allBytes writes).length ≤ size := by
  have room : size - maxMqttHeaderLen < 2 ^ 32 := by omega
  constructor
  · intro encodes
    have length : (List.replicate size (0 : UInt8)).length = size := List.length_replicate
    have fits := ((exists_toBuffer_iff performs (by rw [length]; exact header)).mp
      (encodes _ length)).1
    rw [length, Write.fits_iff_of_lt room] at fits
    omega
  · intro enough buf length
    apply (exists_toBuffer_iff performs (by rw [length]; exact header)).mpr
    rw [length, Write.fits_iff_of_lt room]
    exact ⟨by omega, small⟩

section Estimates

variable {Packet : Type} [MqttEncode Packet] {config : CrateConfig} {packet : Packet}
  {writes : List Write} {properties : Properties}

theorem suffices_iff_of_len (performs : Performs (MqttEncode.writeBody config packet) writes)
    (small : (Write.allBytes writes).length < 2 ^ 28)
    (representable : config.protocol = .mqttv5 → properties.Representable) (base : ℕ)
    {estimate : Option ℕ} {total : ℕ → ℕ}
    (estimated : estimate = (v5PropertiesLen config properties).bind fun len => some (total len))
    (sized : ∀ len, total len = base + maxMqttHeaderLen + len)
    (length : (Write.allBytes writes).length =
      base + (Write.allBytes (properties.v5Writes config)).length) :
    (∃ size, estimate = some size ∧ ∀ buf : List UInt8, buf.length = size →
      ∃ encoder, MqttEncode.toBuffer config packet (MqttEncoder.new buf) = .ok () encoder) ↔
      (config.protocol = .mqttv5 → properties = .slice []) := by
  cases len_eq : v5PropertiesLen config properties with
  | none =>
      rcases Properties.presentLength_pos_of_none representable len_eq with ⟨v5, _, nonempty⟩
      rw [len_eq] at estimated
      constructor
      · rintro ⟨size, found, _⟩
        rw [estimated] at found
        simp at found
      · intro empty
        exact absurd (empty v5) nonempty
  | some len =>
      rw [len_eq, Option.bind_some, sized] at estimated
      have present := Properties.length_v5Writes representable len_eq
      have header : maxMqttHeaderLen ≤ base + maxMqttHeaderLen + len := by omega
      have bounded : base + maxMqttHeaderLen + len < 2 ^ 32 := by
        have five : maxMqttHeaderLen = 5 := rfl
        omega
      have suffices_iff := sizeSuffices_iff performs small _ header bounded
      have present_iff : properties.presentLength config = 0 ↔
          (config.protocol = .mqttv5 → properties = .slice []) := by
        unfold Properties.presentLength
        cases config.protocol with
        | mqttv3 => simp
        | mqttv5 => simp [Properties.eq_slice_nil_iff]
      rw [← present_iff, estimated]
      constructor
      · rintro ⟨size, found, encodes⟩
        cases found
        have enough := suffices_iff.mp encodes
        omega
      · intro nothing
        exact ⟨_, rfl, suffices_iff.mpr (by omega)⟩

end Estimates

section Packets

variable {config : CrateConfig}

theorem ConnAckPacket.suffices_iff {packet : ConnAckPacket}
    (representable : config.protocol = .mqttv5 → packet.properties.Representable)
    (small : (Write.allBytes (packet.writes config)).length < 2 ^ 28) :
    (EncodablePacket.connAck packet).SizeSuffices config ↔
      (config.protocol = .mqttv5 → packet.properties = .slice []) := by
  apply suffices_iff_of_len (performs fun v5 => (representable v5).encodable) small representable 2
  · exact (rfl : packet.maxPacketSize config = _)
  · exact fun len => rfl
  · simp only [writes, Write.allBytes_cons, Write.bytes, List.length_append, List.length_cons,
      List.length_nil]
    omega

theorem CodesAckPacket.suffices_iff {packet : CodesAckPacket}
    (representable : config.protocol = .mqttv5 → packet.properties.Representable)
    (small : (Write.allBytes (packet.writes config)).length < 2 ^ 28) :
    (EncodablePacket.codesAck packet).SizeSuffices config ↔
      (config.protocol = .mqttv5 → packet.properties = .slice []) := by
  apply suffices_iff_of_len (performs fun v5 => (representable v5).encodable) small representable
    (2 + (packet.presentCodes config).length)
  · exact (rfl : packet.maxPacketSize config = _)
  · intro len
    omega
  · simp only [writes, Write.allBytes_cons, Write.allBytes_append, allBytes_byteWrites, Write.bytes,
      List.length_append, ServerPacket.length_pidBytes]
    omega

theorem length_flatMap_writes {Item : Type} {writes : Item → List Write} {size : Item → ℕ}
    (each : ∀ item, (Write.allBytes (writes item)).length = size item) (items : List Item) :
    (Write.allBytes (items.flatMap writes)).length = (items.map size).sum := by
  rw [Write.allBytes_flatMap, List.length_flatMap]
  simp only [each]

theorem Subscribe.suffices_iff {packet : Subscribe}
    (representable : config.protocol = .mqttv5 → packet.properties.Representable)
    (topics : ∀ topic ∈ packet.topics, topic.topicPath.bytes.length < 65536)
    (small : (Write.allBytes (packet.writes config)).length < 2 ^ 28) :
    (EncodablePacket.subscribe packet).SizeSuffices config ↔
      (config.protocol = .mqttv5 → packet.properties = .slice []) := by
  apply suffices_iff_of_len (performs (fun v5 => (representable v5).encodable) topics) small
    representable (2 + (packet.topics.map fun topic => 2 + topic.topicPath.bytes.length + 1).sum)
  · exact (rfl : packet.maxPacketSize config = _)
  · intro len
    omega
  · have each : ∀ topic : SubscribeTopic, (Write.allBytes [.checked (sliceBytes
        topic.topicPath.bytes), .plain [topic.options config]]).length =
        2 + topic.topicPath.bytes.length + 1 := by
      intro topic
      simp only [Write.allBytes_cons, Write.allBytes_nil, Write.bytes, List.length_append,
        Property.length_sliceBytes, List.length_cons, List.length_nil]
      omega
    simp only [writes, Write.allBytes_cons, Write.allBytes_append, List.length_append,
      length_flatMap_writes each, Write.bytes, ServerPacket.length_pidBytes]
    omega

theorem Unsubscribe.suffices_iff {packet : Unsubscribe}
    (representable : config.protocol = .mqttv5 → packet.properties.Representable)
    (topics : ∀ topic ∈ packet.topics, topic.bytes.length < 65536)
    (small : (Write.allBytes (packet.writes config)).length < 2 ^ 28) :
    (EncodablePacket.unsubscribe packet).SizeSuffices config ↔
      (config.protocol = .mqttv5 → packet.properties = .slice []) := by
  apply suffices_iff_of_len (performs (fun v5 => (representable v5).encodable) topics) small
    representable (2 + (packet.topics.map fun topic => topic.bytes.length + 2).sum)
  · exact (rfl : packet.maxPacketSize config = _)
  · intro len
    omega
  · have each : ∀ topic : Utf8, (Write.allBytes [.checked (sliceBytes topic.bytes)]).length =
        topic.bytes.length + 2 := by
      intro topic
      simp only [Write.allBytes_cons, Write.allBytes_nil, Write.bytes, List.append_nil,
        Property.length_sliceBytes]
    simp only [writes, Write.allBytes_cons, Write.allBytes_append, List.length_append,
      length_flatMap_writes each, Write.bytes, ServerPacket.length_pidBytes]
    omega

/-- An acknowledgement that is a success without properties has no detail that could lack space. -/
theorem AckPacket.suffices_iff {packet : AckPacket}
    (representable : config.protocol = .mqttv5 → packet.properties.Representable)
    (small : (Write.allBytes (packet.writes config)).length < 2 ^ 28) :
    (EncodablePacket.ack packet).SizeSuffices config ↔
      (config.protocol = .mqttv5 → packet.properties = .slice [] ∨
        packet.reasonCode = 0x00 ∧ packet.properties.size = some 0) := by
  have performed : Performs (MqttEncode.writeBody config packet) (packet.writes config) :=
    performs fun v5 => (representable v5).encodable
  by_cases plain : config.protocol = .mqttv5 →
      packet.reasonCode = 0x00 ∧ packet.properties.size = some 0
  · -- Only the packet identifier is written.
    have estimate : packet.maxPacketSize config = some (2 + maxMqttHeaderLen) := by
      unfold maxPacketSize
      cases protocol : config.protocol with
      | mqttv3 => rfl
      | mqttv5 =>
          rcases plain protocol with ⟨success, empty⟩
          simp [success, empty]
    have length : (Write.allBytes (packet.writes config)).length = 2 := by
      unfold writes detailWrites
      cases protocol : config.protocol with
      | mqttv3 => rfl
      | mqttv5 =>
          rcases plain protocol with ⟨success, empty⟩
          simp [success, empty, Write.bytes, ServerPacket.length_pidBytes]
    have encodes := (sizeSuffices_iff performed small (2 + maxMqttHeaderLen) (by decide)
      (by decide)).mpr (by rw [length, Nat.add_comm])
    exact ⟨fun _ v5 => Or.inr (plain v5), fun _ => ⟨_, estimate, encodes⟩⟩
  · rw [Classical.not_imp] at plain
    rcases plain with ⟨v5, detailed⟩
    have sized := (representable v5).size_eq
    have estimated : packet.maxPacketSize config =
        (v5PropertiesLen config packet.properties).bind fun len =>
          some (2 + maxMqttHeaderLen + 1 + len) := by
      have more : packet.reasonCode ≠ 0x00 ∨ packet.properties.computed ≠ 0 := by
        by_contra neither
        rw [not_or, not_not, not_not] at neither
        exact detailed ⟨neither.1, by rw [sized, neither.2]⟩
      unfold maxPacketSize v5PropertiesLen
      simp only [v5, sized, Option.bind_eq_bind, Option.bind_some, if_pos more]
    have length : (Write.allBytes (packet.writes config)).length =
        3 + (Write.allBytes (packet.properties.v5Writes config)).length := by
      unfold writes detailWrites Properties.v5Writes
      simp only [v5, if_neg detailed, Write.allBytes_cons, Write.bytes, List.length_append,
        List.length_cons, List.length_nil, ServerPacket.length_pidBytes]
      omega
    have lenOnly := suffices_iff_of_len performed small representable 3 estimated
      (fun len => by omega) length
    refine Iff.trans lenOnly ?_
    exact ⟨fun empty v5 => Or.inl (empty v5),
      fun either v5 => (either v5).resolve_right detailed⟩

/-- The computed size of properties, with feature `mqttv5`. -/
def Properties.presentSize (config : CrateConfig) (properties : Properties) : ℕ :=
  match config.protocol with
  | .mqttv3 => 0
  | .mqttv5 => properties.computed

theorem v5PropertiesSize_eq_some {properties : Properties} {size : ℕ}
    (representable : config.protocol = .mqttv5 → properties.Representable)
    (estimated : v5PropertiesSize config properties = some size) :
    properties.presentSize config < 2 ^ 28 ∧
      (Write.allBytes (properties.v5Writes config)).length + properties.presentSize config =
        size + properties.presentLength config := by
  unfold v5PropertiesSize at estimated
  cases protocol : config.protocol with
  | mqttv3 =>
      simp only [protocol, Option.some.injEq] at estimated
      simp [Properties.v5Writes, Properties.presentSize, Properties.presentLength, protocol,
        estimated.symm]
  | mqttv5 =>
      have sized := (representable protocol).size_eq
      simp only [protocol, sized, Option.bind_eq_bind, Option.bind_some] at estimated
      rcases Option.bind_eq_some_iff.mp estimated with ⟨len, found, total⟩
      cases total
      have small := (varintLen_eq_some found).1
      have estimatedLen : v5PropertiesLen config properties = some len := by
        rw [v5PropertiesLen, protocol]
        simp only [sized, Option.bind_some, found]
      rw [Properties.length_v5Writes representable estimatedLen]
      simp only [Properties.presentSize, protocol]
      exact ⟨small, by omega⟩

theorem v5PropertiesSize_eq_none {properties : Properties}
    (representable : config.protocol = .mqttv5 → properties.Representable)
    (failed : v5PropertiesSize config properties = none) :
    2 ^ 28 ≤ properties.presentSize config := by
  unfold v5PropertiesSize at failed
  unfold Properties.presentSize
  cases protocol : config.protocol with
  | mqttv3 => simp [protocol] at failed
  | mqttv5 =>
      have sized := (representable protocol).size_eq
      by_contra small
      simp [protocol, sized, varintLen_eq (Nat.not_le.mp small)] at failed

theorem DisconnectPacket.maxPacketSize_eq {packet : DisconnectPacket}
    (representable : config.protocol = .mqttv5 → packet.properties.Representable) :
    packet.maxPacketSize config =
      (v5PropertiesSize config packet.properties).map
        ((Write.allBytes (packet.codeWrites config)).length + maxMqttHeaderLen + ·) := by
  unfold maxPacketSize v5PropertiesSize codeWrites
  cases protocol : config.protocol with
  | mqttv3 =>
      by_cases normal : packet.reasonCode = DisconnectReasonCode.normal
      · simp [normal]
      · simp [normal, Write.bytes]
  | mqttv5 =>
      have sized := (representable protocol).size_eq
      simp only [sized, Option.bind_eq_bind, Option.bind_some]
      cases varintLen packet.properties.computed with
      | none => rfl
      | some len =>
          by_cases normal : packet.reasonCode = DisconnectReasonCode.normal
          · by_cases empty : packet.properties.computed = 0
            · simp [normal, empty]
              omega
            · simp [normal, empty, Write.bytes]
              omega
          · simp [normal, Write.bytes]
            omega

theorem DisconnectPacket.suffices_iff {packet : DisconnectPacket}
    (representable : config.protocol = .mqttv5 → packet.properties.Representable)
    (small : (Write.allBytes (packet.writes config)).length < 2 ^ 28) :
    (EncodablePacket.disconnect packet).SizeSuffices config ↔
      packet.properties.presentSize config < 2 ^ 28 ∧
        packet.properties.presentLength config ≤ packet.properties.presentSize config := by
  have performed : Performs (MqttEncode.writeBody config packet) (packet.writes config) :=
    performs fun v5 => (representable v5).encodable
  have parts : (Write.allBytes (packet.writes config)).length =
      (Write.allBytes (packet.codeWrites config)).length +
        (Write.allBytes (packet.properties.v5Writes config)).length := by
    rw [writes, Write.allBytes_append, List.length_append]
  have estimate := maxPacketSize_eq representable
  cases size_eq : v5PropertiesSize config packet.properties with
  | none =>
      have large := v5PropertiesSize_eq_none representable size_eq
      rw [size_eq] at estimate
      constructor
      · rintro ⟨size, found, _⟩
        exact absurd (estimate.symm.trans found) (by simp)
      · rintro ⟨bounded, _⟩
        omega
  | some total =>
      rcases v5PropertiesSize_eq_some representable size_eq with ⟨bounded, balance⟩
      rw [size_eq, Option.map_some] at estimate
      have five : maxMqttHeaderLen = 5 := rfl
      have suffices_iff := sizeSuffices_iff performed small
        ((Write.allBytes (packet.codeWrites config)).length + maxMqttHeaderLen + total)
        (by omega) (by omega)
      constructor
      · rintro ⟨size, found, encodes⟩
        cases estimate.symm.trans found
        have enough := suffices_iff.mp encodes
        exact ⟨bounded, by omega⟩
      · rintro ⟨_, covered⟩
        exact ⟨_, estimate, suffices_iff.mpr (by omega)⟩

namespace Connect

/-- The properties of the last will. -/
def willProperties (lastWill : Option LastWill) : Properties :=
  match lastWill with
  | none => .slice []
  | some will => will.properties

theorem willSize_eq_some {lastWill : Option LastWill} {size : ℕ}
    (representable : config.protocol = .mqttv5 → (willProperties lastWill).Representable)
    (estimated : willSize config lastWill = some size) :
    (willProperties lastWill).presentSize config < 2 ^ 28 ∧
      (Write.allBytes (willWrites config lastWill)).length +
          (willProperties lastWill).presentSize config =
        size + (willProperties lastWill).presentLength config := by
  cases lastWill with
  | none =>
      cases estimated
      unfold Properties.presentSize Properties.presentLength
      cases config.protocol with
      | mqttv3 => exact ⟨by decide, rfl⟩
      | mqttv5 => exact ⟨by decide, rfl⟩
  | some will =>
      rcases Option.bind_eq_some_iff.mp estimated with ⟨properties, found, total⟩
      cases total
      have willRepresentable : config.protocol = .mqttv5 → will.properties.Representable :=
        representable
      rcases v5PropertiesSize_eq_some willRepresentable found with ⟨bounded, balance⟩
      refine ⟨bounded, ?_⟩
      simp only [willWrites, willProperties, Write.allBytes_append, Write.allBytes_cons,
        Write.allBytes_nil, Write.bytes, List.length_append, Property.length_sliceBytes,
        List.length_nil]
      omega

theorem willSize_eq_none {lastWill : Option LastWill}
    (representable : config.protocol = .mqttv5 → (willProperties lastWill).Representable)
    (failed : willSize config lastWill = none) :
    2 ^ 28 ≤ (willProperties lastWill).presentSize config := by
  cases lastWill with
  | none => simp [willSize] at failed
  | some will =>
      cases size_eq : v5PropertiesSize config will.properties with
      | none =>
          have willRepresentable : config.protocol = .mqttv5 → will.properties.Representable :=
            representable
          exact v5PropertiesSize_eq_none willRepresentable size_eq
      | some size => simp [willSize, size_eq] at failed

theorem length_optionWrites (field : Option (List UInt8)) :
    (Write.allBytes (optionWrites field)).length = optionSize field := by
  cases field with
  | none => rfl
  | some bytes =>
      simp only [optionWrites, optionSize, Write.allBytes_cons, Write.allBytes_nil, Write.bytes,
        List.append_nil, Property.length_sliceBytes]
      omega

theorem length_writes (config : CrateConfig) (packet : Connect) :
    (Write.allBytes (packet.writes config)).length = 2 + packet.protocol.name.length + 1 + 1 + 2 +
      (Write.allBytes (packet.properties.v5Writes config)).length +
      (2 + packet.clientId.bytes.length) +
      (Write.allBytes (willWrites config packet.lastWill)).length +
      optionSize (packet.username.map Utf8.bytes) + optionSize packet.password := by
  have keepAlive : (u16Bytes packet.keepAlive.toNat).length = 2 := rfl
  simp only [writes, Write.allBytes_cons, Write.allBytes_append, Write.bytes,
    List.length_append, Property.length_sliceBytes, List.length_cons, List.length_nil, keepAlive,
    length_optionWrites]
  omega

/-- A CONNECT counts the bytes of its properties, but not the length of a block of its own. -/
theorem suffices_iff {packet : Connect}
    (representable : config.protocol = .mqttv5 → packet.properties.Representable)
    (willRepresentable : config.protocol = .mqttv5 →
      (willProperties packet.lastWill).Representable)
    (fields : packet.FieldsFit)
    (small : (Write.allBytes (packet.writes config)).length < 2 ^ 28) :
    (EncodablePacket.connect packet).SizeSuffices config ↔
      packet.properties.presentSize config < 2 ^ 28 ∧
        (willProperties packet.lastWill).presentSize config < 2 ^ 28 ∧
        packet.properties.presentLength config +
            (willProperties packet.lastWill).presentLength config ≤
          packet.properties.presentSize config +
            (willProperties packet.lastWill).presentSize config := by
  have willEncodable : ∀ will, packet.lastWill = some will → config.protocol = .mqttv5 →
      will.properties.Encodable := by
    intro will isWill v5
    have encodable := (willRepresentable v5).encodable
    rw [isWill] at encodable
    exact encodable
  have performed : Performs (MqttEncode.writeBody config packet) (packet.writes config) :=
    performs (fun v5 => (representable v5).encodable) willEncodable fields
  have five : maxMqttHeaderLen = 5 := rfl
  have parts := packet.length_writes config
  have estimate : packet.maxPacketSize config =
      (v5PropertiesSize config packet.properties).bind fun size =>
        (willSize config packet.lastWill).bind fun will =>
        some (2 + packet.protocol.name.length + 1 + 1 + 2 + size +
          (2 + packet.clientId.bytes.length) + will +
          optionSize (packet.username.map Utf8.bytes) + optionSize packet.password +
          maxMqttHeaderLen) := rfl
  cases size_eq : v5PropertiesSize config packet.properties with
  | none =>
      have large := v5PropertiesSize_eq_none representable size_eq
      rw [size_eq, Option.bind_none] at estimate
      constructor
      · rintro ⟨size, found, _⟩
        exact absurd (estimate.symm.trans found) (by simp)
      · rintro ⟨bounded, _⟩
        omega
  | some total =>
      rcases v5PropertiesSize_eq_some representable size_eq with ⟨bounded, balance⟩
      cases will_eq : willSize config packet.lastWill with
      | none =>
          have large := willSize_eq_none willRepresentable will_eq
          rw [size_eq, Option.bind_some, will_eq, Option.bind_none] at estimate
          constructor
          · rintro ⟨size, found, _⟩
            exact absurd (estimate.symm.trans found) (by simp)
          · rintro ⟨_, bounded, _⟩
            omega
      | some will =>
          rcases willSize_eq_some willRepresentable will_eq with ⟨willBounded, willBalance⟩
          rw [size_eq, Option.bind_some, will_eq, Option.bind_some] at estimate
          have suffices_iff := sizeSuffices_iff performed small _ (by omega)
            (by omega : 2 + packet.protocol.name.length + 1 + 1 + 2 + total +
              (2 + packet.clientId.bytes.length) + will +
              optionSize (packet.username.map Utf8.bytes) + optionSize packet.password +
              maxMqttHeaderLen < 2 ^ 32)
          constructor
          · rintro ⟨size, found, encodes⟩
            cases estimate.symm.trans found
            have enough := suffices_iff.mp encodes
            exact ⟨bounded, willBounded, by omega⟩
          · rintro ⟨_, _, covered⟩
            exact ⟨_, estimate, suffices_iff.mpr (by omega)⟩

end Connect

namespace Publish

variable {packet : Publish} {qosPid : QosPid}

theorem writePayload_eq_ok {payload : ToPayload} {before after : MqttEncoder}
    (written : writePayload payload before = .ok () after) :
    ∃ count rest, payload.serialize (before.buf.drop before.offset) = (.ok count, rest) := by
  unfold writePayload at written
  split at written
  · simp at written
  · rcases serialized : payload.serialize (before.buf.drop before.offset) with ⟨result, rest⟩
    cases result with
    | error fault => simp [serialized] at written
    | ok count => exact ⟨count, rest, rfl⟩

theorem writePayload_of_honest {payload : ToPayload} (honest : payload.Honest)
    {before : MqttEncoder} (inside : before.offset ≤ before.buf.length)
    (enough : payload.maxSize ≤ before.room) :
    ∃ after count, writePayload payload before = .ok () after ∧ count ≤ payload.maxSize ∧
      after.buf.length = before.buf.length ∧ after.offset = before.offset + count ∧
      after.headerStart = before.headerStart := by
  have length : (before.buf.drop before.offset).length = before.room := List.length_drop
  rcases honest.succeeds (before.buf.drop before.offset) (by rw [length]; exact enough) with
    ⟨count, rest, serialized, bounded⟩
  have same := payload.length_serialize (before.buf.drop before.offset)
  rw [serialized] at same
  have kept : (before.buf.take before.offset ++ rest).length = before.buf.length := by
    rw [List.length_append, List.length_take, same, length, room]
    omega
  refine ⟨⟨before.buf.take before.offset ++ rest, before.offset + count, before.headerStart⟩, count,
    ?_, bounded, kept, rfl, rfl⟩
  unfold writePayload
  rw [if_neg (Nat.not_lt.mpr inside)]
  simp only [serialized]

/-- The estimate leaves exactly the bytes of the properties out. -/
theorem exists_maxPacketSize {len : ℕ} (identified : packet.qosPid = some qosPid)
    (representable : config.protocol = .mqttv5 → packet.properties.Representable)
    (estimated : v5PropertiesLen config packet.properties = some len) :
    ∃ size, packet.maxPacketSize config = some size ∧ maxMqttHeaderLen ≤ size ∧
      size + packet.properties.presentLength config = maxMqttHeaderLen +
        (Write.allBytes (packet.headWrites config qosPid)).length + packet.payload.maxSize := by
  have present := Properties.length_v5Writes representable estimated
  have pidLen : (Write.allBytes (pidWrites qosPid)).length =
      if packet.qos = .atMostOnce then 0 else 2 := by
    rw [← qos_of_qosPid identified]
    cases qosPid with
    | atMostOnce => rfl
    | atLeastOnce pid | exactlyOnce pid => rfl
  refine ⟨_, by rw [maxPacketSize, estimated]; rfl, by omega, ?_⟩
  simp only [headWrites, Write.allBytes_append, Write.allBytes_cons, Write.allBytes_nil,
    Write.bytes, List.length_append, Property.length_sliceBytes, List.length_nil, present, pidLen]
  omega

/-- A publish is encoded exactly if there is room for its head and the largest payload. -/
theorem exists_toBuffer_iff_room
    (performs : Performs (packet.writeHead config) (packet.headWrites config qosPid))
    (honest : packet.payload.Honest)
    (small : (Write.allBytes (packet.headWrites config qosPid)).length +
      packet.payload.maxSize < 2 ^ 28)
    {buf : List UInt8} (header : maxMqttHeaderLen ≤ buf.length) (bounded : buf.length < 2 ^ 32) :
    (∃ encoder, MqttEncode.toBuffer config packet (MqttEncoder.new buf) = .ok () encoder) ↔
      maxMqttHeaderLen + (Write.allBytes (packet.headWrites config qosPid)).length +
        packet.payload.maxSize ≤ buf.length := by
  have five : maxMqttHeaderLen = 5 := rfl
  have start : (MqttEncoder.new buf).room = buf.length - maxMqttHeaderLen := rfl
  constructor
  · rintro ⟨encoder, encoded⟩
    rcases Encode.bind_eq_ok.mp encoded with ⟨_, body, written, _⟩
    rw [writeBody_eq] at written
    rcases Encode.bind_eq_ok.mp written with ⟨_, head, wroteHead, wrotePayload⟩
    rcases (performs _ head header).mp wroteHead with ⟨fits, wrote⟩
    rcases writePayload_eq_ok wrotePayload with ⟨count, rest, serialized⟩
    have enough : packet.payload.maxSize ≤ (head.buf.drop head.offset).length := by
      by_contra short
      rcases honest.fails _ (Nat.not_le.mp short) with ⟨fault, rest', failed⟩
      rw [serialized] at failed
      simp at failed
    have inside := Write.length_le_of_fits fits
    rw [List.length_drop, ← room, wrote.room_eq, start] at enough
    rw [start] at inside
    omega
  · intro enough
    have space : (MqttEncoder.new buf).offset +
        (Write.allBytes (packet.headWrites config qosPid)).length ≤
          (MqttEncoder.new buf).buf.length := by
      change maxMqttHeaderLen + _ ≤ buf.length
      omega
    rcases exists_wrote space with ⟨head, wrote⟩
    have fits : Write.Fits (MqttEncoder.new buf).room (packet.headWrites config qosPid) := by
      rw [start, Write.fits_iff_of_lt (by omega)]
      omega
    have left := wrote.room_eq
    rw [start] at left
    rcases writePayload_of_honest honest wrote.inside (by omega) with
      ⟨body, count, written, atMost, kept, offset, headerStart⟩
    have headOffset : head.offset = maxMqttHeaderLen +
        (Write.allBytes (packet.headWrites config qosPid)).length := by
      rw [wrote.eq]
      rfl
    have headLength : head.buf.length = buf.length := wrote.advanced.length
    have headStart : head.headerStart = maxMqttHeaderLen := wrote.advanced.headerStart
    rcases exists_finalizeFixedHeader .publish packet.flags (headerStart.trans headStart)
      (by omega) (by omega) (by omega) with ⟨encoder, finalizes⟩
    refine ⟨encoder, Encode.bind_eq_ok.mpr ⟨(), body, ?_, finalizes⟩⟩
    rw [writeBody_eq]
    exact Encode.bind_eq_ok.mpr ⟨(), head, (performs _ head header).mpr ⟨fits, wrote⟩, written⟩

theorem suffices_iff (topic : packet.topicName.bytes.length < 65536)
    (identified : packet.qosPid = some qosPid)
    (representable : config.protocol = .mqttv5 → packet.properties.Representable)
    (honest : packet.payload.Honest)
    (small : (Write.allBytes (packet.headWrites config qosPid)).length +
      packet.payload.maxSize < 2 ^ 28) :
    (EncodablePacket.publish packet).SizeSuffices config ↔
      (config.protocol = .mqttv5 → packet.properties = .slice []) := by
  have five : maxMqttHeaderLen = 5 := rfl
  have performs := performs_writeHead topic identified fun v5 => (representable v5).encodable
  have present_iff : packet.properties.presentLength config = 0 ↔
      (config.protocol = .mqttv5 → packet.properties = .slice []) := by
    unfold Properties.presentLength
    cases config.protocol with
    | mqttv3 => simp
    | mqttv5 => simp [Properties.eq_slice_nil_iff]
  cases len_eq : v5PropertiesLen config packet.properties with
  | none =>
      rcases Properties.presentLength_pos_of_none representable len_eq with ⟨v5, _, nonempty⟩
      constructor
      · rintro ⟨size, found, _⟩
        have estimate : packet.maxPacketSize config = some size := found
        simp [maxPacketSize, len_eq] at estimate
      · intro empty
        exact absurd (empty v5) nonempty
  | some len =>
      rcases exists_maxPacketSize identified representable len_eq with
        ⟨size, estimate, atLeast, balance⟩
      have fits_iff : ∀ buf : List UInt8, buf.length = size →
          ((∃ encoder, MqttEncode.toBuffer config packet (MqttEncoder.new buf) = .ok () encoder) ↔
            packet.properties.presentLength config = 0) := by
        intro buf length
        rw [exists_toBuffer_iff_room performs honest small (by omega) (by omega), length]
        omega
      rw [← present_iff]
      constructor
      · rintro ⟨size', found, encodes⟩
        cases estimate.symm.trans found
        have length : (List.replicate size (0 : UInt8)).length = size := List.length_replicate
        exact (fits_iff _ length).mp (encodes _ length)
      · intro nothing
        refine ⟨size, estimate, ?_⟩
        intro buf length
        exact (fits_iff buf length).mpr nothing

end Publish

theorem suffices_of_empty {Packet : Type} [MqttEncode Packet] {packet : Packet}
    (performs : Performs (MqttEncode.writeBody config packet) []) (buf : List UInt8)
    (length : buf.length = maxMqttHeaderLen) :
    ∃ encoder, MqttEncode.toBuffer config packet (MqttEncoder.new buf) = .ok () encoder :=
  (sizeSuffices_iff performs (by decide) maxMqttHeaderLen (by decide) (by decide)).mpr
    (by decide) buf length

end Packets

namespace EncodablePacket

variable {config : CrateConfig}

/-- Every field of the packet can be represented, as can its remaining length. -/
def Representable (config : CrateConfig) : EncodablePacket → Prop
  | connect packet =>
      (config.protocol = .mqttv5 → packet.properties.Representable) ∧
        (config.protocol = .mqttv5 →
          (Connect.willProperties packet.lastWill).Representable) ∧
        packet.FieldsFit ∧ (Write.allBytes (packet.writes config)).length < 2 ^ 28
  | connAck packet =>
      (config.protocol = .mqttv5 → packet.properties.Representable) ∧
        (Write.allBytes (packet.writes config)).length < 2 ^ 28
  | publish packet =>
      (config.protocol = .mqttv5 → packet.properties.Representable) ∧
        packet.topicName.bytes.length < 65536 ∧ packet.payload.Honest ∧
        ∃ qosPid, packet.qosPid = some qosPid ∧
          (Write.allBytes (packet.headWrites config qosPid)).length +
            packet.payload.maxSize < 2 ^ 28
  | ack packet =>
      (config.protocol = .mqttv5 → packet.properties.Representable) ∧
        (Write.allBytes (packet.writes config)).length < 2 ^ 28
  | subscribe packet =>
      (config.protocol = .mqttv5 → packet.properties.Representable) ∧
        (∀ topic ∈ packet.topics, topic.topicPath.bytes.length < 65536) ∧
        (Write.allBytes (packet.writes config)).length < 2 ^ 28
  | codesAck packet =>
      (config.protocol = .mqttv5 → packet.properties.Representable) ∧
        (Write.allBytes (packet.writes config)).length < 2 ^ 28
  | unsubscribe packet =>
      (config.protocol = .mqttv5 → packet.properties.Representable) ∧
        (∀ topic ∈ packet.topics, topic.bytes.length < 65536) ∧
        (Write.allBytes (packet.writes config)).length < 2 ^ 28
  | pingReq _ | pingResp _ => True
  | disconnect packet =>
      (config.protocol = .mqttv5 → packet.properties.Representable) ∧
        (Write.allBytes (packet.writes config)).length < 2 ^ 28

/-- What the estimate leaves out is absent. -/
def EstimateCovers (config : CrateConfig) : EncodablePacket → Prop
  | connect packet =>
      packet.properties.presentSize config < 2 ^ 28 ∧
        (Connect.willProperties packet.lastWill).presentSize config < 2 ^ 28 ∧
        packet.properties.presentLength config +
            (Connect.willProperties packet.lastWill).presentLength config ≤
          packet.properties.presentSize config +
            (Connect.willProperties packet.lastWill).presentSize config
  | connAck packet => config.protocol = .mqttv5 → packet.properties = .slice []
  | publish packet => config.protocol = .mqttv5 → packet.properties = .slice []
  | ack packet =>
      config.protocol = .mqttv5 → packet.properties = .slice [] ∨
        packet.reasonCode = 0x00 ∧ packet.properties.size = some 0
  | subscribe packet => config.protocol = .mqttv5 → packet.properties = .slice []
  | codesAck packet => config.protocol = .mqttv5 → packet.properties = .slice []
  | unsubscribe packet => config.protocol = .mqttv5 → packet.properties = .slice []
  | pingReq _ | pingResp _ => True
  | disconnect packet =>
      packet.properties.presentSize config < 2 ^ 28 ∧
        packet.properties.presentLength config ≤ packet.properties.presentSize config

end EncodablePacket

/-- The estimate suffices exactly for the packets that have nothing it leaves out. -/
theorem maxPacketSize_suffices_iff (config : CrateConfig) (packet : EncodablePacket)
    (representable : packet.Representable config) :
    packet.SizeSuffices config ↔ packet.EstimateCovers config := by
  cases packet with
  | connect packet =>
      rcases representable with ⟨properties, will, fields, small⟩
      exact Connect.suffices_iff properties will fields small
  | connAck packet => exact ConnAckPacket.suffices_iff representable.1 representable.2
  | publish packet =>
      rcases representable with ⟨properties, topic, honest, qosPid, identified, small⟩
      exact Publish.suffices_iff topic identified properties honest small
  | ack packet => exact AckPacket.suffices_iff representable.1 representable.2
  | subscribe packet =>
      rcases representable with ⟨properties, topics, small⟩
      exact Subscribe.suffices_iff properties topics small
  | codesAck packet => exact CodesAckPacket.suffices_iff representable.1 representable.2
  | unsubscribe packet =>
      rcases representable with ⟨properties, topics, small⟩
      exact Unsubscribe.suffices_iff properties topics small
  | pingReq packet =>
      have performs : Performs (MqttEncode.writeBody config packet) [] := Performs.pure
      have encodes := suffices_of_empty performs
      exact ⟨fun _ => True.intro, fun _ => ⟨_, rfl, encodes⟩⟩
  | pingResp packet =>
      have performs : Performs (MqttEncode.writeBody config packet) [] := Performs.pure
      have encodes := suffices_of_empty performs
      exact ⟨fun _ => True.intro, fun _ => ⟨_, rfl, encodes⟩⟩
  | disconnect packet => exact DisconnectPacket.suffices_iff representable.1 representable.2

theorem maxPacketSize_suffices_iff_example :
    (EncodablePacket.publish (Publish.mk false .atLeastOnce true (some .new) ⟨[0x61], rfl⟩
      (.ofSlice [1, 2]) (.slice []))).SizeSuffices (.default .mqttv5 true) := by
  refine (maxPacketSize_suffices_iff _ _ ?_).mpr fun _ => rfl
  exact ⟨fun _ _ mem => absurd mem List.not_mem_nil, by decide, ToPayload.honest_ofSlice _,
    .atLeastOnce .new, rfl, by decide⟩

/-- One property is enough for a publish not to fit. -/
theorem not_maxPacketSize_suffices_of_property :
    ∃ packet : EncodablePacket, packet.Representable (.default .mqttv5 true) ∧
      ¬packet.SizeSuffices (.default .mqttv5 true) := by
  have properties : (Properties.slice [.topicAlias 7]).Representable := by
    intro property mem
    rw [List.mem_singleton] at mem
    subst mem
    trivial
  have small : (Write.allBytes ((Publish.mk false .atLeastOnce true (some .new) ⟨[0x61], rfl⟩
      (.ofSlice [1, 2]) (.slice [.topicAlias 7])).headWrites (.default .mqttv5 true)
        (.atLeastOnce .new))).length + 2 < 2 ^ 28 := by decide
  have honest := ToPayload.honest_ofSlice [1, 2]
  refine ⟨.publish (Publish.mk false .atLeastOnce true (some .new) ⟨[0x61], rfl⟩
    (.ofSlice [1, 2]) (.slice [.topicAlias 7])), ?_, ?_⟩
  · exact ⟨fun _ => properties, by decide, honest, .atLeastOnce .new, rfl, small⟩
  · rw [Publish.suffices_iff (by decide) rfl (fun _ => properties) honest small]
    simp [CrateConfig.default]

end Mqttrust
