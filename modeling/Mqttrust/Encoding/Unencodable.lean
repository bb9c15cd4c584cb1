import Mathlib.Data.List.Flatten
import Mqttrust.Encoding.PacketSteps

/-!
# Values that the wire format cannot carry

A packet may hold a field that is too long for its length, a subscription identifier
that is no variable byte integer, or more than a packet can hold. The encoder has no
check for any of them: a field is written behind the low bits of its length, and the
other values panic. An error is returned only if something else is in the way.
-/

namespace Mqttrust

open MqttEncoder

namespace EncodeStep

/-- With enough room, an error is returned before anything panics: a check meets a room that cut to
32 bits is smaller than what it asks for, or something is missing. -/
def Refuses : ℕ → List EncodeStep → Prop
  | _, [] => False
  | room, check len :: rest => room % 2 ^ 32 < len ∨ Refuses room rest
  | room, put bytes :: rest => Refuses (room - bytes.length) rest
  | _, fail fault :: _ => fault ≠ .panic

theorem exists_error_iff {room : ℕ} {steps : List EncodeStep}
    (enough : (allBytes steps).length ≤ room) :
    (∃ error, fault room steps = some (.error error)) ↔ Refuses room steps := by
  induction steps generalizing room with
  | nil => simp [fault, Refuses]
  | cons step rest ih =>
      rw [allBytes_cons, List.length_append] at enough
      cases step with
      | check len =>
          have later : (∃ error, fault room rest = some (.error error)) ↔ Refuses room rest :=
            ih (by omega)
          rw [fault, Refuses]
          by_cases short : room % 2 ^ 32 < len
          · rw [if_pos short]
            exact iff_of_true ⟨_, rfl⟩ (.inl short)
          · rw [if_neg short, later]
            exact (or_iff_right short).symm
      | put stored =>
          rw [bytes] at enough
          have fits : stored.length ≤ room := by omega
          have later : (allBytes rest).length ≤ room - stored.length := by omega
          rw [fault, Refuses, if_pos fits, ih later]
      | fail fault =>
          rw [EncodeStep.fault, Refuses]
          cases fault with
          | error error => exact iff_of_true ⟨error, rfl⟩ (by simp)
          | panic => exact iff_of_false (by simp) (by simp)

theorem not_fits_of_fail {room : ℕ} {steps : List EncodeStep} {fault : EncodeFault}
    (mem : .fail fault ∈ steps) : ¬Fits room steps := by
  induction steps generalizing room with
  | nil => simp at mem
  | cons step rest ih =>
      rcases List.mem_cons.mp mem with rfl | later
      · exact id
      · cases step with
        | check len => exact fun fits => ih later fits.2
        | put stored => exact fun fits => ih later fits.2
        | fail fault => exact id

end EncodeStep

/-- The strings and the binary data of a property. -/
def Property.fields : Property → List (List UInt8)
  | contentType value | responseTopic value | assignedClientIdentifier value
  | authenticationMethod value | responseInformation value | serverReference value
  | reasonString value => [value.bytes]
  | correlationData value | authenticationData value => [value]
  | userProperty key value => [key.bytes, value.bytes]
  | _ => []

namespace Properties

/-- The length of a block of properties. -/
def blockLength : Properties → ℕ
  | dataBlock block => block.length
  | properties => properties.blockBytes.length

theorem blockLength_le_blockBytes (properties : Properties) :
    properties.blockLength ≤ properties.blockBytes.length := by
  cases properties with
  | slice | correlatedSlice => exact Nat.le_refl _
  | dataBlock block =>
      rw [blockBytes, Property.length_sliceBytes, blockLength]
      omega

theorem blockLength_le_of_size {properties : Properties} {size : ℕ}
    (sized : properties.size = some size) : properties.blockLength ≤ size := by
  rcases size_eq_of_size sized with counted | ⟨block, rfl, counted⟩
  · have within := properties.blockLength_le_blockBytes
    omega
  · exact Nat.le_of_eq counted.symm

end Properties

namespace EncodablePacket

/-- The property lists of a packet, which exist with feature `mqttv5` only. -/
def propertyLists (config : CrateConfig) (packet : EncodablePacket) : List Properties :=
  match config.protocol with
  | .mqttv3 => []
  | .mqttv5 =>
      match packet with
      | connect packet => packet.properties :: (packet.lastWill.map LastWill.properties).toList
      | connAck packet => [packet.properties]
      | publish packet => [packet.properties]
      | ack packet => [packet.properties]
      | subscribe packet => [packet.properties]
      | codesAck packet => [packet.properties]
      | unsubscribe packet => [packet.properties]
      | pingReq _ | pingResp _ => []
      | disconnect packet => [packet.properties]

/-- The strings and the binary data of a packet other than those of its properties. -/
def ownFields : EncodablePacket → List (List UInt8)
  | connect packet =>
      packet.clientId.bytes ::
        ((packet.lastWill.toList.flatMap fun will => [will.topic.bytes, will.data]) ++
          (packet.username.map Utf8.bytes).toList ++ packet.password.toList)
  | publish packet => [packet.topicName.bytes]
  | subscribe packet => packet.topics.map fun topic => topic.topicPath.bytes
  | unsubscribe packet => packet.topics.map Utf8.bytes
  | connAck _ | ack _ | codesAck _ | pingReq _ | pingResp _ | disconnect _ => []

/-- The strings and the binary data of a packet. -/
def fields (config : CrateConfig) (packet : EncodablePacket) : List (List UInt8) :=
  packet.ownFields ++
    (packet.propertyLists config).flatMap fun list => list.toList.flatMap Property.fields

/-- The packet holds something that the wire format cannot carry. -/
inductive Unencodable (config : CrateConfig) (packet : EncodablePacket) (buf : List UInt8) :
    Prop where
  | field (bytes : List UInt8) (mem : bytes ∈ packet.fields config) (long : 65536 ≤ bytes.length)
  | identifier (list : Properties) (mem : list ∈ packet.propertyLists config) (id : UInt32)
      (listed : .subscriptionIdentifier id ∈ list.toList) (large : 2 ^ 28 ≤ id.toNat)
  | block (list : Properties) (mem : list ∈ packet.propertyLists config)
      (large : 2 ^ 28 ≤ list.blockLength)
  | remaining (count : ℕ) (taken : packet.payloadLength (packet.rest config buf) = .ok count)
      (large : 2 ^ 28 ≤ (packet.headBytes config).length + count)

/-- The packet is rejected with an error. -/
def Rejects (config : CrateConfig) (packet : EncodablePacket) (buf : List UInt8) : Prop :=
  ∃ error encoder,
    packet.toBuffer config (MqttEncoder.new buf) = .error (.error error) encoder

/-- Something other than what cannot be carried is in the way: a check or a missing packet
identifier, or the serializer of the payload. -/
def Refused (config : CrateConfig) (packet : EncodablePacket) (buf : List UInt8) : Prop :=
  EncodeStep.Refuses (buf.length - maxMqttHeaderLen) (packet.steps config) ∨
    EncodeStep.Fits (buf.length - maxMqttHeaderLen) (packet.steps config) ∧
      ∃ error, packet.payloadLength (packet.rest config buf) = .error (.error error)

variable {config : CrateConfig} {packet : EncodablePacket} {buf : List UInt8}

theorem steps_sublist_v5Steps (list : Properties) (v5 : config.protocol = .mqttv5) :
    list.steps.Sublist (list.v5Steps config) := by
  rw [Properties.v5Steps, v5]

/-- The properties of a packet are written, unless there are none. -/
theorem steps_sublist {list : Properties} (mem : list ∈ packet.propertyLists config) :
    list.steps.Sublist (packet.steps config) ∨ list.size = some 0 := by
  unfold propertyLists at mem
  cases v5 : config.protocol with
  | mqttv3 => simp [v5] at mem
  | mqttv5 =>
      have written := steps_sublist_v5Steps list v5
      cases packet with
      | connect packet =>
          left
          simp only [v5, List.mem_cons, Option.mem_toList, Option.map_eq_some_iff] at mem
          rcases mem with rfl | ⟨will, found, rfl⟩
          · exact ((((written.trans (List.sublist_append_right _ _)).trans
              (List.sublist_append_left _ _)).trans (List.sublist_append_left _ _)).trans
                (List.sublist_append_left _ _)).trans (List.sublist_append_left _ _)
          · have will_sublist : will.properties.steps.Sublist
                (Connect.willSteps config packet.lastWill) := by
              rw [found]
              exact written.trans (List.sublist_append_left _ _)
            exact ((will_sublist.trans (List.sublist_append_right _ _)).trans
              (List.sublist_append_left _ _)).trans (List.sublist_append_left _ _)
      | connAck packet =>
          simp only [v5, List.mem_singleton] at mem
          subst mem
          exact .inl (written.trans (List.sublist_append_right _ _))
      | publish packet =>
          simp only [v5, List.mem_singleton] at mem
          subst mem
          exact .inl (written.trans (List.sublist_append_right _ _))
      | ack packet =>
          simp only [v5, List.mem_singleton] at mem
          subst mem
          have full : packet.properties.steps.Sublist
              (.put [packet.reasonCode] :: packet.properties.steps) := List.sublist_cons_self _ _
          have detail : packet.properties.steps.Sublist (packet.detailSteps config) ∨
              packet.properties.size = some 0 := by
            unfold AckPacket.detailSteps
            rw [v5]
            dsimp only
            split
            · exact .inl full
            · rcases sized : packet.properties.size with _ | _ | size
              · left
                rw [Properties.steps, sized]
              · exact .inr rfl
              · exact .inl full
          exact detail.imp_left fun sublist => sublist.trans (List.sublist_append_right _ _)
      | subscribe packet =>
          simp only [v5, List.mem_singleton] at mem
          subst mem
          exact .inl ((written.trans (List.sublist_append_right _ _)).trans
            (List.sublist_append_left _ _))
      | codesAck packet =>
          simp only [v5, List.mem_singleton] at mem
          subst mem
          exact .inl ((written.trans (List.sublist_append_right _ _)).trans
            (List.sublist_append_left _ _))
      | unsubscribe packet =>
          simp only [v5, List.mem_singleton] at mem
          subst mem
          exact .inl ((written.trans (List.sublist_append_right _ _)).trans
            (List.sublist_append_left _ _))
      | pingReq packet => simp [v5] at mem
      | pingResp packet => simp [v5] at mem
      | disconnect packet =>
          simp only [v5, List.mem_singleton] at mem
          subst mem
          left
          rw [steps, DisconnectPacket.steps, v5]
          exact (List.sublist_append_right _ _).trans (List.sublist_append_right _ _)

/-- A packet is only encoded if the sizes of its properties can be computed, and then its body
holds them. -/
theorem exists_size_of_fits {list : Properties} (mem : list ∈ packet.propertyLists config) {room : ℕ}
    (fits : EncodeStep.Fits room (packet.steps config)) :
    ∃ size, list.size = some size ∧ list.blockLength ≤ (packet.headBytes config).length := by
  rcases steps_sublist mem with sublist | empty
  · rcases sized : list.size with _ | size
    · have gives_up : .fail .panic ∈ list.steps := by
        rw [Properties.steps, sized]
        exact List.mem_cons_self
      exact absurd fits (EncodeStep.not_fits_of_fail (sublist.subset gives_up))
    · refine ⟨size, rfl, ?_⟩
      have stored : (EncodeStep.allBytes list.steps).length ≤ (packet.headBytes config).length :=
        (sublist.flatMap _).length_le
      rw [Properties.allBytes_steps sized, List.length_append] at stored
      have within := list.blockLength_le_blockBytes
      omega
  · have nothing := Properties.blockLength_le_of_size empty
    exact ⟨0, empty, by omega⟩

/-- An error that is returned is an error of a field or of the payload. -/
theorem refused_iff_fault
    (enough : (EncodeStep.allBytes (packet.steps config)).length ≤ buf.length - maxMqttHeaderLen) :
    packet.Refused config buf ↔ ∃ error, packet.fault config buf = some (.error error) := by
  rw [Refused, ← EncodeStep.exists_error_iff enough]
  unfold fault
  rcases outcome : EncodeStep.fault (buf.length - maxMqttHeaderLen) (packet.steps config) with
    _ | early
  · have fits := EncodeStep.fault_eq_none_iff.mp outcome
    rcases returned : packet.payloadLength (packet.rest config buf) with fault | count
    · simp [fits]
    · dsimp only
      split
      · simp
      · simp
  · have refused : ¬EncodeStep.Fits (buf.length - maxMqttHeaderLen) (packet.steps config) := by
      rw [← EncodeStep.fault_eq_none_iff, outcome]
      simp
    simp [refused]

theorem fits_of_fault_eq_none (encoded : packet.fault config buf = none) :
    EncodeStep.Fits (buf.length - maxMqttHeaderLen) (packet.steps config) ∧
      ∃ count, packet.payloadLength (packet.rest config buf) = .ok count ∧
        (packet.headBytes config).length + count < 2 ^ 28 := by
  unfold fault at encoded
  rcases early : EncodeStep.fault (buf.length - maxMqttHeaderLen) (packet.steps config) with
    _ | fault
  · rcases returned : packet.payloadLength (packet.rest config buf) with fault | count
    · simp [early, returned] at encoded
    · simp only [early, returned, ite_eq_left_iff, reduceCtorEq, imp_false, not_not] at encoded
      exact ⟨EncodeStep.fault_eq_none_iff.mp early, count, rfl, encoded.2⟩
  · simp [early] at encoded

/-- What cannot be carried is rejected exactly if something else is in the way. What is encoded
all the same has a field that is longer than its length says. -/
theorem unencodable_rejected_iff (unencodable : packet.Unencodable config buf)
    (enough : maxMqttHeaderLen + (packet.headBytes config).length ≤ buf.length) :
    (packet.Rejects config buf ↔ packet.Refused config buf) ∧
      ((∃ encoder, packet.toBuffer config (MqttEncoder.new buf) = .ok () encoder) →
        ∃ field ∈ packet.fields config, 65536 ≤ field.length) := by
  have header : maxMqttHeaderLen ≤ buf.length := by omega
  have meets := packet.toBuffer_meets config header
  have stored : (EncodeStep.allBytes (packet.steps config)).length ≤
      buf.length - maxMqttHeaderLen := by
    rw [headBytes] at enough
    omega
  constructor
  · rw [refused_iff_fault stored]
    exact exists_congr fun error => meets.exists_error_iff
  · intro encoded
    rcases fits_of_fault_eq_none (meets.exists_ok_iff.mp encoded) with
      ⟨fits, count, returned, announced⟩
    cases unencodable with
    | field bytes mem long => exact ⟨bytes, mem, long⟩
    | identifier list mem id listed large =>
        rcases exists_size_of_fits mem fits with ⟨size, sized, _⟩
        have small : id.toNat < 2 ^ 28 := Properties.varintFits_of_size sized _ listed
        omega
    | block list mem large =>
        rcases exists_size_of_fits mem fits with ⟨_, _, within⟩
        omega
    | remaining count' taken large =>
        rw [returned, Except.ok.injEq] at taken
        omega

/-- A packet identifier is missing, before the subscription identifier is looked at. -/
theorem unencodable_rejected_iff_example :
    (EncodablePacket.publish ⟨false, .atLeastOnce, true, none, ⟨[0x61], rfl⟩, .ofSlice [1, 2],
      .slice [.subscriptionIdentifier 268435456]⟩).Rejects (.default .mqttv5 true)
        [0, 0, 0, 0, 0, 0, 0, 0, 0, 0] := by
  apply (unencodable_rejected_iff ?_ ?_).1.mpr
  · exact .inl (.inr (by simp : EncodeFault.error .pidMissing ≠ .panic))
  · exact .identifier _ List.mem_cons_self 268435456 List.mem_cons_self (by decide)
  · decide

/-- A subscription identifier of 2^28 panics, and a password of 65536 bytes is written behind the
length 0. -/
theorem not_unencodable_rejected :
    (∃ (packet : EncodablePacket) (buf : List UInt8),
      packet.Unencodable (.default .mqttv5 true) buf ∧
      maxMqttHeaderLen + (packet.headBytes (.default .mqttv5 true)).length ≤ buf.length ∧
      ∃ encoder, packet.toBuffer (.default .mqttv5 true) (MqttEncoder.new buf) =
        .error .panic encoder) ∧
    ∃ (packet : EncodablePacket) (buf : List UInt8),
      packet.Unencodable (.default .mqttv3 true) buf ∧
      maxMqttHeaderLen + (packet.headBytes (.default .mqttv3 true)).length ≤ buf.length ∧
      ∃ encoder, packet.toBuffer (.default .mqttv3 true) (MqttEncoder.new buf) =
        .ok () encoder := by
  constructor
  · refine ⟨.subscribe ⟨some .new, .slice [.subscriptionIdentifier 268435456], []⟩,
      [0, 0, 0, 0, 0, 0, 0, 0, 0, 0], ?_, by decide, _, rfl⟩
    exact .identifier _ List.mem_cons_self 268435456 List.mem_cons_self (by decide)
  · obtain ⟨password, long⟩ : ∃ password : List UInt8, password.length = 65536 :=
      ⟨List.replicate 65536 0, List.length_replicate⟩
    obtain ⟨buf, length⟩ : ∃ buf : List UInt8, buf.length = 65555 :=
      ⟨List.replicate 65555 0, List.length_replicate⟩
    let connect : Connect := ⟨.mqtt311, .slice [], 0, ⟨[], rfl⟩, none, some password, none, true⟩
    have steps : (EncodablePacket.connect connect).steps (.default .mqttv3 true) =
        Write.allSteps [.checked (sliceBytes [0x4D, 0x51, 0x54, 0x54]), .plain [4],
          .plain [connect.connectFlags], .checked (u16Bytes 0), .checked (sliceBytes []),
          .checked (sliceBytes password)] := rfl
    have name : (sliceBytes [0x4D, 0x51, 0x54, 0x54]).length = 6 := rfl
    have empty : (sliceBytes []).length = 2 := rfl
    have keepAlive : (u16Bytes 0).length = 2 := rfl
    have field := Property.length_sliceBytes password
    have size : ((EncodablePacket.connect connect).headBytes (.default .mqttv3 true)).length =
        65550 := by
      rw [headBytes, steps, Write.allBytes_allSteps]
      simp only [Write.allBytes_cons, Write.allBytes_nil, Write.bytes, List.length_append,
        List.length_cons, List.length_nil, name, empty, keepAlive, field, long]
    have fits : EncodeStep.Fits (buf.length - maxMqttHeaderLen)
        ((EncodablePacket.connect connect).steps (.default .mqttv3 true)) := by
      rw [steps, length]
      simp only [Write.allSteps, Write.steps, List.flatMap_cons, List.flatMap_nil,
        List.append_nil, List.cons_append, List.nil_append, EncodeStep.Fits, List.length_cons,
        List.length_nil, name, empty, keepAlive, field, long, maxMqttHeaderLen]
      decide
    have enough : maxMqttHeaderLen ≤ buf.length := by
      rw [length]
      decide
    refine ⟨.connect connect, buf, ?_, ?_, ?_⟩
    · exact .field password (List.mem_cons_of_mem _ List.mem_cons_self) (Nat.le_of_eq long.symm)
    · rw [size, length, maxMqttHeaderLen]
    · have meets := toBuffer_meets (.default .mqttv3 true) (.connect connect) enough
      rw [fault, EncodeStep.fault_eq_none_iff.mpr fits] at meets
      simp only [payloadLength, size, length] at meets
      exact meets

end EncodablePacket

end Mqttrust
