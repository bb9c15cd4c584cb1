import Mqttrust.Encoding.PacketSteps

/-!
# The framing of a packet

`finalize_fixed_header` puts the fixed header in front of a body, whatever its
length, and `MqttDecoder::try_new` reads it back. The type of a packet and its
flags are independent of each other here: the decoder takes them from disjoint
bits of the first byte.
-/

namespace Mqttrust

open MqttEncoder

/-- Whether the quality of service exists with the selected features. -/
def QoS.Supported (config : CrateConfig) (qos : QoS) : Prop :=
  qos = .exactlyOnce → config.qos2 = true

namespace EncodablePacket

/-- `FixedHeader::flags`. -/
def flags : EncodablePacket → UInt8
  | connect packet => MqttEncode.flags packet
  | connAck packet => MqttEncode.flags packet
  | publish packet => MqttEncode.flags packet
  | ack packet => MqttEncode.flags packet
  | subscribe packet => MqttEncode.flags packet
  | codesAck packet => MqttEncode.flags packet
  | unsubscribe packet => MqttEncode.flags packet
  | pingReq packet => MqttEncode.flags packet
  | pingResp packet => MqttEncode.flags packet
  | disconnect packet => MqttEncode.flags packet

/-- The fixed header that the flags of a packet stand for. The flags of SUBSCRIBE and UNSUBSCRIBE
are those of QoS 1. -/
def header (packet : EncodablePacket) (typ : PacketType) (remainingLen : ℕ) : FixedHeader :=
  match packet with
  | publish packet => ⟨typ, packet.dup, packet.qos, packet.retain, remainingLen⟩
  | subscribe _ | unsubscribe _ => ⟨typ, false, .atLeastOnce, false, remainingLen⟩
  | _ => ⟨typ, false, .atMostOnce, false, remainingLen⟩

end EncodablePacket

/-- The flags of a fixed header. -/
def headerFlags (dup : Bool) (qos : QoS) (retain : Bool) : UInt8 :=
  qos.toByte <<< 1 ||| (if dup then 0b1000 else 0) ||| (if retain then 0b0001 else 0)

theorem EncodablePacket.flags_eq (packet : EncodablePacket) (typ : PacketType)
    (remainingLen : ℕ) :
    packet.flags = headerFlags (packet.header typ remainingLen).dup
      (packet.header typ remainingLen).qos (packet.header typ remainingLen).retain := by
  have unset : headerFlags false .atMostOnce false = 0 := by decide
  have reserved : headerFlags false .atLeastOnce false = 0b0010 := by decide
  cases packet with
  | publish packet => rfl
  | subscribe packet => exact reserved.symm
  | unsubscribe packet => exact reserved.symm
  | _ => exact unset.symm

theorem tryFrom_toByte_qos {config : CrateConfig} {qos : QoS} (supported : qos.Supported config) :
    QoS.tryFrom config qos.toByte = some qos := by
  cases qos with
  | atMostOnce => rfl
  | atLeastOnce => rfl
  | exactlyOnce => simp [QoS.tryFrom, QoS.toByte, supported rfl]

/-- The type and the flags occupy disjoint bits of the first byte. -/
theorem firstByte_bits (typ : PacketType) (dup : Bool) (qos : QoS) (retain : Bool) :
    (typ.toByte ||| headerFlags dup qos retain) &&& 0xF0 = typ.toByte ∧
      ((typ.toByte ||| headerFlags dup qos retain) &&& 0x06) >>> 1 = qos.toByte ∧
      ((typ.toByte ||| headerFlags dup qos retain) &&& 0x08 == 0x08) = dup ∧
      ((typ.toByte ||| headerFlags dup qos retain) &&& 0x01 == 0x01) = retain := by
  have nibbles : ∀ typ : PacketType, ∃ upper < 16, typ.toByte = UInt8.ofNat (16 * upper) := by
    intro typ
    exact ⟨typ.toByte.toNat / 16, by cases typ <;> decide, by cases typ <;> decide⟩
  rcases nibbles typ with ⟨upper, small, same⟩
  rw [same]
  clear same
  revert upper small
  cases dup <;> cases retain <;> cases qos <;> decide

/-- A fixed header is read back, together with the offset of the body. -/
theorem tryNew_packetBytes_of_headerFlags {config : CrateConfig} {header : FixedHeader}
    {body : List UInt8} (typ : header.typ.supported config = true)
    (qos : header.qos.Supported config) (len : body.length = header.remainingLen)
    (small : body.length < 2 ^ 28) :
    MqttDecoder.tryNew config
        (packetBytes (header.typ.toByte ||| headerFlags header.dup header.qos header.retain) body) =
      .ok ⟨body, (Varint.encode body.length).length + 1, (Varint.encode body.length).length + 1,
        header⟩ := by
  have more : Varint.encode body.length ++ body ≠ [] := by
    intro empty
    exact Varint.encode_ne_nil _ (List.append_eq_nil_iff.mp empty).1
  rcases firstByte_bits header.typ header.dup header.qos header.retain with
    ⟨upper, level, dup, retain⟩
  rw [packetBytes, MqttDecoder.tryNew_cons config _ more, upper, PacketType.tryFrom_toByte typ,
    MqttDecoder.readLen_encode small, level, dup, retain, tryFrom_toByte_qos qos, len]
  simp

/-- What finalizing the fixed header leaves in the buffer, and what is read back from it. -/
structure Framing (config : CrateConfig) (typ : PacketType) (packet : EncodablePacket)
    (body : List UInt8) (after : MqttEncoder) : Prop where
  bytes : after.buf.take after.usedSize =
    (typ.toByte ||| packet.flags) :: (Varint.encode body.length ++ body)
  whole : (after.buf.take after.usedSize).length = after.usedSize
  /-- No other encoding of the length is shorter. -/
  minimal : ∀ other count, Varint.decode other = .done body.length count →
    (Varint.encode body.length).length ≤ count
  decodes : (packet.header typ body.length).qos.Supported config →
    ∃ decoder, MqttDecoder.tryNew config (after.buf.take after.usedSize) = .ok decoder ∧
      decoder.fixedHeader = packet.header typ body.length ∧
      decoder.packetLen = after.usedSize ∧ decoder.rest = body ∧
      (after.buf.take after.usedSize).drop decoder.offset = body ∧
      decoder.offset + body.length = after.usedSize

theorem EncodablePacket.header_typ (packet : EncodablePacket) (typ : PacketType)
    (remainingLen : ℕ) : (packet.header typ remainingLen).typ = typ := by
  cases packet with
  | _ => rfl

theorem EncodablePacket.header_remainingLen (packet : EncodablePacket) (typ : PacketType)
    (remainingLen : ℕ) : (packet.header typ remainingLen).remainingLen = remainingLen := by
  cases packet with
  | _ => rfl

/-- The fixed header of every type and of the flags of every packet frames every body whose length
it can announce, and the decoder finds it again. -/
theorem finalizeFixedHeader_framing {config : CrateConfig} {typ : PacketType}
    (packet : EncodablePacket) {buf body : List UInt8} {before : MqttEncoder}
    (supported : typ.supported config = true) (small : body.length < 2 ^ 28)
    (wrote : (MqttEncoder.new buf).Wrote body before) :
    ∃ after, finalizeFixedHeader typ packet.flags before = .ok () after ∧
      Framing config typ packet body after := by
  have start : before.headerStart = maxMqttHeaderLen := wrote.advanced.headerStart
  have offset : before.offset = maxMqttHeaderLen + body.length := by
    rw [wrote.eq]
    rfl
  have remaining : before.offset - maxMqttHeaderLen = body.length := by omega
  rcases exists_finalizeFixedHeader typ packet.flags start (by omega) wrote.inside
    (by omega) with ⟨after, finalizes⟩
  have finalized := finalized_of_finalizeFixedHeader start finalizes
  have content : (before.buf.drop maxMqttHeaderLen).take body.length = body := wrote.take_drop
  have bytes : after.buf.take after.usedSize = packetBytes (typ.toByte ||| packet.flags) body := by
    have packed := finalized.packet
    rw [remaining, content] at packed
    exact packed
  have whole : (after.buf.take after.usedSize).length = after.usedSize := by
    rw [List.length_take]
    exact Nat.min_eq_left finalized.inside
  have used : after.usedSize = 1 + (Varint.encode body.length).length + body.length := by
    rw [← whole, bytes, packetBytes]
    simp only [List.length_cons, List.length_append]
    omega
  refine ⟨after, finalizes, bytes, whole, ?_, ?_⟩
  · intro other count decoded
    exact Varint.encode_length_le_of_decode_done decoded
  · intro level
    have typ_eq := packet.header_typ typ body.length
    have len_eq := packet.header_remainingLen typ body.length
    have created := tryNew_packetBytes_of_headerFlags (typ_eq.symm ▸ supported) level len_eq.symm
      small
    rw [typ_eq, ← packet.flags_eq] at created
    rw [bytes]
    refine ⟨_, created, rfl, ?_, rfl, ?_, ?_⟩
    · change (Varint.encode body.length).length + 1 +
        (packet.header typ body.length).remainingLen = _
      rw [len_eq]
      omega
    · change (packetBytes _ body).drop ((Varint.encode body.length).length + 1) = body
      rw [packetBytes, List.drop_succ_cons, List.drop_left]
    · change (Varint.encode body.length).length + 1 + body.length = _
      omega

/-- The flags of a retained publish of QoS 1 in front of a body of 200 bytes. -/
theorem finalizeFixedHeader_framing_example :
    ∃ before after, copyFromSlice (List.replicate 200 7) (MqttEncoder.new (List.replicate 256 0)) =
        .ok () before ∧
      finalizeFixedHeader .publish (EncodablePacket.publish ⟨false, .atLeastOnce, true, none,
        ⟨[], rfl⟩, .ofSlice [], .slice []⟩).flags before = .ok () after ∧
      Framing (.default .mqttv5 false) .publish (.publish ⟨false, .atLeastOnce, true, none,
        ⟨[], rfl⟩, .ofSlice [], .slice []⟩) (List.replicate 200 7) after := by
  have fits : (MqttEncoder.new (List.replicate 256 0)).offset +
      (List.replicate 200 (7 : UInt8)).length ≤
        (MqttEncoder.new (List.replicate 256 0)).buf.length := by
    simp only [MqttEncoder.new, List.length_replicate]
    decide
  have small : (List.replicate 200 (7 : UInt8)).length < 2 ^ 28 := by
    rw [List.length_replicate]
    decide
  have written : copyFromSlice (List.replicate 200 7) (MqttEncoder.new (List.replicate 256 0)) =
      .ok () _ := if_pos fits
  have supported : PacketType.publish.supported (.default .mqttv5 false) = true := rfl
  rcases finalizeFixedHeader_framing (EncodablePacket.publish ⟨false, .atLeastOnce, true, none,
    ⟨[], rfl⟩, .ofSlice [], .slice []⟩) supported small (wrote_of_copyFromSlice written) with
    ⟨after, finalizes, framing⟩
  exact ⟨_, after, written, finalizes, framing⟩

end Mqttrust
