import Mqttrust.Encoding.AckRoundTrip

/-!
# Reason codes in short packets

A packet of MQTT 5 may end in front of its properties, and in front of its reason
code when that is zero. The decoders choose a branch by the remaining length alone.
They find no reason code in a packet that ends with it, and put the default of the
enumeration in the place of a byte that it does not list.
-/

namespace Mqttrust

/-- The reason code on the wire; a packet without one means zero. -/
def Tail.code : Tail → ReasonCode
  | none => 0x00
  | short code => code
  | full code _ => code

/-- The packets that may end in front of their reason code or of their properties. -/
inductive CodedPacket where
  | ack (kind : AckKind) (pid : Pid) (tail : Tail)
  | disconnect (tail : Tail)

namespace CodedPacket

/-- The packet in the grammar of a broker. -/
def onWire : CodedPacket → ServerPacket
  | ack kind pid tail => .ack kind pid tail
  | disconnect tail => .disconnect tail

/-- What follows the packet identifier. -/
def tail : CodedPacket → Tail
  | ack _ _ tail => tail
  | disconnect tail => tail

/-- The conversion of a byte to the enumeration of the packet type. -/
def fromPrimitive (config : CrateConfig) : CodedPacket → UInt8 → ReasonCode
  | ack kind _ _ => kind.reasonCode
  | disconnect _ => DisconnectReasonCode.fromPrimitive config.protocol

/-- The reason code that `from_decoder` of the packet type returns. -/
def decodedCode (config : CrateConfig) (decoder : MqttDecoder) :
    CodedPacket → Except Fault (Option ReasonCode)
  | ack kind _ _ => (fun ack => ack.detail.map Prod.fst) <$> kind.fromDecoder config decoder
  | disconnect _ => (fun disconnect => some disconnect.reasonCode) <$>
      Disconnect.fromDecoder config decoder

/-- The packet is decoded with the reason code that is on the wire. -/
def KeepsCode (config : CrateConfig) (packet : CodedPacket) : Prop :=
  ∃ decoder, MqttDecoder.tryNew config (packet.onWire.bytes config) = .ok decoder ∧
    packet.decodedCode config decoder = .ok (some packet.tail.code)

/-- The reason code is left out, or it is zero, or properties follow it and the enumeration of the
packet type has it. -/
def CodeFound (config : CrateConfig) (packet : CodedPacket) : Prop :=
  match packet.tail with
  | .none => True
  | .short code => code = 0x00
  | .full code _ => packet.fromPrimitive config code = code

variable {config : CrateConfig} {packet : CodedPacket}

/-- The decoded reason code, by the form of the packet. -/
theorem exists_decodedCode (v5 : config.protocol = .mqttv5)
    (wellFormed : packet.onWire.WellFormed config) :
    ∃ decoder, MqttDecoder.tryNew config (packet.onWire.bytes config) = .ok decoder ∧
      packet.decodedCode config decoder =
        .ok (some (match packet.tail with
          | .full code _ => packet.fromPrimitive config code
          | _ => 0x00)) := by
  have created := ServerPacket.tryNew_headerBytes wellFormed (packet.onWire.body config)
  refine ⟨_, created, ?_⟩
  have small := wellFormed.encodable
  cases packet with
  | ack kind pid tail =>
      simp only [onWire, ServerPacket.body, List.length_append] at small
      have decoded (header : FixedHeader)
          (remaining : header.remainingLen = 2 + tail.bytes.length) (offset headerLen : ℕ) :=
        ServerPacket.ack_fromDecoder offset headerLen header kind.reasonCode pid
          wellFormed.supported.2 (by omega) remaining
      have same : kind.fromDecoder config
          ((ServerPacket.ack kind pid tail).decoder config
            ((ServerPacket.ack kind pid tail).body config)) =
          .ok ⟨pid, tail.detail kind.reasonCode config.protocol⟩ := by
        cases kind with
        | _ => exact decoded _ (List.length_append) _ _
      simp only [onWire, decodedCode, same, v5]
      cases tail with
      | _ => rfl
  | disconnect tail =>
      have decoded := ServerPacket.disconnect_fromDecoder
        ((ServerPacket.disconnect tail).headerBytes config).length
        ((ServerPacket.disconnect tail).headerBytes config).length
        ((ServerPacket.disconnect tail).fixedHeader config) wellFormed.supported small rfl
      have same : Disconnect.fromDecoder config ((ServerPacket.disconnect tail).decoder config
          ((ServerPacket.disconnect tail).body config)) =
          .ok (tail.disconnect config.protocol) := decoded
      simp only [onWire, decodedCode, same, v5]
      cases tail with
      | full code properties =>
          simp only [CodedPacket.tail, fromPrimitive, v5]
          rfl
      | _ => rfl

/-- The reason code of a packet is found if and only if nothing is lost with its short form and the
enumeration lists it. -/
theorem keepsCode_iff (v5 : config.protocol = .mqttv5)
    (wellFormed : packet.onWire.WellFormed config) :
    packet.KeepsCode config ↔ packet.CodeFound config := by
  rcases exists_decodedCode v5 wellFormed with ⟨decoder, created, decoded⟩
  have keeps : packet.KeepsCode config ↔
      (match packet.tail with
        | .full code _ => packet.fromPrimitive config code
        | _ => 0x00) = packet.tail.code := by
    constructor
    · rintro ⟨other, same, found⟩
      rw [created] at same
      rcases Except.ok.inj same with rfl
      rw [decoded] at found
      exact Option.some.inj (Except.ok.inj found)
    · intro found
      rw [found] at decoded
      exact ⟨decoder, created, decoded⟩
  rw [keeps, CodeFound]
  cases packet.tail with
  | none => exact iff_of_true rfl trivial
  | short code => exact eq_comm
  | full code properties => exact Iff.rfl

/-- A PUBREC that refuses a message, with an empty block of properties. -/
theorem keepsCode_iff_example :
    (ack .pubRec .new (.full 0x87 [])).KeepsCode (.default .mqttv5 true) := by
  have wellFormed : (ack .pubRec .new (.full 0x87 [])).onWire.WellFormed (.default .mqttv5 true) :=
    ⟨⟨rfl, trivial⟩, by decide⟩
  have listed : PubRecReasonCode.fromPrimitive 0x87 = 0x87 := by decide
  exact (keepsCode_iff rfl wellFormed).mpr listed

/-- The same PUBREC without the length of its properties is taken for a success. -/
theorem not_keepsCode_short :
    (ack .pubRec .new (.short 0x87)).onWire.bytes (.default .mqttv5 true) =
        [0x50, 0x03, 0x00, 0x01, 0x87] ∧
      (ack .pubRec .new (.short 0x87)).onWire.WellFormed (.default .mqttv5 true) ∧
      ¬(ack .pubRec .new (.short 0x87)).KeepsCode (.default .mqttv5 true) := by
  have wellFormed : (ack .pubRec .new (.short 0x87)).onWire.WellFormed (.default .mqttv5 true) :=
    ⟨⟨rfl, trivial⟩, by decide⟩
  refine ⟨by decide, wellFormed, ?_⟩
  intro keeps
  have success : (0x87 : UInt8) = 0x00 := (keepsCode_iff rfl wellFormed).mp keeps
  exact absurd success (by decide)

end CodedPacket

end Mqttrust
