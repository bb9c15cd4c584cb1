import Mqttrust.Encoding.Fields
import Mqttrust.Encoding.IndexedDecoder

/-!
# When decoding panics

`ReceivedPacket::from_buffer` gets any bytes, but no more than the packet that they
announce. All its slices are in range then, and the announced length is not behind
the offset. The vectors of reason codes have a fixed capacity.
-/

namespace Mqttrust

variable {config : CrateConfig}

/-- What `PacketReader::decode` passes: no byte behind the packet that the bytes announce. -/
def EndsWithinPacket (config : CrateConfig) (buf : List UInt8) : Prop :=
  ∀ decoder, MqttDecoder.tryNew config buf = .ok decoder → buf.length ≤ decoder.packetLen

/-- A complete acknowledgement which has, behind its packet identifier and its properties, more
reason codes than a vector of capacity `MAX_SUB_TOPICS_PER_MSG` can hold. -/
def OverfullAck (config : CrateConfig) (buf : List UInt8) : Prop :=
  ∃ decoder, MqttDecoder.tryNew config buf = .ok decoder ∧ buf.length = decoder.packetLen ∧
    (decoder.fixedHeader.typ = .subAck ∨
      (decoder.fixedHeader.typ = .unsubAck ∧ config.protocol = .mqttv5)) ∧
    ∃ (pid : Pid) (block codes : List UInt8), decoder.rest = pid.bytes ++ (block ++ codes) ∧
      PropertyBlock config.protocol block ∧ config.maxSubTopicsPerMsg < codes.length

theorem MqttDecoder.surplusCodes_iff {decoder : MqttDecoder} :
    decoder.SurplusCodes config ↔
      ∃ (pid : Pid) (block codes : List UInt8), decoder.rest = pid.bytes ++ (block ++ codes) ∧
        PropertyBlock config.protocol block ∧ config.maxSubTopicsPerMsg < codes.length := by
  constructor
  · rintro ⟨pid, after, properties, behind, pid_eq, properties_eq, surplus⟩
    rcases exists_of_readProperties?_eq_ok properties_eq with ⟨block, isBlock, split⟩
    refine ⟨pid, block, behind.rest, ?_, isBlock, surplus⟩
    rw [← split]
    exact rest_of_readPid_eq_ok pid_eq
  · rintro ⟨pid, block, codes, split, isBlock, surplus⟩
    rcases decoder with ⟨bytes, offset, headerLen, header⟩
    have isBytes : bytes = pid.bytes ++ (block ++ codes) := split
    have after_split : (MqttDecoder.mk (block ++ codes) (offset + 2) headerLen header).rest =
      block ++ codes := rfl
    rcases readProperties?_of_block isBlock after_split with ⟨properties, properties_eq⟩
    refine ⟨pid, _, properties, _, ?_, properties_eq, ?_⟩
    · rw [isBytes]
      exact ServerPacket.readPid_bytes pid _ offset headerLen header
    · simpa [advance] using surplus

theorem overfullAck_iff {buf : List UInt8} {decoder : MqttDecoder}
    (created : MqttDecoder.tryNew config buf = .ok decoder) :
    OverfullAck config buf ↔ buf.length = decoder.packetLen ∧ decoder.TooManyCodes config := by
  unfold OverfullAck MqttDecoder.TooManyCodes
  constructor
  · rintro ⟨decoder', created', whole, typ, codes⟩
    rw [created] at created'
    cases created'
    exact ⟨whole, typ, MqttDecoder.surplusCodes_iff.mpr codes⟩
  · rintro ⟨whole, typ, codes⟩
    exact ⟨decoder, created, whole, typ, MqttDecoder.surplusCodes_iff.mp codes⟩

/-- Decoding panics exactly for a complete acknowledgement with too many reason codes. -/
theorem decoding_calm_iff {buf : List UInt8} (ends : EndsWithinPacket config buf) :
    IndexedDecoder.fromBuffer config buf ≠ .error .panic ↔ ¬OverfullAck config buf := by
  rw [IndexedDecoder.fromBuffer_eq]
  cases created : MqttDecoder.tryNew config buf with
  | error fault =>
      have calm := MqttDecoder.tryNew_ne_panic config buf
      rw [created] at calm
      have failed : ReceivedPacket.fromBuffer config buf = .error fault := by
        rw [ReceivedPacket.fromBuffer, created]
        rfl
      have none : ¬OverfullAck config buf := by
        rintro ⟨decoder, created', _⟩
        rw [created] at created'
        cases created'
      rw [failed]
      exact iff_of_true (fun panics => calm (congrArg _ (Except.error.inj panics))) none
  | ok decoder =>
      rw [overfullAck_iff created, ne_eq,
        ReceivedPacket.fromBuffer_eq_panic_iff created (ends decoder created)]

/-- A SUBACK with eight reason codes, as many as fit. -/
theorem decoding_calm_iff_example :
    IndexedDecoder.fromBuffer (.default .mqttv5 true)
      [0x90, 0x0B, 0x00, 0x07, 0x00, 0, 1, 2, 0x80, 0, 1, 2, 0x87] ≠ .error .panic := by
  refine (decoding_calm_iff ?ends).mpr ?fits
  case ends =>
    intro decoder created
    cases created
    decide
  case fits =>
    rintro ⟨decoder, created, _, _, pid, block, codes, split, isBlock, surplus⟩
    cases created
    rcases isBlock with ⟨len, properties, rfl, decoded⟩
    -- the identifier and the length of the properties leave eight of the eleven bytes
    cases len with
    | nil => cases decoded
    | cons first len =>
        have lengths : 11 = (pid.bytes ++ (first :: len ++ properties ++ codes)).length :=
          congrArg List.length split
        have pid_length : pid.bytes.length = 2 := rfl
        simp only [List.length_append, List.length_cons, pid_length] at lengths
        change 8 < codes.length at surplus
        omega

/-- A SUBACK with nine reason codes, of which eight fit. -/
theorem not_decoding_calm :
    ¬∀ buf : List UInt8, EndsWithinPacket (.default .mqttv3 true) buf →
      IndexedDecoder.fromBuffer (.default .mqttv3 true) buf ≠ .error .panic := by
  intro calm
  refine calm [0x90, 0x0B, 0x00, 0x01, 0, 0, 0, 0, 0, 0, 0, 0, 0] ?_ ?_
  · intro decoder created
    cases created
    decide
  · decide

end Mqttrust
