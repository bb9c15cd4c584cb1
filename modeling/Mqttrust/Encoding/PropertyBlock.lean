import Mqttrust.Encoding.Writes

/-!
# Blocks of properties

What the decoder finds where the encoder has written a list of properties. The
length in front of the block is the one that the sizes of the properties add up to,
which counts a subscription identifier with its value; the block is read back when
the excess vanishes in 32 bits.
-/

namespace Mqttrust

open MqttEncoder

/-- The bytes that an encoder has written since an earlier state. -/
def MqttEncoder.written (before after : MqttEncoder) : List UInt8 :=
  (after.buf.take after.offset).drop before.offset

theorem MqttEncoder.Wrote.written_eq {before after : MqttEncoder} {bytes : List UInt8}
    (wrote : before.Wrote bytes after) : before.written after = bytes := wrote.drop_take

/-- The sum of the values of the subscription identifiers in a list. -/
def subscriptionIdentifierSum (properties : List Property) : ℕ :=
  (properties.map Property.excess).sum

/-- The encoded length of a list of properties. -/
def encodedLength (properties : List Property) : ℕ := (properties.flatMap Property.bytes).length

/-- Some properties are written and read back by a decoder: it consumes exactly the bytes that were
written in front of its own, and the block gives the same properties. -/
def PropertiesRoundTrip (encoder : MqttEncoder) (properties : List Property)
    (decoder : MqttDecoder) : Prop :=
  ∃ after, writeProperties (.slice properties) encoder = .ok () after ∧
    ∃ block, ({ decoder with rest := encoder.written after ++ decoder.rest } :
        MqttDecoder).readProperties =
        .ok (block, { decoder with
          offset := decoder.offset + (encoder.written after).length }) ∧
      (Properties.dataBlock block).iter = some (properties.map .ok)

section Lemmas

variable {encoder : MqttEncoder} {properties : List Property} {decoder : MqttDecoder}

theorem size_slice (representable : ∀ property ∈ properties, property.Representable) :
    (Properties.slice properties).size =
      some (encodedLength properties + subscriptionIdentifierSum properties) :=
  Properties.sumSizes_eq fun property mem => (representable property mem).varintFits

theorem writeProperties_slice_iff (representable : ∀ property ∈ properties, property.Representable)
    (small : encodedLength properties < 2 ^ 28)
    (enough : 4 + encodedLength properties ≤ encoder.room) (after : MqttEncoder) :
    writeProperties (.slice properties) encoder = .ok () after ↔
      Write.Fits encoder.room ((Properties.slice properties).writes
        (encodedLength properties + subscriptionIdentifierSum properties)) ∧
      encoder.Wrote (Varint.encode ((encodedLength properties +
        subscriptionIdentifierSum properties) % 2 ^ 32) ++
          properties.flatMap Property.bytes) after := by
  have inside : encoder.offset ≤ encoder.buf.length := by
    unfold room at enough
    omega
  have short : (Properties.slice properties).Short :=
    Properties.short_of_blockBytes (Nat.lt_trans small (by decide))
  have performs := Performs.writeProperties (size_slice representable) short encoder after inside
  rw [performs, Properties.writes, Write.allBytes_cons, Properties.allBytes_blockWrites]
  rfl

theorem readProperties_consumed {value : ℕ} {bytes block : List UInt8}
    (read : ({ decoder with rest := Varint.encode value ++ bytes ++ decoder.rest } :
        MqttDecoder).readProperties =
      .ok (block, { decoder with
        offset := decoder.offset + (Varint.encode value ++ bytes).length })) :
    value = bytes.length := by
  unfold MqttDecoder.readProperties MqttDecoder.readVarint at read
  rw [List.append_assoc] at read
  by_cases fits : value < 2 ^ 28
  · simp only [Varint.decode_encode fits] at read
    have consumed := (MqttDecoder.readBytes_eq_ok_iff.mp read).2.2
    have offset := congrArg MqttDecoder.offset consumed
    simp only [MqttDecoder.advance, List.length_append] at offset
    omega
  · simp only [Varint.decode_encode_of_le (Nat.not_lt.mp fits), fail] at read
    simp at read

theorem length_of_roundTrip (representable : ∀ property ∈ properties, property.Representable)
    (small : encodedLength properties < 2 ^ 28)
    (enough : 4 + encodedLength properties ≤ encoder.room)
    (roundTrip : PropertiesRoundTrip encoder properties decoder) :
    (encodedLength properties + subscriptionIdentifierSum properties) % 2 ^ 32 =
        encodedLength properties ∧
      Write.Fits encoder.room ((Properties.slice properties).writes
        (encodedLength properties + subscriptionIdentifierSum properties)) := by
  rcases roundTrip with ⟨after, written, block, read, _⟩
  rcases (writeProperties_slice_iff representable small enough after).mp written with
    ⟨fits, wrote⟩
  rw [wrote.written_eq] at read
  exact ⟨readProperties_consumed read, fits⟩

theorem roundTrip_of_length (representable : ∀ property ∈ properties, property.Representable)
    (small : encodedLength properties < 2 ^ 28)
    (enough : 4 + encodedLength properties ≤ encoder.room)
    (length : (encodedLength properties + subscriptionIdentifierSum properties) % 2 ^ 32 =
      encodedLength properties)
    (fits : Write.Fits encoder.room ((Properties.slice properties).writes
      (encodedLength properties + subscriptionIdentifierSum properties))) :
    PropertiesRoundTrip encoder properties decoder := by
  have lenLe := Varint.encode_length_le (encodedLength properties)
  have room : encoder.offset + (Varint.encode (encodedLength properties) ++
      properties.flatMap Property.bytes).length ≤ encoder.buf.length := by
    unfold MqttEncoder.room at enough
    rw [List.length_append]
    change encoder.offset + (_ + encodedLength properties) ≤ _
    omega
  rcases exists_wrote room with ⟨after, wrote⟩
  refine ⟨after, ?_, properties.flatMap Property.bytes, ?_, ?_⟩
  · apply (writeProperties_slice_iff representable small enough after).mpr
    rw [length]
    exact ⟨fits, wrote⟩
  · rw [wrote.written_eq, List.append_assoc]
    have read := MqttDecoder.readProperties_encode small decoder.rest decoder.offset
      decoder.headerLen decoder.fixedHeader
    rw [List.length_append, ← Nat.add_assoc]
    exact read
  · exact congrArg some (PropertiesIter.collect_flatMap_bytes representable)

end Lemmas

/-- A list of properties is read back if and only if its subscription identifiers vanish in the 32
bits of its length, and no check of the remaining space is cut. -/
theorem propertiesRoundTrip_iff {encoder : MqttEncoder} {properties : List Property}
    (decoder : MqttDecoder) (representable : ∀ property ∈ properties, property.Representable)
    (small : encodedLength properties < 2 ^ 28)
    (enough : 4 + encodedLength properties ≤ encoder.room) :
    PropertiesRoundTrip encoder properties decoder ↔
      subscriptionIdentifierSum properties % 2 ^ 32 = 0 ∧
        Write.Fits encoder.room
          ((Properties.slice properties).writes (encodedLength properties)) := by
  have same : (encodedLength properties + subscriptionIdentifierSum properties) % 2 ^ 32 =
      encodedLength properties ↔ subscriptionIdentifierSum properties % 2 ^ 32 = 0 := by omega
  have writes : subscriptionIdentifierSum properties % 2 ^ 32 = 0 →
      (Properties.slice properties).writes
          (encodedLength properties + subscriptionIdentifierSum properties) =
        (Properties.slice properties).writes (encodedLength properties) := by
    intro vanishes
    rw [Properties.writes, Properties.writes, same.mpr vanishes,
      Nat.mod_eq_of_lt (Nat.lt_trans small (by decide))]
  constructor
  · intro roundTrip
    rcases length_of_roundTrip representable small enough roundTrip with ⟨length, fits⟩
    have vanishes := same.mp length
    rw [writes vanishes] at fits
    exact ⟨vanishes, fits⟩
  · rintro ⟨vanishes, fits⟩
    rw [← writes vanishes] at fits
    exact roundTrip_of_length representable small enough (same.mpr vanishes) fits

theorem propertiesRoundTrip_iff_example :
    PropertiesRoundTrip (MqttEncoder.new (List.replicate 32 0))
      [.topicAlias 7, .correlationData [1, 2], .subscriptionIdentifier 0]
      ⟨[0xFF], 5, 2, ⟨.connAck, false, .atMostOnce, false, 20⟩⟩ :=
  (propertiesRoundTrip_iff _ (by simp [Property.Representable]) (by decide) (by decide)).mpr
    (by decide)

/-- One subscription identifier is enough for the decoder to read behind the block. -/
theorem not_propertiesRoundTrip_subscriptionIdentifier :
    (∀ property ∈ [Property.subscriptionIdentifier 1], property.Representable) ∧
      encodedLength [.subscriptionIdentifier 1] < 2 ^ 28 ∧
      4 + encodedLength [.subscriptionIdentifier 1] ≤
        (MqttEncoder.new (List.replicate 64 0)).room ∧
      ¬PropertiesRoundTrip (MqttEncoder.new (List.replicate 64 0)) [.subscriptionIdentifier 1]
        ⟨[], 5, 2, ⟨.connAck, false, .atMostOnce, false, 5⟩⟩ := by
  have representable : ∀ property ∈ [Property.subscriptionIdentifier 1],
      property.Representable := by
    simp [Property.Representable]
  refine ⟨representable, by decide, by decide, ?_⟩
  intro roundTrip
  have length := (length_of_roundTrip representable (by decide) (by decide) roundTrip).1
  exact absurd length (by decide)

end Mqttrust
