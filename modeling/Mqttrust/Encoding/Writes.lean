import Mqttrust.Encoding.ClientPacket
import Mqttrust.Encoding.PropertiesIter

/-!
# What the encoder writes, and when

An operation of the encoder is a series of writes: some are preceded by a check of
the remaining space, which is cut to 32 bits, the others only have to fit. This
says exactly when an operation succeeds, and what it leaves in the buffer; the
same holds of the encoding of a whole packet.
-/

namespace Mqttrust

open MqttEncoder

/-- Some bytes that are written at once. -/
inductive Write where
  /-- Without a check. -/
  | plain (bytes : List UInt8)
  /-- Behind a call of `check_remaining` for all of them. -/
  | checked (bytes : List UInt8)

namespace Write

/-- The bytes that are written. -/
def bytes : Write → List UInt8
  | plain bytes | checked bytes => bytes

/-- Whether the bytes can be written with some room left. -/
def FitsIn (room : ℕ) : Write → Prop
  | plain bytes => bytes.length ≤ room
  | checked bytes => bytes.length ≤ room % 2 ^ 32

instance (room : ℕ) (write : Write) : Decidable (write.FitsIn room) :=
  match write with
  | plain bytes => inferInstanceAs (Decidable (bytes.length ≤ room))
  | checked bytes => inferInstanceAs (Decidable (bytes.length ≤ room % 2 ^ 32))

/-- The bytes of a series of writes. -/
def allBytes (writes : List Write) : List UInt8 := writes.flatMap bytes

/-- Whether a series of writes succeeds with some room left. -/
def Fits : ℕ → List Write → Prop
  | _, [] => True
  | room, write :: rest => write.FitsIn room ∧ Fits (room - write.bytes.length) rest

instance decidableFits : (room : ℕ) → (writes : List Write) → Decidable (Fits room writes)
  | _, [] => inferInstanceAs (Decidable True)
  | room, write :: rest =>
      have := decidableFits (room - write.bytes.length) rest
      inferInstanceAs (Decidable (write.FitsIn room ∧ Fits (room - write.bytes.length) rest))

@[simp]
theorem allBytes_nil : allBytes [] = [] := rfl

@[simp]
theorem allBytes_cons (write : Write) (rest : List Write) :
    allBytes (write :: rest) = write.bytes ++ allBytes rest := List.flatMap_cons

@[simp]
theorem allBytes_append (first second : List Write) :
    allBytes (first ++ second) = allBytes first ++ allBytes second := List.flatMap_append

theorem allBytes_flatMap {Item : Type} (writes : Item → List Write) (items : List Item) :
    allBytes (items.flatMap writes) = items.flatMap fun item => allBytes (writes item) :=
  List.flatMap_assoc

theorem length_le_of_fitsIn {write : Write} {room : ℕ} (fits : write.FitsIn room) :
    write.bytes.length ≤ room := by
  cases write with
  | plain bytes => exact fits
  | checked bytes => exact Nat.le_trans fits (Nat.mod_le _ _)

theorem length_le_of_fits {writes : List Write} {room : ℕ} (fits : Fits room writes) :
    (allBytes writes).length ≤ room := by
  induction writes generalizing room with
  | nil => exact Nat.zero_le _
  | cons write rest ih =>
      have first := length_le_of_fitsIn fits.1
      have others := ih fits.2
      rw [allBytes_cons, List.length_append]
      omega

theorem fits_append {first second : List Write} {room : ℕ} :
    Fits room (first ++ second) ↔
      Fits room first ∧ Fits (room - (allBytes first).length) second := by
  induction first generalizing room with
  | nil => simp [Fits]
  | cons write first ih =>
      rw [List.cons_append, Fits, Fits, ih, allBytes_cons, List.length_append, Nat.sub_sub,
        and_assoc]

theorem fits_iff_of_lt {writes : List Write} {room : ℕ} (small : room < 2 ^ 32) :
    Fits room writes ↔ (allBytes writes).length ≤ room := by
  refine ⟨length_le_of_fits, ?_⟩
  intro enough
  induction writes generalizing room with
  | nil => trivial
  | cons write rest ih =>
      rw [allBytes_cons, List.length_append] at enough
      refine ⟨?_, ih (by omega) (by omega)⟩
      cases write with
      | plain bytes => exact Nat.le_trans (Nat.le_add_right _ _) enough
      | checked bytes =>
          rw [FitsIn, Nat.mod_eq_of_lt small]
          exact Nat.le_trans (Nat.le_add_right _ _) enough

end Write

namespace MqttEncoder

/-- The number of bytes behind the offset. -/
def room (encoder : MqttEncoder) : ℕ := encoder.buf.length - encoder.offset

variable {before middle after : MqttEncoder}

theorem Wrote.unique {bytes : List UInt8} {after' : MqttEncoder} (wrote : before.Wrote bytes after)
    (wrote' : before.Wrote bytes after') : after = after' := wrote.eq.trans wrote'.eq.symm

theorem exists_wrote {bytes : List UInt8} (fits : before.offset + bytes.length ≤ before.buf.length) :
    ∃ after, before.Wrote bytes after := ⟨_, fits, rfl⟩

theorem Wrote.inside {bytes : List UInt8} (wrote : before.Wrote bytes after) :
    after.offset ≤ after.buf.length := by
  rw [wrote.advanced.length, wrote.eq]
  exact wrote.fits

theorem Wrote.room_eq {bytes : List UInt8} (wrote : before.Wrote bytes after) :
    after.room = before.room - bytes.length := by
  rw [room, wrote.advanced.length, wrote.eq, room, Nat.sub_sub]

theorem Wrote.nil (inside : before.offset ≤ before.buf.length) : before.Wrote [] before :=
  ⟨inside, by simp⟩

end MqttEncoder

/-- An operation that is a series of writes. -/
def Performs (operation : Encode Unit) (writes : List Write) : Prop :=
  ∀ before after : MqttEncoder, before.offset ≤ before.buf.length →
    (operation before = .ok () after ↔
      Write.Fits before.room writes ∧ before.Wrote (Write.allBytes writes) after)

namespace Performs

variable {first second : Encode Unit} {left right : List Write}

theorem pure : Performs (pure ()) [] := by
  intro before after inside
  have same : (Pure.pure () : Encode Unit) before = .ok () before := rfl
  rw [same, EStateM.Result.ok.injEq]
  constructor
  · rintro ⟨_, rfl⟩
    exact ⟨trivial, .nil inside⟩
  · rintro ⟨_, wrote⟩
    exact ⟨rfl, (Wrote.nil inside).unique wrote⟩

theorem pure_plain : Performs (Pure.pure ()) [.plain []] := by
  intro before after inside
  rw [pure before after inside]
  simp [Write.Fits, Write.FitsIn, Write.bytes]

theorem bind (performs : Performs first left) (performs' : Performs second right) :
    Performs (first >>= fun _ => second) (left ++ right) := by
  intro before after inside
  rw [Encode.bind_eq_ok, Write.fits_append, Write.allBytes_append]
  constructor
  · rintro ⟨_, middle, done, done'⟩
    rcases (performs before middle inside).mp done with ⟨fits, wrote⟩
    rcases (performs' middle after wrote.inside).mp done' with ⟨fits', wrote'⟩
    rw [wrote.room_eq] at fits'
    exact ⟨⟨fits, fits'⟩, wrote.append wrote'⟩
  · rintro ⟨⟨fits, fits'⟩, wrote⟩
    have short := Write.length_le_of_fits fits
    have short' := Write.length_le_of_fits fits'
    unfold room at short short' fits'
    have space : before.offset + (Write.allBytes left).length ≤ before.buf.length := by omega
    rcases exists_wrote space with ⟨middle, wroteLeft⟩
    rw [Nat.sub_sub] at fits'
    have room_eq := wroteLeft.room_eq
    have inside' := wroteLeft.inside
    unfold room at room_eq
    have space' : middle.offset + (Write.allBytes right).length ≤ middle.buf.length := by omega
    rcases exists_wrote space' with ⟨last, wroteRight⟩
    have same := (wroteLeft.append wroteRight).unique wrote
    subst same
    refine ⟨(), middle, (performs before middle inside).mpr ⟨fits, wroteLeft⟩, ?_⟩
    refine (performs' middle last inside').mpr ⟨?_, wroteRight⟩
    rw [wroteLeft.room_eq, room, Nat.sub_sub]
    exact fits'

theorem forM {Value : Type} {operation : Value → Encode Unit} {writes : Value → List Write}
    {values : List Value} (each : ∀ value ∈ values, Performs (operation value) (writes value)) :
    Performs (values.forM operation) (values.flatMap writes) := by
  induction values with
  | nil => exact pure
  | cons value rest ih =>
      rw [List.flatMap_cons]
      apply (each value List.mem_cons_self).bind
      exact ih fun other mem => each other (List.mem_cons_of_mem _ mem)

theorem copyFromSlice (bytes : List UInt8) :
    Performs (MqttEncoder.copyFromSlice bytes) [.plain bytes] := by
  intro before after inside
  constructor
  · intro copied
    have wrote := wrote_of_copyFromSlice copied
    refine ⟨⟨?_, trivial⟩, ?_⟩
    · have := wrote.fits
      change bytes.length ≤ before.room
      unfold room
      omega
    · simpa [Write.bytes] using wrote
  · rintro ⟨_, wrote⟩
    simp only [Write.allBytes_cons, Write.allBytes_nil, List.append_nil, Write.bytes] at wrote
    rw [MqttEncoder.copyFromSlice, if_pos wrote.fits, wrote.eq]

theorem writeU8 (byte : UInt8) : Performs (MqttEncoder.writeU8 byte) [.plain [byte]] :=
  copyFromSlice [byte]

/-- A check for all bytes of an operation that makes none itself. -/
theorem checked {operation : Encode Unit} {bytes : List UInt8}
    (performs : Performs operation [.plain bytes]) :
    Performs (checkRemaining bytes.length >>= fun _ => operation) [.checked bytes] := by
  intro before after inside
  have performs := performs before after inside
  rw [Encode.bind_eq_ok]
  simp only [Write.allBytes_cons, Write.allBytes_nil, Write.bytes, List.append_nil, Write.Fits,
    Write.FitsIn, and_true, room] at performs ⊢
  constructor
  · rintro ⟨_, middle, passed, done⟩
    have same := eq_of_checkRemaining passed
    subst same
    refine ⟨?_, (performs.mp done).2⟩
    unfold checkRemaining at passed
    rw [if_neg (Nat.not_lt.mpr inside)] at passed
    split at passed
    · simp at passed
    · rename_i enough
      exact Nat.not_lt.mp enough
  · rintro ⟨enough, wrote⟩
    refine ⟨(), before, ?_, performs.mpr ⟨Nat.le_trans enough (Nat.mod_le _ _), wrote⟩⟩
    rw [checkRemaining, if_neg (Nat.not_lt.mpr inside), if_neg (Nat.not_lt.mpr enough)]

theorem merge {operation : Encode Unit} {first second : List UInt8}
    (performs : Performs operation [.plain first, .plain second]) :
    Performs operation [.plain (first ++ second)] := by
  intro before after inside
  rw [performs before after inside]
  simp only [Write.allBytes_cons, Write.allBytes_nil, Write.bytes, List.append_nil, Write.Fits,
    Write.FitsIn, and_true, List.length_append]
  refine and_congr_left fun _ => ?_
  omega

theorem writeU16 (value : ℕ) : Performs (MqttEncoder.writeU16 value) [.checked (u16Bytes value)] :=
  checked (copyFromSlice (u16Bytes value))

theorem writeU32 (value : ℕ) : Performs (MqttEncoder.writeU32 value) [.checked (u32Bytes value)] :=
  checked (copyFromSlice (u32Bytes value))

/-- The length of a slice is cut to a `u16`, which its two bytes do anyway. -/
theorem u16Bytes_mod (value : ℕ) : u16Bytes (value % 65536) = u16Bytes value := by
  have high : (value % 65536 / 256).toUInt8 = (value / 256).toUInt8 := by
    apply UInt8.toNat_inj.mp
    simp only [Nat.toUInt8, UInt8.toNat_ofNat']
    omega
  have low : value % 65536 % 256 = value % 256 := by omega
  rw [u16Bytes, high, low, u16Bytes]

theorem writeSlice {bytes : List UInt8} (short : bytes.length + 2 < 2 ^ 32) :
    Performs (MqttEncoder.writeSlice bytes) [.checked (sliceBytes bytes)] := by
  have copies := merge ((copyFromSlice (u16Bytes bytes.length)).bind (copyFromSlice bytes))
  have length : (2 + bytes.length % 2 ^ 32) % 2 ^ 32 = (sliceBytes bytes).length := by
    rw [sliceBytes, List.length_append, Nat.mod_eq_of_lt (by omega : bytes.length < 2 ^ 32)]
    exact Nat.mod_eq_of_lt (by omega)
  rw [MqttEncoder.writeSlice, length, u16Bytes_mod]
  exact checked copies

theorem writeStr {text : Utf8} (short : text.bytes.length + 2 < 2 ^ 32) :
    Performs (MqttEncoder.writeStr text) [.checked (sliceBytes text.bytes)] := writeSlice short

theorem writeVarint (len : ℕ) :
    Performs (MqttEncoder.writeVarint len) [.plain (Varint.encode len)] := by
  apply writeVarintLoop_induction (motive := fun operation bytes =>
    Performs operation [.plain bytes])
  · exact pure_plain
  · exact writeU8
  · intro byte operation bytes performs
    exact merge ((writeU8 byte).bind performs)

end Performs

namespace MqttEncoder

theorem varintLen_eq {value : ℕ} (fits : value < 2 ^ 28) :
    varintLen value = some (Varint.encode value).length := by
  have found : ∃ len, varintLen value = some len := by
    unfold varintLen
    split
    · exact ⟨_, rfl⟩
    · split
      · exact ⟨_, rfl⟩
      · split
        · exact ⟨_, rfl⟩
        · rw [if_pos (by omega)]
          exact ⟨_, rfl⟩
  rcases found with ⟨len, found⟩
  rw [found, (varintLen_eq_some found).2]

end MqttEncoder

namespace Property

/-- What `size` counts too much. -/
def excess : Property → ℕ
  | subscriptionIdentifier id => id.toNat
  | _ => 0

/-- A subscription identifier is a variable byte integer. -/
def VarintFits : Property → Prop
  | subscriptionIdentifier id => id.toNat < 2 ^ 28
  | _ => True

theorem Representable.varintFits {property : Property} (representable : property.Representable) :
    property.VarintFits := by
  cases property with
  | subscriptionIdentifier => exact representable
  | _ => trivial

theorem length_sliceBytes (bytes : List UInt8) : (sliceBytes bytes).length = bytes.length + 2 := by
  rw [sliceBytes, List.length_append, Nat.add_comm]
  rfl

theorem size_eq {property : Property} (fits : property.VarintFits) :
    property.size = some (property.bytes.length + property.excess) := by
  cases property with
  | subscriptionIdentifier id =>
      rw [size, varintLen_eq fits, bytes, List.length_cons, content, excess, Option.map_some]
      congr 1
      omega
  | userProperty key value =>
      simp only [size, bytes, content, excess, List.length_cons, List.length_append,
        length_sliceBytes]
      congr 1
      omega
  | _ => simp [size, bytes, content, excess, length_sliceBytes, u16Bytes, u32Bytes]

/-- How the encoder writes a property. -/
def writes (property : Property) : List Write :=
  .plain [property.identifier] ::
    match property with
    | payloadFormatIndicator _ | requestProblemInformation _ | requestResponseInformation _
    | maximumQoS _ | retainAvailable _ | wildcardSubscriptionAvailable _
    | subscriptionIdentifierAvailable _ | sharedSubscriptionAvailable _
    | subscriptionIdentifier _ => [.plain property.content]
    | userProperty key value => [.checked (sliceBytes key.bytes), .checked (sliceBytes value.bytes)]
    | _ => [.checked property.content]

theorem allBytes_writes (property : Property) : Write.allBytes property.writes = property.bytes := by
  cases property <;> simp [writes, Write.bytes, bytes, content]

end Property

theorem Performs.writeProperty {property : Property} (short : property.bytes.length < 2 ^ 32) :
    Performs (MqttEncoder.writeProperty property) property.writes := by
  have behind : ∀ {value : Encode Unit} {writes : List Write}, Performs value writes →
      Performs (MqttEncoder.writeU8 property.identifier >>= fun _ => value)
        (.plain [property.identifier] :: writes) := fun performs => (writeU8 _).bind performs
  cases property with
  | payloadFormatIndicator | requestProblemInformation | requestResponseInformation | maximumQoS
  | retainAvailable | wildcardSubscriptionAvailable | subscriptionIdentifierAvailable
  | sharedSubscriptionAvailable => exact behind (writeU8 _)
  | messageExpiryInterval | sessionExpiryInterval | willDelayInterval | maximumPacketSize =>
      exact behind (writeU32 _)
  | contentType value | responseTopic value | assignedClientIdentifier value
  | authenticationMethod value | responseInformation value | serverReference value
  | reasonString value | correlationData value | authenticationData value =>
      simp only [Property.bytes, Property.content, List.length_cons, Property.length_sliceBytes]
        at short
      exact behind (writeSlice (by omega))
  | subscriptionIdentifier => exact behind (writeVarint _)
  | serverKeepAlive | receiveMaximum | topicAliasMaximum | topicAlias => exact behind (writeU16 _)
  | userProperty key value =>
      simp only [Property.bytes, Property.content, List.length_cons, List.length_append,
        Property.length_sliceBytes] at short
      exact behind ((writeStr (by omega)).bind (writeStr (by omega)))

namespace Properties

/-- How the encoder writes properties behind their length. -/
def blockWrites : Properties → List Write
  | slice properties => properties.flatMap Property.writes
  | dataBlock block => [.checked (sliceBytes block)]
  | correlatedSlice correlation properties =>
      correlation.writes ++ properties.flatMap Property.writes

/-- The bytes of properties behind their length. -/
def blockBytes : Properties → List UInt8
  | slice properties => properties.flatMap Property.bytes
  | dataBlock block => sliceBytes block
  | correlatedSlice correlation properties =>
      correlation.bytes ++ properties.flatMap Property.bytes

theorem allBytes_flatMap_writes (properties : List Property) :
    Write.allBytes (properties.flatMap Property.writes) = properties.flatMap Property.bytes := by
  simp only [Write.allBytes_flatMap, Property.allBytes_writes]

theorem allBytes_blockWrites (properties : Properties) :
    Write.allBytes properties.blockWrites = properties.blockBytes := by
  cases properties with
  | slice properties => exact allBytes_flatMap_writes properties
  | dataBlock block => exact List.append_nil _
  | correlatedSlice correlation properties =>
      rw [blockWrites, Write.allBytes_append, Property.allBytes_writes, allBytes_flatMap_writes]
      rfl

/-- How the encoder writes properties whose computed size is `size`. -/
def writes (properties : Properties) (size : ℕ) : List Write :=
  .plain (Varint.encode (size % 2 ^ 32)) :: properties.blockWrites

theorem sumSizes_eq {properties : List Property}
    (fits : ∀ property ∈ properties, property.VarintFits) :
    sumSizes properties = some ((properties.flatMap Property.bytes).length +
      (properties.map Property.excess).sum) := by
  induction properties with
  | nil => rfl
  | cons property rest ih =>
      rw [sumSizes, Property.size_eq (fits _ List.mem_cons_self),
        ih fun other mem => fits other (List.mem_cons_of_mem _ mem)]
      simp only [Option.bind_eq_bind, Option.bind_some, List.flatMap_cons, List.length_append,
        List.map_cons, List.sum_cons]
      congr 1
      omega

end Properties

/-- No part of the properties is so long that its length is cut to 32 bits. -/
def Properties.Short : Properties → Prop
  | .slice properties => ∀ property ∈ properties, property.bytes.length < 2 ^ 32
  | .dataBlock block => block.length + 2 < 2 ^ 32
  | .correlatedSlice correlation properties =>
      ∀ property ∈ correlation :: properties, property.bytes.length < 2 ^ 32

namespace Properties

theorem length_le_of_mem_flatMap {Item : Type} {bytes : Item → List UInt8} {item : Item}
    {items : List Item} (mem : item ∈ items) :
    (bytes item).length ≤ (items.flatMap bytes).length := by
  rcases List.append_of_mem mem with ⟨before, after, rfl⟩
  simp only [List.flatMap_append, List.flatMap_cons, List.length_append]
  omega

theorem short_of_blockBytes {properties : Properties}
    (small : properties.blockBytes.length < 2 ^ 32) : properties.Short := by
  cases properties with
  | slice list =>
      exact fun property mem => Nat.lt_of_le_of_lt (length_le_of_mem_flatMap mem) small
  | dataBlock block =>
      rw [blockBytes, Property.length_sliceBytes] at small
      exact small
  | correlatedSlice correlation list =>
      intro property mem
      have whole : (correlatedSlice correlation list).blockBytes =
          (correlation :: list).flatMap Property.bytes := rfl
      rw [whole] at small
      exact Nat.lt_of_le_of_lt (length_le_of_mem_flatMap mem) small

end Properties

theorem Performs.writeProperties {properties : Properties} {size : ℕ}
    (sized : properties.size = some size) (short : properties.Short) :
    Performs (MqttEncoder.writeProperties properties) (properties.writes size) := by
  unfold MqttEncoder.writeProperties
  simp only [sized]
  apply (writeVarint _).bind
  cases properties with
  | slice list => exact forM fun property mem => writeProperty (short property mem)
  | dataBlock block => exact writeSlice short
  | correlatedSlice correlation list =>
      apply (writeProperty (short correlation List.mem_cons_self)).bind
      exact forM fun property mem => writeProperty (short property (List.mem_cons_of_mem _ mem))

namespace MqttEncoder

variable {before after : MqttEncoder}

theorem openHeader_eq (start : before.headerStart = maxMqttHeaderLen)
    (body : maxMqttHeaderLen ≤ before.offset) (small : before.offset - maxMqttHeaderLen < 2 ^ 28) :
    ∃ opened, openHeader before = .ok (before.offset - maxMqttHeaderLen) opened ∧
      opened.buf = before.buf ∧
      opened.offset + 1 + (Varint.encode (before.offset - maxMqttHeaderLen)).length =
        maxMqttHeaderLen := by
  have len := Varint.encode_length_le (before.offset - maxMqttHeaderLen)
  have five : maxMqttHeaderLen = 5 := rfl
  unfold openHeader
  rw [varintLen_eq small]
  dsimp only
  rw [if_neg (by omega)]
  refine ⟨_, rfl, rfl, ?_⟩
  dsimp only
  omega

/-- The fixed header is written when the body fits and its length can be announced. -/
theorem exists_finalizeFixedHeader (typ : PacketType) (flags : UInt8)
    (start : before.headerStart = maxMqttHeaderLen) (body : maxMqttHeaderLen ≤ before.offset)
    (inside : before.offset ≤ before.buf.length)
    (small : before.offset - maxMqttHeaderLen < 2 ^ 28) :
    ∃ after, finalizeFixedHeader typ flags before = .ok () after := by
  rcases openHeader_eq start body small with ⟨opened, opens, buf, gap⟩
  have header := (Performs.writeU8 (typ.toByte ||| flags)).bind
    (Performs.writeVarint (before.offset - maxMqttHeaderLen))
  have opened_inside : opened.offset ≤ opened.buf.length := by
    rw [buf]
    omega
  have fits : opened.offset + (Write.allBytes ([.plain [typ.toByte ||| flags]] ++
      [.plain (Varint.encode (before.offset - maxMqttHeaderLen))])).length ≤
        opened.buf.length := by
    rw [buf]
    simp only [Write.allBytes_append, Write.allBytes_cons, Write.allBytes_nil, Write.bytes,
      List.length_append, List.length_cons, List.length_nil]
    omega
  rcases exists_wrote fits with ⟨sized, wrote⟩
  have written := (header opened sized opened_inside).mpr ⟨?_, wrote⟩
  · rcases Encode.bind_eq_ok.mp written with ⟨_, named, names, sizes⟩
    have sized_offset : sized.offset = maxMqttHeaderLen := by
      rw [wrote.eq]
      simp only [Write.allBytes_append, Write.allBytes_cons, Write.allBytes_nil, Write.bytes,
        List.length_append, List.length_cons, List.length_nil]
      omega
    have sized_length : sized.buf.length = before.buf.length := by
      rw [wrote.advanced.length, buf]
    have closes : ∃ after, closeHeader (before.offset - maxMqttHeaderLen) sized = .ok () after := by
      unfold closeHeader
      dsimp only
      rw [if_neg (by omega)]
      exact ⟨_, rfl⟩
    rcases closes with ⟨after, closes⟩
    refine ⟨after, ?_⟩
    apply Encode.bind_eq_ok.mpr
    refine ⟨_, opened, opens, ?_⟩
    apply Encode.bind_eq_ok.mpr
    refine ⟨(), named, names, ?_⟩
    apply Encode.bind_eq_ok.mpr
    exact ⟨(), sized, sizes, closes⟩
  · simp only [Write.allBytes_append, Write.allBytes_cons, Write.allBytes_nil, Write.bytes,
      List.length_append, List.length_cons, List.length_nil] at fits
    simp only [List.cons_append, List.nil_append, Write.Fits, Write.FitsIn, Write.bytes, room,
      List.length_cons, List.length_nil, and_true]
    omega

end MqttEncoder

/-- A packet with some body. -/
def packetBytes (first : UInt8) (body : List UInt8) : List UInt8 :=
  first :: (Varint.encode body.length ++ body)

section Packets

variable {Packet : Type} [MqttEncode Packet] {config : CrateConfig} {packet : Packet}
  {writes : List Write} {buf : List UInt8}

/-- A packet is encoded when each of its writes succeeds and its length can be announced. -/
theorem exists_toBuffer_iff (performs : Performs (MqttEncode.writeBody config packet) writes)
    (header : maxMqttHeaderLen ≤ buf.length) :
    (∃ encoder, MqttEncode.toBuffer config packet (MqttEncoder.new buf) = .ok () encoder) ↔
      Write.Fits (buf.length - maxMqttHeaderLen) writes ∧
        (Write.allBytes writes).length < 2 ^ 28 := by
  constructor
  · rintro ⟨encoder, encoded⟩
    rcases Encode.bind_eq_ok.mp encoded with ⟨_, body, written, finalizes⟩
    rcases (performs _ body header).mp written with ⟨fits, wrote⟩
    have finalized := finalized_of_finalizeFixedHeader wrote.advanced.headerStart finalizes
    have small := finalized.small
    rw [wrote.eq] at small
    refine ⟨fits, ?_⟩
    simpa [MqttEncoder.new] using small
  · rintro ⟨fits, small⟩
    have short := Write.length_le_of_fits fits
    have room : (MqttEncoder.new buf).offset + (Write.allBytes writes).length ≤
        (MqttEncoder.new buf).buf.length := by
      change maxMqttHeaderLen + _ ≤ buf.length
      omega
    rcases exists_wrote room with ⟨body, wrote⟩
    have written := (performs (MqttEncoder.new buf) body header).mpr ⟨fits, wrote⟩
    have offset : body.offset = maxMqttHeaderLen + (Write.allBytes writes).length := by
      rw [wrote.eq]
      rfl
    rcases exists_finalizeFixedHeader (MqttEncode.packetType packet) (MqttEncode.flags packet)
      wrote.advanced.headerStart (by omega) wrote.inside (by omega) with ⟨encoder, finalizes⟩
    exact ⟨encoder, Encode.bind_eq_ok.mpr ⟨(), body, written, finalizes⟩⟩

theorem intoPacketBytes_of_toBuffer
    (performs : Performs (MqttEncode.writeBody config packet) writes)
    (header : maxMqttHeaderLen ≤ buf.length) {encoder : MqttEncoder}
    (encoded : MqttEncode.toBuffer config packet (MqttEncoder.new buf) = .ok () encoder) :
    encoder.intoPacketBytes =
      packetBytes ((MqttEncode.packetType packet).toByte ||| MqttEncode.flags packet)
        (Write.allBytes writes) := by
  rcases Encode.bind_eq_ok.mp encoded with ⟨_, body, written, finalizes⟩
  rcases (performs _ body header).mp written with ⟨fits, wrote⟩
  have finalized := finalized_of_finalizeFixedHeader wrote.advanced.headerStart finalizes
  have offset : body.offset = maxMqttHeaderLen + (Write.allBytes writes).length := by
    rw [wrote.eq]
    rfl
  have taken : (body.buf.drop maxMqttHeaderLen).take (Write.allBytes writes).length =
      Write.allBytes writes := wrote.take_drop
  rw [intoPacketBytes, finalized.headerStart, List.drop_zero, finalized.packet, offset,
    Nat.add_sub_cancel_left, taken]
  rfl

theorem encodePacket_eq_ok (performs : Performs (MqttEncode.writeBody config packet) writes)
    (header : maxMqttHeaderLen ≤ buf.length) {bytes : List UInt8} :
    encodePacket config buf packet = .ok bytes ↔
      Write.Fits (buf.length - maxMqttHeaderLen) writes ∧
        (Write.allBytes writes).length < 2 ^ 28 ∧
        bytes = packetBytes ((MqttEncode.packetType packet).toByte ||| MqttEncode.flags packet)
          (Write.allBytes writes) := by
  have exists_iff := exists_toBuffer_iff performs header
  unfold encodePacket
  cases encoded : MqttEncode.toBuffer config packet (MqttEncoder.new buf) with
  | ok value encoder =>
      rw [encoded] at exists_iff
      have done := exists_iff.mp ⟨encoder, rfl⟩
      have bytes_eq := intoPacketBytes_of_toBuffer performs header encoded
      simp only [Except.ok.injEq, bytes_eq]
      exact ⟨fun same => ⟨done.1, done.2, same.symm⟩, fun all => all.2.2.symm⟩
  | error fault encoder =>
      rw [encoded] at exists_iff
      constructor
      · intro impossible
        simp at impossible
      · rintro ⟨fits, small, _⟩
        rcases exists_iff.mpr ⟨fits, small⟩ with ⟨_, impossible⟩
        simp at impossible

end Packets

end Mqttrust
