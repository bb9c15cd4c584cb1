import Mathlib.Data.List.Rotate
import Mqttrust.Encoding.ServerPacket

/-!
# The encoder

`MqttEncoder` writes the body of a packet into a buffer, five bytes behind its
start. `finalize_fixed_header` then writes the fixed header backwards into the gap
and rotates the packet to the start of the buffer.

An operation fails with an error or by panicking, and what it wrote until then
stays in the buffer. Some operations check the remaining space, others index the
buffer and panic when it is too short. Sums of lengths wrap around as those of a
`u32`, which a release build does not check.
-/

namespace Mqttrust

/-- `MAX_MQTT_HEADER_LEN`. -/
def maxMqttHeaderLen : ℕ := 5

/-- Errors of the encoding layer that an encoder can return. -/
inductive EncodeError where
  | bufferSize
  | pidMissing
  /-- An error of the serializer of a payload. -/
  | payload
deriving DecidableEq, Repr

/-- How an operation of the encoder fails: with an error, or by panicking. -/
inductive EncodeFault where
  | error (error : EncodeError)
  | panic
deriving DecidableEq, Repr

/-- `MqttEncoder`. -/
structure MqttEncoder where
  buf : List UInt8
  offset : ℕ
  headerStart : ℕ
deriving DecidableEq, Repr

/-- An operation of the encoder. -/
abbrev Encode := EStateM EncodeFault MqttEncoder

/-- `ToPayload`: the serializer is given the rest of the buffer, and returns the number of bytes
that the payload takes. -/
structure ToPayload where
  serialize : List UInt8 → Except EncodeFault ℕ × List UInt8
  maxSize : ℕ
  length_serialize : ∀ buffer, (serialize buffer).2.length = buffer.length

/-- `ToPayload` for a slice. -/
def ToPayload.ofSlice (bytes : List UInt8) : ToPayload where
  serialize buffer :=
    if buffer.length < bytes.length then (.error (.error .bufferSize), buffer)
    else (.ok bytes.length, bytes ++ buffer.drop bytes.length)
  maxSize := bytes.length
  length_serialize := by
    intro buffer
    split
    · rfl
    · simp only [List.length_append, List.length_drop]
      omega

/-- Overwrites the bytes of a buffer behind an offset. -/
def overwrite (buf : List UInt8) (offset : ℕ) (bytes : List UInt8) : List UInt8 :=
  buf.take offset ++ bytes ++ buf.drop (offset + bytes.length)

/-- `varint_len`; larger values panic. -/
def varintLen (value : ℕ) : Option ℕ :=
  if value ≤ 127 then some 1
  else if value ≤ 16383 then some 2
  else if value ≤ 2097151 then some 3
  else if value ≤ 268435455 then some 4
  else none

namespace MqttEncoder

/-- `MqttEncoder::new`. -/
def new (buf : List UInt8) : MqttEncoder := ⟨buf, maxMqttHeaderLen, maxMqttHeaderLen⟩

/-- `MqttEncoder::into_packet_bytes`. -/
def intoPacketBytes (encoder : MqttEncoder) : List UInt8 :=
  (encoder.buf.take encoder.offset).drop encoder.headerStart

/-- `MqttEncoder::used_size`. -/
def usedSize (encoder : MqttEncoder) : ℕ := encoder.offset

/-- `MqttEncoder::check_remaining`. -/
def checkRemaining (len : ℕ) : Encode Unit := fun encoder =>
  if encoder.buf.length < encoder.offset then .error .panic encoder
  else if (encoder.buf.length - encoder.offset) % 2 ^ 32 < len then
    .error (.error .bufferSize) encoder
  else .ok () encoder

/-- `MqttEncoder::write_u8`. -/
def writeU8 (byte : UInt8) : Encode Unit := fun encoder =>
  if encoder.offset < encoder.buf.length then
    .ok () { encoder with
      buf := overwrite encoder.buf encoder.offset [byte]
      offset := encoder.offset + 1 }
  else .error .panic encoder

/-- Copies bytes behind the offset, which moves on. -/
def copyFromSlice (bytes : List UInt8) : Encode Unit := fun encoder =>
  if encoder.offset + bytes.length ≤ encoder.buf.length then
    .ok () { encoder with
      buf := overwrite encoder.buf encoder.offset bytes
      offset := encoder.offset + bytes.length }
  else .error .panic encoder

/-- `MqttEncoder::write_varint`: at most `digits` bytes. -/
def writeVarintLoop : ℕ → ℕ → Encode Unit
  | 0, _ => pure ()
  | digits + 1, len => do
      let rest := len / 128
      if rest = 0 then writeU8 (UInt8.ofNat (len % 128))
      else
        writeU8 (UInt8.ofNat (len % 128) ||| 128)
        writeVarintLoop digits rest

/-- `MqttEncoder::write_varint`. -/
def writeVarint (len : ℕ) : Encode Unit := writeVarintLoop 4 len

/-- `MqttEncoder::write_u16`. -/
def writeU16 (value : ℕ) : Encode Unit := do
  checkRemaining 2
  copyFromSlice (u16Bytes value)

/-- `MqttEncoder::write_u32`. -/
def writeU32 (value : ℕ) : Encode Unit := do
  checkRemaining 4
  copyFromSlice (u16Bytes (value / 65536) ++ u16Bytes (value % 65536))

/-- `MqttEncoder::write_slice`: the length is cut to a `u16`. -/
def writeSlice (bytes : List UInt8) : Encode Unit := do
  checkRemaining ((2 + bytes.length % 2 ^ 32) % 2 ^ 32)
  copyFromSlice (u16Bytes (bytes.length % 65536))
  copyFromSlice bytes

/-- `MqttEncoder::write_str`. -/
def writeStr (text : Utf8) : Encode Unit := writeSlice text.bytes

/-- `MqttEncoder::write_payload`. -/
def writePayload (payload : ToPayload) : Encode Unit := fun encoder =>
  if encoder.buf.length < encoder.offset then .error .panic encoder
  else
    let (result, rest) := payload.serialize (encoder.buf.drop encoder.offset)
    let encoder := { encoder with buf := encoder.buf.take encoder.offset ++ rest }
    match result with
    | .ok count => .ok () { encoder with offset := encoder.offset + count }
    | .error fault => .error fault encoder

/-- The gap for the fixed header: where it has to start for a remaining length, which moves the
offset there. -/
def openHeader : Encode ℕ := fun encoder =>
  match varintLen (encoder.offset - maxMqttHeaderLen) with
  | none => .error .panic encoder
  | some len =>
      if encoder.offset < maxMqttHeaderLen ∨ encoder.headerStart < len + 1 then
        .error .panic encoder
      else
        .ok (encoder.offset - maxMqttHeaderLen) { encoder with
          offset := encoder.headerStart - len - 1
          headerStart := encoder.headerStart - len - 1 }

/-- The packet behind its fixed header is rotated to the start of the buffer. -/
def closeHeader (remainingLen : ℕ) : Encode Unit := fun encoder =>
  let offset := encoder.offset + remainingLen
  if encoder.buf.length < offset then .error .panic { encoder with offset := offset }
  else
    .ok () {
      buf := (encoder.buf.take offset).rotate encoder.headerStart ++ encoder.buf.drop offset
      offset := offset - encoder.headerStart
      headerStart := 0 }

/-- `MqttEncoder::finalize_fixed_header`. -/
def finalizeFixedHeader (typ : PacketType) (flags : UInt8) : Encode Unit := do
  let remainingLen ← openHeader
  writeU8 (typ.toByte ||| flags)
  writeVarint remainingLen
  closeHeader remainingLen

end MqttEncoder

/-- A complete packet: a fixed header, followed by as many bytes as it announces. -/
def Framed (bytes : List UInt8) : Prop :=
  ∃ first rest remainingLen count, bytes = first :: rest ∧
    Varint.decode rest = .done remainingLen count ∧ rest.length = count + remainingLen

theorem Framed.ne_nil {bytes : List UInt8} (framed : Framed bytes) : bytes ≠ [] := by
  rcases framed with ⟨first, rest, _, _, rfl, _⟩
  exact List.cons_ne_nil first rest

/-- The encoder has moved on in the same buffer. -/
structure MqttEncoder.Advanced (before after : MqttEncoder) : Prop where
  length : after.buf.length = before.buf.length
  offset : before.offset ≤ after.offset
  headerStart : after.headerStart = before.headerStart

/-- An operation that writes a part of a body: when it succeeds, the encoder has moved on. -/
def Advances {Value : Type} (operation : Encode Value) : Prop :=
  ∀ ⦃before after : MqttEncoder⦄ ⦃value : Value⦄,
    operation before = .ok value after → before.Advanced after

theorem Encode.bind_eq_ok {Value Value' : Type} {first : Encode Value}
    {second : Value → Encode Value'} {before after : MqttEncoder} {value' : Value'} :
    (first >>= second) before = .ok value' after ↔
      ∃ value middle, first before = .ok value middle ∧ second value middle = .ok value' after := by
  simp only [bind, EStateM.bind]
  rcases first before with ⟨value, middle⟩ | ⟨fault, middle⟩
  · simp
  · simp

theorem length_overwrite {buf : List UInt8} {offset : ℕ} {bytes : List UInt8}
    (fits : offset + bytes.length ≤ buf.length) :
    (overwrite buf offset bytes).length = buf.length := by
  simp only [overwrite, List.length_append, List.length_take, List.length_drop]
  omega

theorem take_overwrite {buf : List UInt8} {offset : ℕ} {bytes : List UInt8}
    (fits : offset + bytes.length ≤ buf.length) :
    (overwrite buf offset bytes).take (offset + bytes.length) = buf.take offset ++ bytes := by
  have len : (buf.take offset ++ bytes).length = offset + bytes.length := by
    simp only [List.length_append, List.length_take]
    omega
  rw [overwrite, ← len, List.take_left]

theorem drop_overwrite {buf : List UInt8} {offset : ℕ} {bytes : List UInt8}
    (fits : offset + bytes.length ≤ buf.length) :
    (overwrite buf offset bytes).drop (offset + bytes.length) =
      buf.drop (offset + bytes.length) := by
  have len : (buf.take offset ++ bytes).length = offset + bytes.length := by
    simp only [List.length_append, List.length_take]
    omega
  rw [overwrite]
  conv_lhs => arg 1; rw [← len]
  rw [List.drop_left]

theorem overwrite_overwrite {buf : List UInt8} {offset : ℕ} {first second : List UInt8}
    (fits : offset + first.length ≤ buf.length) :
    overwrite (overwrite buf offset first) (offset + first.length) second =
      overwrite buf offset (first ++ second) := by
  conv_lhs => rw [overwrite]
  rw [take_overwrite fits, ← List.drop_drop, drop_overwrite fits, List.drop_drop]
  simp only [overwrite, List.length_append, List.append_assoc, Nat.add_assoc]

@[simp]
theorem overwrite_nil (buf : List UInt8) (offset : ℕ) : overwrite buf offset [] = buf := by
  simp [overwrite]

namespace MqttEncoder

variable {before after : MqttEncoder}

namespace Advanced

theorem refl (encoder : MqttEncoder) : encoder.Advanced encoder := ⟨rfl, Nat.le_refl _, rfl⟩

theorem trans {middle : MqttEncoder} (first : before.Advanced middle)
    (second : middle.Advanced after) : before.Advanced after where
  length := second.length.trans first.length
  offset := first.offset.trans second.offset
  headerStart := second.headerStart.trans first.headerStart

end Advanced

/-- The bytes have been written behind the offset. -/
structure Wrote (before : MqttEncoder) (bytes : List UInt8) (after : MqttEncoder) : Prop where
  fits : before.offset + bytes.length ≤ before.buf.length
  eq : after = { before with
    buf := overwrite before.buf before.offset bytes
    offset := before.offset + bytes.length }

namespace Wrote

theorem advanced {bytes : List UInt8} (wrote : before.Wrote bytes after) :
    before.Advanced after := by
  rcases wrote with ⟨fits, rfl⟩
  exact ⟨length_overwrite fits, Nat.le_add_right _ _, rfl⟩

theorem append {middle : MqttEncoder} {first second : List UInt8}
    (left : before.Wrote first middle) (right : middle.Wrote second after) :
    before.Wrote (first ++ second) after := by
  rcases left with ⟨fits, rfl⟩
  rcases right with ⟨fits', rfl⟩
  simp only [length_overwrite fits] at fits'
  refine ⟨?_, ?_⟩
  · rw [List.length_append]
    omega
  · simp only [overwrite_overwrite fits, List.length_append, Nat.add_assoc]

/-- What was written stands behind the earlier offset. -/
theorem drop_take {bytes : List UInt8} (wrote : before.Wrote bytes after) :
    (after.buf.take after.offset).drop before.offset = bytes := by
  have fits := wrote.fits
  have front : (before.buf.take before.offset).length = before.offset := by
    rw [List.length_take]
    omega
  rw [wrote.eq]
  dsimp only
  rw [take_overwrite fits]
  exact List.drop_left' front

theorem take_drop {bytes : List UInt8} (wrote : before.Wrote bytes after) :
    (after.buf.drop before.offset).take bytes.length = bytes := by
  have offset : after.offset = before.offset + bytes.length := by rw [wrote.eq]
  rw [List.take_drop, ← offset]
  exact wrote.drop_take

end Wrote

theorem wrote_of_writeU8 {byte : UInt8} (written : writeU8 byte before = .ok () after) :
    before.Wrote [byte] after := by
  unfold writeU8 at written
  split at written
  · rename_i inside
    simp only [EStateM.Result.ok.injEq, true_and] at written
    exact ⟨inside, written.symm⟩
  · simp at written

theorem wrote_of_copyFromSlice {bytes : List UInt8}
    (written : copyFromSlice bytes before = .ok () after) : before.Wrote bytes after := by
  unfold copyFromSlice at written
  split at written
  · rename_i fits
    simp only [EStateM.Result.ok.injEq, true_and] at written
    exact ⟨fits, written.symm⟩
  · simp at written

theorem eq_of_checkRemaining {len : ℕ} (checked : checkRemaining len before = .ok () after) :
    after = before := by
  unfold checkRemaining at checked
  split at checked
  · simp at checked
  · split at checked
    · simp at checked
    · simp only [EStateM.Result.ok.injEq, true_and] at checked
      exact checked.symm

theorem continued_byte {low : ℕ} (small : low < 128) :
    UInt8.ofNat low ||| 128 = UInt8.ofNat (low + 128) := by
  have checked : ∀ low < 128, UInt8.ofNat low ||| 128 = UInt8.ofNat (low + 128) := by
    decide +kernel
  exact checked low small

/-- The loop writes the bytes of the shortest encoding, one by one. -/
theorem writeVarintLoop_induction {motive : Encode Unit → List UInt8 → Prop}
    (nil : motive (pure ()) []) (last : ∀ byte, motive (writeU8 byte) [byte])
    (more : ∀ byte {operation bytes}, motive operation bytes →
      motive (writeU8 byte >>= fun _ => operation) (byte :: bytes)) (digits len : ℕ) :
    motive (writeVarintLoop digits len) (Varint.encodeDigits digits len) := by
  induction digits generalizing len with
  | zero => exact nil
  | succ digits ih =>
      rw [writeVarintLoop, Varint.encodeDigits]
      by_cases small : len < 128
      · rw [if_pos small]
        simp only [Nat.div_eq_of_lt small, if_true, Nat.mod_eq_of_lt small]
        exact last _
      · have behind : len / 128 ≠ 0 := by omega
        rw [if_neg small]
        simp only [behind, if_false, continued_byte (Nat.mod_lt len (by decide : 128 > 0))]
        exact more _ (ih (len / 128))

theorem wrote_of_writeVarintLoop {digits len : ℕ} (inside : before.offset ≤ before.buf.length)
    (written : writeVarintLoop digits len before = .ok () after) :
    before.Wrote (Varint.encodeDigits digits len) after := by
  revert before
  apply writeVarintLoop_induction (motive := fun operation bytes =>
    ∀ {before : MqttEncoder}, before.offset ≤ before.buf.length →
      operation before = .ok () after → before.Wrote bytes after)
  · intro before inside written
    simp only [pure, EStateM.pure, EStateM.Result.ok.injEq, true_and] at written
    subst written
    exact ⟨inside, by simp⟩
  · intro byte before _ written
    exact wrote_of_writeU8 written
  · intro byte operation bytes ih before _ written
    rcases Encode.bind_eq_ok.mp written with ⟨_, middle, first, rest⟩
    have wrote := wrote_of_writeU8 first
    have inside : middle.offset ≤ middle.buf.length := by
      rw [wrote.advanced.length, wrote.eq]
      exact wrote.fits
    exact wrote.append (ih inside rest)

theorem varintLen_eq_some {value len : ℕ} (found : varintLen value = some len) :
    value < 2 ^ 28 ∧ (Varint.encode value).length = len := by
  unfold varintLen at found
  simp only [Varint.encode, Varint.encodeDigits]
  split at found
  · rw [if_pos (by omega)]
    exact ⟨by omega, Option.some.inj found⟩
  · rw [if_neg (by omega)]
    split at found
    · rw [if_pos (by omega)]
      exact ⟨by omega, Option.some.inj found⟩
    · rw [if_neg (by omega)]
      split at found
      · rw [if_pos (by omega)]
        exact ⟨by omega, Option.some.inj found⟩
      · rw [if_neg (by omega)]
        split at found
        · rw [if_pos (by omega)]
          exact ⟨by omega, Option.some.inj found⟩
        · simp at found

/-- What `finalize_fixed_header` leaves in the buffer: the fixed header, and the body behind it. -/
structure Finalized (before : MqttEncoder) (first : UInt8) (after : MqttEncoder) : Prop where
  small : before.offset - maxMqttHeaderLen < 2 ^ 28
  fits : before.offset ≤ before.buf.length
  length : after.buf.length = before.buf.length
  headerStart : after.headerStart = 0
  inside : after.offset ≤ after.buf.length
  packet : after.buf.take after.offset =
    first :: (Varint.encode (before.offset - maxMqttHeaderLen) ++
      (before.buf.drop maxMqttHeaderLen).take (before.offset - maxMqttHeaderLen))

theorem take_drop_overwrite {buf header : List UInt8} {start body : ℕ}
    (gap : start + header.length = maxMqttHeaderLen) (fits : maxMqttHeaderLen + body ≤ buf.length) :
    ((overwrite buf start header).take (maxMqttHeaderLen + body)).drop start =
      header ++ (buf.drop maxMqttHeaderLen).take body := by
  have len : (buf.take start ++ header).length = maxMqttHeaderLen := by
    simp only [List.length_append, List.length_take]
    omega
  have before : (buf.take start).length = start := by
    rw [List.length_take]
    omega
  rw [overwrite, gap]
  conv_lhs => rw [← len, List.take_append, List.take_of_length_le (by omega)]
  rw [len, List.append_assoc, List.drop_append_of_le_length (by omega)]
  rw [List.drop_of_length_le (by omega), List.nil_append, Nat.add_sub_cancel_left]

theorem eq_of_openHeader {remainingLen : ℕ} (opens : openHeader before = .ok remainingLen after) :
    ∃ len, varintLen remainingLen = some len ∧ len + 1 ≤ before.headerStart ∧
      before.offset = maxMqttHeaderLen + remainingLen ∧
      after = { before with
        offset := before.headerStart - len - 1
        headerStart := before.headerStart - len - 1 } := by
  unfold openHeader at opens
  split at opens
  · simp at opens
  · rename_i len found
    split at opens
    · simp at opens
    · rename_i room
      simp only [EStateM.Result.ok.injEq] at opens
      rcases opens with ⟨rfl, rfl⟩
      exact ⟨len, found, by omega, by omega, rfl⟩

theorem take_of_closeHeader {remainingLen : ℕ}
    (started : before.headerStart ≤ before.offset + remainingLen)
    (closes : closeHeader remainingLen before = .ok () after) :
    before.offset + remainingLen ≤ before.buf.length ∧ after.buf.length = before.buf.length ∧
      after.headerStart = 0 ∧ after.offset = before.offset + remainingLen - before.headerStart ∧
      after.buf.take after.offset =
        (before.buf.take (before.offset + remainingLen)).drop before.headerStart := by
  unfold closeHeader at closes
  dsimp only at closes
  split at closes
  · simp at closes
  · rename_i room
    simp only [EStateM.Result.ok.injEq, true_and] at closes
    subst closes
    have len : (before.buf.take (before.offset + remainingLen)).length =
        before.offset + remainingLen := by
      rw [List.length_take]
      omega
    refine ⟨by omega, ?_, rfl, rfl, ?_⟩
    · simp only [List.length_append, List.length_rotate, List.length_take, List.length_drop]
      omega
    · dsimp only
      have kept : ((before.buf.take (before.offset + remainingLen)).drop
          before.headerStart).length = before.offset + remainingLen - before.headerStart := by
        rw [List.length_drop, len]
      rw [List.rotate_eq_drop_append_take (by omega), List.append_assoc, ← kept, List.take_left]

theorem finalized_of_finalizeFixedHeader {typ : PacketType} {flags : UInt8}
    (start : before.headerStart = maxMqttHeaderLen)
    (finalized : finalizeFixedHeader typ flags before = .ok () after) :
    before.Finalized (typ.toByte ||| flags) after := by
  rcases Encode.bind_eq_ok.mp finalized with ⟨remainingLen, opened, opens, finalized⟩
  rcases Encode.bind_eq_ok.mp finalized with ⟨_, named, names, finalized⟩
  rcases Encode.bind_eq_ok.mp finalized with ⟨_, sized, sizes, closes⟩
  rcases eq_of_openHeader opens with ⟨len, found, room, offset, openedEq⟩
  rcases varintLen_eq_some found with ⟨small, encoded⟩
  have lenLe := Varint.encode_length_le remainingLen
  -- The header is written behind the new start, up to the body.
  have name := wrote_of_writeU8 names
  have inside : named.offset ≤ named.buf.length := by
    rw [name.advanced.length, name.eq]
    exact name.fits
  have header := name.append (wrote_of_writeVarintLoop inside sizes)
  change opened.Wrote (_ :: Varint.encode remainingLen) sized at header
  have bufLength := header.advanced.length
  rcases header with ⟨_, sizedEq⟩
  have openedBuf : opened.buf = before.buf := by rw [openedEq]
  have openedStart : opened.headerStart = maxMqttHeaderLen - len - 1 := by rw [openedEq, start]
  have openedOffset : opened.offset = maxMqttHeaderLen - len - 1 := by rw [openedEq, start]
  have five : maxMqttHeaderLen = 5 := rfl
  have gap : opened.offset + ((typ.toByte ||| flags) :: Varint.encode remainingLen).length =
      maxMqttHeaderLen := by
    rw [List.length_cons, encoded, openedOffset]
    omega
  have sizedOffset : sized.offset = maxMqttHeaderLen := by
    rw [sizedEq]
    exact gap
  have sizedStart : sized.headerStart = maxMqttHeaderLen - len - 1 := by
    rw [sizedEq]
    exact openedStart
  rcases take_of_closeHeader (by omega) closes with ⟨fits, length, headerStart, after_offset, taken⟩
  have remaining : before.offset - maxMqttHeaderLen = remainingLen := by omega
  rw [sizedOffset, bufLength, openedBuf] at fits
  refine ⟨by omega, by omega, ?_, headerStart, ?_, ?_⟩
  · rw [length, bufLength, openedBuf]
  · rw [length, bufLength, openedBuf]
    omega
  · rw [taken, remaining, sizedOffset, sizedStart, ← openedOffset]
    rw [sizedEq]
    dsimp only
    rw [openedBuf, take_drop_overwrite gap fits]
    rfl

/-- A packet that is finalized is complete. -/
theorem Finalized.framed {first : UInt8} (finalized : before.Finalized first after) :
    Framed (after.buf.take after.offset) := by
  refine ⟨_, _, _, _, finalized.packet, Varint.decode_encode finalized.small _, ?_⟩
  have fits := finalized.fits
  simp only [List.length_append, List.length_take, List.length_drop]
  omega

end MqttEncoder

namespace Advances

open MqttEncoder

variable {Value Value' : Type}

theorem pure (value : Value) : Advances (Pure.pure value : Encode Value) := by
  intro before after value' written
  simp only [Pure.pure, EStateM.pure, EStateM.Result.ok.injEq] at written
  exact written.2 ▸ Advanced.refl before

theorem throw (fault : EncodeFault) : Advances (throw fault : Encode Value) := by
  intro before after value written
  change EStateM.Result.error fault before = .ok value after at written
  simp at written

theorem bind {first : Encode Value} {second : Value → Encode Value'} (left : Advances first)
    (right : ∀ value, Advances (second value)) : Advances (first >>= second) := by
  intro before after value' written
  rcases Encode.bind_eq_ok.mp written with ⟨value, middle, first, second⟩
  exact (left first).trans (right value second)

theorem ite {condition : Prop} [Decidable condition] {yes no : Encode Value}
    (left : Advances yes) (right : Advances no) : Advances (if condition then yes else no) := by
  split
  · exact left
  · exact right

theorem forM {operation : Value → Encode Unit} (each : ∀ value, Advances (operation value))
    (values : List Value) : Advances (values.forM operation) := by
  induction values with
  | nil => exact pure _
  | cons value rest ih => exact (each value).bind fun _ => ih

theorem writeU8 (byte : UInt8) : Advances (MqttEncoder.writeU8 byte) :=
  fun _ _ _ written => (wrote_of_writeU8 written).advanced

theorem copyFromSlice (bytes : List UInt8) : Advances (MqttEncoder.copyFromSlice bytes) :=
  fun _ _ _ written => (wrote_of_copyFromSlice written).advanced

theorem checkRemaining (len : ℕ) : Advances (MqttEncoder.checkRemaining len) := by
  intro before after _ checked
  exact eq_of_checkRemaining checked ▸ Advanced.refl before

theorem writeVarint (len : ℕ) : Advances (MqttEncoder.writeVarint len) := by
  apply writeVarintLoop_induction (motive := fun operation _ => Advances operation)
  · exact pure _
  · exact writeU8
  · intro byte operation _ advances
    exact (writeU8 byte).bind fun _ => advances

theorem writeU16 (value : ℕ) : Advances (MqttEncoder.writeU16 value) :=
  (checkRemaining _).bind fun _ => copyFromSlice _

theorem writeU32 (value : ℕ) : Advances (MqttEncoder.writeU32 value) :=
  (checkRemaining _).bind fun _ => copyFromSlice _

theorem writeSlice (bytes : List UInt8) : Advances (MqttEncoder.writeSlice bytes) :=
  (checkRemaining _).bind fun _ => (copyFromSlice _).bind fun _ => copyFromSlice _

theorem writeStr (text : Utf8) : Advances (MqttEncoder.writeStr text) := writeSlice _

theorem writePayload (payload : ToPayload) : Advances (MqttEncoder.writePayload payload) := by
  intro before after _ written
  unfold MqttEncoder.writePayload at written
  split at written
  · simp at written
  · rename_i inside
    have same := payload.length_serialize (before.buf.drop before.offset)
    rcases serialized : payload.serialize (before.buf.drop before.offset) with ⟨result, rest⟩
    simp only [serialized] at written same
    cases result with
    | error fault => simp at written
    | ok count =>
        simp only [EStateM.Result.ok.injEq, true_and] at written
        subst written
        refine ⟨?_, Nat.le_add_right _ _, rfl⟩
        simp only [List.length_append, List.length_take, same, List.length_drop]
        omega

end Advances

end Mqttrust
