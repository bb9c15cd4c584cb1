import Mqttrust.Foundation.Utf8
import Mqttrust.Foundation.Varint
import Mqttrust.Encoding.Utils

/-!
# The decoder

`MqttDecoder` reads the fields of a packet from a buffer. It is modelled by the
bytes of the buffer behind its offset, together with the offset itself. Every
operation fails with `insufficientBytes` when the buffer ends too early.

An operation that succeeded, or that failed for another reason, does the same
when the buffer is longer; this is what lets a reader parse a header while its
bytes are still arriving.
-/

namespace Mqttrust

/-- The fixed header of a packet. -/
structure FixedHeader where
  typ : PacketType
  dup : Bool
  qos : QoS
  retain : Bool
  remainingLen : ℕ
deriving DecidableEq, Repr

/-- A decoder: the bytes of its buffer from `offset` on, the offset and the fixed header. -/
structure MqttDecoder where
  rest : List UInt8
  offset : ℕ
  headerLen : ℕ
  fixedHeader : FixedHeader
deriving DecidableEq, Repr

/-- Fails with an error of the encoding layer. -/
def fail {Value : Type} (error : EncodingError) : Except Fault Value := .error (.error error)

namespace MqttDecoder

/-- `MqttDecoder::read_len`: the remaining length, and the length of the fixed header. -/
def readLen (bytes : List UInt8) : Except Fault (ℕ × ℕ) :=
  match Varint.decode bytes with
  | .done value count => .ok (value, count + 1)
  | .incomplete => fail .insufficientBytes
  | .tooLong => fail .malformedPacket

/-- `MqttDecoder::try_new`. -/
def tryNew (config : CrateConfig) (buf : List UInt8) : Except Fault MqttDecoder :=
  match buf with
  | hd :: second :: tail =>
      match PacketType.tryFrom config (hd &&& 0xF0) with
      | none => fail .invalidHeader
      | some typ =>
          match readLen (second :: tail) with
          | .error fault => .error fault
          | .ok (remainingLen, headerLen) =>
              match QoS.tryFrom config ((hd &&& 0x06) >>> 1) with
              | none => fail (.wrongQos (hd &&& 0x06))
              | some qos =>
                  .ok
                    { rest := buf.drop headerLen
                      offset := headerLen
                      headerLen := headerLen
                      fixedHeader :=
                        { typ := typ
                          dup := hd &&& 0x08 == 0x08
                          qos := qos
                          retain := hd &&& 0x01 == 0x01
                          remainingLen := remainingLen } }
  | _ => fail .insufficientBytes

variable (decoder : MqttDecoder)

/-- `MqttDecoder::packet_len`. -/
def packetLen : ℕ := decoder.headerLen + decoder.fixedHeader.remainingLen

/-- Moves the offset. -/
def advance (count : ℕ) : MqttDecoder :=
  { decoder with rest := decoder.rest.drop count, offset := decoder.offset + count }

/-- `MqttDecoder::check_remaining`. -/
def checkRemaining (len : ℕ) : Except Fault Unit :=
  if decoder.rest.length < len then fail .insufficientBytes else .ok ()

/-- Reads `len` bytes. -/
def readBytes (len : ℕ) : Except Fault (List UInt8 × MqttDecoder) :=
  match decoder.checkRemaining len with
  | .error fault => .error fault
  | .ok () => .ok (decoder.rest.take len, decoder.advance len)

/-- `MqttDecoder::read_u8`. -/
def readU8 : Except Fault (UInt8 × MqttDecoder) :=
  match decoder.rest with
  | byte :: _ => .ok (byte, decoder.advance 1)
  | [] => fail .insufficientBytes

/-- `MqttDecoder::read_u16`. -/
def readU16 : Except Fault (ℕ × MqttDecoder) :=
  match decoder.rest with
  | high :: low :: _ => .ok (high.toNat * 256 + low.toNat, decoder.advance 2)
  | _ => fail .insufficientBytes

/-- `MqttDecoder::read_varint`. -/
def readVarint : Except Fault (ℕ × MqttDecoder) :=
  match Varint.decode decoder.rest with
  | .done value count => .ok (value, decoder.advance count)
  | .incomplete => fail .insufficientBytes
  | .tooLong => fail .malformedPacket

/-- `MqttDecoder::read_slice`. -/
def readSlice : Except Fault (List UInt8 × MqttDecoder) :=
  match decoder.readU16 with
  | .error fault => .error fault
  | .ok (len, decoder) => decoder.readBytes len

/-- `MqttDecoder::read_str`. -/
def readStr : Except Fault (Utf8 × MqttDecoder) :=
  match decoder.readSlice with
  | .error fault => .error fault
  | .ok (bytes, decoder) =>
      match Utf8.ofBytes? bytes with
      | some text => .ok (text, decoder)
      | none => fail .invalidString

/-- `MqttDecoder::read_payload`: subtracting an offset behind the end of the packet overflows. -/
def readPayload : Except Fault (List UInt8 × MqttDecoder) :=
  if decoder.packetLen < decoder.offset then .error .panic
  else decoder.readBytes (decoder.packetLen - decoder.offset)

/-- `MqttDecoder::read_properties`: the block of properties, which are not parsed further. -/
def readProperties : Except Fault (List UInt8 × MqttDecoder) :=
  match decoder.readVarint with
  | .error fault => .error fault
  | .ok (len, decoder) => decoder.readBytes len

section Lemmas

variable {config : CrateConfig} {decoder next : MqttDecoder}

theorem fail_ne_ok {Value : Type} {error : EncodingError} {value : Value} :
    fail error ≠ .ok value := by
  simp [fail]

/-- A length that was read depends only on its own bytes. -/
theorem exists_of_readLen_eq_ok {bytes : List UInt8} {value count : ℕ}
    (read : readLen bytes = .ok (value, count)) :
    ∃ used rest, bytes = used ++ rest ∧ count = used.length + 1 ∧ used ≠ [] ∧
      ∀ more, readLen (used ++ more) = .ok (value, count) := by
  unfold readLen at read
  split at read
  · rename_i decoded
    rcases Varint.exists_of_decode_done decoded with ⟨used, rest, split, rfl, nonempty, same⟩
    simp only [Except.ok.injEq, Prod.mk.injEq] at read
    rcases read with ⟨rfl, rfl⟩
    refine ⟨used, rest, split, rfl, nonempty, fun more => ?_⟩
    rw [readLen, same more]
  · exact absurd read fail_ne_ok
  · exact absurd read fail_ne_ok

theorem readLen_append {bytes : List UInt8} (more : List UInt8)
    (decided : readLen bytes ≠ fail .insufficientBytes) : readLen (bytes ++ more) = readLen bytes := by
  have complete : Varint.decode bytes ≠ .incomplete := by
    intro incomplete
    simp [readLen, incomplete] at decided
  rw [readLen, readLen, Varint.decode_append more complete]

theorem readLen_encode {value : ℕ} (fits : value < 2 ^ 28) (rest : List UInt8) :
    readLen (Varint.encode value ++ rest) = .ok (value, (Varint.encode value).length + 1) := by
  rw [readLen, Varint.decode_encode fits]

theorem tryNew_cons (config : CrateConfig) (hd : UInt8) {tail : List UInt8} (more : tail ≠ []) :
    tryNew config (hd :: tail) =
      match PacketType.tryFrom config (hd &&& 0xF0) with
      | none => fail .invalidHeader
      | some typ =>
          match readLen tail with
          | .error fault => .error fault
          | .ok (remainingLen, headerLen) =>
              match QoS.tryFrom config ((hd &&& 0x06) >>> 1) with
              | none => fail (.wrongQos (hd &&& 0x06))
              | some qos =>
                  .ok ⟨(hd :: tail).drop headerLen, headerLen, headerLen,
                    ⟨typ, hd &&& 0x08 == 0x08, qos, hd &&& 0x01 == 0x01, remainingLen⟩⟩ := by
  cases tail with
  | nil => exact absurd rfl more
  | cons second tail => rfl

/-- A decoder that was created depends only on the fixed header. -/
theorem exists_of_tryNew_eq_ok {buf : List UInt8} (created : tryNew config buf = .ok decoder) :
    ∃ head, buf = head ++ decoder.rest ∧ head.length = decoder.headerLen ∧
      decoder.offset = decoder.headerLen ∧ 2 ≤ head.length ∧
      ∀ tail, tryNew config (head ++ tail) = .ok { decoder with rest := tail } := by
  unfold tryNew at created
  split at created
  · rename_i hd second tail
    split at created
    · exact absurd created fail_ne_ok
    · rename_i typ typ_eq
      split at created
      · simp at created
      · rename_i remainingLen headerLen read
        split at created
        · exact absurd created fail_ne_ok
        · rename_i qos qos_eq
          rcases exists_of_readLen_eq_ok read with ⟨used, rest, split, rfl, nonempty, same⟩
          simp only [Except.ok.injEq] at created
          subst created
          have used_pos := List.length_pos_iff.mpr nonempty
          refine ⟨hd :: used, ?_, rfl, rfl, by simp only [List.length_cons]; omega, ?_⟩
          · simp [split]
          · intro tail'
            rw [List.cons_append, tryNew_cons config hd (by simp [nonempty])]
            simp [typ_eq, same tail', qos_eq]
  · exact absurd created fail_ne_ok

theorem tryNew_take {buf : List UInt8} (created : tryNew config buf = .ok decoder) (count : ℕ)
    (enough : decoder.headerLen ≤ count) :
    tryNew config (buf.take count) =
      .ok { decoder with rest := decoder.rest.take (count - decoder.headerLen) } := by
  rcases exists_of_tryNew_eq_ok created with ⟨head, split, length, _, _, same⟩
  rw [split, List.take_append, List.take_of_length_le (by omega), same, length]

theorem tryNew_append {buf : List UInt8} (created : tryNew config buf = .ok decoder)
    (more : List UInt8) :
    tryNew config (buf ++ more) = .ok { decoder with rest := decoder.rest ++ more } := by
  rcases exists_of_tryNew_eq_ok created with ⟨head, split, _, _, _, same⟩
  rw [split, List.append_assoc, same]

theorem tryNew_append_of_error {buf : List UInt8} {fault : Fault} (more : List UInt8)
    (failed : tryNew config buf = .error fault) (decided : fault ≠ .error .insufficientBytes) :
    tryNew config (buf ++ more) = .error fault := by
  unfold tryNew at failed
  split at failed
  · rename_i hd second tail
    rw [List.cons_append, List.cons_append, tryNew_cons config hd (by simp)]
    split at failed
    · exact failed
    · rename_i typ typ_eq
      have same : readLen (second :: tail) ≠ fail .insufficientBytes →
          readLen (second :: (tail ++ more)) = readLen (second :: tail) :=
        readLen_append more
      split at failed
      · rename_i fault' read
        simp only [Except.error.injEq] at failed
        subst failed
        rw [same (by simpa [read, fail] using decided), read]
      · rename_i remainingLen headerLen read
        rw [same (by simp [read, fail]), read]
        simp only
        split at failed
        · exact failed
        · simp at failed
  · simp only [fail, Except.error.injEq] at failed
    exact absurd failed.symm decided

theorem readBytes_eq_ok_iff {len : ℕ} {bytes : List UInt8} :
    decoder.readBytes len = .ok (bytes, next) ↔
      len ≤ decoder.rest.length ∧ bytes = decoder.rest.take len ∧ next = decoder.advance len := by
  unfold readBytes checkRemaining
  by_cases short : decoder.rest.length < len
  · simp only [short, if_true, fail]
    constructor
    · simp
    · intro impossible
      omega
  · simp only [short, if_false, Except.ok.injEq, Prod.mk.injEq]
    constructor
    · rintro ⟨rfl, rfl⟩
      exact ⟨by omega, rfl, rfl⟩
    · rintro ⟨_, rfl, rfl⟩
      exact ⟨rfl, rfl⟩

@[simp]
theorem readBytes_append (bytes tail : List UInt8) (offset headerLen : ℕ) (header : FixedHeader) :
    (MqttDecoder.mk (bytes ++ tail) offset headerLen header).readBytes bytes.length =
      .ok (bytes, ⟨tail, offset + bytes.length, headerLen, header⟩) := by
  rw [readBytes_eq_ok_iff]
  simp [advance]

@[simp]
theorem readU8_cons (byte : UInt8) (tail : List UInt8) (offset headerLen : ℕ)
    (header : FixedHeader) :
    (MqttDecoder.mk (byte :: tail) offset headerLen header).readU8 =
      .ok (byte, ⟨tail, offset + 1, headerLen, header⟩) := rfl

@[simp]
theorem readU16_cons (high low : UInt8) (tail : List UInt8) (offset headerLen : ℕ)
    (header : FixedHeader) :
    (MqttDecoder.mk (high :: low :: tail) offset headerLen header).readU16 =
      .ok (high.toNat * 256 + low.toNat, ⟨tail, offset + 2, headerLen, header⟩) := rfl

theorem exists_of_readStr_eq_ok {text : Utf8} (read : decoder.readStr = .ok (text, next)) :
    ∃ high low : UInt8, decoder.rest = high :: low :: (text.bytes ++ next.rest) ∧
      high.toNat * 256 + low.toNat = text.bytes.length ∧
      next = { decoder with rest := next.rest, offset := decoder.offset + 2 + text.bytes.length } := by
  rcases decoder with ⟨rest, offset, headerLen, header⟩
  unfold readStr readSlice at read
  rcases rest with _ | ⟨high, _ | ⟨low, tail⟩⟩
  · simp [readU16, fail] at read
  · simp [readU16, fail] at read
  · simp only [readU16_cons] at read
    split at read
    · simp at read
    · rename_i bytes after read_bytes
      rcases readBytes_eq_ok_iff.mp read_bytes with ⟨inside, rfl, rfl⟩
      split at read
      · rename_i text' found
        simp only [Except.ok.injEq, Prod.mk.injEq] at read
        rcases read with ⟨rfl, rfl⟩
        have bytes_eq := Utf8.bytes_of_ofBytes? found
        have len_eq : text'.bytes.length = high.toNat * 256 + low.toNat := by
          rw [bytes_eq, List.length_take]
          exact Nat.min_eq_left inside
        refine ⟨high, low, ?_, len_eq.symm, ?_⟩
        · simp [bytes_eq, advance]
        · simp [advance, len_eq]
      · exact absurd read fail_ne_ok

theorem readStr_cons {high low : UInt8} {text : Utf8} (tail : List UInt8) (offset headerLen : ℕ)
    (header : FixedHeader) (len : high.toNat * 256 + low.toNat = text.bytes.length) :
    (MqttDecoder.mk (high :: low :: (text.bytes ++ tail)) offset headerLen header).readStr =
      .ok (text, ⟨tail, offset + 2 + text.bytes.length, headerLen, header⟩) := by
  simp [readStr, readSlice, len]

theorem readStr_append_of_error {fault : Fault} (more : List UInt8)
    (failed : decoder.readStr = .error fault) (decided : fault ≠ .error .insufficientBytes) :
    ({ decoder with rest := decoder.rest ++ more } : MqttDecoder).readStr = .error fault := by
  rcases decoder with ⟨rest, offset, headerLen, header⟩
  unfold readStr readSlice at failed ⊢
  rcases rest with _ | ⟨high, _ | ⟨low, tail⟩⟩
  · simp only [readU16, fail, Except.error.injEq] at failed
    exact absurd failed.symm decided
  · simp only [readU16, fail, Except.error.injEq] at failed
    exact absurd failed.symm decided
  · simp only [List.cons_append, readU16_cons] at failed ⊢
    by_cases inside : high.toNat * 256 + low.toNat ≤ tail.length
    · have notShort : ¬tail.length < high.toNat * 256 + low.toNat := Nat.not_lt.mpr inside
      have notShort' : ¬tail.length + more.length < high.toNat * 256 + low.toNat := by omega
      simp only [readBytes, checkRemaining, notShort, if_false] at failed
      simp only [readBytes, checkRemaining, List.length_append, notShort', if_false]
      rw [List.take_append_of_le_length inside]
      split at failed
      · simp at failed
      · exact failed
    · have short : tail.length < high.toNat * 256 + low.toNat := Nat.not_le.mp inside
      simp only [readBytes, checkRemaining, short, if_true, fail, Except.error.injEq] at failed
      exact absurd failed.symm decided

theorem readVarint_encode {value : ℕ} (fits : value < 2 ^ 28) (tail : List UInt8)
    (offset headerLen : ℕ) (header : FixedHeader) :
    (MqttDecoder.mk (Varint.encode value ++ tail) offset headerLen header).readVarint =
      .ok (value, ⟨tail, offset + (Varint.encode value).length, headerLen, header⟩) := by
  simp [readVarint, Varint.decode_encode fits, advance]

theorem readProperties_encode {block : List UInt8} (fits : block.length < 2 ^ 28)
    (tail : List UInt8) (offset headerLen : ℕ) (header : FixedHeader) :
    (MqttDecoder.mk (Varint.encode block.length ++ (block ++ tail)) offset headerLen
        header).readProperties =
      .ok (block, ⟨tail, offset + (Varint.encode block.length).length + block.length, headerLen,
        header⟩) := by
  simp [readProperties, readVarint_encode fits]

end Lemmas

section Panics

/-! Only reading a payload can panic. -/

theorem readLen_ne_panic (bytes : List UInt8) : readLen bytes ≠ .error .panic := by
  grind [readLen, fail]

theorem tryNew_ne_panic (config : CrateConfig) (buf : List UInt8) :
    tryNew config buf ≠ .error .panic := by
  rcases buf with _ | ⟨hd, _ | ⟨second, tail⟩⟩
  · simp [tryNew, fail]
  · simp [tryNew, fail]
  · grind [tryNew, fail, readLen_ne_panic]

theorem checkRemaining_ne_panic (decoder : MqttDecoder) (len : ℕ) :
    decoder.checkRemaining len ≠ .error .panic := by
  grind [checkRemaining, fail]

theorem readBytes_ne_panic (decoder : MqttDecoder) (len : ℕ) :
    decoder.readBytes len ≠ .error .panic := by
  grind [readBytes, checkRemaining_ne_panic]

theorem readU8_ne_panic (decoder : MqttDecoder) : decoder.readU8 ≠ .error .panic := by
  grind [readU8, fail]

theorem readU16_ne_panic (decoder : MqttDecoder) : decoder.readU16 ≠ .error .panic := by
  grind [readU16, fail]

theorem readVarint_ne_panic (decoder : MqttDecoder) : decoder.readVarint ≠ .error .panic := by
  grind [readVarint, fail]

theorem readStr_ne_panic (decoder : MqttDecoder) : decoder.readStr ≠ .error .panic := by
  grind [readStr, readSlice, fail, readU16_ne_panic, readBytes_ne_panic]

theorem readProperties_ne_panic (decoder : MqttDecoder) :
    decoder.readProperties ≠ .error .panic := by
  grind [readProperties, readVarint_ne_panic, readBytes_ne_panic]

end Panics

end MqttDecoder

end Mqttrust
