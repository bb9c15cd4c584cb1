import Mqttrust.Encoding.IndexedDecoder
import Mqttrust.Encoding.Writes

/-!
# The loops that read and write variable byte integers

Three loops read a variable byte integer: `MqttDecoder::read_len` for the remaining
length, `MqttDecoder::read_varint` and `PropertiesIter::read_varint` for the properties.
They add up septets in integers of different types, and take them out of the bytes in
different ways. Each of them decodes as the library does, and so does what the other
modules take for these functions.
-/

namespace Mqttrust

open Cursor

/-- `MqttDecoder::CONT_BITMASK`. -/
def contBitmask : UInt8 := 0x80

namespace VarintLoops

variable {Integer Error Value : Type}

/-- The loop over the bytes and their positions: every byte adds its septet to the integer, and
one without the continuation bit ends it. Gives the integer and the position of its last byte. -/
def readLoop [Add Integer] (septet : UInt8 → ℕ → Integer) (truncated malformed : Error) :
    Integer → List (UInt8 × ℕ) → Except Error (Integer × ℕ)
  | _, [] => .error truncated
  | integer, (byte, i) :: rest =>
      let integer := integer + septet byte i
      if byte &&& contBitmask = 0 then .ok (integer, i)
      else if i = 3 then .error malformed
      else readLoop septet truncated malformed integer rest

/-- The integer at an index, which moves behind it. -/
def readAt (loop : List (UInt8 × ℕ) → Except Error (UInt32 × ℕ)) : Read UInt8 Error UInt32 := do
  let bytes ← remaining
  match loop (bytes.take 4).zipIdx with
  | .ok (integer, i) => do
      advance (i + 1)
      pure integer
  | .error error => stop error

/-- `MqttDecoder::read_len`. -/
def readLen (buf : List UInt8) : Except EncodingError (ℕ × ℕ) := do
  let (integer, i) ← readLoop (fun byte i => (byte &&& ~~~contBitmask).toNat <<< (7 * i))
    .insufficientBytes .malformedPacket 0 (buf.take 4).zipIdx
  pure (integer, i + 2)

/-- `MqttDecoder::read_varint`. -/
def readVarint : Read UInt8 EncodingError UInt32 :=
  readAt (readLoop (fun byte i => (byte &&& ~~~contBitmask).toUInt32 <<< UInt32.ofNat (7 * i))
    .insufficientBytes .malformedPacket 0)

/-- `PropertiesIter::read_varint`. -/
def readPropertyVarint : Read UInt8 PropertyError UInt32 :=
  readAt (readLoop (fun byte i => (byte.toUInt32 &&& 0x7F) <<< UInt32.ofNat (7 * i))
    .invalidLength .malformedPacket 0)

/-- What a loop gives: the integer and the number of its bytes. -/
def outcome (truncated malformed : Error) : Varint.Outcome → Except Error (ℕ × ℕ)
  | .done value count => .ok (value, count)
  | .incomplete => .error truncated
  | .tooLong => .error malformed

/-- A loop decodes if its additions do not overflow. -/
theorem readLoop_eq [Add Integer] (toNat : Integer → ℕ) {septet : UInt8 → ℕ → Integer}
    (adds : ∀ integer byte i, i ≤ 3 → toNat integer < 128 ^ i →
      toNat (integer + septet byte i) = toNat integer + byte.toNat % 128 * 128 ^ i)
    (truncated malformed : Error) {integer : Integer} {index : ℕ} (inside : index ≤ 3)
    (below : toNat integer < 128 ^ index) (bytes : List UInt8) :
    (readLoop septet truncated malformed integer ((bytes.take (4 - index)).zipIdx index)).map
        (fun read => (toNat read.1, read.2 + 1)) =
      outcome truncated malformed (Varint.decodeFrom index (toNat integer) bytes) := by
  induction bytes generalizing integer index with
  | nil =>
      rw [List.take_nil]
      rfl
  | cons byte rest ih =>
      have added := adds integer byte index inside below
      have taken : (byte :: rest).take (4 - index) = byte :: rest.take (4 - (index + 1)) := by
        rw [show 4 - index = (4 - (index + 1)) + 1 by omega, List.take_succ_cons]
      rw [taken, List.zipIdx_cons, readLoop, Varint.decodeFrom, Varint.low_bits,
        Varint.shiftLeft_septet, ← added]
      by_cases last : byte &&& contBitmask = 0
      · have last' : byte &&& 0x80 = 0 := last
        rw [if_pos last, if_pos last']
        rfl
      · have more : ¬byte &&& 0x80 = 0 := last
        rw [if_neg last, if_neg more]
        by_cases fourth : index = 3
        · rw [if_pos fourth, if_pos fourth]
          rfl
        · rw [if_neg fourth, if_neg fourth]
          apply ih (by omega)
          have septet_lt : byte.toNat % 128 < 128 := Nat.mod_lt _ (by decide)
          have product : byte.toNat % 128 * 128 ^ index ≤ 127 * 128 ^ index := by
            apply Nat.mul_le_mul_right
            omega
          rw [added, Nat.pow_succ]
          omega

theorem toNat_add_septet {integer septet : UInt32} {i : ℕ} (inside : i ≤ 3)
    (below : integer.toNat < 128 ^ i) (small : septet.toNat < 128) :
    (integer + septet <<< UInt32.ofNat (7 * i)).toNat = integer.toNat + septet.toNat * 128 ^ i := by
  have power : 128 ^ i ≤ 128 ^ 3 := Nat.pow_le_pow_right (by decide) inside
  have product : septet.toNat * 128 ^ i ≤ 127 * 128 ^ i := by
    apply Nat.mul_le_mul_right
    omega
  have shift : (UInt32.ofNat (7 * i)).toNat % 32 = 7 * i := by
    rw [UInt32.toNat_ofNat']
    omega
  rw [UInt32.toNat_add, UInt32.toNat_shiftLeft, shift, Varint.shiftLeft_septet,
    Nat.mod_eq_of_lt (by omega : septet.toNat * 128 ^ i < 2 ^ 32)]
  apply Nat.mod_eq_of_lt
  omega

theorem adds_len (integer : ℕ) (byte : UInt8) (i : ℕ) :
    integer + (byte &&& ~~~contBitmask).toNat <<< (7 * i) =
      integer + byte.toNat % 128 * 128 ^ i := by
  have low : (byte &&& ~~~contBitmask).toNat = byte.toNat % 128 := Varint.low_bits byte
  rw [low, Varint.shiftLeft_septet]

theorem adds_varint {integer : UInt32} (byte : UInt8) {i : ℕ} (inside : i ≤ 3)
    (below : integer.toNat < 128 ^ i) :
    (integer + (byte &&& ~~~contBitmask).toUInt32 <<< UInt32.ofNat (7 * i)).toNat =
      integer.toNat + byte.toNat % 128 * 128 ^ i := by
  have low : (byte &&& ~~~contBitmask).toUInt32.toNat = byte.toNat % 128 := Varint.low_bits byte
  rw [toNat_add_septet inside below (low ▸ Nat.mod_lt _ (by decide)), low]

theorem adds_propertyVarint {integer : UInt32} (byte : UInt8) {i : ℕ} (inside : i ≤ 3)
    (below : integer.toNat < 128 ^ i) :
    (integer + (byte.toUInt32 &&& 0x7F) <<< UInt32.ofNat (7 * i)).toNat =
      integer.toNat + byte.toNat % 128 * 128 ^ i := by
  have low : (byte.toUInt32 &&& 0x7F).toNat = byte.toNat % 128 := by
    rw [UInt32.toNat_and]
    exact Nat.and_two_pow_sub_one_eq_mod byte.toNat 7
  rw [toNat_add_septet inside below (low ▸ Nat.mod_lt _ (by decide)), low]

theorem readLen_outcome (buf : List UInt8) :
    readLen buf = (outcome .insufficientBytes .malformedPacket (Varint.decode buf)).map
      fun read => (read.1, read.2 + 1) := by
  have decoded := readLoop_eq id (fun integer byte i _ _ => adds_len integer byte i)
    EncodingError.insufficientBytes EncodingError.malformedPacket (Nat.zero_le 3)
    (by decide : id 0 < 128 ^ 0) buf
  change _ = outcome _ _ (Varint.decode buf) at decoded
  rw [← decoded, readLen]
  rcases readLoop _ _ _ _ _ with error | ⟨integer, i⟩
  · rfl
  · rfl

/-- The operation that decodes at the index. -/
def decodeAt (truncated malformed : Error) : Read UInt8 Error UInt32 := do
  let bytes ← remaining
  match Varint.decode bytes with
  | .done value count => do
      advance count
      pure (UInt32.ofNat value)
  | .incomplete => stop truncated
  | .tooLong => stop malformed

theorem readAt_eq {septet : UInt8 → ℕ → UInt32}
    (adds : ∀ integer byte i, i ≤ 3 → integer.toNat < 128 ^ i →
      (integer + septet byte i).toNat = integer.toNat + byte.toNat % 128 * 128 ^ i)
    (truncated malformed : Error) :
    readAt (readLoop septet truncated malformed 0) = decodeAt truncated malformed := by
  unfold readAt decodeAt
  congr 1
  funext bytes
  have decoded := readLoop_eq UInt32.toNat adds truncated malformed (Nat.zero_le 3)
    (by decide : UInt32.toNat 0 < 128 ^ 0) bytes
  change (readLoop septet truncated malformed 0 (bytes.take 4).zipIdx).map _ =
    outcome truncated malformed (Varint.decode bytes) at decoded
  generalize readLoop septet truncated malformed 0 (bytes.take 4).zipIdx = read at decoded ⊢
  generalize Varint.decode bytes = decoding at decoded ⊢
  cases decoding with
  | done value count =>
      rcases read with error | ⟨integer, i⟩
      · cases decoded
      · simp only [outcome, Except.map, Except.ok.injEq, Prod.mk.injEq] at decoded
        rcases decoded with ⟨rfl, rfl⟩
        simp only [UInt32.ofNat_toNat]
  | incomplete =>
      rcases read with error | read
      · rcases Except.error.inj decoded with rfl
        rfl
      · cases decoded
  | tooLong =>
      rcases read with error | read
      · rcases Except.error.inj decoded with rfl
        rfl
      · cases decoded

theorem readVarint_eq : readVarint = decodeAt .insufficientBytes .malformedPacket :=
  readAt_eq (fun _ byte _ inside below => adds_varint byte inside below) _ _

theorem readPropertyVarint_eq : readPropertyVarint = decodeAt .invalidLength .malformedPacket :=
  readAt_eq (fun _ byte _ inside below => adds_propertyVarint byte inside below) _ _

/-- The loop is what the other modules take for `MqttDecoder::read_len`. -/
theorem decoder_readLen_eq (buf : List UInt8) :
    MqttDecoder.readLen buf = (readLen buf).mapError Fault.error := by
  rw [readLen_outcome, MqttDecoder.readLen]
  rcases Varint.decode buf with ⟨value, count⟩ | _ | _
  · rfl
  · rfl
  · rfl

/-- The loop is what the other modules take for `PropertiesIter::read_varint`. -/
theorem iter_readVarint_eq : IndexedIter.readVarint = readPropertyVarint :=
  readPropertyVarint_eq.symm

/-- The loop is what the other modules take for `MqttDecoder::read_varint`. -/
theorem decoder_readVarint_eq :
    IndexedDecoder.readVarint = IndexedDecoder.atOffset (UInt32.toNat <$> readVarint) := by
  rw [readVarint_eq, IndexedDecoder.readVarint, decodeAt]
  congr 1
  funext cursor
  simp only [Functor.map, EStateM.map, bind, EStateM.bind, remaining]
  by_cases inside : cursor.index ≤ cursor.data.length
  · simp only [if_pos inside]
    cases decoded : Varint.decode cursor.rest with
    | done value count =>
        have small := Varint.lt_of_decode_done decoded
        have same : (UInt32.ofNat value).toNat = value :=
          UInt32.toNat_ofNat_of_lt' (Nat.lt_trans small (by decide))
        change EStateM.Result.ok value _ = EStateM.Result.ok (UInt32.ofNat value).toNat _
        rw [same]
    | incomplete => rfl
    | tooLong => rfl
  · simp only [if_neg inside]

/-- Where an integer was decoded, the index moves behind it; otherwise nothing happens. -/
theorem decodeAt_apply (truncated malformed : Error) {cursor : Cursor UInt8}
    (inRange : cursor.InRange) :
    decodeAt truncated malformed cursor =
      match Varint.decode cursor.rest with
      | .done value count =>
          .ok (UInt32.ofNat value) { cursor with index := cursor.index + count }
      | .incomplete => .error (.error truncated) cursor
      | .tooLong => .error (.error malformed) cursor := by
  have inside : cursor.index ≤ cursor.data.length := inRange
  simp only [decodeAt, bind, EStateM.bind, remaining, if_pos inside]
  cases Varint.decode cursor.rest with
  | done value count => rfl
  | incomplete => rfl
  | tooLong => rfl

/-- Behind any data, a loop at an index gives what decoding gives. -/
theorem decodeAt_append (truncated malformed : Error) (front bytes : List UInt8) :
    decodeAt truncated malformed ⟨front ++ bytes, front.length⟩ =
      match Varint.decode bytes with
      | .done value count => .ok (UInt32.ofNat value) ⟨front ++ bytes, front.length + count⟩
      | .incomplete => .error (.error truncated) ⟨front ++ bytes, front.length⟩
      | .tooLong => .error (.error malformed) ⟨front ++ bytes, front.length⟩ := by
  have inRange : (⟨front ++ bytes, front.length⟩ : Cursor UInt8).InRange := by
    simp [Cursor.InRange]
  have rest : (⟨front ++ bytes, front.length⟩ : Cursor UInt8).rest = bytes := List.drop_left
  rw [decodeAt_apply _ _ inRange, rest]

end VarintLoops

open VarintLoops

/-- The readers accept the same bytes, with the same value and the same number of bytes; where they
do not accept them, the index stays, and only what they call a lack of bytes differs. -/
def ReadersAgree (front bytes : List UInt8) : Prop :=
  (∃ value : UInt32, ∃ len ≤ bytes.length,
    readLen bytes = .ok (value.toNat, len + 1) ∧
    readVarint ⟨front ++ bytes, front.length⟩ =
      .ok value ⟨front ++ bytes, front.length + len⟩ ∧
    readPropertyVarint ⟨front ++ bytes, front.length⟩ =
      .ok value ⟨front ++ bytes, front.length + len⟩) ∨
  (∃ error error', (error, error') ∈ [(EncodingError.insufficientBytes,
      PropertyError.invalidLength), (.malformedPacket, .malformedPacket)] ∧
    readLen bytes = .error error ∧
    readVarint ⟨front ++ bytes, front.length⟩ =
      .error (.error error) ⟨front ++ bytes, front.length⟩ ∧
    readPropertyVarint ⟨front ++ bytes, front.length⟩ =
      .error (.error error') ⟨front ++ bytes, front.length⟩)

/-- The bytes that are written for a value have the computed length, and all readers take the value
out of them, whatever follows. -/
def WritesAndReads (value : ℕ) : Prop :=
  ∃ len written, varintLen value = some len ∧ written.length = len ∧
    (∀ encoder : MqttEncoder, encoder.offset + len ≤ encoder.buf.length →
      ∃ after, MqttEncoder.writeVarint value encoder = .ok () after ∧
        encoder.Wrote written after) ∧
    ∀ front suffix,
      readLen (written ++ suffix) = .ok (value, len + 1) ∧
      readVarint ⟨front ++ (written ++ suffix), front.length⟩ =
        .ok (UInt32.ofNat value) ⟨front ++ (written ++ suffix), front.length + len⟩ ∧
      readPropertyVarint ⟨front ++ (written ++ suffix), front.length⟩ =
        .ok (UInt32.ofNat value) ⟨front ++ (written ++ suffix), front.length + len⟩

theorem readersAgree (front bytes : List UInt8) : ReadersAgree front bytes := by
  unfold ReadersAgree
  rw [readLen_outcome, readVarint_eq, readPropertyVarint_eq, decodeAt_append, decodeAt_append]
  cases decoded : Varint.decode bytes with
  | done value count =>
      have small := Varint.lt_of_decode_done decoded
      have same : (UInt32.ofNat value).toNat = value :=
        UInt32.toNat_ofNat_of_lt' (Nat.lt_trans small (by decide))
      rcases Varint.exists_of_decode_done decoded with ⟨used, rest, rfl, rfl, _, _⟩
      refine .inl ⟨UInt32.ofNat value, used.length, ?_, ?_, rfl, rfl⟩
      · rw [List.length_append]
        exact Nat.le_add_right _ _
      · rw [same]
        rfl
  | incomplete =>
      exact .inr ⟨.insufficientBytes, .invalidLength, by simp, rfl, rfl, rfl⟩
  | tooLong =>
      exact .inr ⟨.malformedPacket, .malformedPacket, by simp, rfl, rfl, rfl⟩

theorem writesAndReads {value : ℕ} (small : value < 2 ^ 28) : WritesAndReads value := by
  refine ⟨_, Varint.encode value, MqttEncoder.varintLen_eq small, rfl, ?_, ?_⟩
  · intro encoder room
    rcases MqttEncoder.exists_wrote room with ⟨after, wrote⟩
    refine ⟨after, ?_, wrote⟩
    apply (Performs.writeVarint value encoder after (by omega)).mpr
    refine ⟨⟨?_, trivial⟩, ?_⟩
    · change (Varint.encode value).length ≤ encoder.buf.length - encoder.offset
      omega
    · rw [Write.allBytes_cons, Write.allBytes_nil, List.append_nil]
      exact wrote
  · intro front suffix
    rw [readLen_outcome, readVarint_eq, readPropertyVarint_eq, decodeAt_append, decodeAt_append,
      Varint.decode_encode small]
    exact ⟨rfl, rfl, rfl⟩

/-- The writer and the readers of variable byte integers agree. -/
theorem varint_codecs_agree :
    (∀ value < 2 ^ 28, WritesAndReads value) ∧ ∀ front bytes, ReadersAgree front bytes :=
  ⟨fun _ small => writesAndReads small, readersAgree⟩

/-- A value of two bytes, and a longer encoding of a value of one byte. -/
theorem varint_codecs_agree_example :
    WritesAndReads 128 ∧ ReadersAgree [0x26] [0x85, 0x00, 0x01] :=
  ⟨varint_codecs_agree.1 128 (by decide), varint_codecs_agree.2 [0x26] [0x85, 0x00, 0x01]⟩

end Mqttrust
