import Mathlib.Algebra.Ring.Nat
import Mathlib.Tactic.Common
import Mathlib.Tactic.Ring

/-!
# Variable byte integers

A variable byte integer carries seven bits in each byte, the low ones first, and
sets the high bit of every byte but the last one. A decoder reads at most four
bytes; it can tell that bytes are missing, or that a fourth byte still announces
another one.

The value of a complete integer depends only on its own bytes, so decoding is not
affected by what follows.
-/

namespace Mqttrust.Varint

/-- What a decoder finds at the start of some bytes. -/
inductive Outcome where
  /-- A value, and the number of bytes it takes. -/
  | done (value count : ℕ)
  /-- The bytes end inside the integer. -/
  | incomplete
  /-- The fourth byte announces another one. -/
  | tooLong
deriving DecidableEq, Repr

/-- The loop of the decoders: `index` bytes were read and gave `integer`. -/
def decodeFrom (index integer : ℕ) : List UInt8 → Outcome
  | [] => .incomplete
  | byte :: rest =>
      let integer := integer + (byte &&& 0x7F).toNat <<< (7 * index)
      if byte &&& 0x80 = 0 then .done integer (index + 1)
      else if index = 3 then .tooLong
      else decodeFrom (index + 1) integer rest

/-- Decodes the integer at the start of the bytes. -/
def decode (bytes : List UInt8) : Outcome := decodeFrom 0 0 bytes

/-- The shortest encoding with at most `digits` bytes. -/
def encodeDigits : ℕ → ℕ → List UInt8
  | 0, _ => []
  | digits + 1, value =>
      if value < 128 then [UInt8.ofNat value]
      else UInt8.ofNat (value % 128 + 128) :: encodeDigits digits (value / 128)

/-- The shortest encoding of a value below `2 ^ 28`. -/
def encode (value : ℕ) : List UInt8 := encodeDigits 4 value

theorem low_bits (byte : UInt8) : (byte &&& 0x7F).toNat = byte.toNat % 128 := by
  rw [UInt8.toNat_and]
  exact Nat.and_two_pow_sub_one_eq_mod byte.toNat 7

theorem high_bit_eq_zero_iff (byte : UInt8) : byte &&& 0x80 = 0 ↔ byte.toNat < 128 := by
  have checked : ∀ value < 256, (UInt8.ofNat value &&& 0x80 = 0 ↔ value < 128) := by
    decide +kernel
  have := checked byte.toNat byte.toNat_lt
  rwa [UInt8.ofNat_toNat] at this

theorem shiftLeft_septet (value index : ℕ) : value <<< (7 * index) = value * 128 ^ index := by
  rw [Nat.shiftLeft_eq, Nat.pow_mul]

theorem decodeFrom_last {byte : UInt8} (last : byte.toNat < 128) (index integer : ℕ)
    (rest : List UInt8) :
    decodeFrom index integer (byte :: rest) =
      .done (integer + byte.toNat * 128 ^ index) (index + 1) := by
  rw [decodeFrom]
  simp only [(high_bit_eq_zero_iff byte).mpr last, if_true, low_bits, shiftLeft_septet]
  rw [Nat.mod_eq_of_lt last]

theorem decodeFrom_more {byte : UInt8} (more : 128 ≤ byte.toNat) {index : ℕ} (inside : index < 3)
    (integer : ℕ) (rest : List UInt8) :
    decodeFrom index integer (byte :: rest) =
      decodeFrom (index + 1) (integer + byte.toNat % 128 * 128 ^ index) rest := by
  have notLast : ¬byte &&& 0x80 = 0 := by
    rw [high_bit_eq_zero_iff]
    omega
  rw [decodeFrom]
  simp only [notLast, if_false, low_bits, shiftLeft_septet, if_neg (Nat.ne_of_lt inside)]

theorem decodeFrom_encodeDigits {digits index value : ℕ} (room : index + digits ≤ 3)
    (fits : value < 128 ^ (digits + 1)) (integer : ℕ) (rest : List UInt8) :
    decodeFrom index integer (encodeDigits (digits + 1) value ++ rest) =
      .done (integer + value * 128 ^ index)
        (index + (encodeDigits (digits + 1) value).length) := by
  induction digits generalizing index value integer with
  | zero =>
      rw [Nat.pow_one] at fits
      have byte : (UInt8.ofNat value).toNat = value := by
        simp only [UInt8.toNat_ofNat']
        omega
      simp only [encodeDigits, fits, if_true, List.singleton_append, List.length_singleton]
      rw [decodeFrom_last (by omega), byte]
  | succ digits ih =>
      rw [encodeDigits]
      by_cases small : value < 128
      · have byte : (UInt8.ofNat value).toNat = value := by
          simp only [UInt8.toNat_ofNat']
          omega
        simp only [small, if_true, List.singleton_append, List.length_singleton]
        rw [decodeFrom_last (by omega), byte]
      · have byte : (UInt8.ofNat (value % 128 + 128)).toNat = value % 128 + 128 := by
          simp only [UInt8.toNat_ofNat']
          omega
        have fits' : value / 128 < 128 ^ (digits + 1) := by
          rw [Nat.pow_succ] at fits
          exact Nat.div_lt_of_lt_mul (by rw [Nat.mul_comm]; exact fits)
        simp only [small, if_false, List.cons_append, List.length_cons]
        rw [decodeFrom_more (by omega) (by omega), ih (by omega) fits', byte]
        congr 1
        · have split : value = value % 128 + 128 * (value / 128) := (Nat.mod_add_div value 128).symm
          conv_rhs => rw [split]
          rw [Nat.add_mod_right, Nat.mod_mod, pow_succ]
          ring
        · omega

/-- Decoding an encoded value gives the value and the length of its encoding. -/
theorem decode_encode {value : ℕ} (fits : value < 2 ^ 28) (rest : List UInt8) :
    decode (encode value ++ rest) = .done value (encode value).length := by
  have := @decodeFrom_encodeDigits 3 0 value (by decide) (by omega) 0 rest
  simpa [decode, encode] using this

theorem decodeFrom_fourth {byte : UInt8} (more : 128 ≤ byte.toNat) (integer : ℕ)
    (rest : List UInt8) : decodeFrom 3 integer (byte :: rest) = .tooLong := by
  have notLast : ¬byte &&& 0x80 = 0 := by
    rw [high_bit_eq_zero_iff]
    omega
  rw [decodeFrom]
  simp only [notLast, if_false, if_true]

theorem decodeFrom_encodeDigits_of_le (digits : ℕ) {index value : ℕ} (room : index + digits = 3)
    (large : 128 ^ (digits + 1) ≤ value) (integer : ℕ) (rest : List UInt8) :
    decodeFrom index integer (encodeDigits (digits + 1) value ++ rest) = .tooLong := by
  have more : ¬value < 128 := by
    have := Nat.one_le_pow digits 128 (by decide)
    rw [Nat.pow_succ] at large
    omega
  have byte : (UInt8.ofNat (value % 128 + 128)).toNat = value % 128 + 128 := by
    simp only [UInt8.toNat_ofNat']
    omega
  induction digits generalizing index value integer with
  | zero =>
      obtain rfl : index = 3 := by omega
      simp only [encodeDigits, more, if_false, List.cons_append]
      exact decodeFrom_fourth (by omega) integer _
  | succ digits ih =>
      have large' : 128 ^ (digits + 1) ≤ value / 128 := by
        rw [Nat.le_div_iff_mul_le (by decide), ← Nat.pow_succ]
        exact large
      have more' : ¬value / 128 < 128 := by
        have := Nat.one_le_pow digits 128 (by decide)
        rw [Nat.pow_succ] at large'
        omega
      rw [encodeDigits, if_neg more, List.cons_append, decodeFrom_more (by omega) (by omega)]
      apply ih (by omega) large' _ more'
      simp only [UInt8.toNat_ofNat']
      omega

/-- The encoding of a value that is too large announces a fifth byte. -/
theorem decode_encode_of_le {value : ℕ} (large : 2 ^ 28 ≤ value) (rest : List UInt8) :
    decode (encode value ++ rest) = .tooLong :=
  decodeFrom_encodeDigits_of_le 3 rfl large 0 rest

/-- A complete integer is decided by its own bytes. -/
theorem exists_of_decodeFrom_done {index integer value count : ℕ} {bytes : List UInt8}
    (decoded : decodeFrom index integer bytes = .done value count) :
    ∃ used rest, bytes = used ++ rest ∧ count = index + used.length ∧ used ≠ [] ∧
      ∀ more, decodeFrom index integer (used ++ more) = .done value count := by
  induction bytes generalizing index integer with
  | nil => simp [decodeFrom] at decoded
  | cons byte rest ih =>
      rw [decodeFrom] at decoded
      split at decoded
      · rename_i last
        simp only [Outcome.done.injEq] at decoded
        rcases decoded with ⟨rfl, rfl⟩
        exact ⟨[byte], rest, rfl, rfl, by simp, fun more => by simp [decodeFrom, last]⟩
      · rename_i notLast
        split at decoded
        · simp at decoded
        · rename_i notFourth
          rcases ih decoded with ⟨used, rest, rfl, rfl, _, same⟩
          refine ⟨byte :: used, rest, rfl, ?_, by simp, fun more => ?_⟩
          · simp only [List.length_cons]
            omega
          · rw [List.cons_append, decodeFrom]
            simp only [notLast, if_false, notFourth, same]

theorem decodeFrom_append {index integer : ℕ} {bytes : List UInt8} (more : List UInt8)
    (decided : decodeFrom index integer bytes ≠ .incomplete) :
    decodeFrom index integer (bytes ++ more) = decodeFrom index integer bytes := by
  induction bytes generalizing index integer with
  | nil => simp [decodeFrom] at decided
  | cons byte rest ih =>
      rw [List.cons_append, decodeFrom, decodeFrom]
      rw [decodeFrom] at decided
      split
      · rfl
      · split
        · rfl
        · rename_i notLast notFourth
          rw [if_neg notLast, if_neg notFourth] at decided
          exact ih decided

theorem decode_append {bytes : List UInt8} (more : List UInt8)
    (decided : decode bytes ≠ .incomplete) : decode (bytes ++ more) = decode bytes :=
  decodeFrom_append more decided

theorem exists_of_decode_done {value count : ℕ} {bytes : List UInt8}
    (decoded : decode bytes = .done value count) :
    ∃ used rest, bytes = used ++ rest ∧ count = used.length ∧ used ≠ [] ∧
      ∀ more, decode (used ++ more) = .done value count := by
  rcases exists_of_decodeFrom_done decoded with ⟨used, rest, split, count_eq, nonempty, same⟩
  exact ⟨used, rest, split, by omega, nonempty, same⟩

theorem encode_length_le (value : ℕ) : (encode value).length ≤ 4 := by
  have bound : ∀ digits value, (encodeDigits digits value).length ≤ digits := by
    intro digits
    induction digits with
    | zero => simp [encodeDigits]
    | succ digits ih =>
        intro value
        rw [encodeDigits]
        split
        · simp
        · simpa using ih (value / 128)
  exact bound 4 value

theorem encode_ne_nil (value : ℕ) : encode value ≠ [] := by
  rw [encode, encodeDigits]
  split <;> simp

/-- The bytes of an integer bound its value. -/
theorem lt_of_decodeFrom_done {index integer value count : ℕ} {bytes : List UInt8}
    (decoded : decodeFrom index integer bytes = .done value count)
    (below : integer < 128 ^ index) : 0 < count ∧ value < 128 ^ count := by
  induction bytes generalizing index integer with
  | nil => simp [decodeFrom] at decoded
  | cons byte rest ih =>
      have septet : byte.toNat % 128 < 128 := Nat.mod_lt _ (by decide)
      have product : byte.toNat % 128 * 128 ^ index ≤ 127 * 128 ^ index := by
        apply Nat.mul_le_mul_right
        omega
      have next : integer + byte.toNat % 128 * 128 ^ index < 128 ^ (index + 1) := by
        rw [Nat.pow_succ]
        omega
      rw [decodeFrom] at decoded
      simp only [low_bits, shiftLeft_septet] at decoded
      split at decoded
      · simp only [Outcome.done.injEq] at decoded
        rcases decoded with ⟨rfl, rfl⟩
        exact ⟨Nat.succ_pos index, next⟩
      · split at decoded
        · simp at decoded
        · exact ih decoded next

theorem count_le_of_decodeFrom_done {index integer value count : ℕ} {bytes : List UInt8}
    (decoded : decodeFrom index integer bytes = .done value count) (inside : index ≤ 3) :
    count ≤ 4 := by
  induction bytes generalizing index integer with
  | nil => simp [decodeFrom] at decoded
  | cons byte rest ih =>
      rw [decodeFrom] at decoded
      split at decoded
      · simp only [Outcome.done.injEq] at decoded
        omega
      · split at decoded
        · simp at decoded
        · exact ih decoded (by omega)

/-- An integer has at most 28 bits. -/
theorem lt_of_decode_done {value count : ℕ} {bytes : List UInt8}
    (decoded : decode bytes = .done value count) : value < 2 ^ 28 := by
  have below := (lt_of_decodeFrom_done decoded (by decide)).2
  have short := count_le_of_decodeFrom_done decoded (by decide)
  have power : 128 ^ count ≤ 128 ^ 4 := Nat.pow_le_pow_right (by decide) short
  omega

theorem encodeDigits_length_le {count value : ℕ} (digits : ℕ) (some : 0 < count)
    (below : value < 128 ^ count) : (encodeDigits digits value).length ≤ count := by
  induction digits generalizing count value with
  | zero => exact Nat.zero_le count
  | succ digits ih =>
      rw [encodeDigits]
      split
      · exact some
      · rename_i large
        cases count with
        | zero => exact absurd some (Nat.lt_irrefl 0)
        | succ count =>
            have more : 0 < count := by
              cases count with
              | zero => exact absurd below large
              | succ count => exact Nat.succ_pos count
            have rest : value / 128 < 128 ^ count := by
              rw [Nat.pow_succ] at below
              exact Nat.div_lt_of_lt_mul (Nat.mul_comm _ _ ▸ below)
            exact Nat.succ_le_succ (ih more rest)

/-- No encoding of an integer is shorter than the one that is written. -/
theorem encode_length_le_of_decode_done {value count : ℕ} {bytes : List UInt8}
    (decoded : decode bytes = .done value count) : (encode value).length ≤ count := by
  rcases lt_of_decodeFrom_done decoded (by decide) with ⟨some, below⟩
  exact encodeDigits_length_le 4 some below

end Mqttrust.Varint
