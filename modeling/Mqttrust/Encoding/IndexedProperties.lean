import Mqttrust.Foundation.Cursor
import Mqttrust.Encoding.PropertiesIter

/-!
# Iterating over properties with an index

`PropertiesIter` keeps the whole block of properties and an index, and slices the
block at the index. Its operations track those on the rest of the block, so no slice
is out of range; and since every item moves the index on, going over the whole block
comes to an end.
-/

namespace Mqttrust

/-- `from_be_bytes`. -/
def fromBeBytes (bytes : List UInt8) : ℕ :=
  bytes.foldl (fun value byte => value * 256 + byte.toNat) 0

/-- The operations of `PropertiesIter` on its block and its index. -/
abbrev IndexedIter := Cursor.Read UInt8 PropertyError

namespace IndexedIter

open Cursor

/-- `PropertiesIter::read_u8`. -/
def readU8 : IndexedIter UInt8 := first .invalidLength

/-- `PropertiesIter::read_u16`. -/
def readU16 : IndexedIter UInt16 := do
  let bytes ← take .invalidLength 2
  pure (UInt16.ofNat (fromBeBytes bytes))

/-- `PropertiesIter::read_u32`. -/
def readU32 : IndexedIter UInt32 := do
  let bytes ← take .invalidLength 4
  pure (UInt32.ofNat (fromBeBytes bytes))

/-- `PropertiesIter::read_varint`. -/
def readVarint : IndexedIter UInt32 := do
  let bytes ← remaining
  match Varint.decode bytes with
  | .done value count => do
      advance count
      pure (UInt32.ofNat value)
  | .incomplete => stop .invalidLength
  | .tooLong => stop .malformedPacket

/-- `PropertiesIter::read_slice`. -/
def readSlice : IndexedIter (List UInt8) := do
  let len ← readU16
  take .invalidLength len.toNat

/-- The conversion of some bytes to a string. -/
def fromUtf8 (bytes : List UInt8) : IndexedIter Utf8 :=
  match Utf8.ofBytes? bytes with
  | some text => pure text
  | none => stop .invalidString

/-- `PropertiesIter::read_str`. -/
def readStr : IndexedIter Utf8 := do
  let bytes ← readSlice
  fromUtf8 bytes

/-- The part of `PropertiesIter::read_property` behind the identifier. -/
def readValue (identifier : UInt8) : IndexedIter Property :=
  match identifier with
  | 0x01 => .payloadFormatIndicator <$> readU8
  | 0x02 => .messageExpiryInterval <$> readU32
  | 0x03 => .contentType <$> readStr
  | 0x08 => .responseTopic <$> readStr
  | 0x09 => .correlationData <$> readSlice
  | 0x0B => .subscriptionIdentifier <$> readVarint
  | 0x11 => .sessionExpiryInterval <$> readU32
  | 0x12 => .assignedClientIdentifier <$> readStr
  | 0x13 => .serverKeepAlive <$> readU16
  | 0x15 => .authenticationMethod <$> readStr
  | 0x16 => .authenticationData <$> readSlice
  | 0x17 => .requestProblemInformation <$> readU8
  | 0x18 => .willDelayInterval <$> readU32
  | 0x19 => .requestResponseInformation <$> readU8
  | 0x1A => .responseInformation <$> readStr
  | 0x1C => .serverReference <$> readStr
  | 0x1F => .reasonString <$> readStr
  | 0x21 => .receiveMaximum <$> readU16
  | 0x22 => .topicAliasMaximum <$> readU16
  | 0x23 => .topicAlias <$> readU16
  | 0x24 => .maximumQoS <$> readU8
  | 0x25 => .retainAvailable <$> readU8
  | 0x26 => do
      let key ← readStr
      let value ← readStr
      pure (.userProperty key value)
  | 0x27 => .maximumPacketSize <$> readU32
  | 0x28 => .wildcardSubscriptionAvailable <$> readU8
  | 0x29 => .subscriptionIdentifierAvailable <$> readU8
  | 0x2A => .sharedSubscriptionAvailable <$> readU8
  | _ => stop (.invalidProperty identifier)

/-- `PropertiesIter::read_property`. -/
def readProperty : IndexedIter Property := do
  let identifier ← readU8
  readValue identifier

/-- The items that `PropertiesIter::next` gives until the index is at the end; there are none when
it panics, or when `fuel` items are not enough. -/
def items : ℕ → Cursor UInt8 → Option (List (Except PropertyError Property))
  | fuel, cursor =>
      if cursor.data.length ≤ cursor.index then some []
      else
        match fuel with
        | 0 => none
        | fuel + 1 =>
            match readProperty cursor with
            | .ok property cursor => (items fuel cursor).map (.ok property :: ·)
            | .error (.error error) cursor => (items fuel cursor).map (.error error :: ·)
            | .error .panic _ => none

theorem tracks_readU8 : Tracks readU8 PropertiesIter.readU8 := by
  have same : PropertiesIter.readU8 = firstSpec .invalidLength := by
    funext rest
    cases rest with
    | nil => rfl
    | cons byte rest => rfl
  rw [same]
  exact Tracks.first _

theorem tracks_readU16 : Tracks readU16 PropertiesIter.readU16 := by
  have same : PropertiesIter.readU16 = (do
      let bytes ← takeSpec .invalidLength 2
      pure (UInt16.ofNat (fromBeBytes bytes))) := by
    funext rest
    rcases rest with _ | ⟨high, _ | ⟨low, rest⟩⟩
    · rfl
    · rfl
    · have enough : ¬(high :: low :: rest).length < 2 := by simp
      have value : fromBeBytes [high, low] = high.toNat * 256 + low.toNat := by
        simp [fromBeBytes]
      simp only [PropertiesIter.readU16, takeSpec, bind, EStateM.bind, if_neg enough, ← value]
      rfl
  rw [same]
  exact (Tracks.take _ 2).bind fun bytes => Tracks.pure _

theorem tracks_readU32 : Tracks readU32 PropertiesIter.readU32 := by
  have same : PropertiesIter.readU32 = (do
      let bytes ← takeSpec .invalidLength 4
      pure (UInt32.ofNat (fromBeBytes bytes))) := by
    funext rest
    rcases rest with _ | ⟨first, _ | ⟨second, _ | ⟨third, _ | ⟨fourth, rest⟩⟩⟩⟩
    · rfl
    · rfl
    · rfl
    · rfl
    · have enough : ¬(first :: second :: third :: fourth :: rest).length < 4 := by simp
      have value : fromBeBytes [first, second, third, fourth] =
          ((first.toNat * 256 + second.toNat) * 256 + third.toNat) * 256 + fourth.toNat := by
        simp [fromBeBytes]
      simp only [PropertiesIter.readU32, takeSpec, bind, EStateM.bind, if_neg enough, ← value]
      rfl
  rw [same]
  exact (Tracks.take _ 4).bind fun bytes => Tracks.pure _

theorem tracks_readVarint : Tracks readVarint PropertiesIter.readVarint := by
  intro cursor inRange
  have inside : cursor.index ≤ cursor.data.length := inRange
  have length := cursor.length_rest
  unfold readVarint PropertiesIter.readVarint remaining
  simp only [bind, EStateM.bind, if_pos inside]
  cases decoded : Varint.decode cursor.rest with
  | done value count =>
      rcases Varint.exists_of_decode_done decoded with ⟨used, rest, split, rfl, _, _⟩
      rw [split, List.length_append] at length
      refine ⟨rfl, rfl, ?_, ?_⟩
      · change cursor.index + used.length ≤ cursor.data.length
        omega
      · change cursor.data.drop (cursor.index + used.length) = cursor.rest.drop used.length
        rw [← List.drop_drop]
        rfl
  | incomplete => exact ⟨rfl, rfl, inRange, rfl⟩
  | tooLong => exact ⟨rfl, rfl, inRange, rfl⟩

theorem tracks_readSlice : Tracks readSlice PropertiesIter.readSlice :=
  tracks_readU16.bind fun _ => Tracks.take _ _

theorem tracks_fromUtf8 (bytes : List UInt8) :
    Tracks (fromUtf8 bytes) (PropertiesIter.fromUtf8 bytes) := by
  intro cursor inRange
  unfold fromUtf8 PropertiesIter.fromUtf8
  cases Utf8.ofBytes? bytes with
  | none => exact ⟨rfl, rfl, inRange, rfl⟩
  | some text => exact ⟨rfl, rfl, inRange, rfl⟩

theorem tracks_readStr : Tracks readStr PropertiesIter.readStr :=
  tracks_readSlice.bind tracks_fromUtf8

theorem tracks_readValue (identifier : UInt8) :
    Tracks (readValue identifier) (PropertiesIter.readValue identifier) := by
  unfold readValue
  split
  all_goals first
    | exact tracks_readU8.map _
    | exact tracks_readU16.map _
    | exact tracks_readU32.map _
    | exact tracks_readStr.map _
    | exact tracks_readSlice.map _
    | exact tracks_readVarint.map _
    | exact tracks_readStr.bind fun _ => tracks_readStr.bind fun _ => Tracks.pure _
    | -- No identifier is listed here, on neither side.
      unfold PropertiesIter.readValue
      split
      all_goals first
        | exact Tracks.stop _
        | simp at *

theorem tracks_readProperty : Tracks readProperty PropertiesIter.readProperty :=
  tracks_readU8.bind tracks_readValue

/-- Going over a block comes to its end without a panic, and gives its items. -/
theorem items_eq_collectFuel {fuel : ℕ} {cursor : Cursor UInt8} (inRange : cursor.InRange)
    (enough : cursor.rest.length ≤ fuel) :
    items fuel cursor = some (PropertiesIter.collectFuel fuel cursor.rest) := by
  induction fuel generalizing cursor with
  | zero =>
      have length := cursor.length_rest
      have finished : cursor.data.length ≤ cursor.index := by omega
      rw [items, if_pos finished]
      rfl
  | succ fuel ih =>
      have length := cursor.length_rest
      rw [items]
      by_cases finished : cursor.data.length ≤ cursor.index
      · have empty : cursor.rest = [] := List.drop_eq_nil_of_le finished
        rw [if_pos finished, empty]
        rfl
      · rw [if_neg finished]
        cases left : cursor.rest with
        | nil =>
            rw [left, List.length_nil] at length
            omega
        | cons byte rest =>
            have shorter := PropertiesIter.length_step_readProperty byte rest
            rw [left, List.length_cons] at enough
            rw [PropertiesIter.collectFuel]
            rcases (tracks_readProperty cursor inRange).cases with
              ⟨property, after, done, _, inside, done'⟩ | ⟨error, after, failed, _, inside, failed'⟩
            · rw [left] at done'
              rw [PropertiesIter.step, done'] at shorter ⊢
              rw [done]
              simp only at shorter ⊢
              rw [ih inside (by omega)]
              rfl
            · rw [left] at failed'
              rw [PropertiesIter.step, failed'] at shorter ⊢
              rw [failed]
              simp only at shorter ⊢
              rw [ih inside (by omega)]
              rfl

theorem items_eq_collect (block : List UInt8) :
    items block.length ⟨block, 0⟩ = some (PropertiesIter.collect block) :=
  items_eq_collectFuel (Nat.zero_le _) (Nat.le_refl _)

end IndexedIter

end Mqttrust
