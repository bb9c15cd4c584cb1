import Mqttrust.Encoding.Property

/-!
# Iterating over properties

`PropertiesIter` goes over a block of encoded properties and decodes one of them at
a time. Its state is the part of the block behind its index. An operation that fails
leaves the index where it was when it failed, and the iteration goes on from there.
-/

namespace Mqttrust

/-- Errors of the encoding layer that an iterator over properties can return. -/
inductive PropertyError where
  | invalidLength
  | invalidProperty (identifier : UInt8)
  | invalidString
  | malformedPacket
deriving DecidableEq, Repr

/-- An operation of `PropertiesIter` on the rest of an encoded block. -/
abbrev PropertiesIter := EStateM PropertyError (List UInt8)

namespace PropertiesIter

/-- `PropertiesIter::read_u8`. -/
def readU8 : PropertiesIter UInt8
  | byte :: rest => .ok byte rest
  | [] => .error .invalidLength []

/-- `PropertiesIter::read_u16`. -/
def readU16 : PropertiesIter UInt16
  | high :: low :: rest => .ok (UInt16.ofNat (high.toNat * 256 + low.toNat)) rest
  | rest => .error .invalidLength rest

/-- `PropertiesIter::read_u32`. -/
def readU32 : PropertiesIter UInt32
  | first :: second :: third :: fourth :: rest =>
      .ok (UInt32.ofNat (((first.toNat * 256 + second.toNat) * 256 + third.toNat) * 256 +
        fourth.toNat)) rest
  | rest => .error .invalidLength rest

/-- `PropertiesIter::read_varint`. -/
def readVarint : PropertiesIter UInt32 := fun rest =>
  match Varint.decode rest with
  | .done value count => .ok (UInt32.ofNat value) (rest.drop count)
  | .incomplete => .error .invalidLength rest
  | .tooLong => .error .malformedPacket rest

/-- Reads `len` bytes, when there are as many left. -/
def readBytes (len : ℕ) : PropertiesIter (List UInt8) := fun rest =>
  if rest.length < len then .error .invalidLength rest else .ok (rest.take len) (rest.drop len)

/-- `PropertiesIter::read_slice`. -/
def readSlice : PropertiesIter (List UInt8) := do
  let len ← readU16
  readBytes len.toNat

/-- The conversion of some bytes to a string. -/
def fromUtf8 (bytes : List UInt8) : PropertiesIter Utf8 := fun rest =>
  match Utf8.ofBytes? bytes with
  | some text => .ok text rest
  | none => .error .invalidString rest

/-- `PropertiesIter::read_str`. -/
def readStr : PropertiesIter Utf8 := do
  let bytes ← readSlice
  fromUtf8 bytes

/-- The part of `PropertiesIter::read_property` behind the identifier. -/
def readValue (identifier : UInt8) : PropertiesIter Property :=
  match identifier with
  | 0x01 => .payloadFormatIndicator <$> readU8
  | 0x02 => .messageExpiryInterval <$> readU32
  | 0x03 => .contentType <$> readStr
  | 0x08 => .responseTopic <$> readStr
  | 0x09 => .correlationData <$> readSlice
  | 0x0B => .subscriptionIdentifier <$> readVarint
  | 0x11 => .sessionExpiryInterval <$> readU32
  | 0x12 => .assignedClientIdentifier <$> readStr
  | 0x13 => .serverKeepAlive <$> readU16
  | 0x15 => .authenticationMethod <$> readStr
  | 0x16 => .authenticationData <$> readSlice
  | 0x17 => .requestProblemInformation <$> readU8
  | 0x18 => .willDelayInterval <$> readU32
  | 0x19 => .requestResponseInformation <$> readU8
  | 0x1A => .responseInformation <$> readStr
  | 0x1C => .serverReference <$> readStr
  | 0x1F => .reasonString <$> readStr
  | 0x21 => .receiveMaximum <$> readU16
  | 0x22 => .topicAliasMaximum <$> readU16
  | 0x23 => .topicAlias <$> readU16
  | 0x24 => .maximumQoS <$> readU8
  | 0x25 => .retainAvailable <$> readU8
  | 0x26 => do
      let key ← readStr
      let value ← readStr
      pure (.userProperty key value)
  | 0x27 => .maximumPacketSize <$> readU32
  | 0x28 => .wildcardSubscriptionAvailable <$> readU8
  | 0x29 => .subscriptionIdentifierAvailable <$> readU8
  | 0x2A => .sharedSubscriptionAvailable <$> readU8
  | _ => throw (.invalidProperty identifier)

/-- `PropertiesIter::read_property`. -/
def readProperty : PropertiesIter Property := do
  let identifier ← readU8
  readValue identifier

/-- The result of an operation, and the rest of the block. -/
def step {Value : Type} (operation : PropertiesIter Value) (rest : List UInt8) :
    Except PropertyError Value × List UInt8 :=
  match operation rest with
  | .ok value rest => (.ok value, rest)
  | .error error rest => (.error error, rest)

/-- The items that `PropertiesIter::next` gives until the block is used up; each of them takes at
least one byte. -/
def collectFuel : ℕ → List UInt8 → List (Except PropertyError Property)
  | 0, _ => []
  | _ + 1, [] => []
  | fuel + 1, byte :: rest =>
      (step readProperty (byte :: rest)).1 ::
        collectFuel fuel (step readProperty (byte :: rest)).2

/-- The items of a whole block. -/
def collect (block : List UInt8) : List (Except PropertyError Property) :=
  collectFuel block.length block

end PropertiesIter

/-- `Properties::iter`, run to its end: iterating over a correlated slice is not implemented. -/
def Properties.iter : Properties → Option (List (Except PropertyError Property))
  | slice properties => some (properties.map .ok)
  | dataBlock block => some (PropertiesIter.collect block)
  | correlatedSlice _ _ => none

/-- A `u32` as four bytes. -/
def u32Bytes (value : ℕ) : List UInt8 := u16Bytes (value / 65536) ++ u16Bytes (value % 65536)

/-- A string or binary data on the wire. -/
def sliceBytes (bytes : List UInt8) : List UInt8 := u16Bytes bytes.length ++ bytes

namespace Property

/-- The value of a property on the wire. -/
def content : Property → List UInt8
  | payloadFormatIndicator value | requestProblemInformation value
  | requestResponseInformation value | maximumQoS value | retainAvailable value
  | wildcardSubscriptionAvailable value | subscriptionIdentifierAvailable value
  | sharedSubscriptionAvailable value => [value]
  | messageExpiryInterval value | sessionExpiryInterval value | willDelayInterval value
  | maximumPacketSize value => u32Bytes value.toNat
  | contentType value | responseTopic value | assignedClientIdentifier value
  | authenticationMethod value | responseInformation value | serverReference value
  | reasonString value => sliceBytes value.bytes
  | correlationData value | authenticationData value => sliceBytes value
  | subscriptionIdentifier value => Varint.encode value.toNat
  | serverKeepAlive value | receiveMaximum value | topicAliasMaximum value
  | topicAlias value => u16Bytes value.toNat
  | userProperty key value => sliceBytes key.bytes ++ sliceBytes value.bytes

/-- A property on the wire. -/
def bytes (property : Property) : List UInt8 := property.identifier :: property.content

/-- The properties that can be represented on the wire. -/
def Representable : Property → Prop
  | contentType value | responseTopic value | assignedClientIdentifier value
  | authenticationMethod value | responseInformation value | serverReference value
  | reasonString value => value.bytes.length < 65536
  | correlationData value | authenticationData value => value.length < 65536
  | subscriptionIdentifier value => value.toNat < 2 ^ 28
  | userProperty key value => key.bytes.length < 65536 ∧ value.bytes.length < 65536
  | _ => True

end Property

namespace PropertiesIter

open Property

variable {Value Value' : Type} {data rest : List UInt8}

theorem bind_eq_ok {first : PropertiesIter Value} {second : Value → PropertiesIter Value'}
    {value' : Value'} :
    (first >>= second) data = .ok value' rest ↔
      ∃ value middle, first data = .ok value middle ∧ second value middle = .ok value' rest := by
  simp only [bind, EStateM.bind]
  rcases first data with ⟨value, middle⟩ | ⟨error, middle⟩
  · simp
  · simp

theorem map_eq_ok {operation : PropertiesIter Value} {function : Value → Value'} {value' : Value'} :
    (function <$> operation) data = .ok value' rest ↔
      ∃ value, operation data = .ok value rest ∧ function value = value' := by
  simp only [Functor.map, EStateM.map]
  rcases operation data with ⟨value, middle⟩ | ⟨error, middle⟩
  · simp [and_comm]
  · simp

/-- An operation that reads exactly the encodings of the valid values. -/
def Decodes (operation : PropertiesIter Value) (valid : Value → Prop)
    (encode : Value → List UInt8) : Prop :=
  ∀ data value rest, operation data = .ok value rest ↔ valid value ∧ data = encode value ++ rest

theorem u16Bytes_add (high low : UInt8) :
    u16Bytes (high.toNat * 256 + low.toNat) = [high, low] := by
  have bound := low.toNat_lt
  have upper : (high.toNat * 256 + low.toNat) / 256 = high.toNat := by omega
  have lower : (high.toNat * 256 + low.toNat) % 256 = low.toNat := by omega
  rw [u16Bytes, upper, lower]
  simp [Nat.toUInt8]

theorem decodes_readU8 : Decodes readU8 (fun _ => True) fun value => [value] := by
  intro data value rest
  cases data with
  | nil => simp [readU8]
  | cons byte tail => simp [readU8]

theorem decodes_readU16 : Decodes readU16 (fun _ => True) fun value => u16Bytes value.toNat := by
  intro data value rest
  constructor
  · intro read
    unfold readU16 at read
    split at read
    · rename_i high low tail
      have highBound := high.toNat_lt
      have lowBound := low.toNat_lt
      simp only [EStateM.Result.ok.injEq] at read
      rcases read with ⟨rfl, rfl⟩
      have kept : (UInt16.ofNat (high.toNat * 256 + low.toNat)).toNat =
          high.toNat * 256 + low.toNat := by
        rw [UInt16.toNat_ofNat', Nat.mod_eq_of_lt (by omega)]
      refine ⟨trivial, ?_⟩
      dsimp only
      rw [kept, u16Bytes_add]
      rfl
    · simp at read
  · rintro ⟨_, rfl⟩
    rcases ServerPacket.u16Bytes_eq value.toNat_lt with ⟨high, low, split, value_eq⟩
    simp [split, readU16, value_eq]

theorem decodes_readU32 : Decodes readU32 (fun _ => True) fun value => u32Bytes value.toNat := by
  intro data value rest
  constructor
  · intro read
    unfold readU32 at read
    split at read
    · rename_i first second third fourth tail
      have firstBound := first.toNat_lt
      have secondBound := second.toNat_lt
      have thirdBound := third.toNat_lt
      have fourthBound := fourth.toNat_lt
      simp only [EStateM.Result.ok.injEq] at read
      rcases read with ⟨rfl, rfl⟩
      have kept : (UInt32.ofNat (((first.toNat * 256 + second.toNat) * 256 + third.toNat) * 256 +
          fourth.toNat)).toNat =
          ((first.toNat * 256 + second.toNat) * 256 + third.toNat) * 256 + fourth.toNat := by
        rw [UInt32.toNat_ofNat', Nat.mod_eq_of_lt (by omega)]
      have upper : (((first.toNat * 256 + second.toNat) * 256 + third.toNat) * 256 +
          fourth.toNat) / 65536 = first.toNat * 256 + second.toNat := by omega
      have lower : (((first.toNat * 256 + second.toNat) * 256 + third.toNat) * 256 +
          fourth.toNat) % 65536 = third.toNat * 256 + fourth.toNat := by omega
      refine ⟨trivial, ?_⟩
      dsimp only
      rw [kept, u32Bytes, upper, lower, u16Bytes_add, u16Bytes_add]
      rfl
    · simp at read
  · rintro ⟨_, rfl⟩
    have bound := value.toNat_lt
    have upperBound : value.toNat / 65536 < 65536 := by omega
    have lowerBound : value.toNat % 65536 < 65536 := by omega
    rcases ServerPacket.u16Bytes_eq upperBound with ⟨first, second, upper, upper_eq⟩
    rcases ServerPacket.u16Bytes_eq lowerBound with ⟨third, fourth, lower, lower_eq⟩
    have whole : ((first.toNat * 256 + second.toNat) * 256 + third.toNat) * 256 + fourth.toNat =
        value.toNat := by
      have parts := Nat.div_add_mod value.toNat 65536
      rw [← upper_eq, ← lower_eq] at parts
      rw [← parts]
      ring
    simp [u32Bytes, upper, lower, readU32, whole]

theorem decodes_readSlice : Decodes readSlice (fun bytes => bytes.length < 65536) sliceBytes := by
  intro data bytes rest
  simp only [readSlice, bind_eq_ok, decodes_readU16 _ _ _, true_and, readBytes]
  constructor
  · rintro ⟨len, middle, rfl, read⟩
    split at read
    · simp at read
    · rename_i enough
      simp only [EStateM.Result.ok.injEq] at read
      rcases read with ⟨rfl, rfl⟩
      have length : (middle.take len.toNat).length = len.toNat := by
        rw [List.length_take]
        omega
      have bound := len.toNat_lt
      refine ⟨by omega, ?_⟩
      rw [sliceBytes, length, List.append_assoc, List.take_append_drop]
  · rintro ⟨short, rfl⟩
    have kept : (UInt16.ofNat bytes.length).toNat = bytes.length := by
      have bound : bytes.length < 2 ^ 16 := short
      rw [UInt16.toNat_ofNat', Nat.mod_eq_of_lt bound]
    refine ⟨UInt16.ofNat bytes.length, bytes ++ rest, ?_, ?_⟩
    · rw [kept, sliceBytes, List.append_assoc]
    · simp [kept]

theorem decodes_readStr :
    Decodes readStr (fun text => text.bytes.length < 65536) fun text => sliceBytes text.bytes := by
  intro data text rest
  simp only [readStr, bind_eq_ok, decodes_readSlice _ _ _, fromUtf8]
  constructor
  · rintro ⟨bytes, middle, ⟨short, rfl⟩, read⟩
    split at read
    · rename_i text' found
      simp only [EStateM.Result.ok.injEq] at read
      rcases read with ⟨rfl, rfl⟩
      rw [Utf8.bytes_of_ofBytes? found]
      exact ⟨short, rfl⟩
    · simp at read
  · rintro ⟨short, rfl⟩
    exact ⟨text.bytes, rest, ⟨short, rfl⟩, by rw [Utf8.ofBytes?_bytes]⟩

theorem readVarint_encode {value : UInt32} (fits : value.toNat < 2 ^ 28) (rest : List UInt8) :
    readVarint (Varint.encode value.toNat ++ rest) = .ok value rest := by
  simp [readVarint, Varint.decode_encode fits]

theorem done_of_readVarint {value : UInt32} (read : readVarint data = .ok value rest) :
    ∃ integer count, Varint.decode data = .done integer count ∧ value = UInt32.ofNat integer ∧
      rest = data.drop count := by
  unfold readVarint at read
  split at read
  · rename_i integer count decoded
    simp only [EStateM.Result.ok.injEq] at read
    exact ⟨integer, count, decoded, read.1.symm, read.2.symm⟩
  · simp at read
  · simp at read

theorem eq_ok_of_decodes {operation : PropertiesIter Value} {valid : Value → Prop}
    {encode : Value → List UInt8} (decodes : Decodes operation valid encode)
    (function : Value → Property) {value : Value} (fits : valid value) (rest : List UInt8) :
    (function <$> operation) (encode value ++ rest) = .ok (function value) rest :=
  map_eq_ok.mpr ⟨value, (decodes _ _ _).mpr ⟨fits, rfl⟩, rfl⟩

theorem readValue_content {property : Property} (representable : property.Representable)
    (rest : List UInt8) :
    readValue property.identifier (property.content ++ rest) = .ok property rest := by
  cases property with
  | payloadFormatIndicator | requestProblemInformation | requestResponseInformation | maximumQoS
  | retainAvailable | wildcardSubscriptionAvailable | subscriptionIdentifierAvailable
  | sharedSubscriptionAvailable => exact eq_ok_of_decodes decodes_readU8 _ trivial rest
  | messageExpiryInterval | sessionExpiryInterval | willDelayInterval | maximumPacketSize =>
      exact eq_ok_of_decodes decodes_readU32 _ trivial rest
  | contentType | responseTopic | assignedClientIdentifier | authenticationMethod
  | responseInformation | serverReference | reasonString =>
      exact eq_ok_of_decodes decodes_readStr _ representable rest
  | correlationData | authenticationData =>
      exact eq_ok_of_decodes decodes_readSlice _ representable rest
  | serverKeepAlive | receiveMaximum | topicAliasMaximum | topicAlias =>
      exact eq_ok_of_decodes decodes_readU16 _ trivial rest
  | subscriptionIdentifier value =>
      exact map_eq_ok.mpr ⟨value, readVarint_encode representable rest, rfl⟩
  | userProperty key value =>
      apply bind_eq_ok.mpr
      refine ⟨key, sliceBytes value.bytes ++ rest, ?_, ?_⟩
      · rw [decodes_readStr, content, List.append_assoc]
        exact ⟨representable.1, rfl⟩
      · apply bind_eq_ok.mpr
        exact ⟨value, rest, (decodes_readStr _ _ _).mpr ⟨representable.2, rfl⟩, rfl⟩

theorem readProperty_bytes {property : Property} (representable : property.Representable)
    (rest : List UInt8) : readProperty (property.bytes ++ rest) = .ok property rest := by
  apply bind_eq_ok.mpr
  exact ⟨property.identifier, property.content ++ rest, rfl, readValue_content representable rest⟩

/-- An operation that never moves the index backwards. -/
def Shrinks (operation : PropertiesIter Value) : Prop :=
  ∀ data, (step operation data).2.length ≤ data.length

namespace Shrinks

theorem bind {first : PropertiesIter Value} {second : Value → PropertiesIter Value'}
    (left : Shrinks first) (right : ∀ value, Shrinks (second value)) :
    Shrinks (first >>= second) := by
  intro data
  have shorter := left data
  simp only [step, Bind.bind, EStateM.bind] at shorter ⊢
  rcases read : first data with ⟨value, middle⟩ | ⟨error, middle⟩
  · rw [read] at shorter
    exact (right value middle).trans shorter
  · rw [read] at shorter
    exact shorter

theorem map {operation : PropertiesIter Value} (shrinks : Shrinks operation)
    (function : Value → Value') : Shrinks (function <$> operation) := by
  intro data
  have shorter := shrinks data
  simp only [step, Functor.map, EStateM.map] at shorter ⊢
  rcases read : operation data with ⟨value, middle⟩ | ⟨error, middle⟩
  · rw [read] at shorter
    exact shorter
  · rw [read] at shorter
    exact shorter

theorem readU8 : Shrinks PropertiesIter.readU8 := by
  intro data
  cases data with
  | nil => exact Nat.le_refl _
  | cons byte rest => exact Nat.le_succ _

theorem readU16 : Shrinks PropertiesIter.readU16
  | [] | [_] => Nat.le_refl _
  | _ :: _ :: rest => Nat.le_add_right rest.length 2

theorem readU32 : Shrinks PropertiesIter.readU32
  | [] | [_] | [_, _] | [_, _, _] => Nat.le_refl _
  | _ :: _ :: _ :: _ :: rest => Nat.le_add_right rest.length 4

theorem readVarint : Shrinks PropertiesIter.readVarint := by
  intro data
  unfold step PropertiesIter.readVarint
  cases Varint.decode data with
  | done value count =>
      rw [List.length_drop]
      exact Nat.sub_le _ _
  | incomplete => exact Nat.le_refl _
  | tooLong => exact Nat.le_refl _

theorem readBytes (len : ℕ) : Shrinks (PropertiesIter.readBytes len) := by
  intro data
  unfold step PropertiesIter.readBytes
  by_cases short : data.length < len
  · simp [short]
  · simp [short]

theorem readSlice : Shrinks PropertiesIter.readSlice := readU16.bind fun _ => readBytes _

theorem fromUtf8 (bytes : List UInt8) : Shrinks (PropertiesIter.fromUtf8 bytes) := by
  intro data
  unfold step PropertiesIter.fromUtf8
  cases Utf8.ofBytes? bytes with
  | none => exact Nat.le_refl _
  | some text => exact Nat.le_refl _

theorem readStr : Shrinks PropertiesIter.readStr := readSlice.bind fun _ => fromUtf8 _

theorem readValue (identifier : UInt8) : Shrinks (PropertiesIter.readValue identifier) := by
  unfold PropertiesIter.readValue
  split
  case h_23 => exact readStr.bind fun _ => readStr.bind fun _ _ => Nat.le_refl _
  case h_28 => exact fun _ => Nat.le_refl _
  all_goals
    first
    | exact readU8.map _
    | exact readU16.map _
    | exact readU32.map _
    | exact readStr.map _
    | exact readSlice.map _
    | exact readVarint.map _

end Shrinks

theorem length_step_readProperty (byte : UInt8) (rest : List UInt8) :
    (step readProperty (byte :: rest)).2.length ≤ rest.length :=
  Shrinks.readValue byte rest

theorem collectFuel_eq {fuel : ℕ} {data : List UInt8} (enough : data.length ≤ fuel) :
    collectFuel fuel data = collect data := by
  have same : ∀ fuel fuel' data, data.length ≤ fuel → data.length ≤ fuel' →
      collectFuel fuel data = collectFuel fuel' data := by
    intro fuel
    induction fuel with
    | zero =>
        intro fuel' data inside _
        rw [List.length_eq_zero_iff.mp (Nat.le_zero.mp inside)]
        cases fuel' <;> rfl
    | succ fuel ih =>
        intro fuel' data inside inside'
        cases data with
        | nil => cases fuel' <;> rfl
        | cons byte rest =>
            have shorter := length_step_readProperty byte rest
            rw [List.length_cons] at inside inside'
            obtain ⟨fuel', rfl⟩ := Nat.exists_eq_succ_of_ne_zero (Nat.ne_of_gt (by omega : 0 < fuel'))
            rw [collectFuel, collectFuel, ih fuel' _ (by omega) (by omega)]
  exact same fuel data.length data enough (Nat.le_refl _)

@[simp]
theorem collect_nil : collect [] = [] := rfl

theorem collect_cons (byte : UInt8) (rest : List UInt8) :
    collect (byte :: rest) =
      (step readProperty (byte :: rest)).1 :: collect (step readProperty (byte :: rest)).2 := by
  rw [collect, List.length_cons, collectFuel,
    collectFuel_eq (length_step_readProperty byte rest)]

theorem collect_of_readProperty {property : Property}
    (read : readProperty data = .ok property rest) :
    collect data = .ok property :: collect rest := by
  cases data with
  | nil => simp [readProperty, readU8, bind, EStateM.bind] at read
  | cons byte tail => rw [collect_cons, step, read]

/-- Properties that can be represented are read back in their order. -/
theorem collect_flatMap_bytes {properties : List Property}
    (representable : ∀ property ∈ properties, property.Representable) :
    collect (properties.flatMap bytes) = properties.map .ok := by
  induction properties with
  | nil => rfl
  | cons property properties ih =>
      rw [List.flatMap_cons, List.map_cons, ← ih fun other mem =>
        representable other (List.mem_cons_of_mem _ mem)]
      exact collect_of_readProperty (readProperty_bytes (representable _ List.mem_cons_self) _)

/-! ### A block behind one more byte -/

theorem eq_content_of_decodes {operation : PropertiesIter Value} {valid : Value → Prop}
    {encode : Value → List UInt8} (decodes : Decodes operation valid encode)
    {function : Value → Property} {property : Property}
    (read : (function <$> operation) data = .ok property rest)
    (content : ∀ value, (function value).content = encode value) :
    data = property.content ++ rest := by
  rcases map_eq_ok.mp read with ⟨value, decoded, rfl⟩
  rw [content value]
  exact ((decodes _ _ _).mp decoded).2

/-- All but the encoding of a subscription identifier is determined by the property. -/
theorem content_of_readValue {identifier : UInt8} {property : Property}
    (read : readValue identifier data = .ok property rest) :
    (∃ id, property = .subscriptionIdentifier id ∧ readVarint data = .ok id rest) ∨
      (∀ id, property ≠ .subscriptionIdentifier id) ∧ data = property.content ++ rest := by
  unfold readValue at read
  split at read
  case h_6 =>
    rcases map_eq_ok.mp read with ⟨id, decoded, rfl⟩
    exact Or.inl ⟨id, rfl, decoded⟩
  case h_23 =>
    rcases bind_eq_ok.mp read with ⟨key, middle, keyRead, read⟩
    rcases bind_eq_ok.mp read with ⟨value, rest', valueRead, read⟩
    cases read
    rcases (decodes_readStr _ _ _).mp keyRead with ⟨_, rfl⟩
    rcases (decodes_readStr _ _ _).mp valueRead with ⟨_, rfl⟩
    exact Or.inr ⟨fun id => Property.noConfusion, (List.append_assoc _ _ _).symm⟩
  case h_28 => cases read
  all_goals
    right
    refine ⟨?_, ?_⟩
    · rcases map_eq_ok.mp read with ⟨value, _, rfl⟩
      exact fun id => Property.noConfusion
    · first
      | exact eq_content_of_decodes decodes_readU8 read fun _ => rfl
      | exact eq_content_of_decodes decodes_readU16 read fun _ => rfl
      | exact eq_content_of_decodes decodes_readU32 read fun _ => rfl
      | exact eq_content_of_decodes decodes_readStr read fun _ => rfl
      | exact eq_content_of_decodes decodes_readSlice read fun _ => rfl

theorem identifier_of_readValue {identifier : UInt8} {property : Property}
    (read : readValue identifier data = .ok property rest) : property.identifier = identifier := by
  unfold readValue at read
  split at read
  case h_23 =>
    rcases bind_eq_ok.mp read with ⟨key, middle, _, read⟩
    rcases bind_eq_ok.mp read with ⟨value, rest', _, read⟩
    cases read
    rfl
  case h_28 => cases read
  all_goals
    rcases map_eq_ok.mp read with ⟨value, _, rfl⟩
    rfl

theorem collect_cons_of_high {byte : UInt8} (high : 128 ≤ byte.toNat) (rest : List UInt8) :
    collect (byte :: rest) = .error (.invalidProperty byte) :: collect rest := by
  have invalid : readValue byte rest = .error (.invalidProperty byte) rest := by
    unfold readValue
    split
    case h_28 => rfl
    all_goals exact absurd high (by decide)
  have failed : readProperty (byte :: rest) = .error (.invalidProperty byte) rest := invalid
  rw [collect_cons, step, failed]

/-- The first item of a block that gives properties only. -/
theorem exists_of_collect_eq_cons {property : Property} {properties : List Property}
    (items : collect data = (property :: properties).map .ok) :
    ∃ rest, readProperty data = .ok property rest ∧ collect rest = properties.map .ok := by
  cases data with
  | nil => simp at items
  | cons byte tail =>
      rw [collect_cons, List.map_cons, List.cons.injEq] at items
      rcases items with ⟨first, others⟩
      unfold step at first others
      rcases read : readProperty (byte :: tail) with ⟨property', rest⟩ | ⟨error, rest⟩
      · rw [read] at first others
        rw [Except.ok.inj first]
        exact ⟨rest, rfl, others⟩
      · rw [read] at first
        simp at first

theorem exists_cons_of_append_eq {Item : Type} {item : Item} {first rest rest' : List Item}
    (same : item :: (first ++ rest) = first ++ rest') : ∃ last, rest' = last :: rest := by
  induction first generalizing item with
  | nil => exact ⟨item, same.symm⟩
  | cons head first ih =>
      rw [List.cons_append, List.cons_append, List.cons.injEq] at same
      exact ih same.2

theorem rest_of_readVarint_cons {value : UInt32} {byte : UInt8} (low : byte.toNat < 128)
    (read : readVarint (byte :: data) = .ok value rest) : rest = data := by
  rcases done_of_readVarint read with ⟨integer, count, decoded, _, rfl⟩
  rw [Varint.decode, Varint.decodeFrom_last low] at decoded
  cases decoded
  rfl

/-- What is left when one property is read from a block and from the same block behind one more
byte. -/
theorem exists_cons_of_readProperty {property : Property} {properties : List Property}
    {byte : UInt8} {rest' : List UInt8} (read : readProperty data = .ok property rest)
    (read' : readProperty (byte :: data) = .ok property rest')
    (items : collect rest' = properties.map .ok) : ∃ last, rest' = last :: rest := by
  rcases data with _ | ⟨head, tail⟩
  · simp [readProperty, readU8, bind, EStateM.bind] at read
  · have value : readValue head tail = .ok property rest := read
    have value' : readValue byte (head :: tail) = .ok property rest' := read'
    have isHead := identifier_of_readValue value
    have isByte := identifier_of_readValue value'
    rcases content_of_readValue value' with ⟨id, rfl, varint'⟩ | ⟨notId, content'⟩
    · rcases content_of_readValue value with ⟨_, same, varint⟩ | ⟨notId, _⟩
      · -- The identifier is taken for the value, so what is left is the value of the block.
        have small : head.toNat < 128 := by
          rw [← isHead]
          exact (by decide : (0x0B : UInt8).toNat < 128)
        have left := rest_of_readVarint_cons small varint'
        subst left
        rcases rest' with _ | ⟨last, more⟩
        · simp [readVarint, Varint.decode, Varint.decodeFrom] at varint
        · by_cases low : last.toNat < 128
          · exact ⟨last, by rw [rest_of_readVarint_cons low varint]⟩
          · rw [collect_cons_of_high (Nat.not_lt.mp low)] at items
            cases properties <;> simp at items
      · exact absurd rfl (notId id)
    · rcases content_of_readValue value with ⟨id, isId, _⟩ | ⟨_, content⟩
      · exact absurd isId (notId id)
      · rw [content, ← isHead, isByte] at content'
        exact exists_cons_of_append_eq content'

/-- One more byte in front of a block that gives properties only changes what it gives. -/
theorem collect_cons_ne {properties : List Property} {block : List UInt8}
    (items : collect block = properties.map .ok) (byte : UInt8) :
    collect (byte :: block) ≠ collect block := by
  induction properties generalizing block byte with
  | nil =>
      rw [items, collect_cons]
      exact List.cons_ne_nil _ _
  | cons property properties ih =>
      intro same
      rcases exists_of_collect_eq_cons items with ⟨rest, read, others⟩
      rcases exists_of_collect_eq_cons (same.trans items) with ⟨rest', read', others'⟩
      rcases exists_cons_of_readProperty read read' others' with ⟨last, rfl⟩
      exact ih others last (others'.trans others.symm)

/-- The length in front of a block is not read as no property at all. -/
theorem collect_encode_append_ne {properties : List Property} {block : List UInt8}
    (items : collect block = properties.map .ok) (len : ℕ) :
    collect (Varint.encode len ++ block) ≠ collect block := by
  rw [Varint.encode, Varint.encodeDigits]
  split
  · exact collect_cons_ne items _
  · rename_i large
    have high : 128 ≤ (UInt8.ofNat (len % 128 + 128)).toNat := by
      rw [UInt8.toNat_ofNat', Nat.mod_eq_of_lt (by omega)]
      omega
    rw [List.cons_append, collect_cons_of_high high, items]
    cases properties <;> simp

end PropertiesIter

end Mqttrust
