import Mqttrust.Encoding.IndexedProperties
import Mqttrust.Encoding.ReceivedPacket

/-!
# The decoder on its whole buffer

`MqttDecoder` keeps the whole buffer and an offset, and slices the buffer at the
offset; `read_properties` goes over the properties that it has read. Here every
index, slice and subtraction that panics out of range is one. Each operation follows
the one on the bytes behind the offset, and so does decoding a packet: the only
panics are those that a decoder of the rest of its buffer has as well.
-/

namespace Mqttrust

/-- `MqttDecoder` with its buffer. -/
structure IndexedDecoder where
  cursor : Cursor UInt8
  headerLen : ℕ
  fixedHeader : FixedHeader

/-- An operation of the decoder. -/
abbrev Decode := StateT IndexedDecoder (Except Fault)

namespace IndexedDecoder

/-- The decoder of the bytes behind the offset. -/
def view (decoder : IndexedDecoder) : MqttDecoder :=
  ⟨decoder.cursor.rest, decoder.cursor.index, decoder.headerLen, decoder.fixedHeader⟩

variable {Value Value' : Type}

/-- Fails with an error of the encoding layer. -/
def failWith (error : EncodingError) : Decode Value := fun _ => fail error

def panics : Decode Value := fun _ => .error .panic

/-- An operation at the offset. -/
def atOffset (read : Cursor.Read UInt8 EncodingError Value) : Decode Value := fun decoder =>
  match read decoder.cursor with
  | .ok value cursor => .ok (value, { decoder with cursor := cursor })
  | .error (.error error) _ => fail error
  | .error .panic _ => .error .panic

/-- `MqttDecoder::packet_len`. -/
def packetLen : Decode ℕ := fun decoder =>
  .ok (decoder.headerLen + decoder.fixedHeader.remainingLen, decoder)

/-- `MqttDecoder::offset`. -/
def offset : Decode ℕ := fun decoder => .ok (decoder.cursor.index, decoder)

/-- `MqttDecoder::fixed_header`. -/
def readHeader : Decode FixedHeader := fun decoder => .ok (decoder.fixedHeader, decoder)

def readBytes (len : ℕ) : Decode (List UInt8) := atOffset (Cursor.take .insufficientBytes len)

/-- `MqttDecoder::read_u8`. -/
def readU8 : Decode UInt8 := atOffset (Cursor.first .insufficientBytes)

/-- `MqttDecoder::read_u16`. -/
def readU16 : Decode ℕ := do
  let bytes ← readBytes 2
  pure (fromBeBytes bytes)

/-- `MqttDecoder::read_varint`. -/
def readVarint : Decode ℕ := atOffset do
  let bytes ← Cursor.remaining
  match Varint.decode bytes with
  | .done value count => do
      Cursor.advance count
      pure value
  | .incomplete => Cursor.stop .insufficientBytes
  | .tooLong => Cursor.stop .malformedPacket

/-- `MqttDecoder::read_slice`. -/
def readSlice : Decode (List UInt8) := do
  let len ← readU16
  readBytes len

/-- `MqttDecoder::read_str`. -/
def readStr : Decode Utf8 := do
  let bytes ← readSlice
  match Utf8.ofBytes? bytes with
  | some text => pure text
  | none => failWith .invalidString

/-- `MqttDecoder::read_payload`. -/
def readPayload : Decode (List UInt8) := do
  let packetEnd ← packetLen
  let start ← offset
  if packetEnd < start then panics else readBytes (packetEnd - start)

/-- `MqttDecoder::read_properties`: the properties are gone over for the log. -/
def readProperties : Decode (List UInt8) := do
  let len ← readVarint
  let block ← readBytes len
  match IndexedIter.items block.length ⟨block, 0⟩ with
  | some _ => pure block
  | none => panics

/-- Reads a `u16` and converts it to a `Pid`. -/
def readPid : Decode Pid := do
  let raw ← readU16
  match Pid.tryFrom raw with
  | .ok pid => pure pid
  | .error error => failWith error

/-- Reads the properties, which exist with feature `mqttv5` only. -/
def readProperties? : Protocol → Decode (Option (List UInt8))
  | .mqttv3 => pure none
  | .mqttv5 => do
      let properties ← readProperties
      pure (some properties)

variable (config : CrateConfig)

/-- `ConnAck::from_decoder`. -/
def connAck : Decode ConnAck := do
  let connAckFlags ← readU8
  if connAckFlags &&& 0xFE ≠ 0 then failWith .malformedPacket
  else do
    let code ← readU8
    let properties ← readProperties? config.protocol
    pure
      { sessionPresent := connAckFlags &&& 0x01 == 1
        reasonCode := ConnAckReasonCode.fromPrimitive config.protocol code
        properties := properties }

/-- `PubAck`, `PubRec`, `PubRel` and `PubComp::from_decoder`. -/
def ack (reasonCode : UInt8 → ReasonCode) : Decode Ack := do
  let header ← readHeader
  if header.remainingLen = 2 ∨ header.remainingLen = 3 then do
    let pid ← readPid
    match config.protocol with
    | .mqttv3 => pure ⟨pid, none⟩
    | .mqttv5 => pure ⟨pid, some (0x00, [])⟩
  else do
    let pid ← readPid
    match config.protocol with
    | .mqttv3 => pure ⟨pid, none⟩
    | .mqttv5 => do
        let code ← readU8
        let properties ← readProperties
        pure ⟨pid, some (reasonCode code, properties)⟩

/-- Collects reason codes into a vector of capacity `MAX_SUB_TOPICS_PER_MSG`. -/
def collect (codes : List ReasonCode) : Decode (List ReasonCode) :=
  if config.maxSubTopicsPerMsg < codes.length then panics else pure codes

/-- `SubAck::from_decoder`. -/
def subAck : Decode CodesAck := do
  let pid ← readPid
  let properties ← readProperties? config.protocol
  let payload ← readPayload
  let codes ← collect config (payload.map (SubAckReasonCode.fromPrimitive config.protocol))
  pure ⟨pid, properties, codes⟩

/-- `UnsubAck::from_decoder`. -/
def unsubAck : Decode CodesAck := do
  let pid ← readPid
  let properties ← readProperties? config.protocol
  let payload ← readPayload
  match config.protocol with
  | .mqttv3 => pure ⟨pid, properties, []⟩
  | .mqttv5 => do
      let codes ← collect config (payload.map UnsubAckReasonCode.fromPrimitive)
      pure ⟨pid, properties, codes⟩

/-- `Disconnect::from_decoder`. -/
def disconnect : Decode Disconnect := do
  let header ← readHeader
  if header.remainingLen < 2 then
    match config.protocol with
    | .mqttv3 => pure ⟨DisconnectReasonCode.normal, none⟩
    | .mqttv5 => pure ⟨DisconnectReasonCode.normal, some []⟩
  else do
    let code ← readU8
    let properties ← readProperties? config.protocol
    pure ⟨DisconnectReasonCode.fromPrimitive config.protocol code, properties⟩

/-- The quality of service and the packet identifier of a PUBLISH, behind its topic. -/
def qosPid : Decode QosPid := do
  let header ← readHeader
  match header.qos with
  | .atMostOnce => pure .atMostOnce
  | .atLeastOnce => do
      let pid ← readPid
      pure (.atLeastOnce pid)
  | .exactlyOnce => do
      let pid ← readPid
      pure (.exactlyOnce pid)

/-- `MqttDecoder::try_new`: the buffer is indexed behind a test of its length. -/
def tryNew (buf : List UInt8) : Except Fault IndexedDecoder :=
  (fun decoder => ⟨⟨buf, decoder.offset⟩, decoder.headerLen, decoder.fixedHeader⟩) <$>
    MqttDecoder.tryNew config buf

/-- What has been received of a PUBLISH: the buffer up to the length of the packet. -/
def partialPublish (buf : List UInt8) (topicName : Utf8) (qosPid : QosPid) :
    Decode ReceivedPacket := do
  let len ← packetLen
  if buf.length < min len buf.length then panics
  else pure (.partialPublish qosPid topicName ⟨buf.take (min len buf.length), len⟩)

/-- The part of `ReceivedPacket::from_buffer` behind `try_new`. -/
def receive (buf : List UInt8) : Decode ReceivedPacket := do
  let header ← readHeader
  match header.typ with
  | .disconnect => .disconnect <$> disconnect config
  | .pingResp => pure .pingResp
  | .connAck => .connAck <$> connAck config
  | .publish => do
      let topicName ← readStr
      let qosPid ← qosPid
      partialPublish buf topicName qosPid
  | .pubAck => .pubAck <$> ack config PubAckReasonCode.fromPrimitive
  | .pubRec => .pubRec <$> ack config PubRecReasonCode.fromPrimitive
  | .pubRel => .pubRel <$> ack config PubRelReasonCode.fromPrimitive
  | .pubComp => .pubComp <$> ack config PubCompReasonCode.fromPrimitive
  | .subAck => .subAck <$> subAck config
  | .unsubAck => .unsubAck <$> unsubAck config
  | _ => failWith .invalidHeader

/-- `ReceivedPacket::from_buffer`. -/
def fromBuffer (buf : List UInt8) : Except Fault ReceivedPacket := do
  let decoder ← tryNew config buf
  let (packet, _) ← receive config buf decoder
  .ok packet

/-- An operation in range does what the decoder of the bytes behind the offset does, and stays in
range. -/
def Follows (operation : Decode Value) (spec : MqttDecoder → Except Fault (Value × MqttDecoder)) :
    Prop :=
  ∀ decoder : IndexedDecoder, decoder.cursor.InRange →
    match operation decoder with
    | .ok (value, after) => after.cursor.InRange ∧ spec decoder.view = .ok (value, after.view)
    | .error fault => spec decoder.view = .error fault

/-- The same for an operation of which only the value matters. -/
def Yields (operation : Decode Value) (spec : MqttDecoder → Except Fault Value) : Prop :=
  ∀ decoder : IndexedDecoder, decoder.cursor.InRange →
    Prod.fst <$> operation decoder = spec decoder.view

section Follows

variable {operation : Decode Value} {next : Value → Decode Value'}
  {spec other : MqttDecoder → Except Fault (Value × MqttDecoder)}

theorem bind_of_ok {decoder after : IndexedDecoder} {value : Value}
    (done : operation decoder = .ok (value, after)) :
    (operation >>= next) decoder = next value after := by
  change (operation decoder >>= fun result => next result.1 result.2) = _
  rw [done]
  rfl

theorem bind_of_error {decoder : IndexedDecoder} {fault : Fault}
    (failed : operation decoder = .error fault) :
    (operation >>= next) decoder = .error fault := by
  change (operation decoder >>= fun result => next result.1 result.2) = _
  rw [failed]
  rfl

/-- Both succeed with the same value, or both fail with the same fault. -/
theorem Follows.cases (follows : Follows operation spec) {decoder : IndexedDecoder}
    (inRange : decoder.cursor.InRange) :
    (∃ value after, operation decoder = .ok (value, after) ∧ after.cursor.InRange ∧
      spec decoder.view = .ok (value, after.view)) ∨
    (∃ fault, operation decoder = .error fault ∧ spec decoder.view = .error fault) := by
  have step := follows decoder inRange
  cases done : operation decoder with
  | error fault =>
      rw [done] at step
      exact Or.inr ⟨fault, rfl, step⟩
  | ok result =>
      rw [done] at step
      exact Or.inl ⟨result.1, result.2, rfl, step.1, step.2⟩

theorem Follows.congr (follows : Follows operation spec)
    (same : ∀ decoder, other decoder = spec decoder) : Follows operation other := by
  have equal : other = spec := funext same
  rwa [equal]

theorem Follows.pure (value : Value) :
    Follows (Pure.pure value) fun decoder => .ok (value, decoder) :=
  fun _ inRange => ⟨inRange, rfl⟩

theorem Follows.failWith (error : EncodingError) :
    Follows (IndexedDecoder.failWith error : Decode Value) fun _ => fail error :=
  fun _ _ => rfl

theorem Follows.bind {spec' : Value → MqttDecoder → Except Fault (Value' × MqttDecoder)}
    (left : Follows operation spec) (right : ∀ value, Follows (next value) (spec' value)) :
    Follows (operation >>= next) fun decoder =>
      spec decoder >>= fun result => spec' result.1 result.2 := by
  intro decoder inRange
  dsimp only
  rcases left.cases inRange with ⟨value, after, done, inside, done'⟩ | ⟨fault, failed, failed'⟩
  · rw [bind_of_ok done, done']
    exact right value after inside
  · rw [bind_of_error failed, failed']
    rfl

theorem Follows.bindYields {spec' : Value → MqttDecoder → Except Fault Value'}
    (left : Follows operation spec) (right : ∀ value, Yields (next value) (spec' value)) :
    Yields (operation >>= next) fun decoder =>
      spec decoder >>= fun result => spec' result.1 result.2 := by
  intro decoder inRange
  dsimp only
  rcases left.cases inRange with ⟨value, after, done, inside, done'⟩ | ⟨fault, failed, failed'⟩
  · rw [bind_of_ok done, done']
    exact right value after inside
  · rw [bind_of_error failed, failed']
    rfl

theorem Yields.pure (value : Value) : Yields (Pure.pure value) fun _ => .ok value :=
  fun _ _ => rfl

theorem Yields.failWith (error : EncodingError) :
    Yields (IndexedDecoder.failWith error : Decode Value) fun _ => fail error :=
  fun _ _ => rfl

theorem Yields.ite {condition : Prop} [Decidable condition] {yes no : Decode Value}
    {yes' no' : MqttDecoder → Except Fault Value} (left : Yields yes yes') (right : Yields no no') :
    Yields (if condition then yes else no) fun decoder =>
      if condition then yes' decoder else no' decoder := by
  by_cases holds : condition
  · simp only [if_pos holds]
    exact left
  · simp only [if_neg holds]
    exact right

theorem Yields.map {spec : MqttDecoder → Except Fault Value} (function : Value → Value')
    (yields : Yields operation spec) :
    Yields (function <$> operation) fun decoder => function <$> spec decoder := by
  intro decoder inRange
  have step := yields decoder inRange
  dsimp only
  rw [← step]
  change Prod.fst <$> ((fun result => (function result.1, result.2)) <$> operation decoder) = _
  cases operation decoder with
  | error fault => rfl
  | ok result => rfl

end Follows

section Operations

theorem view_advance (decoder : IndexedDecoder) (count : ℕ) :
    ({ decoder with
        cursor := { decoder.cursor with index := decoder.cursor.index + count } } :
      IndexedDecoder).view = decoder.view.advance count := by
  unfold view
  rw [Cursor.rest_advance]
  rfl

theorem follows_readBytes (len : ℕ) :
    Follows (readBytes len) fun decoder => decoder.readBytes len := by
  intro decoder inRange
  have length := decoder.cursor.length_rest
  have inside : decoder.cursor.index ≤ decoder.cursor.data.length := inRange
  unfold readBytes atOffset
  rw [Cursor.take_eq _ len inRange]
  dsimp only [MqttDecoder.readBytes, MqttDecoder.checkRemaining, view]
  by_cases short : decoder.cursor.rest.length < len
  · rw [if_pos short, if_pos short]
    rfl
  · rw [if_neg short, if_neg short]
    refine ⟨(by omega : decoder.cursor.index + len ≤ decoder.cursor.data.length), ?_⟩
    exact congrArg (fun after => Except.ok (_, after)) (view_advance decoder len).symm

theorem follows_readU8 : Follows readU8 MqttDecoder.readU8 := by
  intro decoder inRange
  have length := decoder.cursor.length_rest
  have inside : decoder.cursor.index ≤ decoder.cursor.data.length := inRange
  unfold readU8 atOffset
  rw [Cursor.first_eq _ inRange]
  dsimp only [MqttDecoder.readU8, view]
  cases left : decoder.cursor.rest with
  | nil => rfl
  | cons byte rest =>
      rw [left, List.length_cons] at length
      refine ⟨(by omega : decoder.cursor.index + 1 ≤ decoder.cursor.data.length), ?_⟩
      have advanced := view_advance decoder 1
      unfold view at advanced
      rw [left] at advanced
      exact congrArg (fun after => Except.ok (byte, after)) advanced.symm

theorem follows_readU16 : Follows readU16 MqttDecoder.readU16 := by
  apply ((follows_readBytes 2).bind fun bytes => Follows.pure (fromBeBytes bytes)).congr
  rintro ⟨_ | ⟨high, _ | ⟨low, rest⟩⟩, offset, headerLen, header⟩
  · rfl
  · rfl
  · have enough : ¬(high :: low :: rest).length < 2 := by simp
    have value : fromBeBytes [high, low] = high.toNat * 256 + low.toNat := by simp [fromBeBytes]
    simp only [MqttDecoder.readU16, MqttDecoder.readBytes, MqttDecoder.checkRemaining,
      if_neg enough, ← value]
    rfl

theorem follows_readVarint : Follows readVarint MqttDecoder.readVarint := by
  intro decoder inRange
  have length := decoder.cursor.length_rest
  have inside : decoder.cursor.index ≤ decoder.cursor.data.length := inRange
  unfold readVarint atOffset
  dsimp only [Cursor.remaining, bind, EStateM.bind]
  rw [if_pos inside]
  dsimp only [MqttDecoder.readVarint, view]
  cases decoded : Varint.decode decoder.cursor.rest with
  | done value count =>
      rcases Varint.exists_of_decode_done decoded with ⟨used, rest, split, rfl, _, _⟩
      rw [split, List.length_append] at length
      refine ⟨(by omega : decoder.cursor.index + used.length ≤ decoder.cursor.data.length), ?_⟩
      exact congrArg (fun after => Except.ok (value, after))
        (view_advance decoder used.length).symm
  | incomplete => rfl
  | tooLong => rfl

theorem follows_readSlice : Follows readSlice MqttDecoder.readSlice := by
  apply (follows_readU16.bind fun len => follows_readBytes len).congr
  intro decoder
  unfold MqttDecoder.readSlice
  cases decoder.readU16 with
  | error fault => rfl
  | ok result => rfl

theorem follows_readStr : Follows readStr MqttDecoder.readStr := by
  have convert (bytes : List UInt8) : Follows
      (match Utf8.ofBytes? bytes with
        | some text => pure text
        | none => failWith .invalidString)
      (fun decoder => match Utf8.ofBytes? bytes with
        | some text => .ok (text, decoder)
        | none => fail .invalidString) := by
    cases Utf8.ofBytes? bytes with
    | none => exact Follows.failWith _
    | some text => exact Follows.pure text
  apply (follows_readSlice.bind convert).congr
  intro decoder
  unfold MqttDecoder.readStr
  cases decoder.readSlice with
  | error fault => rfl
  | ok result => rfl

theorem follows_readProperties : Follows readProperties MqttDecoder.readProperties := by
  have iterate (block : List UInt8) : Follows
      (match IndexedIter.items block.length ⟨block, 0⟩ with
        | some _ => pure block
        | none => panics)
      (fun decoder => .ok (block, decoder)) := by
    rw [IndexedIter.items_eq_collect]
    exact Follows.pure block
  apply (follows_readVarint.bind fun len => (follows_readBytes len).bind iterate).congr
  intro decoder
  unfold MqttDecoder.readProperties
  cases decoder.readVarint with
  | error fault => rfl
  | ok result =>
      rcases result with ⟨len, after⟩
      change after.readBytes len = after.readBytes len >>= _
      cases after.readBytes len with
      | error fault => rfl
      | ok result => rfl

theorem follows_packetLen : Follows packetLen fun decoder => .ok (decoder.packetLen, decoder) :=
  fun _ inRange => ⟨inRange, rfl⟩

theorem follows_offset : Follows offset fun decoder => .ok (decoder.offset, decoder) :=
  fun _ inRange => ⟨inRange, rfl⟩

theorem follows_readPayload : Follows readPayload MqttDecoder.readPayload := by
  have read (packetEnd start : ℕ) : Follows
      (if packetEnd < start then panics else readBytes (packetEnd - start))
      (fun decoder => if packetEnd < start then .error .panic
        else decoder.readBytes (packetEnd - start)) := by
    by_cases behind : packetEnd < start
    · simp only [if_pos behind]
      exact fun _ _ => rfl
    · simp only [if_neg behind]
      exact follows_readBytes _
  exact follows_packetLen.bind fun packetEnd => follows_offset.bind fun start =>
    read packetEnd start

theorem follows_readPid : Follows readPid MqttDecoder.readPid := by
  have convert (raw : ℕ) : Follows
      (match Pid.tryFrom raw with
        | .ok pid => pure pid
        | .error error => failWith error)
      (fun decoder => match Pid.tryFrom raw with
        | .ok pid => .ok (pid, decoder)
        | .error error => fail error) := by
    cases Pid.tryFrom raw with
    | error error => exact Follows.failWith _
    | ok pid => exact Follows.pure pid
  exact follows_readU16.bind convert

theorem follows_readProperties? (protocol : Protocol) :
    Follows (readProperties? protocol) fun decoder => decoder.readProperties? protocol := by
  cases protocol with
  | mqttv3 => exact Follows.pure none
  | mqttv5 => exact follows_readProperties.bind fun properties => Follows.pure (some properties)

end Operations

section Packets

variable {config : CrateConfig}

theorem yields_connAck : Yields (connAck config) (ConnAck.fromDecoder config) :=
  follows_readU8.bindYields fun _ => (Yields.failWith _).ite <|
    follows_readU8.bindYields fun _ =>
      (follows_readProperties? config.protocol).bindYields fun _ => Yields.pure _

theorem yields_ack (reasonCode : UInt8 → ReasonCode) :
    Yields (ack config reasonCode) fun decoder => Ack.fromDecoder config decoder reasonCode := by
  rcases config with ⟨_, _, _, _, _, protocol, _⟩
  intro decoder inRange
  cases protocol with
  | mqttv3 =>
      have bare : Yields (readPid >>= fun pid => pure (Ack.mk pid none))
          (fun decoder => decoder.readPid >>= fun result => .ok ⟨result.1, none⟩) :=
        follows_readPid.bindYields fun _ => Yields.pure _
      exact bare.ite bare decoder inRange
  | mqttv5 =>
      have short : Yields (readPid >>= fun pid => pure (Ack.mk pid (some (0x00, []))))
          (fun decoder => decoder.readPid >>= fun result => .ok ⟨result.1, some (0x00, [])⟩) :=
        follows_readPid.bindYields fun _ => Yields.pure _
      have full := follows_readPid.bindYields fun pid => follows_readU8.bindYields fun code =>
        follows_readProperties.bindYields fun properties =>
          Yields.pure (Ack.mk pid (some (reasonCode code, properties)))
      exact short.ite full decoder inRange

theorem yields_collect {Packet : Type} (codes : List ReasonCode)
    (packet : List ReasonCode → Packet) :
    Yields (collect config codes >>= fun codes => pure (packet codes)) fun _ =>
      collectCodes config codes >>= fun codes => .ok (packet codes) := by
  unfold collect collectCodes
  by_cases surplus : config.maxSubTopicsPerMsg < codes.length
  · simp only [if_pos surplus]
    exact fun _ _ => rfl
  · simp only [if_neg surplus]
    exact fun _ _ => rfl

theorem yields_subAck : Yields (subAck config) (SubAck.fromDecoder config) :=
  follows_readPid.bindYields fun _ => (follows_readProperties? config.protocol).bindYields fun _ =>
    follows_readPayload.bindYields fun _ => yields_collect _ _

theorem yields_unsubAck : Yields (unsubAck config) (UnsubAck.fromDecoder config) := by
  have codes (pid : Pid) (properties : Option (List UInt8)) (payload : List UInt8) : Yields
      (match config.protocol with
        | .mqttv3 => (pure ⟨pid, properties, []⟩ : Decode CodesAck)
        | .mqttv5 => do
            let codes ← collect config (payload.map UnsubAckReasonCode.fromPrimitive)
            pure ⟨pid, properties, codes⟩)
      (fun _ => match config.protocol with
        | .mqttv3 => .ok ⟨pid, properties, []⟩
        | .mqttv5 => do
            let codes ← collectCodes config (payload.map UnsubAckReasonCode.fromPrimitive)
            .ok ⟨pid, properties, codes⟩) := by
    cases config.protocol with
    | mqttv3 => exact Yields.pure _
    | mqttv5 => exact yields_collect _ _
  exact follows_readPid.bindYields fun pid =>
    (follows_readProperties? config.protocol).bindYields fun properties =>
      follows_readPayload.bindYields fun payload => codes pid properties payload

theorem yields_disconnect : Yields (disconnect config) (Disconnect.fromDecoder config) := by
  have short : Yields
      (match config.protocol with
        | .mqttv3 => (pure ⟨DisconnectReasonCode.normal, none⟩ : Decode Disconnect)
        | .mqttv5 => pure ⟨DisconnectReasonCode.normal, some []⟩)
      (fun _ => match config.protocol with
        | .mqttv3 => .ok ⟨DisconnectReasonCode.normal, none⟩
        | .mqttv5 => .ok ⟨DisconnectReasonCode.normal, some []⟩) := by
    cases config.protocol with
    | mqttv3 => exact Yields.pure _
    | mqttv5 => exact Yields.pure _
  have full := follows_readU8.bindYields fun code =>
    (follows_readProperties? config.protocol).bindYields fun properties =>
      Yields.pure (Disconnect.mk (DisconnectReasonCode.fromPrimitive config.protocol code)
        properties)
  intro decoder inRange
  exact short.ite full decoder inRange

theorem partialPublish_eq (buf : List UInt8) (topicName : Utf8) (identifier : QosPid)
    (decoder : IndexedDecoder) :
    Prod.fst <$> partialPublish buf topicName identifier decoder =
      .ok (.partialPublish identifier topicName
        ⟨buf.take decoder.view.packetLen, decoder.view.packetLen⟩) := by
  have inside : ¬buf.length < min decoder.view.packetLen buf.length := by omega
  have taken : buf.take (min decoder.view.packetLen buf.length) =
      buf.take decoder.view.packetLen := by
    rw [List.take_eq_take_iff]
    omega
  have read : packetLen decoder = .ok (decoder.view.packetLen, decoder) := rfl
  rw [partialPublish, bind_of_ok read, if_neg inside, taken]
  rfl

theorem partialPublish_of_readPid (buf : List UInt8) (topicName : Utf8) (build : Pid → QosPid) :
    Yields (readPid >>= fun pid => partialPublish buf topicName (build pid)) fun decoder =>
      decoder.readPid >>= fun result => .ok (.partialPublish (build result.1) topicName
        ⟨buf.take decoder.packetLen, decoder.packetLen⟩) := by
  intro decoder inRange
  dsimp only
  rcases follows_readPid.cases inRange with ⟨pid, after, done, _, done'⟩ | ⟨fault, failed, failed'⟩
  · have kept := (MqttDecoder.advances_of_readPid done').packetLen
    rw [bind_of_ok done, partialPublish_eq, done', kept]
    rfl
  · rw [bind_of_error failed, failed']
    rfl

theorem yields_publish (buf : List UInt8) (topicName : Utf8) :
    Yields (qosPid >>= partialPublish buf topicName) fun decoder =>
      QosPid.fromDecoder decoder >>= fun qosPid => .ok (.partialPublish qosPid topicName
        ⟨buf.take decoder.packetLen, decoder.packetLen⟩) := by
  intro decoder inRange
  have header : readHeader decoder = .ok (decoder.fixedHeader, decoder) := rfl
  have same : decoder.view.fixedHeader = decoder.fixedHeader := rfl
  have received (build : Pid → QosPid) :
      Prod.fst <$> ((readPid >>= fun pid => pure (build pid)) >>=
          partialPublish buf topicName) decoder =
        (decoder.view.readPid >>= fun result => .ok (build result.1)) >>= fun qosPid =>
          .ok (.partialPublish qosPid topicName
            ⟨buf.take decoder.view.packetLen, decoder.view.packetLen⟩) := by
    simp only [bind_assoc, pure_bind]
    rw [partialPublish_of_readPid buf topicName build decoder inRange]
    dsimp only
    cases decoder.view.readPid with
    | error fault => rfl
    | ok result => rfl
  unfold qosPid QosPid.fromDecoder
  dsimp only
  rw [bind_assoc, bind_of_ok header, same]
  cases decoder.fixedHeader.qos with
  | atMostOnce => exact partialPublish_eq buf topicName .atMostOnce decoder
  | atLeastOnce => exact received .atLeastOnce
  | exactlyOnce => exact received .exactlyOnce

theorem yields_receive (buf : List UInt8) (typ : PacketType) :
    Yields
      (match typ with
        | .disconnect => .disconnect <$> disconnect config
        | .pingResp => (pure .pingResp : Decode ReceivedPacket)
        | .connAck => .connAck <$> connAck config
        | .publish => do
            let topicName ← readStr
            let qosPid ← qosPid
            partialPublish buf topicName qosPid
        | .pubAck => .pubAck <$> ack config PubAckReasonCode.fromPrimitive
        | .pubRec => .pubRec <$> ack config PubRecReasonCode.fromPrimitive
        | .pubRel => .pubRel <$> ack config PubRelReasonCode.fromPrimitive
        | .pubComp => .pubComp <$> ack config PubCompReasonCode.fromPrimitive
        | .subAck => .subAck <$> subAck config
        | .unsubAck => .unsubAck <$> unsubAck config
        | _ => failWith .invalidHeader)
      (fun decoder => match typ with
        | .disconnect => .disconnect <$> Disconnect.fromDecoder config decoder
        | .pingResp => .ok .pingResp
        | .connAck => .connAck <$> ConnAck.fromDecoder config decoder
        | .publish => do
            let (topicName, decoder) ← decoder.readStr
            let qosPid ← QosPid.fromDecoder decoder
            .ok (.partialPublish qosPid topicName
              ⟨buf.take decoder.packetLen, decoder.packetLen⟩)
        | .pubAck => .pubAck <$> PubAck.fromDecoder config decoder
        | .pubRec => .pubRec <$> PubRec.fromDecoder config decoder
        | .pubRel => .pubRel <$> PubRel.fromDecoder config decoder
        | .pubComp => .pubComp <$> PubComp.fromDecoder config decoder
        | .subAck => .subAck <$> SubAck.fromDecoder config decoder
        | .unsubAck => .unsubAck <$> UnsubAck.fromDecoder config decoder
        | _ => fail .invalidHeader) := by
  cases typ with
  | disconnect => exact yields_disconnect.map _
  | pingResp => exact Yields.pure _
  | connAck => exact yields_connAck.map _
  | publish => exact follows_readStr.bindYields fun topicName => yields_publish buf topicName
  | pubAck => exact (yields_ack _).map _
  | pubRec => exact (yields_ack _).map _
  | pubRel => exact (yields_ack _).map _
  | pubComp => exact (yields_ack _).map _
  | subAck => exact yields_subAck.map _
  | unsubAck => exact yields_unsubAck.map _
  | _ => exact Yields.failWith _

/-- Decoding with indices into the buffer is decoding the bytes behind the offset. -/
theorem fromBuffer_eq (config : CrateConfig) (buf : List UInt8) :
    fromBuffer config buf = ReceivedPacket.fromBuffer config buf := by
  unfold fromBuffer ReceivedPacket.fromBuffer tryNew
  cases created : MqttDecoder.tryNew config buf with
  | error fault => rfl
  | ok decoder =>
      rcases MqttDecoder.exists_of_tryNew_eq_ok created with ⟨head, split, length, offset, _, _⟩
      have inRange : Cursor.InRange ⟨buf, decoder.offset⟩ := by
        change decoder.offset ≤ buf.length
        rw [split, List.length_append, length, offset]
        omega
      have viewed : (IndexedDecoder.mk ⟨buf, decoder.offset⟩ decoder.headerLen
          decoder.fixedHeader).view = decoder := by
        have rest : buf.drop decoder.offset = decoder.rest := by
          rw [offset, ← length]
          conv_lhs => rw [split]
          exact List.drop_left
        unfold view Cursor.rest
        dsimp only
        rw [rest]
      have received := @yields_receive config buf decoder.fixedHeader.typ
        ⟨⟨buf, decoder.offset⟩, decoder.headerLen, decoder.fixedHeader⟩ inRange
      rw [viewed] at received
      exact received

end Packets

end IndexedDecoder

end Mqttrust
