import Mqttrust.Encoding.Decoder
import Mqttrust.Encoding.ReasonCode

/-!
# Received packets

The packets that the client can receive, and how they are decoded from a buffer.
Blocks of properties are kept as bytes. A field that only exists with feature
`mqttv5` is optional and absent with `mqttv3`.

Collecting more reason codes than the fixed capacity of a vector panics.
-/

namespace Mqttrust

/-- A PUBACK, PUBREC, PUBREL or PUBCOMP packet; `detail` is the reason code and the properties. -/
structure Ack where
  pid : Pid
  detail : Option (ReasonCode × List UInt8)
deriving DecidableEq, Repr

/-- A CONNACK packet. -/
structure ConnAck where
  sessionPresent : Bool
  reasonCode : ReasonCode
  properties : Option (List UInt8)
deriving DecidableEq, Repr

/-- A SUBACK or UNSUBACK packet. -/
structure CodesAck where
  pid : Pid
  properties : Option (List UInt8)
  codes : List ReasonCode
deriving DecidableEq, Repr

/-- A DISCONNECT packet. -/
structure Disconnect where
  reasonCode : ReasonCode
  properties : Option (List UInt8)
deriving DecidableEq, Repr

/-- A PUBLISH packet of which only the bytes in `buf` have been received. -/
structure PartialPublish where
  buf : List UInt8
  packetLen : ℕ
deriving DecidableEq, Repr

/-- `ReceivedPacket`. -/
inductive ReceivedPacket where
  | pingResp
  | connAck (packet : ConnAck)
  | partialPublish (qosPid : QosPid) (topicName : Utf8) (publish : PartialPublish)
  | pubAck (packet : Ack)
  | pubRec (packet : Ack)
  | pubRel (packet : Ack)
  | pubComp (packet : Ack)
  | subAck (packet : CodesAck)
  | unsubAck (packet : CodesAck)
  | disconnect (packet : Disconnect)
deriving DecidableEq

namespace MqttDecoder

/-- Reads a `u16` and converts it to a `Pid`. -/
def readPid (decoder : MqttDecoder) : Except Fault (Pid × MqttDecoder) := do
  let (raw, decoder) ← decoder.readU16
  match Pid.tryFrom raw with
  | .ok pid => .ok (pid, decoder)
  | .error error => fail error

/-- Reads the properties, which exist with feature `mqttv5` only. -/
def readProperties? (protocol : Protocol) (decoder : MqttDecoder) :
    Except Fault (Option (List UInt8) × MqttDecoder) :=
  match protocol with
  | .mqttv3 => .ok (none, decoder)
  | .mqttv5 => do
      let (properties, decoder) ← decoder.readProperties
      .ok (some properties, decoder)

end MqttDecoder

variable (config : CrateConfig) (decoder : MqttDecoder)

/-- `ConnAck::from_decoder`. -/
def ConnAck.fromDecoder : Except Fault ConnAck := do
  let (connAckFlags, decoder) ← decoder.readU8
  if connAckFlags &&& 0xFE ≠ 0 then fail .malformedPacket
  else do
    let (code, decoder) ← decoder.readU8
    let (properties, _) ← decoder.readProperties? config.protocol
    .ok
      { sessionPresent := connAckFlags &&& 0x01 == 1
        reasonCode := ConnAckReasonCode.fromPrimitive config.protocol code
        properties := properties }

/-- The common body of `PubAck`, `PubRec`, `PubRel` and `PubComp::from_decoder`. -/
def Ack.fromDecoder (reasonCode : UInt8 → ReasonCode) : Except Fault Ack :=
  if decoder.fixedHeader.remainingLen = 2 ∨ decoder.fixedHeader.remainingLen = 3 then do
    let (pid, _) ← decoder.readPid
    match config.protocol with
    | .mqttv3 => .ok ⟨pid, none⟩
    | .mqttv5 => .ok ⟨pid, some (0x00, [])⟩
  else do
    let (pid, decoder) ← decoder.readPid
    match config.protocol with
    | .mqttv3 => .ok ⟨pid, none⟩
    | .mqttv5 =>
        let (code, decoder) ← decoder.readU8
        let (properties, _) ← decoder.readProperties
        .ok ⟨pid, some (reasonCode code, properties)⟩

/-- `PubAck::from_decoder`. -/
def PubAck.fromDecoder : Except Fault Ack :=
  Ack.fromDecoder config decoder PubAckReasonCode.fromPrimitive

/-- `PubRec::from_decoder`. -/
def PubRec.fromDecoder : Except Fault Ack :=
  Ack.fromDecoder config decoder PubRecReasonCode.fromPrimitive

/-- `PubRel::from_decoder`. -/
def PubRel.fromDecoder : Except Fault Ack :=
  Ack.fromDecoder config decoder PubRelReasonCode.fromPrimitive

/-- `PubComp::from_decoder`. -/
def PubComp.fromDecoder : Except Fault Ack :=
  Ack.fromDecoder config decoder PubCompReasonCode.fromPrimitive

/-- Collects reason codes into a vector of capacity `MAX_SUB_TOPICS_PER_MSG`. -/
def collectCodes (codes : List ReasonCode) : Except Fault (List ReasonCode) :=
  if config.maxSubTopicsPerMsg < codes.length then .error .panic else .ok codes

/-- `SubAck::from_decoder`. -/
def SubAck.fromDecoder : Except Fault CodesAck := do
  let (pid, decoder) ← decoder.readPid
  let (properties, decoder) ← decoder.readProperties? config.protocol
  let (payload, _) ← decoder.readPayload
  let codes ← collectCodes config (payload.map (SubAckReasonCode.fromPrimitive config.protocol))
  .ok ⟨pid, properties, codes⟩

/-- `UnsubAck::from_decoder`: the payload is only used with feature `mqttv5`. -/
def UnsubAck.fromDecoder : Except Fault CodesAck := do
  let (pid, decoder) ← decoder.readPid
  let (properties, decoder) ← decoder.readProperties? config.protocol
  let (payload, _) ← decoder.readPayload
  match config.protocol with
  | .mqttv3 => .ok ⟨pid, properties, []⟩
  | .mqttv5 =>
      let codes ← collectCodes config (payload.map UnsubAckReasonCode.fromPrimitive)
      .ok ⟨pid, properties, codes⟩

/-- `Disconnect::from_decoder`; the default that the builder gives has no properties. -/
def Disconnect.fromDecoder : Except Fault Disconnect :=
  if decoder.fixedHeader.remainingLen < 2 then
    match config.protocol with
    | .mqttv3 => .ok ⟨DisconnectReasonCode.normal, none⟩
    | .mqttv5 => .ok ⟨DisconnectReasonCode.normal, some []⟩
  else do
    let (code, decoder) ← decoder.readU8
    let (properties, _) ← decoder.readProperties? config.protocol
    .ok ⟨DisconnectReasonCode.fromPrimitive config.protocol code, properties⟩

/-- The quality of service and the packet identifier of a PUBLISH, behind its topic. -/
def QosPid.fromDecoder : Except Fault QosPid :=
  match decoder.fixedHeader.qos with
  | .atMostOnce => .ok .atMostOnce
  | .atLeastOnce => do
      let (pid, _) ← decoder.readPid
      .ok (.atLeastOnce pid)
  | .exactlyOnce => do
      let (pid, _) ← decoder.readPid
      .ok (.exactlyOnce pid)

/-- `ReceivedPacket::from_buffer`; the socket that a partial PUBLISH borrows is not part of the
packet. -/
def ReceivedPacket.fromBuffer (buf : List UInt8) : Except Fault ReceivedPacket := do
  let decoder ← MqttDecoder.tryNew config buf
  match decoder.fixedHeader.typ with
  | .disconnect => .disconnect <$> Disconnect.fromDecoder config decoder
  | .pingResp => .ok .pingResp
  | .connAck => .connAck <$> ConnAck.fromDecoder config decoder
  | .publish => do
      let (topicName, decoder) ← decoder.readStr
      let qosPid ← QosPid.fromDecoder decoder
      .ok (.partialPublish qosPid topicName ⟨buf.take decoder.packetLen, decoder.packetLen⟩)
  | .pubAck => .pubAck <$> PubAck.fromDecoder config decoder
  | .pubRec => .pubRec <$> PubRec.fromDecoder config decoder
  | .pubRel => .pubRel <$> PubRel.fromDecoder config decoder
  | .pubComp => .pubComp <$> PubComp.fromDecoder config decoder
  | .subAck => .subAck <$> SubAck.fromDecoder config decoder
  | .unsubAck => .unsubAck <$> UnsubAck.fromDecoder config decoder
  | _ => fail .invalidHeader

/-! ### When decoding panics -/

variable {config} {decoder}

theorem exists_of_bind_eq_ok {First Second : Type} {first : Except Fault First}
    {second : First → Except Fault Second} {value : Second}
    (done : (first >>= second) = .ok value) :
    ∃ middle, first = .ok middle ∧ second middle = .ok value := by
  cases first with
  | error fault => simp [bind, Except.bind] at done
  | ok middle => exact ⟨middle, rfl, done⟩

/-- An operation of the decoder stays inside the buffer and keeps the fixed header. -/
structure MqttDecoder.Advances (decoder next : MqttDecoder) : Prop where
  inside : next.offset + next.rest.length = decoder.offset + decoder.rest.length
  packetLen : next.packetLen = decoder.packetLen

namespace MqttDecoder

variable {next : MqttDecoder}

theorem Advances.trans {middle : MqttDecoder} (first : decoder.Advances middle)
    (second : middle.Advances next) : decoder.Advances next :=
  ⟨second.inside.trans first.inside, second.packetLen.trans first.packetLen⟩

theorem advances_advance {count : ℕ} (enough : count ≤ decoder.rest.length) :
    decoder.Advances (decoder.advance count) := by
  refine ⟨?_, rfl⟩
  simp only [advance, List.length_drop]
  omega

theorem advances_of_readBytes {len : ℕ} {bytes : List UInt8}
    (read : decoder.readBytes len = .ok (bytes, next)) : decoder.Advances next := by
  rcases readBytes_eq_ok_iff.mp read with ⟨enough, _, rfl⟩
  exact advances_advance enough

theorem advances_of_readU16 {raw : ℕ} (read : decoder.readU16 = .ok (raw, next)) :
    decoder.Advances next := by
  unfold readU16 at read
  split at read
  · rename_i rest_eq
    simp only [Except.ok.injEq, Prod.mk.injEq] at read
    exact read.2 ▸ advances_advance (by simp [rest_eq])
  · exact absurd read fail_ne_ok

theorem advances_of_readPid {pid : Pid} (read : decoder.readPid = .ok (pid, next)) :
    decoder.Advances next := by
  rcases exists_of_bind_eq_ok read with ⟨⟨raw, after⟩, raw_eq, read⟩
  dsimp only at read
  split at read
  · simp only [Except.ok.injEq, Prod.mk.injEq] at read
    exact read.2 ▸ advances_of_readU16 raw_eq
  · exact absurd read fail_ne_ok

theorem advances_of_readVarint {value : ℕ} (read : decoder.readVarint = .ok (value, next)) :
    decoder.Advances next := by
  unfold readVarint at read
  split at read
  · rename_i decoded
    rcases Varint.exists_of_decode_done decoded with ⟨used, rest, split, rfl, _, _⟩
    simp only [Except.ok.injEq, Prod.mk.injEq] at read
    exact read.2 ▸ advances_advance (by simp [split])
  · exact absurd read fail_ne_ok
  · exact absurd read fail_ne_ok

theorem advances_of_readProperties? {protocol : Protocol} {properties : Option (List UInt8)}
    (read : decoder.readProperties? protocol = .ok (properties, next)) :
    decoder.Advances next := by
  cases protocol with
  | mqttv3 =>
      simp only [readProperties?, Except.ok.injEq, Prod.mk.injEq] at read
      exact read.2 ▸ ⟨rfl, rfl⟩
  | mqttv5 =>
      rcases exists_of_bind_eq_ok read with ⟨⟨block, behind⟩, block_eq, same⟩
      simp only [Except.ok.injEq, Prod.mk.injEq] at same
      unfold readProperties at block_eq
      rcases len_eq : decoder.readVarint with fault | ⟨len, after⟩
      · simp [len_eq] at block_eq
      · rw [len_eq] at block_eq
        exact same.2 ▸ (advances_of_readVarint len_eq).trans (advances_of_readBytes block_eq)

theorem readPid_ne_panic (decoder : MqttDecoder) : decoder.readPid ≠ .error .panic := by
  unfold readPid
  have calm := readU16_ne_panic decoder
  rcases read : decoder.readU16 with fault | ⟨raw, after⟩
  · rw [read] at calm
    simpa [bind, Except.bind] using calm
  · simp only [bind, Except.bind]
    split <;> simp [fail]

theorem readProperties?_ne_panic (protocol : Protocol) (decoder : MqttDecoder) :
    decoder.readProperties? protocol ≠ .error .panic := by
  cases protocol with
  | mqttv3 => simp [readProperties?]
  | mqttv5 =>
      have calm := readProperties_ne_panic decoder
      unfold readProperties?
      rcases read : decoder.readProperties with fault | ⟨properties, after⟩
      · rw [read] at calm
        simpa [bind, Except.bind] using calm
      · simp [bind, Except.bind]

end MqttDecoder

theorem bind_ne_panic {First Second : Type} {first : Except Fault First}
    {second : First → Except Fault Second} (calm : first ≠ .error .panic)
    (calm_after : ∀ value, first = .ok value → second value ≠ .error .panic) :
    (first >>= second) ≠ .error .panic := by
  cases first with
  | error fault => simpa [bind, Except.bind] using calm
  | ok value => exact calm_after value rfl

theorem map_eq_panic_iff {First Second : Type} {first : Except Fault First}
    (function : First → Second) : function <$> first = .error .panic ↔ first = .error .panic := by
  cases first with
  | error fault => simp [Functor.map, Except.map]
  | ok value => simp [Functor.map, Except.map]

theorem fail_ne_panic {Value : Type} (error : EncodingError) :
    (fail error : Except Fault Value) ≠ .error .panic := by
  simp [fail]

theorem ok_ne_panic {Value : Type} (value : Value) :
    (.ok value : Except Fault Value) ≠ .error .panic := by
  simp

theorem ConnAck.fromDecoder_ne_panic : ConnAck.fromDecoder config decoder ≠ .error .panic := by
  refine bind_ne_panic (decoder.readU8_ne_panic) fun ⟨flags, after⟩ _ => ?_
  dsimp only
  split
  · exact fail_ne_panic _
  · refine bind_ne_panic after.readU8_ne_panic fun ⟨code, behind⟩ _ => ?_
    exact bind_ne_panic (behind.readProperties?_ne_panic _) fun _ _ => ok_ne_panic _

theorem Ack.fromDecoder_ne_panic (reasonCode : UInt8 → ReasonCode) :
    Ack.fromDecoder config decoder reasonCode ≠ .error .panic := by
  unfold Ack.fromDecoder
  split
  · refine bind_ne_panic decoder.readPid_ne_panic fun ⟨pid, after⟩ _ => ?_
    cases config.protocol <;> exact ok_ne_panic _
  · refine bind_ne_panic decoder.readPid_ne_panic fun ⟨pid, after⟩ _ => ?_
    cases config.protocol with
    | mqttv3 => exact ok_ne_panic _
    | mqttv5 =>
        refine bind_ne_panic after.readU8_ne_panic fun ⟨code, behind⟩ _ => ?_
        exact bind_ne_panic behind.readProperties_ne_panic fun _ _ => ok_ne_panic _

theorem Disconnect.fromDecoder_ne_panic :
    Disconnect.fromDecoder config decoder ≠ .error .panic := by
  unfold Disconnect.fromDecoder
  split
  · cases config.protocol <;> exact ok_ne_panic _
  · refine bind_ne_panic decoder.readU8_ne_panic fun ⟨code, after⟩ _ => ?_
    exact bind_ne_panic (after.readProperties?_ne_panic _) fun _ _ => ok_ne_panic _

theorem QosPid.fromDecoder_ne_panic : QosPid.fromDecoder decoder ≠ .error .panic := by
  unfold QosPid.fromDecoder
  split
  · exact ok_ne_panic _
  · exact bind_ne_panic decoder.readPid_ne_panic fun _ _ => ok_ne_panic _
  · exact bind_ne_panic decoder.readPid_ne_panic fun _ _ => ok_ne_panic _

/-- Behind the packet identifier and the properties there are more reason codes than a vector of
capacity `MAX_SUB_TOPICS_PER_MSG` can hold. -/
def MqttDecoder.SurplusCodes (config : CrateConfig) (decoder : MqttDecoder) : Prop :=
  ∃ pid after properties behind, decoder.readPid = .ok (pid, after) ∧
    after.readProperties? config.protocol = .ok (properties, behind) ∧
    config.maxSubTopicsPerMsg < behind.rest.length

theorem MqttDecoder.readPayload_of_inside
    (inside : decoder.offset + decoder.rest.length ≤ decoder.packetLen) :
    decoder.readPayload =
      if decoder.offset + decoder.rest.length = decoder.packetLen then
        .ok (decoder.rest, decoder.advance decoder.rest.length)
      else fail .insufficientBytes := by
  have ordered : ¬decoder.packetLen < decoder.offset := by omega
  unfold readPayload readBytes checkRemaining
  rw [if_neg ordered]
  by_cases whole : decoder.offset + decoder.rest.length = decoder.packetLen
  · have length : decoder.packetLen - decoder.offset = decoder.rest.length := by omega
    simp [whole, length]
  · have short : decoder.rest.length < decoder.packetLen - decoder.offset := by omega
    simp [whole, short, fail]

/-- Behind a packet identifier and properties, the payload is read of a complete packet only. -/
theorem MqttDecoder.payload_eq_panic_iff {Packet : Type} (config : CrateConfig)
    (inside : decoder.offset + decoder.rest.length ≤ decoder.packetLen)
    (next : Pid → Option (List UInt8) → List UInt8 → Except Fault Packet) :
    (decoder.readPid >>= fun first => first.2.readProperties? config.protocol >>= fun second =>
      second.2.readPayload >>= fun third => next first.1 second.1 third.1) = .error .panic ↔
      decoder.offset + decoder.rest.length = decoder.packetLen ∧
        ∃ pid after properties behind, decoder.readPid = .ok (pid, after) ∧
          after.readProperties? config.protocol = .ok (properties, behind) ∧
          next pid properties behind.rest = .error .panic := by
  have calm := decoder.readPid_ne_panic
  rcases pid_eq : decoder.readPid with fault | ⟨pid, after⟩
  · rw [pid_eq] at calm
    simpa [bind, Except.bind] using calm
  · have calm := after.readProperties?_ne_panic config.protocol
    rcases properties_eq : after.readProperties? config.protocol with fault | ⟨properties, behind⟩
    · rw [properties_eq] at calm
      simpa [bind, Except.bind, properties_eq] using calm
    · have advances := (advances_of_readPid pid_eq).trans
        (advances_of_readProperties? properties_eq)
      have payload := behind.readPayload_of_inside
        (by rw [advances.inside, advances.packetLen]; exact inside)
      rw [advances.inside, advances.packetLen] at payload
      by_cases whole : decoder.offset + decoder.rest.length = decoder.packetLen
      · rw [if_pos whole] at payload
        simp [bind, Except.bind, properties_eq, payload, whole]
      · rw [if_neg whole] at payload
        simp [bind, Except.bind, properties_eq, payload, whole, fail]

theorem collectCodes_eq_panic_iff (codes : List ReasonCode) {Packet : Type}
    (build : List ReasonCode → Packet) :
    (collectCodes config codes >>= fun codes => .ok (build codes)) = .error .panic ↔
      config.maxSubTopicsPerMsg < codes.length := by
  by_cases surplus : config.maxSubTopicsPerMsg < codes.length
  · simp [bind, Except.bind, collectCodes, surplus]
  · simp [bind, Except.bind, collectCodes, surplus]

/-- Only collecting the reason codes of a complete packet panics. -/
theorem SubAck.fromDecoder_eq_panic_iff
    (inside : decoder.offset + decoder.rest.length ≤ decoder.packetLen) :
    SubAck.fromDecoder config decoder = .error .panic ↔
      decoder.offset + decoder.rest.length = decoder.packetLen ∧ decoder.SurplusCodes config := by
  have front := MqttDecoder.payload_eq_panic_iff config inside fun pid properties payload =>
    collectCodes config (payload.map (SubAckReasonCode.fromPrimitive config.protocol)) >>=
      fun codes => .ok (CodesAck.mk pid properties codes)
  simp only [collectCodes_eq_panic_iff, List.length_map] at front
  exact front

theorem UnsubAck.fromDecoder_eq_panic_iff
    (inside : decoder.offset + decoder.rest.length ≤ decoder.packetLen) :
    UnsubAck.fromDecoder config decoder = .error .panic ↔
      config.protocol = .mqttv5 ∧ decoder.offset + decoder.rest.length = decoder.packetLen ∧
        decoder.SurplusCodes config := by
  rcases config with ⟨topicLen, subTopics, subscribers, inflight, messages, protocol, qos2⟩
  cases protocol with
  | mqttv3 =>
      have front := MqttDecoder.payload_eq_panic_iff
        ⟨topicLen, subTopics, subscribers, inflight, messages, .mqttv3, qos2⟩ inside
        fun pid properties _ => .ok (CodesAck.mk pid properties [])
      simp only [ok_ne_panic, and_false, exists_false, iff_false] at front
      exact iff_of_false front (by simp)
  | mqttv5 =>
      have front := MqttDecoder.payload_eq_panic_iff
        ⟨topicLen, subTopics, subscribers, inflight, messages, .mqttv5, qos2⟩ inside
        fun pid properties payload =>
          collectCodes ⟨topicLen, subTopics, subscribers, inflight, messages, .mqttv5, qos2⟩
            (payload.map UnsubAckReasonCode.fromPrimitive) >>=
              fun codes => .ok (CodesAck.mk pid properties codes)
      simp only [collectCodes_eq_panic_iff, List.length_map] at front
      exact front.trans (and_iff_right rfl).symm

/-- An acknowledgement of a subscription has more reason codes than a vector of capacity
`MAX_SUB_TOPICS_PER_MSG` can hold. -/
def MqttDecoder.TooManyCodes (config : CrateConfig) (decoder : MqttDecoder) : Prop :=
  (decoder.fixedHeader.typ = .subAck ∨
      (decoder.fixedHeader.typ = .unsubAck ∧ config.protocol = .mqttv5)) ∧
    decoder.SurplusCodes config

/-- Decoding at most the bytes of one packet panics exactly when the packet is complete and has too
many reason codes. -/
theorem ReceivedPacket.fromBuffer_eq_panic_iff {buf : List UInt8}
    (created : MqttDecoder.tryNew config buf = .ok decoder)
    (inside : buf.length ≤ decoder.packetLen) :
    ReceivedPacket.fromBuffer config buf = .error .panic ↔
      buf.length = decoder.packetLen ∧ decoder.TooManyCodes config := by
  rcases MqttDecoder.exists_of_tryNew_eq_ok created with ⟨head, split, length, offset, _, _⟩
  have buf_length : decoder.offset + decoder.rest.length = buf.length := by
    rw [split, List.length_append, length, offset]
  rw [← buf_length] at inside ⊢
  rw [fromBuffer, created]
  simp only [bind, Except.bind, MqttDecoder.TooManyCodes]
  cases typ_eq : decoder.fixedHeader.typ with
  | subAck =>
      simp only [map_eq_panic_iff, SubAck.fromDecoder_eq_panic_iff inside, true_or, true_and]
  | unsubAck =>
      simp only [map_eq_panic_iff, UnsubAck.fromDecoder_eq_panic_iff inside, reduceCtorEq, true_and,
        false_or]
      exact and_left_comm
  | publish =>
      simp only [reduceCtorEq, false_and, or_self, and_false, iff_false]
      refine bind_ne_panic decoder.readStr_ne_panic fun ⟨topicName, after⟩ _ => ?_
      exact bind_ne_panic QosPid.fromDecoder_ne_panic fun _ _ => ok_ne_panic _
  | connAck =>
      simp only [map_eq_panic_iff, reduceCtorEq, false_and, or_self, and_false, iff_false]
      exact ConnAck.fromDecoder_ne_panic
  | disconnect =>
      simp only [map_eq_panic_iff, reduceCtorEq, false_and, or_self, and_false, iff_false]
      exact Disconnect.fromDecoder_ne_panic
  | pubAck | pubRec | pubRel | pubComp =>
      simp only [map_eq_panic_iff, reduceCtorEq, false_and, or_self, and_false, iff_false]
      exact Ack.fromDecoder_ne_panic _
  | pingResp => simp only [reduceCtorEq, false_and, or_self, and_false]
  | _ =>
      simp only [reduceCtorEq, false_and, or_self, and_false, iff_false]
      exact fail_ne_panic _

end Mqttrust
