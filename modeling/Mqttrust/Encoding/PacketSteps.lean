import Mqttrust.Encoding.PacketSize
import Mqttrust.Encoding.Steps

/-!
# How the encoding of a packet fails

The encoding of a packet goes through the steps of its fields, asks the payload of
a PUBLISH for its bytes, and finalizes the fixed header, which panics when the
remaining length is no variable byte integer. This is the whole of what a packet
and a buffer say about the outcome.
-/

namespace Mqttrust

open MqttEncoder

namespace Properties

/-- Properties whose size can be computed have subscription identifiers that are variable byte
integers. -/
theorem varintFits_of_sumSizes {properties : List Property} {size : ℕ}
    (sized : sumSizes properties = some size) : ∀ property ∈ properties, property.VarintFits := by
  induction properties generalizing size with
  | nil => exact nofun
  | cons property rest ih =>
      rw [sumSizes] at sized
      rcases Option.bind_eq_some_iff.mp sized with ⟨first, own, sized⟩
      rcases Option.bind_eq_some_iff.mp sized with ⟨sum, others, _⟩
      have here : property.VarintFits := by
        cases property with
        | subscriptionIdentifier id =>
            rcases Option.map_eq_some_iff.mp own with ⟨len, found, _⟩
            exact (varintLen_eq_some found).1
        | _ => trivial
      intro other mem
      rcases List.mem_cons.mp mem with rfl | mem
      · exact here
      · exact ih others other mem

theorem varintFits_of_size {properties : Properties} {size : ℕ}
    (sized : properties.size = some size) :
    ∀ property ∈ properties.toList, property.VarintFits := by
  cases properties with
  | slice list => exact varintFits_of_sumSizes sized
  | dataBlock block => exact nofun
  | correlatedSlice correlation list =>
      intro property mem
      apply varintFits_of_sumSizes sized
      rcases List.mem_cons.mp mem with rfl | mem
      · exact List.mem_append_right _ List.mem_cons_self
      · exact List.mem_append_left _ mem

/-- The size that is computed, whenever it can be: a block lacks its own length. -/
theorem size_eq_of_size {properties : Properties} {size : ℕ}
    (sized : properties.size = some size) :
    size = properties.blockBytes.length + properties.excess ∨
      ∃ block, properties = .dataBlock block ∧ size = block.length := by
  have fits := varintFits_of_size sized
  cases properties with
  | slice list => exact .inl (Option.some.inj (sized.symm.trans (sumSizes_eq fits)))
  | dataBlock block => exact .inr ⟨block, rfl, Option.some.inj sized.symm⟩
  | correlatedSlice correlation list =>
      have all : ∀ property ∈ list ++ [correlation], property.VarintFits := by
        intro property mem
        apply fits
        rcases List.mem_append.mp mem with mem | mem
        · exact List.mem_cons_of_mem _ mem
        · exact List.mem_singleton.mp mem ▸ List.mem_cons_self
      have same := Option.some.inj (sized.symm.trans (sumSizes_eq all))
      left
      simp only [List.flatMap_append, List.flatMap_cons, List.flatMap_nil, List.map_append,
        List.map_cons, List.map_nil, List.sum_append, List.sum_cons, List.sum_nil,
        List.length_append, List.length_nil] at same
      simp only [blockBytes, excess, toList, List.map_cons, List.sum_cons, List.length_append]
      omega

/-- Behind the size, as far as 32 bits hold it, the properties are stored. -/
theorem allBytes_steps {properties : Properties} {size : ℕ}
    (sized : properties.size = some size) :
    EncodeStep.allBytes properties.steps =
      Varint.encode (size % 2 ^ 32) ++ properties.blockBytes := by
  rw [steps, sized]
  simp only [Write.allBytes_allSteps, writes, Write.allBytes_cons, Write.bytes,
    allBytes_blockWrites]

end Properties

/-- The steps of writing properties, which exist with feature `mqttv5` only. -/
def Properties.v5Steps (config : CrateConfig) (properties : Properties) : List EncodeStep :=
  match config.protocol with
  | .mqttv3 => []
  | .mqttv5 => properties.steps

theorem Encode.Follows.v5Properties (config : CrateConfig) (properties : Properties) :
    Follows (writeV5Properties config properties) (properties.v5Steps config) := by
  unfold writeV5Properties Properties.v5Steps
  cases config.protocol with
  | mqttv3 => exact pure
  | mqttv5 => exact writeProperties properties

open Encode (Follows)

namespace Connect

/-- The steps of writing the last will. -/
def willSteps (config : CrateConfig) : Option LastWill → List EncodeStep
  | none => []
  | some lastWill => lastWill.properties.v5Steps config ++
      Write.allSteps [.checked (sliceBytes lastWill.topic.bytes),
        .checked (sliceBytes lastWill.data)]

theorem follows_writeLastWill (config : CrateConfig) (lastWill : Option LastWill) :
    Follows (writeLastWill config lastWill) (willSteps config lastWill) := by
  cases lastWill with
  | none => exact Follows.pure
  | some lastWill =>
      apply (Follows.v5Properties config lastWill.properties).bind
      exact (Follows.writeStr lastWill.topic).bind (Follows.writeSlice lastWill.data)

theorem follows_writeOption (field : Option (List UInt8)) :
    Follows (writeOption field) (Write.allSteps (optionWrites field)) := by
  cases field with
  | none => exact Follows.pure
  | some bytes => exact Follows.writeSlice bytes

/-- The steps of writing a CONNECT. -/
def steps (config : CrateConfig) (packet : Connect) : List EncodeStep :=
  Write.allSteps [.checked (sliceBytes packet.protocol.name), .plain [packet.protocol.toByte],
      .plain [packet.connectFlags], .checked (u16Bytes packet.keepAlive.toNat)] ++
    packet.properties.v5Steps config ++
    Write.allSteps [.checked (sliceBytes packet.clientId.bytes)] ++
    willSteps config packet.lastWill ++
    Write.allSteps (optionWrites (packet.username.map Utf8.bytes)) ++
    Write.allSteps (optionWrites packet.password)

theorem follows (config : CrateConfig) (packet : Connect) :
    Follows (MqttEncode.writeBody config packet) (packet.steps config) := by
  have fields := (follows_writeLastWill config packet.lastWill).bind
    ((follows_writeOption (packet.username.map Utf8.bytes)).bind
      (follows_writeOption packet.password))
  have payload := (Follows.v5Properties config packet.properties).bind
    ((Follows.writeStr packet.clientId).bind fields)
  have whole := (Follows.writeSlice packet.protocol.name).bind
    ((Follows.writeU8 packet.protocol.toByte).bind ((Follows.writeU8 packet.connectFlags).bind
      ((Follows.writeU16 packet.keepAlive.toNat).bind payload)))
  simp only [← List.append_assoc] at whole
  exact whole

end Connect

namespace ConnAckPacket

/-- The steps of writing a CONNACK. -/
def steps (config : CrateConfig) (packet : ConnAckPacket) : List EncodeStep :=
  Write.allSteps [.plain [packet.sessionPresent.toUInt8], .plain [packet.reasonCode]] ++
    packet.properties.v5Steps config

theorem follows (config : CrateConfig) (packet : ConnAckPacket) :
    Follows (MqttEncode.writeBody config packet) (packet.steps config) :=
  (Follows.writeU8 packet.sessionPresent.toUInt8).bind
    ((Follows.writeU8 packet.reasonCode).bind (Follows.v5Properties config packet.properties))

end ConnAckPacket

namespace Publish

/-- The steps of writing the packet identifier. -/
def pidSteps (packet : Publish) : List EncodeStep :=
  match packet.qos, packet.pid with
  | .atMostOnce, _ => []
  | _, some pid => Write.allSteps [.checked pid.bytes]
  | _, none => [.fail (.error .pidMissing)]

theorem follows_writePid (packet : Publish) : Follows packet.writePid packet.pidSteps := by
  unfold writePid pidSteps
  cases packet.qos with
  | atMostOnce => exact Follows.pure
  | atLeastOnce | exactlyOnce =>
      cases packet.pid with
      | none => exact Follows.throw _
      | some pid => exact Follows.writeU16 _

/-- The steps of writing a PUBLISH up to its payload. -/
def headSteps (config : CrateConfig) (packet : Publish) : List EncodeStep :=
  Write.allSteps [.checked (sliceBytes packet.topicName.bytes)] ++ packet.pidSteps ++
    packet.properties.v5Steps config

theorem follows_writeHead (config : CrateConfig) (packet : Publish) :
    Follows (packet.writeHead config) (packet.headSteps config) := by
  have head := (Follows.writeStr packet.topicName).bind
    (packet.follows_writePid.bind (Follows.v5Properties config packet.properties))
  rw [← List.append_assoc] at head
  exact head

end Publish

namespace AckPacket

/-- The steps of writing the reason code and the properties. -/
def detailSteps (config : CrateConfig) (packet : AckPacket) : List EncodeStep :=
  match config.protocol with
  | .mqttv3 => []
  | .mqttv5 =>
      if packet.reasonCode ≠ 0x00 then .put [packet.reasonCode] :: packet.properties.steps
      else
        match packet.properties.size with
        | none => [.fail .panic]
        | some 0 => []
        | some _ => .put [packet.reasonCode] :: packet.properties.steps

/-- The steps of writing an acknowledgement. -/
def steps (config : CrateConfig) (packet : AckPacket) : List EncodeStep :=
  Write.allSteps [.checked packet.pid.bytes] ++ packet.detailSteps config

theorem follows (config : CrateConfig) (packet : AckPacket) :
    Follows (MqttEncode.writeBody config packet) (packet.steps config) := by
  suffices detail : Follows (packet.writeDetail config) (packet.detailSteps config) from
    (Follows.writeU16 _).bind detail
  have full := (Follows.writeU8 packet.reasonCode).bind (Follows.writeProperties packet.properties)
  unfold writeDetail detailSteps
  cases config.protocol with
  | mqttv3 => exact Follows.pure
  | mqttv5 =>
      dsimp only
      by_cases success : packet.reasonCode = 0x00
      · rw [if_neg (not_not_intro success), if_neg (not_not_intro success)]
        rcases packet.properties.size with _ | _ | size
        · exact Follows.throw _
        · exact Follows.pure
        · exact full
      · rw [if_pos success, if_pos success]
        exact full

end AckPacket

namespace CodesAckPacket

/-- The steps of writing a SUBACK or an UNSUBACK. -/
def steps (config : CrateConfig) (packet : CodesAckPacket) : List EncodeStep :=
  Write.allSteps [.checked packet.pid.bytes] ++ packet.properties.v5Steps config ++
    Write.allSteps (byteWrites (packet.presentCodes config))

theorem follows (config : CrateConfig) (packet : CodesAckPacket) :
    Follows (MqttEncode.writeBody config packet) (packet.steps config) := by
  have codes := Follows.forM Follows.writeU8 (packet.presentCodes config)
  have whole := (Follows.writeU16 packet.pid.val).bind
    ((Follows.v5Properties config packet.properties).bind codes)
  rw [← List.append_assoc] at whole
  rw [steps, byteWrites, Write.allSteps, Write.allSteps, List.flatMap_assoc]
  exact whole

end CodesAckPacket

namespace Subscribe

/-- The steps of writing a SUBSCRIBE. -/
def steps (config : CrateConfig) (packet : Subscribe) : List EncodeStep :=
  Write.allSteps [.checked (packet.pid.getD Pid.new).bytes] ++ packet.properties.v5Steps config ++
    packet.topics.flatMap fun topic => Write.allSteps
      [.checked (sliceBytes topic.topicPath.bytes), .plain [topic.options config]]

theorem follows (config : CrateConfig) (packet : Subscribe) :
    Follows (MqttEncode.writeBody config packet) (packet.steps config) := by
  have topics := Follows.forM
    (fun topic : SubscribeTopic =>
      (Follows.writeStr topic.topicPath).bind (Follows.writeU8 (topic.options config)))
    packet.topics
  have whole := (Follows.writeU16 (packet.pid.getD Pid.new).val).bind
    ((Follows.v5Properties config packet.properties).bind topics)
  rw [← List.append_assoc] at whole
  exact whole

end Subscribe

namespace Unsubscribe

/-- The steps of writing an UNSUBSCRIBE. -/
def steps (config : CrateConfig) (packet : Unsubscribe) : List EncodeStep :=
  Write.allSteps [.checked (packet.pid.getD Pid.new).bytes] ++ packet.properties.v5Steps config ++
    packet.topics.flatMap fun topic => Write.allSteps [.checked (sliceBytes topic.bytes)]

theorem follows (config : CrateConfig) (packet : Unsubscribe) :
    Follows (MqttEncode.writeBody config packet) (packet.steps config) := by
  have topics := Follows.forM Follows.writeStr packet.topics
  have whole := (Follows.writeU16 (packet.pid.getD Pid.new).val).bind
    ((Follows.v5Properties config packet.properties).bind topics)
  rw [← List.append_assoc] at whole
  exact whole

end Unsubscribe

namespace DisconnectPacket

/-- The steps of writing a reason code other than `Normal`. -/
def codeSteps (packet : DisconnectPacket) : List EncodeStep :=
  if packet.reasonCode ≠ DisconnectReasonCode.normal then [.put [packet.reasonCode]] else []

/-- The steps of writing the code `Normal` in front of properties. -/
def normalSteps (packet : DisconnectPacket) : List EncodeStep :=
  match packet.properties.size with
  | none => [.fail .panic]
  | some size =>
      if size ≠ 0 ∧ packet.reasonCode = DisconnectReasonCode.normal then
        [.put [packet.reasonCode]]
      else []

/-- The steps of writing a DISCONNECT. -/
def steps (config : CrateConfig) (packet : DisconnectPacket) : List EncodeStep :=
  packet.codeSteps ++
    match config.protocol with
    | .mqttv3 => []
    | .mqttv5 => packet.normalSteps ++ packet.properties.steps

theorem follows (config : CrateConfig) (packet : DisconnectPacket) :
    Follows (MqttEncode.writeBody config packet) (packet.steps config) := by
  have code : Follows packet.writeCode packet.codeSteps := by
    unfold writeCode codeSteps
    split
    · exact Follows.writeU8 _
    · exact Follows.pure
  have normal : Follows packet.writeNormal packet.normalSteps := by
    unfold writeNormal normalSteps
    cases packet.properties.size with
    | none => exact Follows.throw _
    | some size =>
        dsimp only
        split
        · exact Follows.writeU8 _
        · exact Follows.pure
  apply code.bind
  unfold writeDetail
  cases config.protocol with
  | mqttv3 => exact Follows.pure
  | mqttv5 => exact normal.bind (Follows.writeProperties packet.properties)

end DisconnectPacket

namespace MqttEncoder

variable {before after : MqttEncoder}

/-- Finalizing panics when the remaining length cannot be announced. -/
theorem finalizeFixedHeader_of_large (typ : PacketType) (flags : UInt8)
    (large : 2 ^ 28 ≤ before.offset - maxMqttHeaderLen) :
    ∃ after, finalizeFixedHeader typ flags before = .error .panic after := by
  refine ⟨before, ?_⟩
  apply Encode.bind_eq_error
  have none_left : varintLen (before.offset - maxMqttHeaderLen) = none := by
    rcases found : varintLen (before.offset - maxMqttHeaderLen) with _ | len
    · rfl
    · have := (varintLen_eq_some found).1
      omega
  simp only [openHeader, none_left]

/-- Everything but the rotation succeeds in a buffer that the longest header fits into. -/
theorem finalizeFixedHeader_eq_closeHeader (typ : PacketType) (flags : UInt8)
    (start : before.headerStart = maxMqttHeaderLen) (body : maxMqttHeaderLen ≤ before.offset)
    (header : maxMqttHeaderLen ≤ before.buf.length)
    (small : before.offset - maxMqttHeaderLen < 2 ^ 28) :
    ∃ sized, finalizeFixedHeader typ flags before =
        closeHeader (before.offset - maxMqttHeaderLen) sized ∧
      sized.offset = maxMqttHeaderLen ∧ sized.buf.length = before.buf.length := by
  rcases openHeader_eq start body small with ⟨opened, opens, buf, gap⟩
  have length : opened.buf.length = before.buf.length := by rw [buf]
  have sizes : (EncodeStep.allBytes ([.put [typ.toByte ||| flags]] ++
      Write.allSteps [.plain (Varint.encode (before.offset - maxMqttHeaderLen))])).length =
        1 + (Varint.encode (before.offset - maxMqttHeaderLen)).length := by
    simp only [EncodeStep.allBytes_append, EncodeStep.allBytes_cons, EncodeStep.allBytes_nil,
      EncodeStep.bytes, Write.allBytes_allSteps, Write.allBytes_cons, Write.allBytes_nil,
      Write.bytes, List.append_nil, List.length_append, List.length_singleton]
  have succeeds : EncodeStep.fault opened.room ([.put [typ.toByte ||| flags]] ++
      Write.allSteps [.plain (Varint.encode (before.offset - maxMqttHeaderLen))]) = none := by
    have first : (1 : ℕ) ≤ opened.room := by
      unfold room
      omega
    have second : (Varint.encode (before.offset - maxMqttHeaderLen)).length ≤
        opened.room - 1 := by
      unfold room
      omega
    simp only [Write.allSteps, Write.steps, List.flatMap_cons, List.flatMap_nil, List.append_nil,
      List.cons_append, List.nil_append, EncodeStep.fault, List.length_singleton, if_pos first,
      if_pos second]
  have follows := (Follows.writeU8 (typ.toByte ||| flags)).bind
    (Follows.writeVarint (before.offset - maxMqttHeaderLen))
  rcases follows.succeeds opened (by omega) succeeds with ⟨sized, written, wrote⟩
  rcases Encode.bind_eq_ok.mp written with ⟨_, named, names, wroteLen⟩
  refine ⟨sized, ?_, ?_, wrote.advanced.length.trans length⟩
  · rw [finalizeFixedHeader, Encode.bind_of_ok opens, Encode.bind_of_ok names,
      Encode.bind_of_ok wroteLen]
  · rw [wrote.eq]
    dsimp only
    omega

/-- The fixed header is finalized exactly if the body lies in the buffer and its length can be
announced; otherwise the encoder panics. -/
theorem finalizeFixedHeader_outcome (typ : PacketType) (flags : UInt8)
    (start : before.headerStart = maxMqttHeaderLen) (body : maxMqttHeaderLen ≤ before.offset)
    (header : maxMqttHeaderLen ≤ before.buf.length) :
    if before.offset ≤ before.buf.length ∧ before.offset - maxMqttHeaderLen < 2 ^ 28 then
      ∃ after, finalizeFixedHeader typ flags before = .ok () after
    else ∃ after, finalizeFixedHeader typ flags before = .error .panic after := by
  by_cases small : before.offset - maxMqttHeaderLen < 2 ^ 28
  · rcases finalizeFixedHeader_eq_closeHeader typ flags start body header small with
      ⟨sized, closes, offset, length⟩
    rw [closes, closeHeader]
    by_cases inside : before.offset ≤ before.buf.length
    · rw [if_pos ⟨inside, small⟩]
      rw [if_neg (by omega)]
      exact ⟨_, rfl⟩
    · rw [if_neg fun both => inside both.1]
      rw [if_pos (by omega)]
      exact ⟨_, rfl⟩
  · rw [if_neg fun both => small both.2]
    exact finalizeFixedHeader_of_large typ flags (Nat.not_lt.mp small)

end MqttEncoder

namespace EncodablePacket

/-- The steps of writing a packet, up to the payload of a PUBLISH. -/
def steps (config : CrateConfig) : EncodablePacket → List EncodeStep
  | connect packet => packet.steps config
  | connAck packet => packet.steps config
  | publish packet => packet.headSteps config
  | ack packet => packet.steps config
  | subscribe packet => packet.steps config
  | codesAck packet => packet.steps config
  | unsubscribe packet => packet.steps config
  | pingReq _ | pingResp _ => []
  | disconnect packet => packet.steps config

/-- The bytes of a packet, up to the payload of a PUBLISH. -/
def headBytes (config : CrateConfig) (packet : EncodablePacket) : List UInt8 :=
  EncodeStep.allBytes (packet.steps config)

/-- The number of bytes that the payload takes when it is given the rest of the buffer. -/
def payloadLength (rest : List UInt8) : EncodablePacket → Except EncodeFault ℕ
  | publish packet => (packet.payload.serialize rest).1
  | _ => .ok 0

/-- What is left of the buffer behind the bytes in front of the payload. -/
def rest (config : CrateConfig) (packet : EncodablePacket) (buf : List UInt8) : List UInt8 :=
  buf.drop (maxMqttHeaderLen + (packet.headBytes config).length)

/-- How the encoding of a packet fails in a buffer, if it does. -/
def fault (config : CrateConfig) (packet : EncodablePacket) (buf : List UInt8) :
    Option EncodeFault :=
  match EncodeStep.fault (buf.length - maxMqttHeaderLen) (packet.steps config) with
  | some fault => some fault
  | none =>
      match packet.payloadLength (packet.rest config buf) with
      | .error fault => some fault
      | .ok count =>
          let len := (packet.headBytes config).length + count
          if maxMqttHeaderLen + len ≤ buf.length ∧ len < 2 ^ 28 then none else some .panic

end EncodablePacket

/-- The outcome of an operation is the one that is foretold. -/
def Encode.Meets (operation : Encode Unit) (before : MqttEncoder) : Option EncodeFault → Prop
  | none => ∃ after, operation before = .ok () after
  | some fault => ∃ after, operation before = .error fault after

section Meets

variable {operation : Encode Unit} {before : MqttEncoder} {outcome : Option EncodeFault}

theorem Encode.Meets.exists_ok_iff (meets : Encode.Meets operation before outcome) :
    (∃ after, operation before = .ok () after) ↔ outcome = none := by
  cases outcome with
  | none => exact iff_of_true meets rfl
  | some fault =>
      rcases meets with ⟨after, failed⟩
      simp [failed]

theorem Encode.Meets.exists_error_iff (meets : Encode.Meets operation before outcome)
    {fault : EncodeFault} :
    (∃ after, operation before = .error fault after) ↔ outcome = some fault := by
  cases outcome with
  | none =>
      rcases meets with ⟨after, done⟩
      simp [done]
  | some foretold =>
      rcases meets with ⟨after, failed⟩
      simp [failed]

end Meets

section Outcome

variable {Packet : Type} [MqttEncode Packet] {config : CrateConfig} {packet : Packet}
  {steps : List EncodeStep} {buf : List UInt8}

theorem meets_of_follows (follows : Follows (MqttEncode.writeBody config packet) steps)
    (header : maxMqttHeaderLen ≤ buf.length) :
    Encode.Meets (MqttEncode.toBuffer config packet) (MqttEncoder.new buf)
      (match EncodeStep.fault (buf.length - maxMqttHeaderLen) steps with
      | some fault => some fault
      | none =>
          let len := (EncodeStep.allBytes steps).length
          if maxMqttHeaderLen + len ≤ buf.length ∧ len < 2 ^ 28 then none else some .panic) := by
  rcases outcome : EncodeStep.fault (buf.length - maxMqttHeaderLen) steps with _ | fault
  · rcases follows.succeeds (MqttEncoder.new buf) header outcome with ⟨body, written, wrote⟩
    have offset : body.offset = maxMqttHeaderLen + (EncodeStep.allBytes steps).length := by
      rw [wrote.eq]
      rfl
    have length : body.buf.length = buf.length := wrote.advanced.length
    have finalizes := finalizeFixedHeader_outcome (MqttEncode.packetType packet)
      (MqttEncode.flags packet) wrote.advanced.headerStart (by omega) (by omega)
    rw [offset, length, Nat.add_sub_cancel_left] at finalizes
    dsimp only
    split at finalizes
    · rename_i both
      rcases finalizes with ⟨encoder, done⟩
      rw [if_pos both]
      exact ⟨encoder, (Encode.bind_of_ok written).trans done⟩
    · rename_i both
      rcases finalizes with ⟨encoder, panicked⟩
      rw [if_neg both]
      exact ⟨encoder, (Encode.bind_of_ok written).trans panicked⟩
  · rcases follows.fails (MqttEncoder.new buf) fault header outcome with ⟨encoder, failed⟩
    exact ⟨encoder, Encode.bind_eq_error failed⟩

end Outcome

namespace Publish

variable {config : CrateConfig} {packet : Publish} {buf : List UInt8}

theorem writePayload_outcome {before : MqttEncoder} (payload : ToPayload)
    (inside : before.offset ≤ before.buf.length) :
    match (payload.serialize (before.buf.drop before.offset)).1 with
    | .error fault => ∃ after, writePayload payload before = .error fault after
    | .ok count => ∃ after, writePayload payload before = .ok () after ∧
        after.offset = before.offset + count ∧ after.buf.length = before.buf.length ∧
        after.headerStart = before.headerStart := by
  have same := payload.length_serialize (before.buf.drop before.offset)
  unfold writePayload
  rw [if_neg (Nat.not_lt.mpr inside)]
  rcases serialized : payload.serialize (before.buf.drop before.offset) with ⟨_ | count, rest⟩
  · exact ⟨_, rfl⟩
  · simp only [serialized, List.length_drop] at same
    refine ⟨_, rfl, rfl, ?_, rfl⟩
    simp only [List.length_append, List.length_take]
    omega

theorem drop_of_wrote {head : MqttEncoder} {bytes : List UInt8}
    (wrote : (MqttEncoder.new buf).Wrote bytes head) :
    head.buf.drop head.offset = buf.drop (maxMqttHeaderLen + bytes.length) := by
  rw [wrote.eq]
  exact drop_overwrite wrote.fits

theorem toBuffer_meets (header : maxMqttHeaderLen ≤ buf.length) :
    Encode.Meets (MqttEncode.toBuffer config packet) (MqttEncoder.new buf)
      ((EncodablePacket.publish packet).fault config buf) := by
  have body_eq := writeBody_eq config packet
  have follows := packet.follows_writeHead config
  unfold EncodablePacket.fault
  rcases outcome : EncodeStep.fault (buf.length - maxMqttHeaderLen)
    ((EncodablePacket.publish packet).steps config) with _ | fault
  · rcases follows.succeeds (MqttEncoder.new buf) header outcome with ⟨head, written, wrote⟩
    have payload := writePayload_outcome packet.payload wrote.inside
    have offset : head.offset = maxMqttHeaderLen +
        ((EncodablePacket.publish packet).headBytes config).length := by
      rw [wrote.eq]
      rfl
    have length : head.buf.length = buf.length := wrote.advanced.length
    have headerStart : head.headerStart = maxMqttHeaderLen := wrote.advanced.headerStart
    have serialized : (packet.payload.serialize (head.buf.drop head.offset)).1 =
        (EncodablePacket.publish packet).payloadLength
          ((EncodablePacket.publish packet).rest config buf) := by
      rw [drop_of_wrote wrote]
      rfl
    rw [serialized] at payload
    dsimp only
    rcases returned : (EncodablePacket.publish packet).payloadLength
      ((EncodablePacket.publish packet).rest config buf) with fault | count
    · rw [returned] at payload
      rcases payload with ⟨after, failed⟩
      refine ⟨after, Encode.bind_eq_error ?_⟩
      rw [body_eq, Encode.bind_of_ok written]
      exact failed
    · rw [returned] at payload
      rcases payload with ⟨body, done, moved, kept, start⟩
      have wroteBody : MqttEncode.writeBody config packet (MqttEncoder.new buf) = .ok () body := by
        rw [body_eq, Encode.bind_of_ok written]
        exact done
      have finalizes := finalizeFixedHeader_outcome .publish packet.flags
        (start.trans headerStart) (by omega) (by omega)
      rw [moved, kept, offset, length, Nat.add_assoc, Nat.add_sub_cancel_left] at finalizes
      dsimp only
      split at finalizes
      · rename_i both
        rcases finalizes with ⟨encoder, finalized⟩
        rw [if_pos both]
        exact ⟨encoder, (Encode.bind_of_ok wroteBody).trans finalized⟩
      · rename_i both
        rcases finalizes with ⟨encoder, panicked⟩
        rw [if_neg both]
        exact ⟨encoder, (Encode.bind_of_ok wroteBody).trans panicked⟩
  · rcases follows.fails (MqttEncoder.new buf) fault header outcome with ⟨encoder, failed⟩
    refine ⟨encoder, Encode.bind_eq_error ?_⟩
    rw [body_eq]
    exact Encode.bind_eq_error failed

end Publish

namespace EncodablePacket

/-- Whatever is encoded into whatever buffer, the outcome is known. -/
theorem toBuffer_meets (config : CrateConfig) (packet : EncodablePacket) {buf : List UInt8}
    (header : maxMqttHeaderLen ≤ buf.length) :
    Encode.Meets (packet.toBuffer config) (MqttEncoder.new buf) (packet.fault config buf) := by
  cases packet with
  | publish packet => exact Publish.toBuffer_meets header
  | connect packet => exact meets_of_follows (packet.follows config) header
  | connAck packet => exact meets_of_follows (packet.follows config) header
  | ack packet => exact meets_of_follows (packet.follows config) header
  | subscribe packet => exact meets_of_follows (packet.follows config) header
  | codesAck packet => exact meets_of_follows (packet.follows config) header
  | unsubscribe packet => exact meets_of_follows (packet.follows config) header
  | disconnect packet => exact meets_of_follows (packet.follows config) header
  | pingReq packet =>
      have follows : Follows (MqttEncode.writeBody config packet) [] := Follows.pure
      exact meets_of_follows follows header
  | pingResp packet =>
      have follows : Follows (MqttEncode.writeBody config packet) [] := Follows.pure
      exact meets_of_follows follows header

end EncodablePacket

end Mqttrust
