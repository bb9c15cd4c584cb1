import Mqttrust.Encoding.DecodingPanics
import Mqttrust.Reader.Assembly
import Mqttrust.System.PubAcks
import Mqttrust.System.Subscription

/-!
# Frames that were acknowledged

A PUBLISH is parsed twice. `ReceivedPacket::from_buffer` takes its topic and its packet
identifier from the bytes that `recv` has read, and the stack commits the packet to the
RX channel and acknowledges it. `Message::try_new` parses the frame of the channel when
a subscription is polled, with its properties and its payload.
-/

namespace Mqttrust

variable {config : CrateConfig}

/-- The fields of a PUBLISH lie within its bytes: its topic, the packet identifier that its quality
of service asks for, and its properties. -/
def PublishFields (config : CrateConfig) (decoder : MqttDecoder) : Prop :=
  ∃ (topicName : Utf8) (qosPid : QosPid) (block payload : List UInt8),
    decoder.rest = u16Bytes topicName.bytes.length ++
      (topicName.bytes ++ (qosPid.bytes ++ (block ++ payload))) ∧
    topicName.bytes.length < 65536 ∧ decoder.fixedHeader.qos = qosPid.qos ∧
    PropertyBlock config.protocol block

namespace MqttDecoder

variable {decoder next : MqttDecoder} {topicName : Utf8} {qosPid : QosPid} {rest : List UInt8}

theorem readStr_bytes (small : topicName.bytes.length < 65536)
    (split : decoder.rest = u16Bytes topicName.bytes.length ++ (topicName.bytes ++ rest)) :
    decoder.readStr = .ok (topicName, { decoder with
      rest := rest, offset := decoder.offset + 2 + topicName.bytes.length }) := by
  rcases decoder with ⟨bytes, offset, headerLen, header⟩
  rcases ServerPacket.u16Bytes_eq small with ⟨high, low, two, value⟩
  have isBytes : bytes = high :: low :: (topicName.bytes ++ rest) := by
    rw [two] at split
    exact split
  rw [isBytes]
  exact readStr_cons rest offset headerLen header value

theorem rest_of_readStr_eq_ok (read : decoder.readStr = .ok (topicName, next)) :
    decoder.rest = u16Bytes topicName.bytes.length ++ (topicName.bytes ++ next.rest) ∧
      topicName.bytes.length < 65536 := by
  rcases exists_of_readStr_eq_ok read with ⟨high, low, split, length, _⟩
  have upper := high.toNat_lt
  have lower := low.toNat_lt
  refine ⟨?_, by omega⟩
  rw [split, ← length, PropertiesIter.u16Bytes_add]
  rfl

/-- The topic, the packet identifier and what follows them are determined by the bytes. -/
theorem fields_unique {topicName' : Utf8} {qosPid' : QosPid} {rest' : List UInt8}
    (split : decoder.rest =
      u16Bytes topicName.bytes.length ++ (topicName.bytes ++ (qosPid.bytes ++ rest)))
    (small : topicName.bytes.length < 65536) (qos : decoder.fixedHeader.qos = qosPid.qos)
    (split' : decoder.rest =
      u16Bytes topicName'.bytes.length ++ (topicName'.bytes ++ (qosPid'.bytes ++ rest')))
    (small' : topicName'.bytes.length < 65536) (qos' : decoder.fixedHeader.qos = qosPid'.qos) :
    topicName' = topicName ∧ qosPid' = qosPid ∧ rest' = rest := by
  have topic := readStr_bytes small split
  rw [readStr_bytes small' split'] at topic
  simp only [Except.ok.injEq, Prod.mk.injEq, MqttDecoder.mk.injEq] at topic
  rcases topic with ⟨sameTopic, behind, _⟩
  have left : (MqttDecoder.mk (qosPid.bytes ++ rest) 0 0 decoder.fixedHeader).readQosPid =
    .ok (qosPid, ⟨rest, 0 + qosPid.bytes.length, 0, decoder.fixedHeader⟩) :=
    readQosPid_bytes rest 0 0 qos
  rw [← behind, readQosPid_bytes rest' 0 0 qos'] at left
  simp only [Except.ok.injEq, Prod.mk.injEq, MqttDecoder.mk.injEq] at left
  exact ⟨sameTopic, left.1, left.2.1⟩

theorem readPropertiesRange_block {protocol : Protocol} {block : List UInt8}
    (isBlock : PropertyBlock protocol block) (rest : List UInt8) (offset headerLen : ℕ)
    (header : FixedHeader) :
    ∃ range, (MqttDecoder.mk (block ++ rest) offset headerLen header).readPropertiesRange protocol =
      .ok (range, ⟨rest, offset + block.length, headerLen, header⟩) := by
  cases protocol with
  | mqttv3 =>
      have empty : block = [] := isBlock
      rw [empty]
      exact ⟨none, rfl⟩
  | mqttv5 =>
      have split : (MqttDecoder.mk (block ++ rest) offset headerLen header).rest = block ++ rest :=
        rfl
      rcases readProperties_of_block isBlock split with ⟨properties, read⟩
      refine ⟨some ⟨offset, offset + block.length⟩, ?_⟩
      simp only [readPropertiesRange, read, bind, Except.bind, advance, List.drop_left]

theorem exists_of_readPropertiesRange_eq_ok {protocol : Protocol} {range : Option Range}
    (read : decoder.readPropertiesRange protocol = .ok (range, next)) :
    ∃ block, PropertyBlock protocol block ∧ decoder.rest = block ++ next.rest := by
  cases protocol with
  | mqttv3 =>
      simp only [readPropertiesRange, Except.ok.injEq, Prod.mk.injEq] at read
      exact ⟨[], rfl, by rw [read.2, List.nil_append]⟩
  | mqttv5 =>
      rcases exists_of_bind_eq_ok read with ⟨⟨properties, after⟩, block_eq, same⟩
      simp only [Except.ok.injEq, Prod.mk.injEq] at same
      rw [← same.2]
      exact exists_of_readProperties_eq_ok block_eq

end MqttDecoder

namespace Message

variable {frame : List UInt8} {decoder : MqttDecoder} {message : Message}

theorem publishFields_of_tryNew (parsed : tryNew config frame = .ok message) :
    ∃ decoder, MqttDecoder.tryNew config frame = .ok decoder ∧ PublishFields config decoder := by
  rcases exists_of_bind_eq_ok parsed with ⟨decoder, created, parsed⟩
  rcases exists_of_bind_eq_ok parsed with ⟨_, _, parsed⟩
  rcases exists_of_bind_eq_ok parsed with ⟨⟨topicName, afterTopic⟩, topic, parsed⟩
  rcases exists_of_bind_eq_ok parsed with ⟨⟨qosPid, afterPid⟩, pid, parsed⟩
  rcases exists_of_bind_eq_ok parsed with ⟨⟨range, behind⟩, block_eq, _⟩
  rcases MqttDecoder.rest_of_readStr_eq_ok topic with ⟨topicSplit, small⟩
  rcases MqttDecoder.exists_of_readQosPid_eq_ok pid with ⟨pidSplit, qos⟩
  rcases MqttDecoder.exists_of_readPropertiesRange_eq_ok block_eq with ⟨block, isBlock, split⟩
  have header : afterTopic.fixedHeader = decoder.fixedHeader := by
    rcases MqttDecoder.exists_of_readStr_eq_ok topic with ⟨_, _, _, _, moved⟩
    rw [moved]
  refine ⟨decoder, created, topicName, qosPid, block, behind.rest, ?_, small, ?_, isBlock⟩
  · rw [topicSplit, pidSplit, split]
  · rw [← header]
    exact qos

/-- A complete frame with the fields of a PUBLISH is accepted, and they are the fields of the
message. -/
theorem exists_of_fields (created : MqttDecoder.tryNew config frame = .ok decoder)
    (whole : frame.length = decoder.packetLen) {topicName : Utf8} {qosPid : QosPid}
    {block payload : List UInt8}
    (split : decoder.rest = u16Bytes topicName.bytes.length ++
      (topicName.bytes ++ (qosPid.bytes ++ (block ++ payload))))
    (small : topicName.bytes.length < 65536) (qos : decoder.fixedHeader.qos = qosPid.qos)
    (isBlock : PropertyBlock config.protocol block) :
    ∃ message, tryNew config frame = .ok message ∧ message.topicNameBytes = topicName.bytes ∧
      message.qosPid = qosPid := by
  rcases MqttDecoder.exists_of_tryNew_eq_ok created with ⟨head, frame_eq, length, offset, _, _⟩
  have two : (u16Bytes topicName.bytes.length).length = 2 := rfl
  have lengths := congrArg List.length split
  have total := congrArg List.length frame_eq
  simp only [List.length_append, two] at lengths total
  unfold MqttDecoder.packetLen at whole
  have enough : decoder.checkRemaining decoder.fixedHeader.remainingLen = .ok () :=
    if_neg (by omega)
  have topic := MqttDecoder.readStr_bytes small split
  have pid := readQosPid_bytes (block ++ payload) (decoder.offset + 2 + topicName.bytes.length)
    decoder.headerLen qos
  rcases MqttDecoder.readPropertiesRange_block isBlock payload
    (decoder.offset + 2 + topicName.bytes.length + qosPid.bytes.length) decoder.headerLen
    decoder.fixedHeader with ⟨range, properties⟩
  have left := ServerPacket.readPayload_codes payload
    (decoder.offset + 2 + topicName.bytes.length + qosPid.bytes.length + block.length)
    decoder.headerLen decoder.fixedHeader (by omega)
  have parsed : tryNew config frame = .ok
      { grant := frame
        header := decoder.fixedHeader
        qosPid := qosPid
        topicName := ⟨decoder.offset + 2, decoder.offset + 2 + topicName.bytes.length⟩
        payload := ⟨decoder.offset + 2 + topicName.bytes.length + qosPid.bytes.length +
          block.length, decoder.offset + 2 + topicName.bytes.length + qosPid.bytes.length +
          block.length + payload.length⟩
        properties := range } := by
    unfold tryNew
    rw [created]
    simp only [bind, Except.bind, enough, topic, pid, properties, left]
  refine ⟨_, parsed, ?_, rfl⟩
  have front : (head ++ u16Bytes topicName.bytes.length).length = decoder.offset + 2 := by
    rw [List.length_append, length, offset, two]
  have whole_eq : frame = head ++ u16Bytes topicName.bytes.length ++ topicName.bytes ++
      (qosPid.bytes ++ (block ++ payload)) := by
    rw [frame_eq, split]
    simp
  rw [topicNameBytes]
  dsimp only
  rw [whole_eq, ← front]
  exact Range.slice_append _ _ _

end Message

section Parsers

variable {buf frame : List UInt8} {qosPid : QosPid} {topicName : Utf8} {publish : PartialPublish}

theorem fields_of_fromBuffer (accepted : ReceivedPacket.fromBuffer config buf =
    .ok (.partialPublish qosPid topicName publish)) :
    ∃ decoder rest, MqttDecoder.tryNew config buf = .ok decoder ∧
      publish = ⟨buf.take decoder.packetLen, decoder.packetLen⟩ ∧
      decoder.rest = u16Bytes topicName.bytes.length ++
        (topicName.bytes ++ (qosPid.bytes ++ rest)) ∧
      topicName.bytes.length < 65536 ∧ decoder.fixedHeader.qos = qosPid.qos := by
  rcases exists_of_bind_eq_ok accepted with ⟨decoder, created, accepted⟩
  have mapped {Packet : Type} {packet : Except Fault Packet} {wrap : Packet → ReceivedPacket}
      (same : wrap <$> packet = .ok (.partialPublish qosPid topicName publish)) :
      ∃ value, wrap value = .partialPublish qosPid topicName publish := by
    cases packet with
    | error fault => simp [Functor.map, Except.map] at same
    | ok value => exact ⟨value, Except.ok.inj same⟩
  cases typ : decoder.fixedHeader.typ with
  | publish =>
      simp only [typ] at accepted
      rcases exists_of_bind_eq_ok accepted with ⟨⟨text, afterTopic⟩, topic, accepted⟩
      rcases exists_of_bind_eq_ok accepted with ⟨identifier, pid, same⟩
      simp only [Except.ok.injEq, ReceivedPacket.partialPublish.injEq] at same
      rcases same with ⟨rfl, rfl, rfl⟩
      rcases MqttDecoder.rest_of_readStr_eq_ok topic with ⟨split, small⟩
      rcases MqttDecoder.exists_readQosPid_of_fromDecoder pid with ⟨behind, found⟩
      rcases MqttDecoder.exists_of_readQosPid_eq_ok found with ⟨pidSplit, qos⟩
      rcases MqttDecoder.exists_of_readStr_eq_ok topic with ⟨_, _, _, _, moved⟩
      refine ⟨decoder, behind.rest, created, ?_, ?_, small, ?_⟩
      · rw [moved]
        rfl
      · rw [split, pidSplit]
      · rw [moved] at qos
        exact qos
  | pingResp => simp [typ] at accepted
  | connect | subscribe | unsubscribe | pingReq | auth =>
      simp only [typ] at accepted
      exact absurd accepted MqttDecoder.fail_ne_ok
  | connAck | pubAck | pubRec | pubRel | pubComp | subAck | unsubAck | disconnect =>
      simp only [typ] at accepted
      rcases mapped accepted with ⟨value, same⟩
      cases same

/-- The topic name of the message that `poll_next` makes of a read grant, if the frame is
accepted. -/
def Message.topicOf? (config : CrateConfig) (grant : List UInt8) : Option Utf8 :=
  match Message.tryNew config grant with
  | .ok message => Utf8.ofBytes? message.topicNameBytes
  | .error _ => none

/-- The second parser accepts the frame with what the first parser has taken from it, and every
subscription with a matching filter gets the message. -/
structure ParsersAgree (config : CrateConfig) (frame : List UInt8) (qosPid : QosPid)
    (topicName : Utf8) : Prop where
  parsed : ∃ message, Message.tryNew config frame = .ok message ∧
    message.topicNameBytes = topicName.bytes ∧ message.qosPid = qosPid
  polled : ∀ (subscription : System.Subscription config) (shared : System.Shared config),
    shared.cleanSessionCount = subscription.createdCleanSessionCount →
    (subscription.topicFilters.any fun filter => filter.isMatch topicName) = true →
    subscription.pollNext shared false (Message.topicOf? config frame) = .message topicName

theorem parsersAgree_of_parsed (parsed : ∃ message, Message.tryNew config frame = .ok message ∧
      message.topicNameBytes = topicName.bytes ∧ message.qosPid = qosPid) :
    ParsersAgree config frame qosPid topicName := by
  refine ⟨parsed, ?_⟩
  intro subscription shared current isMatch
  rcases parsed with ⟨message, accepted, topic, _⟩
  have found : Message.topicOf? config frame = some topicName := by
    rw [Message.topicOf?, accepted]
    dsimp only
    rw [topic, Utf8.ofBytes?_bytes]
  rw [found, System.Subscription.pollNext, if_neg Bool.false_ne_true, if_neg (not_not.mpr current)]
  exact if_pos isMatch

/-- The parsers agree on a packet whose fields lie within it. -/
theorem parsersAgree_of_fields (accepted : ReceivedPacket.fromBuffer config buf =
      .ok (.partialPublish qosPid topicName publish)) (received : buf <+: frame)
    (whole : frame.length = publish.packetLen) {decoder : MqttDecoder}
    (created : MqttDecoder.tryNew config frame = .ok decoder)
    (fields : PublishFields config decoder) : ParsersAgree config frame qosPid topicName := by
  rcases fields with ⟨topicName', qosPid', block, payload, split, small, qos, isBlock⟩
  rcases fields_of_fromBuffer accepted with ⟨decoder', rest, created', rfl, split', small', qos'⟩
  rcases received with ⟨more, rfl⟩
  have extended := MqttDecoder.tryNew_append created' more
  rw [created] at extended
  cases extended
  have longer : (MqttDecoder.mk (decoder'.rest ++ more) decoder'.offset decoder'.headerLen
      decoder'.fixedHeader).rest = u16Bytes topicName.bytes.length ++
        (topicName.bytes ++ (qosPid.bytes ++ (rest ++ more))) := by
    change decoder'.rest ++ more = _
    rw [split']
    simp
  rcases MqttDecoder.fields_unique longer small' qos' split small qos with ⟨rfl, rfl, _⟩
  apply parsersAgree_of_parsed
  exact Message.exists_of_fields created whole split small qos isBlock

theorem parsersAgree_of_mqttv3 (v3 : config.protocol = .mqttv3)
    (accepted : ReceivedPacket.fromBuffer config buf =
      .ok (.partialPublish qosPid topicName publish)) (received : buf <+: frame)
    (whole : frame.length = publish.packetLen) :
    ParsersAgree config frame qosPid topicName := by
  rcases fields_of_fromBuffer accepted with ⟨decoder, rest, created, _, split, small, qos⟩
  rcases received with ⟨more, rfl⟩
  apply parsersAgree_of_fields accepted (List.prefix_append _ _) whole
    (MqttDecoder.tryNew_append created more)
  refine ⟨topicName, qosPid, [], rest ++ more, ?_, small, qos, ?_⟩
  · change decoder.rest ++ more = _
    rw [split]
    simp
  · rw [v3]
    rfl

/-- The parsers agree on a packet exactly when its properties lie within it. -/
theorem parsers_agree_iff (accepted : ReceivedPacket.fromBuffer config buf =
      .ok (.partialPublish qosPid topicName publish)) (received : buf <+: frame)
    (whole : frame.length = publish.packetLen) :
    ParsersAgree config frame qosPid topicName ↔
      ∃ decoder, MqttDecoder.tryNew config frame = .ok decoder ∧ PublishFields config decoder := by
  constructor
  · intro agree
    rcases agree.parsed with ⟨message, parsed, _⟩
    exact Message.publishFields_of_tryNew parsed
  · rintro ⟨decoder, created, fields⟩
    exact parsersAgree_of_fields accepted received whole created fields

/-- A PUBLISH of QoS 1 with a property and a payload of two bytes, of which the topic and the packet
identifier have been read. -/
theorem parsers_agree_iff_example :
    ParsersAgree (.default .mqttv5 true) [0x32, 0x0A, 0, 1, 0x61, 0, 1, 2, 1, 1, 7, 8]
      (.atLeastOnce .new) ⟨[0x61], rfl⟩ := by
  have block : PropertyBlock .mqttv5 [2, 1, 1] := ⟨[2], [1, 1], rfl, rfl⟩
  apply (@parsers_agree_iff (.default .mqttv5 true) [0x32, 0x0A, 0, 1, 0x61, 0, 1] _
    (.atLeastOnce .new) ⟨[0x61], rfl⟩ ⟨[0x32, 0x0A, 0, 1, 0x61, 0, 1], 12⟩ (by decide)
    ⟨[2, 1, 1, 7, 8], rfl⟩ rfl).mpr
  exact ⟨_, rfl, ⟨[0x61], rfl⟩, .atLeastOnce .new, [2, 1, 1], [7, 8], rfl, by decide, rfl, block⟩

/-- A PUBLISH of QoS 1 that announces properties of five bytes and ends there. -/
theorem not_parsers_agree :
    ¬∀ (buf frame : List UInt8) (qosPid : QosPid) (topicName : Utf8) (publish : PartialPublish),
      ReceivedPacket.fromBuffer (.default .mqttv5 true) buf =
          .ok (.partialPublish qosPid topicName publish) →
        buf <+: frame → frame.length = publish.packetLen →
          ParsersAgree (.default .mqttv5 true) frame qosPid topicName := by
  intro agree
  have parsed := (agree [0x32, 0x06, 0, 1, 0x61, 0, 1, 5] [0x32, 0x06, 0, 1, 0x61, 0, 1, 5]
    (.atLeastOnce .new) ⟨[0x61], rfl⟩ ⟨[0x32, 0x06, 0, 1, 0x61, 0, 1, 5], 8⟩ (by decide)
    (List.prefix_refl _) rfl).parsed
  rcases parsed with ⟨message, accepted, _⟩
  have rejected : Message.tryNew (.default .mqttv5 true) [0x32, 0x06, 0, 1, 0x61, 0, 1, 5] =
    fail .insufficientBytes := by decide
  rw [rejected] at accepted
  exact MqttDecoder.fail_ne_ok accepted

end Parsers

/-! ### The frames that the stack commits -/

namespace PacketReader

variable {reader next : PacketReader config} {socket rest : Socket} {packet : ReceivedPacket}

theorem decode_of_finish (returned : reader.finish socket = .returned (.ok packet) next rest) :
    reader.decode = .ok packet := by
  unfold finish at returned
  cases decoded : reader.decode with
  | ok received =>
      simp only [decoded, Recv.returned.injEq, Except.ok.injEq] at returned
      rw [returned.1]
  | error fault => cases fault <;> simp [decoded] at returned

/-- What has been received of a packet of known length ends within the packet. -/
theorem endsWithinPacket_assembled {decoder : MqttDecoder}
    (header : parseHeader config reader.buf = .ok decoder) (more : List UInt8)
    (inside : reader.buf.length ≤ decoder.packetLen) :
    EndsWithinPacket config
      ((assembled config (reader.buf ++ more) decoder.packetLen).buf.take decoder.packetLen) := by
  intro other created
  rcases exists_tryNew_of_parseHeader header with ⟨first, found, same, _⟩
  have fits := reader.fits
  have begins : (assembled config (reader.buf ++ more) decoder.packetLen).buf.take
      decoder.packetLen = reader.buf ++
        more.take (min decoder.packetLen config.readBufLen - reader.buf.length) := by
    change ((reader.buf ++ more).take config.readBufLen).take decoder.packetLen = _
    rw [List.take_take, List.take_append, List.take_of_length_le (by omega)]
  have known := MqttDecoder.tryNew_append found
    (more.take (min decoder.packetLen config.readBufLen - reader.buf.length))
  rw [begins, known] at created
  cases created
  change _ ≤ first.packetLen
  rw [same]
  exact List.length_take_le _ _

/-- A packet that `recv` returns was decoded from bytes of that packet only. -/
theorem exists_of_recvLoop_eq_ok {iterations : ℕ} (unknown : reader.packetLen = none)
    (returned : reader.recvLoop iterations socket = .returned (.ok packet) next rest) :
    ∃ buf, ReceivedPacket.fromBuffer config buf = .ok packet ∧ EndsWithinPacket config buf := by
  induction iterations generalizing reader socket with
  | zero =>
      rw [recvLoop, if_neg (by simp [unknown])] at returned
      simp at returned
  | succ iterations ih =>
      rw [recvLoop_succ unknown] at returned
      rcases chunk : reader.readChunk socket with ⟨middle, between⟩ | ⟨kind, _, _⟩ | _ | _
      · rw [chunk] at returned
        dsimp only at returned
        rcases readChunk_eq_done unknown chunk with
          ⟨decoder, taken, header, inside, rfl⟩ | ⟨_, ⟨_, rfl, rfl⟩ | ⟨_, _, rfl, rfl⟩⟩
        · rw [recvLoop_of_known rfl] at returned
          exact ⟨_, decode_of_finish returned,
            endsWithinPacket_assembled header _ (by omega)⟩
        · exact ih unknown returned
        · have unknown' : (reader.push (socket.bytes.take 1)).packetLen = none := unknown
          exact ih unknown' returned
      · simp [chunk] at returned
      · simp [chunk] at returned
      · simp [chunk] at returned

end PacketReader

namespace System

variable {T : Type} [Transport T]

/-- A PUBLISH that the first parser has accepted. -/
def Reception.Accepted (config : CrateConfig) (reception : Reception) : Prop :=
  ∃ buf topicName, ReceivedPacket.fromBuffer config buf =
      .ok (.partialPublish reception.qosPid topicName reception.publish) ∧
    EndsWithinPacket config buf

theorem accepted_settle (fate : Fate) {receptions : List Reception}
    (accepted : ∀ reception ∈ receptions, reception.Accepted config) :
    ∀ reception ∈ settle fate receptions, reception.Accepted config := by
  cases receptions with
  | nil => exact accepted
  | cons newest earlier =>
      intro reception listed
      rcases List.mem_cons.mp listed with rfl | older
      · exact accepted newest List.mem_cons_self
      · exact accepted reception (List.mem_cons_of_mem _ older)

namespace Inbound

variable {inbound next : Inbound T config} {publishing : InboundPublish} {link : Link T config}

omit [Transport T] in
theorem receptions_encode {Packet : Type} [MqttEncode Packet] {packet : Packet}
    {encoded failed : Link T config} (stepped : inbound.encode packet encoded failed = some next) :
    next.receptions = inbound.receptions := by
  unfold encode at stepped
  split at stepped
  · rcases Option.some.inj stepped with rfl
    rfl
  · rcases Option.some.inj stepped with rfl
    rfl
  · simp at stepped

omit [Transport T] in
theorem receptions_goOn (stepped : inbound.goOn link = some next) :
    next.receptions = inbound.receptions := by
  unfold goOn at stepped
  split at stepped
  · exact receptions_encode stepped
  · rcases Option.some.inj stepped with rfl
    rfl

theorem receptions_proceed {payload : Payload}
    (stepped : inbound.proceed publishing payload = some next) :
    next.receptions = inbound.receptions := by
  simp only [proceed, Option.bind_eq_bind, Option.bind_eq_some_iff] at stepped
  rcases stepped with ⟨_, _, _, _, stepped⟩
  have same := receptions_goOn stepped
  exact same

/-- The publishes that were received have been accepted. -/
def AllAccepted (inbound : Inbound T config) : Prop :=
  ∀ reception ∈ inbound.receptions, reception.Accepted config

namespace AllAccepted

omit [Transport T] in
theorem of_receptions (accepted : inbound.AllAccepted)
    (same : next.receptions = inbound.receptions) : next.AllAccepted := by
  unfold AllAccepted
  rw [same]
  exact accepted

theorem recv {socket : Socket} (accepted : inbound.AllAccepted)
    (stepped : inbound.recv socket = some next) : next.AllAccepted := by
  simp only [Inbound.recv, Option.bind_eq_bind, Option.bind_eq_some_iff,
    Option.ite_none_left_eq_some] at stepped
  rcases stepped with ⟨_, _, _, stepped⟩
  split at stepped
  · rename_i qosPid topicName publish reader rest returned
    rcases PacketReader.exists_of_recvLoop_eq_ok (PacketReader.start_packetLen _) returned with
      ⟨buf, decoded, ends⟩
    have received (fate : Fate) : Reception.Accepted config ⟨qosPid, publish, fate⟩ :=
      ⟨buf, topicName, decoded, ends⟩
    simp only [grantImmediate, Option.bind_eq_bind, Option.bind_eq_some_iff] at stepped
    rcases stepped with ⟨rx, _, stepped⟩
    split at stepped
    · rcases Option.some.inj stepped with rfl
      exact List.forall_mem_cons.mpr ⟨received .granted, accepted⟩
    · rcases Option.some.inj stepped with rfl
      exact List.forall_mem_cons.mpr ⟨received .refused, accepted⟩
  · rcases Option.bind_eq_some_iff.mp stepped with ⟨link, _, stepped⟩
    exact accepted.of_receptions (receptions_goOn stepped)

theorem copyAll (accepted : inbound.AllAccepted) (stepped : inbound.copyAll = some next) :
    next.AllAccepted := by
  simp only [Inbound.copyAll, Option.bind_eq_bind, Option.bind_eq_some_iff] at stepped
  rcases stepped with ⟨publishing, _, stepped⟩
  split at stepped
  · rename_i writer stage
    rcases Option.bind_eq_some_iff.mp stepped with ⟨grant, _, stepped⟩
    split at stepped
    · rename_i frame rest copied
      have settled := accepted_settle (.committed frame) accepted
      simp only [commit, Option.bind_eq_bind, Option.bind_eq_some_iff] at stepped
      rcases stepped with ⟨rx, _, stepped⟩
      split at stepped
      · rcases Option.some.inj stepped with rfl
        exact settled
      · have same := receptions_proceed stepped
        unfold AllAccepted
        rw [same]
        exact settled
    · rcases Option.bind_eq_some_iff.mp stepped with ⟨after, dropped, stepped⟩
      simp only [cut, Option.bind_eq_bind, Option.bind_eq_some_iff, Option.some.injEq] at dropped
      rcases dropped with ⟨rx, _, rfl⟩
      have same := receptions_proceed stepped
      unfold AllAccepted
      rw [same]
      exact accepted_settle .cut accepted
    · simp at stepped
    · simp at stepped
  · simp at stepped

theorem step {action : InboundAction T} (accepted : inbound.AllAccepted)
    (stepped : inboundStep inbound action = some next) : next.AllAccepted := by
  unfold inboundStep at stepped
  split at stepped
  · simp at stepped
  · cases action with
    | recv socket => exact accepted.recv stepped
    | copyAll => exact accepted.copyAll stepped
    | discard =>
        simp only [Inbound.discard, Option.bind_eq_bind, Option.bind_eq_some_iff] at stepped
        rcases stepped with ⟨publishing, _, stepped⟩
        split at stepped
        · split at stepped
          · exact accepted.of_receptions (receptions_proceed stepped)
          · exact accepted.of_receptions (receptions_proceed stepped)
          · simp at stepped
        · simp at stepped
    | insert =>
        simp only [Inbound.insert, Option.bind_eq_bind, Option.bind_eq_some_iff] at stepped
        rcases stepped with ⟨publishing, _, stepped⟩
        split at stepped
        · exact accepted.of_receptions (receptions_proceed stepped)
        · simp at stepped
    | subscriber action =>
        simp only [Option.ite_none_right_eq_some, Option.map_eq_some_iff] at stepped
        rcases stepped with ⟨_, rx, _, rfl⟩
        exact accepted
    | link action =>
        rcases Option.bind_eq_some_iff.mp stepped with ⟨link, _, stepped⟩
        unfold follow at stepped
        split at stepped
        · rcases Option.some.inj stepped with rfl
          exact accepted
        · rename_i publishing _
          unfold dropRun at stepped
          split at stepped
          · simp only [cut, Option.map_eq_some_iff, Option.bind_eq_bind, Option.bind_eq_some_iff,
              Option.some.injEq] at stepped
            rcases stepped with ⟨_, ⟨rx, _, rfl⟩, rfl⟩
            exact accepted_settle .cut accepted
          · rcases Option.some.inj stepped with rfl
            exact accepted
        · simp at stepped
        · simp at stepped
        · exact accepted.of_receptions (receptions_encode stepped)
        · exact accepted.of_receptions (receptions_goOn stepped)

end AllAccepted

end Inbound

omit [Transport T] in
/-- A frame that was committed is complete, and its beginning was accepted by the first parser. -/
theorem Inbound.AllAccepted.of_committed {capacity : ℕ} {inbound : Inbound T config}
    (accepted : inbound.AllAccepted) (accounts : Accounts config capacity inbound.rx inbound.receptions)
    {reception : Reception} (listed : reception ∈ inbound.receptions) {frame : List UInt8}
    (committed : reception.fate = .committed frame) :
    ∃ buf topicName, ReceivedPacket.fromBuffer config buf =
        .ok (.partialPublish reception.qosPid topicName reception.publish) ∧
      buf <+: frame ∧ frame.length = reception.publish.packetLen := by
  rcases accounts.whole reception listed frame committed with ⟨length, held⟩
  rcases accepted reception listed with ⟨buf, topicName, decoded, ends⟩
  refine ⟨buf, topicName, decoded, ?_, length⟩
  rcases fields_of_fromBuffer decoded with ⟨decoder, _, created, same, _⟩
  rwa [same, List.take_of_length_le (ends decoder created)] at held

/-- In every run, a frame that was committed is complete, and its beginning was accepted by the
first parser. -/
theorem committed_accepted {capacity : ℕ} {transport : T} {actions : List (InboundAction T)}
    {inbound : Inbound T config} (reached : inboundRun config capacity transport actions =
      some inbound) {reception : Reception} (listed : reception ∈ inbound.receptions)
    {frame : List UInt8} (committed : reception.fate = .committed frame) :
    ∃ buf topicName, ReceivedPacket.fromBuffer config buf =
        .ok (.partialPublish reception.qosPid topicName reception.publish) ∧
      buf <+: frame ∧ frame.length = reception.publish.packetLen := by
  have accepted : inbound.AllAccepted :=
    Execution.invariant_of_run Inbound.AllAccepted (fun held stepped => held.step stepped)
      (by simp [Inbound.AllAccepted, Inbound.new]) reached
  have disciplined := (Inbound.advances_of_run (.new config capacity transport) reached).disciplined
  exact accepted.of_committed disciplined.accounts listed committed

end System

end Mqttrust
