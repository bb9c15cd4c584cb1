import Mqttrust.Reader.Session

/-!
# Delivering the packets of a broker

What one completed call of `recv` makes of a packet that a broker sent: the header is
parsed as soon as its bytes are there, the rest is read once, and a PUBLISH is read to
its end when it is consumed. The packet is delivered when that single read returned
all of the rest, which does not matter for a PUBLISH.
-/

namespace Mqttrust

namespace ServerPacket

variable (config : CrateConfig) (packet : ServerPacket)

/-- The packets that the reader is meant for: a PUBLISH with a topic of at most `MAX_TOPIC_LEN`
bytes and at least two bytes behind it, and any other packet that fits into the read buffer. -/
def Receivable : Prop :=
  match packet with
  | publish _ _ qosPid topicName properties payload =>
      topicName.bytes.length ≤ config.maxTopicLen ∧
        2 ≤ (afterTopic config qosPid properties payload).length
  | packet => (packet.bytes config).length ≤ config.readBufLen

/-- The number of bytes that the reader needs before it takes the length from the header. -/
def headerSize : ℕ :=
  match packet with
  | publish _ _ _ topicName _ _ =>
      (packet.headerBytes config).length + 2 + topicName.bytes.length + 2
  | _ => (packet.headerBytes config).length

/-- What the client gets. -/
def delivered (consume : Consume) : Delivered :=
  match packet with
  | publish _ _ qosPid topicName _ _ =>
      .publish qosPid topicName (if consume = .copyAll then some (packet.bytes config) else none)
  | packet => .packet (packet.received config)

variable {config} {packet}

theorem length_headerBytes_le (config : CrateConfig) (packet : ServerPacket) :
    (packet.headerBytes config).length ≤ 5 := by
  have := Varint.encode_length_le (packet.body config).length
  rw [length_headerBytes]
  omega

theorem length_headerBytes_le_headerSize (config : CrateConfig) (packet : ServerPacket) :
    (packet.headerBytes config).length ≤ packet.headerSize config := by
  unfold headerSize
  split <;> omega

theorem headerSize_pos (config : CrateConfig) (packet : ServerPacket) :
    0 < packet.headerSize config := by
  have := two_le_length_headerBytes config packet
  have := length_headerBytes_le_headerSize config packet
  omega

theorem headerSize_of_ne_publish (config : CrateConfig) (notPublish : packet.typ ≠ .publish) :
    packet.headerSize config = (packet.headerBytes config).length := by
  unfold headerSize
  split
  · exact absurd rfl notPublish
  · rfl

theorem headerSize_le_length_bytes (receivable : packet.Receivable config) :
    packet.headerSize config ≤ (packet.bytes config).length := by
  rw [length_bytes]
  unfold headerSize
  split
  · have := receivable.2
    simp only [body, afterTopic, List.length_append] at this ⊢
    have : ∀ value, (u16Bytes value).length = 2 := fun _ => rfl
    rw [this]
    omega
  · exact Nat.le_add_right _ _

theorem headerSize_le_readBufLen (receivable : packet.Receivable config) :
    packet.headerSize config ≤ config.readBufLen := by
  have := length_headerBytes_le config packet
  cases packet with
  | publish dup retain qosPid topicName properties payload =>
      have := receivable.1
      simp only [headerSize, CrateConfig.readBufLen]
      omega
  | _ => exact Nat.le_trans (headerSize_le_length_bytes receivable) receivable

theorem length_le_readBufLen (receivable : packet.Receivable config)
    (notPublish : packet.typ ≠ .publish) :
    (packet.bytes config).length ≤ config.readBufLen := by
  cases packet with
  | publish => exact absurd rfl notPublish
  | _ => exact receivable

theorem exists_of_typ_eq_publish (typ_eq : packet.typ = .publish) :
    ∃ dup retain qosPid topicName properties payload,
      packet = publish dup retain qosPid topicName properties payload := by
  cases packet with
  | publish dup retain qosPid topicName properties payload => exact ⟨_, _, _, _, _, _, rfl⟩
  | ack kind pid tail => cases kind <;> simp [typ, AckKind.typ] at typ_eq
  | _ => simp [typ] at typ_eq

theorem codesFit_of_publish (isPublish : packet.typ = .publish) : packet.CodesFit config := by
  rcases exists_of_typ_eq_publish isPublish with ⟨_, _, _, _, _, _, rfl⟩
  trivial

theorem headerSize_publish (config : CrateConfig) {dup retain : Bool} {qosPid : QosPid} {topicName : Utf8}
    {properties payload : List UInt8}
    (isPublish : packet = publish dup retain qosPid topicName properties payload) :
    packet.headerSize config =
      (packet.headerBytes config).length + 2 + topicName.bytes.length + 2 := by
  subst isPublish
  rfl

theorem delivered_publish (config : CrateConfig) {dup retain : Bool} {qosPid : QosPid}
    {topicName : Utf8} {properties payload : List UInt8} {consume : Consume}
    (isPublish : packet = publish dup retain qosPid topicName properties payload) :
    packet.delivered config consume =
      .publish qosPid topicName
        (if consume = .copyAll then some (packet.bytes config) else none) := by
  subst isPublish
  rfl

theorem delivered_of_ne_publish (config : CrateConfig) (notPublish : packet.typ ≠ .publish)
    (consume : Consume) :
    packet.delivered config consume = .packet (packet.received config) := by
  cases packet with
  | publish => exact absurd rfl notPublish
  | _ => rfl

theorem exists_parseHeader (wellFormed : packet.WellFormed config)
    (receivable : packet.Receivable config) (more : List UInt8) :
    ∃ decoder, parseHeader config (packet.bytes config ++ more) = .ok decoder ∧
      decoder.packetLen = (packet.bytes config).length ∧
      decoder.headerSize = packet.headerSize config := by
  have created := tryNew_headerBytes wellFormed (packet.body config ++ more)
  by_cases typ_eq : (packet.fixedHeader config).typ = .publish
  · rcases exists_of_typ_eq_publish typ_eq with
      ⟨dup, retain, qosPid, topicName, properties, payload, isPublish⟩
    have two : 2 ≤ (afterTopic config qosPid properties payload).length := by
      rw [isPublish] at receivable
      exact receivable.2
    rcases exists_bytes_eq isPublish wellFormed more with ⟨high, low, value, whole⟩
    have enough : ¬(afterTopic config qosPid properties payload ++ more).length < 2 := by
      rw [List.length_append]
      omega
    refine ⟨⟨afterTopic config qosPid properties payload ++ more,
      (packet.headerBytes config).length + 2 + topicName.bytes.length,
      (packet.headerBytes config).length, packet.fixedHeader config⟩, ?_, ?_, ?_⟩
    · rw [parseHeader, whole, tryNew_headerBytes wellFormed]
      simp only [decoder, typ_eq, if_true, MqttDecoder.readStr_cons _ _ _ _ value,
        MqttDecoder.checkRemaining, enough, if_false]
    · rw [length_bytes]
      rfl
    · rw [headerSize_publish config isPublish]
      simp only [MqttDecoder.headerSize, typ_eq, if_true]
  · refine ⟨packet.decoder config (packet.body config ++ more), ?_, packetLen_decoder _, ?_⟩
    · rw [parseHeader, bytes, List.append_assoc, created]
      simp only [decoder, typ_eq, if_false]
    · rw [headerSize_of_ne_publish config typ_eq]
      simp only [MqttDecoder.headerSize, decoder, typ_eq, if_false]

end ServerPacket

section Consume

variable {publish : PartialPublish} {socket : Socket}

theorem PartialPublish.discardLoop_eq_done {iterations left : ℕ} (enough : left ≤ iterations)
    (available : left ≤ socket.bytes.length) :
    discardLoop iterations left socket = .done [] (socket.skip left) := by
  induction iterations generalizing left socket with
  | zero =>
      have : left = 0 := by omega
      rw [this, Socket.skip_zero, discardLoop]
  | succ iterations ih =>
      rw [discardLoop]
      by_cases some_left : 0 < left
      · have chunk : min left 64 ≤ socket.bytes.length := by omega
        have rest : left - min left 64 ≤ (socket.skip (min left 64)).bytes.length := by
          rw [Socket.bytes_skip, List.length_drop]
          omega
        have sum : min left 64 + (left - min left 64) = left := by omega
        simp only [some_left, if_true, Socket.readExact, chunk, consumed]
        rw [ih (by omega) rest, Socket.skip_skip, sum]
      · have : left = 0 := by omega
        simp [this]

theorem PartialPublish.consume_eq_done (publish : PartialPublish) (socket : Socket)
    (consume : Consume)
    (available : publish.packetLen - publish.buf.length ≤ socket.bytes.length) :
    ∃ frame, publish.consume socket consume =
        .done frame (socket.skip (publish.packetLen - publish.buf.length)) ∧
      (consume = .copyAll → frame = publish.buf ++
        socket.bytes.take (publish.packetLen - publish.buf.length)) := by
  cases consume with
  | copyAll =>
      refine ⟨_, ?_, fun _ => rfl⟩
      rw [PartialPublish.consume, copyAll]
      split
      · simp only [Socket.readExact, available, if_true, consumed]
      · have : publish.packetLen - publish.buf.length = 0 := by omega
        simp [this]
  | discard =>
      refine ⟨[], ?_, by simp⟩
      exact discardLoop_eq_done (Nat.le_refl _) available

end Consume

section Split

variable {bytes more : List UInt8} {held : ℕ} {socket : Socket}

/-- Both ways to consume a packet of which some bytes are held. -/
theorem PartialPublish.consume_of_split (inside : held ≤ bytes.length)
    (stream : socket.bytes = bytes.drop held ++ more) (consume : Consume) :
    ∃ frame, (PartialPublish.mk (bytes.take held) bytes.length).consume socket consume =
        .done frame (socket.skip (bytes.length - held)) ∧
      (consume = .copyAll → frame = bytes) := by
  have length : (bytes.take held).length = held := by
    rw [List.length_take]
    omega
  have left : bytes.length - held = (bytes.drop held).length := List.length_drop.symm
  have available : bytes.length - (bytes.take held).length ≤ socket.bytes.length := by
    rw [length, left, stream, List.length_append]
    exact Nat.le_add_right _ _
  rcases PartialPublish.consume_eq_done ⟨bytes.take held, bytes.length⟩ socket consume available
    with ⟨frame, done, copied⟩
  rw [length] at done copied
  refine ⟨frame, done, ?_⟩
  intro copy
  rw [copied copy, stream, left, List.take_left, List.take_append_drop]

theorem bytes_skip_of_split (stream : socket.bytes = bytes.drop held ++ more) :
    (socket.skip (bytes.length - held)).bytes = more := by
  have left : bytes.length - held = (bytes.drop held).length := List.length_drop.symm
  rw [Socket.bytes_skip, stream, left, List.drop_left]

end Split

namespace PacketReader

variable {config : CrateConfig} {packet : ServerPacket} {reader : PacketReader config}
  {socket : Socket} {more : List UInt8} {count : ℕ}

/-- The number of bytes behind the header that the single read returns. -/
def restRead (config : CrateConfig) (packet : ServerPacket) (socket : Socket) : ℕ :=
  min (min (packet.bytes config).length config.readBufLen - packet.headerSize config) socket.front

/-- One call of `recv` on a packet of which some bytes of the header may be in the buffer. -/
theorem recv_packet (wellFormed : packet.WellFormed config)
    (receivable : packet.Receivable config)
    (begun : Begun reader socket (packet.bytes config ++ more) count)
    (behind : count ≤ packet.headerSize config) :
    reader.recv socket =
      (assembled config ((packet.bytes config ++ more).take (packet.headerSize config +
          restRead config packet (socket.skip (packet.headerSize config - count))))
        (packet.bytes config).length).finish
        (socket.skip (packet.headerSize config - count +
          restRead config packet (socket.skip (packet.headerSize config - count)))) := by
  rcases ServerPacket.exists_parseHeader wellFormed receivable more with
    ⟨decoder, header, packetLen, headerSize⟩
  have room := ServerPacket.headerSize_le_readBufLen receivable
  have inside := ServerPacket.headerSize_le_length_bytes receivable
  rw [recv_of_parsed begun header (by omega) (by omega) (by omega)]
  · simp only [bodyRead, restRead, packetLen, headerSize]
  · intro before
    rw [List.length_append]
    omega

theorem recv_of_complete (wellFormed : packet.WellFormed config)
    (receivable : packet.Receivable config)
    (begun : Begun reader socket (packet.bytes config ++ more) count)
    (behind : count ≤ packet.headerSize config) (notPublish : packet.typ ≠ .publish)
    (unsplit : (packet.bytes config).length - packet.headerSize config ≤
      (socket.skip (packet.headerSize config - count)).front) :
    reader.recv socket =
      if packet.CodesFit config then
        .returned (.ok (packet.received config))
          (assembled config (packet.bytes config) (packet.bytes config).length)
          (socket.skip ((packet.bytes config).length - count))
      else .panicked := by
  have room := ServerPacket.length_le_readBufLen receivable notPublish
  have inside := ServerPacket.headerSize_le_length_bytes receivable
  have all : restRead config packet (socket.skip (packet.headerSize config - count)) =
      (packet.bytes config).length - packet.headerSize config := by
    unfold restRead
    omega
  have stop : packet.headerSize config +
      ((packet.bytes config).length - packet.headerSize config) =
        (packet.bytes config).length := by omega
  have stop' : packet.headerSize config - count +
      ((packet.bytes config).length - packet.headerSize config) =
        (packet.bytes config).length - count := by omega
  rw [recv_packet wellFormed receivable begun behind, all, stop, stop', List.take_left]
  simp only [finish, decode, packetLen_assembled, buf_assembled room, List.take_length,
    ServerPacket.fromBuffer_bytes wellFormed notPublish]
  by_cases codesFit : packet.CodesFit config
  · simp only [codesFit, if_true]
  · simp only [codesFit, if_false]

/-- A call of `recv` returns a PUBLISH with the part of it that is in the buffer. -/
theorem exists_recv_partialPublish {dup retain : Bool} {qosPid : QosPid} {topicName : Utf8}
    {properties payload : List UInt8}
    (packet_eq : packet = .publish dup retain qosPid topicName properties payload)
    (wellFormed : packet.WellFormed config) (receivable : packet.Receivable config)
    (begun : Begun reader socket (packet.bytes config ++ more) count)
    (behind : count ≤ packet.headerSize config) :
    ∃ held next, count ≤ held ∧ held ≤ (packet.bytes config).length ∧ next.packetLen.isSome ∧
      reader.recv socket =
        .returned (.ok (.partialPublish qosPid topicName
          ⟨(packet.bytes config).take held, (packet.bytes config).length⟩)) next
          (socket.skip (held - count)) := by
  have room := ServerPacket.headerSize_le_readBufLen receivable
  have inside := ServerPacket.headerSize_le_length_bytes receivable
  have size := ServerPacket.headerSize_publish config packet_eq
  have received := recv_packet wellFormed receivable begun behind
  generalize read_eq : restRead config packet (socket.skip (packet.headerSize config - count)) =
    read at received
  have read_le : packet.headerSize config + read ≤
      min (packet.bytes config).length config.readBufLen := by
    rw [← read_eq, restRead]
    omega
  have front : (packet.bytes config ++ more).take (packet.headerSize config + read) =
      (packet.bytes config).take (packet.headerSize config + read) :=
    List.take_append_of_le_length (by omega)
  have whole : ((packet.bytes config).take (packet.headerSize config + read)).take
      (packet.bytes config).length =
        (packet.bytes config).take (packet.headerSize config + read) := by
    rw [List.take_of_length_le]
    exact List.length_take_le' _ _
  have enough : (packet.headerBytes config).length + 2 + topicName.bytes.length + 2 ≤
      packet.headerSize config + read := by omega
  have decoded := ServerPacket.fromBuffer_publish packet_eq wellFormed more enough
  have buf : (assembled config
      ((packet.bytes config).take (packet.headerSize config + read))
        (packet.bytes config).length).buf =
          (packet.bytes config).take (packet.headerSize config + read) := by
    apply buf_assembled
    rw [List.length_take]
    omega
  rw [front, whole] at decoded
  rw [front] at received
  simp only [finish, decode, packetLen_assembled, buf, whole, decoded] at received
  have skipped : packet.headerSize config - count + read =
      packet.headerSize config + read - count := by omega
  rw [skipped] at received
  exact ⟨packet.headerSize config + read, _, by omega, by omega, rfl, received⟩

theorem exists_recv_publish (wellFormed : packet.WellFormed config)
    (receivable : packet.Receivable config)
    (begun : Begun reader socket (packet.bytes config ++ more) count)
    (behind : count ≤ packet.headerSize config) (isPublish : packet.typ = .publish)
    (consume : Consume) :
    ∃ received next rest, reader.recv socket = .returned (.ok received) next rest ∧
      next.packetLen.isSome ∧
      deliver consume rest received =
        some (packet.delivered config consume,
          socket.skip ((packet.bytes config).length - count)) := by
  rcases ServerPacket.exists_of_typ_eq_publish isPublish with
    ⟨dup, retain, qosPid, topicName, properties, payload, packet_eq⟩
  rcases exists_recv_partialPublish packet_eq wellFormed receivable begun behind with
    ⟨held, next, after, inside, known, received⟩
  refine ⟨_, _, _, received, known, ?_⟩
  have unread : (socket.skip (held - count)).bytes = (packet.bytes config).drop held ++ more := by
    rw [Socket.bytes_skip, begun.unread, List.drop_drop, Nat.add_sub_of_le after,
      List.drop_append_of_le_length inside]
  have stop : held - count + ((packet.bytes config).length - held) =
      (packet.bytes config).length - count := by omega
  rcases PartialPublish.consume_of_split inside unread consume with ⟨frame, done, copied⟩
  rw [Socket.skip_skip, stop] at done
  simp only [deliver, done, ServerPacket.delivered_publish config packet_eq]
  by_cases copy : consume = .copyAll
  · simp only [copy, if_true, copied copy]
  · simp only [copy, if_false]

theorem deliver_received (config : CrateConfig) (notPublish : packet.typ ≠ .publish)
    (consume : Consume) (socket : Socket) :
    deliver consume socket (packet.received config) =
      some (.packet (packet.received config), socket) := by
  cases packet with
  | publish => exact absurd rfl notPublish
  | ack kind pid tail => cases kind <;> rfl
  | _ => rfl

theorem exists_of_map_eq_ok {First Second : Type} {first : Except Fault First}
    {function : First → Second} {value : Second} (mapped : function <$> first = .ok value) :
    ∃ input, value = function input := by
  cases first with
  | error fault => simp [Functor.map, Except.map] at mapped
  | ok input =>
      simp only [Functor.map, Except.map, Except.ok.injEq] at mapped
      exact ⟨input, mapped.symm⟩

theorem deliver_of_ne_publish {buf : List UInt8} {decoder : MqttDecoder} {received : ReceivedPacket}
    (created : MqttDecoder.tryNew config buf = .ok decoder)
    (notPublish : decoder.fixedHeader.typ ≠ .publish)
    (decoded : ReceivedPacket.fromBuffer config buf = .ok received) (consume : Consume)
    (socket : Socket) : deliver consume socket received = some (.packet received, socket) := by
  rw [ReceivedPacket.fromBuffer, created] at decoded
  simp only [bind, Except.bind] at decoded
  cases typ_eq : decoder.fixedHeader.typ with
  | publish => exact absurd typ_eq notPublish
  | pingResp =>
      simp only [typ_eq, Except.ok.injEq] at decoded
      rw [← decoded]
      rfl
  | connAck | pubAck | pubRec | pubRel | pubComp | subAck | unsubAck | disconnect =>
      simp only [typ_eq] at decoded
      rcases exists_of_map_eq_ok decoded with ⟨input, rfl⟩
      rfl
  | _ => simp [typ_eq, fail] at decoded

/-- A packet is delivered when its reason codes fit and, unless it is a PUBLISH, its rest is read at
once. -/
theorem exists_recv_delivered (wellFormed : packet.WellFormed config)
    (receivable : packet.Receivable config)
    (begun : Begun reader socket (packet.bytes config ++ more) count)
    (behind : count ≤ packet.headerSize config)
    (unsplit : packet.typ ≠ .publish →
      (packet.bytes config).length - packet.headerSize config ≤
        (socket.skip (packet.headerSize config - count)).front)
    (codesFit : packet.CodesFit config) (consume : Consume) :
    ∃ received next rest, reader.recv socket = .returned (.ok received) next rest ∧
      next.packetLen.isSome ∧
      deliver consume rest received =
        some (packet.delivered config consume,
          socket.skip ((packet.bytes config).length - count)) := by
  by_cases isPublish : packet.typ = .publish
  · exact exists_recv_publish wellFormed receivable begun behind isPublish consume
  · have received := recv_of_complete wellFormed receivable begun behind isPublish
      (unsplit isPublish)
    rw [if_pos codesFit] at received
    refine ⟨_, _, _, received, rfl, ?_⟩
    rw [deliver_received config isPublish, ServerPacket.delivered_of_ne_publish config isPublish]

theorem start_of_known (known : reader.packetLen.isSome) : reader.start = holding config [] := by
  unfold start
  rw [if_pos known]
  rfl

theorem unread_of_known (known : reader.packetLen.isSome) (socket : Socket) :
    reader.unread socket = socket.bytes := by
  rw [unread, start_of_known known]
  rfl

/-- A session begins with the packet that a call delivers. -/
theorem session_cons {call : Call} {calls : List Call} {lost : ℕ} {received : ReceivedPacket}
    {next : PacketReader config} {rest behind : Socket} {delivered : Delivered}
    (returned : recvAfter call.drops reader socket = (lost, .returned (.ok received) next rest))
    (known : next.packetLen.isSome)
    (delivers : deliver call.consume rest received = some (delivered, behind)) :
    session (call :: calls) reader socket =
      ⟨.ok delivered, lost, behind.bytes⟩ :: session calls next behind := by
  rw [session, returned]
  simp only [delivers, unread_of_known known]

end PacketReader

/-- The bytes of some packets. -/
def stream (config : CrateConfig) (packets : List ServerPacket) : List UInt8 :=
  (packets.map (ServerPacket.bytes config)).flatten

@[simp]
theorem stream_nil (config : CrateConfig) : stream config [] = [] := rfl

@[simp]
theorem stream_cons (config : CrateConfig) (packet : ServerPacket) (packets : List ServerPacket) :
    stream config (packet :: packets) = packet.bytes config ++ stream config packets := rfl

end Mqttrust
