import Mqttrust.Reader.Fidelity

/-!
# Staying in step with a broker

A reader is in step when the bytes that it holds, with those that are still on the
connection, are the packets that it has not returned yet, and it holds no more than the
header of the first one. `recv` keeps a reader in step when it returns a packet, wherever
the reads have split the stream, unless it reads the rest of a packet that is not a
PUBLISH in more than one piece. A call that is dropped keeps it in step as long as it has
not taken the length from the header.
-/

namespace Mqttrust

/-- A packet that the reader is meant for. -/
structure ServerPacket.Proper (config : CrateConfig) (packet : ServerPacket) : Prop where
  wellFormed : packet.WellFormed config
  receivable : packet.Receivable config

namespace PartialPublish

variable {bytes more slice frame : List UInt8} {held : ℕ} {socket rest : Socket}

/-- A copy that is complete has found the rest of the packet on the connection. -/
theorem copied_of_split (inside : held ≤ bytes.length) (room : slice.length = bytes.length)
    (arrived : socket.bytes <+: bytes.drop held ++ more)
    (copied : (PartialPublish.mk (bytes.take held) bytes.length).copyInto slice socket =
      .done frame rest) :
    frame = bytes ∧ bytes.length - held ≤ socket.bytes.length := by
  have length : (bytes.take held).length = held := by
    rw [List.length_take]
    omega
  have left : (bytes.drop held).length = bytes.length - held := List.length_drop
  have nothing : slice.drop bytes.length = [] := List.drop_of_length_le (by omega)
  unfold copyInto at copied
  dsimp only at copied
  rw [length, if_neg (by omega)] at copied
  split at copied
  · rw [if_neg (by omega)] at copied
    unfold Socket.readExact at copied
    by_cases available : bytes.length - held ≤ socket.bytes.length
    · rw [if_pos available] at copied
      rcases Copied.done.inj copied with ⟨rfl, _⟩
      refine ⟨?_, available⟩
      have rest_eq : socket.bytes.take (bytes.length - held) = bytes.drop held := by
        rcases arrived with ⟨behind, split⟩
        rw [← @List.take_append_of_le_length _ _ behind _ available, split, ← left,
          List.take_left]
      rw [rest_eq, nothing, List.append_nil, List.take_append_drop]
    · rw [if_neg available] at copied
      cases ending : socket.ending <;> simp [ending] at copied
  · rename_i whole
    have all : held = bytes.length := by omega
    rcases Copied.done.inj copied with ⟨rfl, _⟩
    rw [all, nothing, List.append_nil, List.take_length]
    exact ⟨rfl, by omega⟩

theorem available_of_discardLoop {iterations left : ℕ} (enough : left ≤ iterations)
    (done : discardLoop iterations left socket = .done frame rest) :
    left ≤ socket.bytes.length := by
  induction iterations generalizing left socket with
  | zero => omega
  | succ iterations ih =>
      rw [discardLoop] at done
      split at done
      · rename_i some_left
        unfold Socket.readExact at done
        by_cases chunk : min left 64 ≤ socket.bytes.length
        · rw [if_pos chunk] at done
          have later := ih (by omega) done
          rw [Socket.bytes_skip, List.length_drop] at later
          omega
        · rw [if_neg chunk] at done
          cases ending : socket.ending <;> simp [ending, consumed] at done
      · omega

/-- A payload that was discarded was on the connection. -/
theorem available_of_discard {publish : PartialPublish}
    (done : publish.discard socket = .done frame rest) :
    publish.packetLen - publish.buf.length ≤ socket.bytes.length :=
  available_of_discardLoop (Nat.le_refl _) done

end PartialPublish

namespace PacketReader

variable {config : CrateConfig}

/-- The rest of the packet comes in one piece, when any of it does. -/
def ReadsWhole (config : CrateConfig) (packet : ServerPacket) (held : ℕ) (socket : Socket) : Prop :=
  packet.typ ≠ .publish → packet.headerSize config - held < socket.bytes.length →
    (packet.bytes config).length - packet.headerSize config ≤
      (socket.skip (packet.headerSize config - held)).front

instance (packet : ServerPacket) (held : ℕ) (socket : Socket) :
    Decidable (ReadsWhole config packet held socket) :=
  inferInstanceAs (Decidable (_ → _ → _))

/-- The reader has returned every packet before these. -/
structure InStep (reader : PacketReader config) (unread : List UInt8)
    (packets : List ServerPacket) : Prop where
  continues : reader.start.buf ++ unread = stream config packets
  header : ∀ packet ∈ packets.head?, reader.start.buf.length ≤ packet.headerSize config

/-- What a call of `recv` has returned of a packet, and what it has left of the stream. -/
inductive Returns (config : CrateConfig) (packet : ServerPacket) (left : List UInt8) (rest : Socket)
    (later : List ServerPacket) : ReceivedPacket → Prop where
  | whole (notPublish : packet.typ ≠ .publish) (behind : left = stream config later) :
      Returns config packet left rest later (packet.received config)
  | publish {dup retain : Bool} {qosPid : QosPid} {topicName : Utf8}
      {properties payload : List UInt8} {held : ℕ}
      (isPublish : packet = .publish dup retain qosPid topicName properties payload)
      (inside : held ≤ (packet.bytes config).length) (arrived : rest.bytes <+: left)
      (behind : left = (packet.bytes config).drop held ++ stream config later) :
      Returns config packet left rest later
        (.partialPublish qosPid topicName
          ⟨(packet.bytes config).take held, (packet.bytes config).length⟩)

variable {reader next : PacketReader config} {socket rest : Socket} {unread : List UInt8}
  {packet : ServerPacket} {packets later : List ServerPacket}

theorem InStep.of_empty (empty : reader.start.buf = []) (behind : unread = stream config packets) :
    reader.InStep unread packets where
  continues := by rw [empty, behind, List.nil_append]
  header := by
    intro packet _
    rw [empty]
    exact Nat.zero_le _

theorem InStep.of_known (known : next.packetLen.isSome) (behind : unread = stream config packets) :
    next.InStep unread packets := by
  refine .of_empty ?_ behind
  rw [start_of_known known]
  rfl

/-- The broker sends another packet. -/
theorem InStep.send (inStep : reader.InStep unread packets) (packet : ServerPacket) :
    reader.InStep (unread ++ packet.bytes config) (packets ++ [packet]) where
  continues := by
    rw [← List.append_assoc, inStep.continues]
    simp [stream]
  header := by
    cases packets with
    | nil =>
        have nothing := inStep.continues
        rw [stream_nil, List.append_eq_nil_iff] at nothing
        rw [nothing.1]
        intro packet _
        exact Nat.zero_le _
    | cons first later => exact inStep.header

section Arrived

/-- A call on a connection that has not brought the header, or nothing behind it, does not return
a packet. -/
theorem result_of_ended {result : Except StateError ReceivedPacket} {reading : PacketReader config}
    {iterations : ℕ}
    (chunk : reading.readChunk socket = match socket.ending with
      | .waiting => .pending reader socket
      | .closed => .failed .notConnected reader socket
      | .failed kind => .failed kind reader socket)
    (unknown : reading.packetLen = none)
    (returned : reading.recvLoop (iterations + 1) socket = .returned result next rest) :
    ∃ kind, result = .error (.io kind) := by
  rw [recvLoop_succ unknown, chunk] at returned
  cases ending : socket.ending with
  | waiting => simp [ending] at returned
  | closed =>
      simp only [ending, Recv.returned.injEq] at returned
      exact ⟨.notConnected, returned.1.symm⟩
  | failed kind =>
      simp only [ending, Recv.returned.injEq] at returned
      exact ⟨kind, returned.1.symm⟩

/-- A call that finds all bytes of the connection before the end of the header. -/
theorem result_of_short {result : Except StateError ReceivedPacket}
    (missing : ∀ length, length ≤ reader.start.buf.length + socket.bytes.length →
      parseHeader config ((reader.start.buf ++ socket.bytes).take length) = fail .insufficientBytes)
    (room : reader.start.buf.length + socket.bytes.length < config.readBufLen)
    (returned : reader.recv socket = .returned result next rest) :
    ∃ kind, result = .error (.io kind) := by
  have begun := Begun.of_start reader socket
  have iterations : config.readBufLen + 1 =
      socket.bytes.length + (config.readBufLen - socket.bytes.length + 1) := by omega
  have all : (reader.start.buf ++ socket.bytes).take
      (reader.start.buf.length + socket.bytes.length) = reader.start.buf ++ socket.bytes :=
    List.take_of_length_le (by rw [List.length_append])
  have length : (reader.start.buf ++ socket.bytes).length =
      reader.start.buf.length + socket.bytes.length := List.length_append
  have buf : (holding config (reader.start.buf ++ socket.bytes)).buf =
      reader.start.buf ++ socket.bytes := buf_holding (by omega)
  have nothing : (socket.skip socket.bytes.length).bytes = [] := by
    rw [Socket.bytes_skip, List.drop_length]
  rw [recv, begun.held, iterations, recvLoop_header _ begun.unread (by omega) (by omega)
    fun length _ below => missing length (by omega), all] at returned
  refine result_of_ended (readChunk_of_missing_nil rfl ?_ ?_ nothing) rfl returned
  · rw [buf, ← all]
    exact missing _ (Nat.le_refl _)
  · rw [buf, length]
    exact room

/-- A call on a connection that has brought the header and nothing of the rest. -/
theorem result_of_header {result : Except StateError ReceivedPacket} {decoder : MqttDecoder}
    (header : parseHeader config (reader.start.buf ++ socket.bytes) = .ok decoder)
    (ends : (reader.start.buf ++ socket.bytes).length = decoder.headerSize)
    (body : decoder.headerSize < min decoder.packetLen config.readBufLen)
    (returned : reader.recv socket = .returned result next rest) :
    ∃ kind, result = .error (.io kind) := by
  have begun := Begun.of_start reader socket
  have length : (reader.start.buf ++ socket.bytes).length =
      reader.start.buf.length + socket.bytes.length := List.length_append
  have iterations : config.readBufLen + 1 =
      socket.bytes.length + (config.readBufLen - socket.bytes.length + 1) := by omega
  have all : (reader.start.buf ++ socket.bytes).take
      (reader.start.buf.length + socket.bytes.length) = reader.start.buf ++ socket.bytes :=
    List.take_of_length_le (by omega)
  have buf : (holding config (reader.start.buf ++ socket.bytes)).buf =
      reader.start.buf ++ socket.bytes := buf_holding (by omega)
  have nothing : (socket.skip socket.bytes.length).bytes = [] := by
    rw [Socket.bytes_skip, List.drop_length]
  rw [recv, begun.held, iterations, recvLoop_header _ begun.unread (by omega) (by omega)
    fun length _ below => parseHeader_take_of_lt header (by omega), all] at returned
  refine result_of_ended (readChunk_of_parsed_nil rfl (buf.symm ▸ header) ?_ nothing) rfl returned
  rw [buf, ends]
  exact body

/-- What is left of the stream behind the bytes that a call has taken. -/
theorem left_of_skip {whole : List UInt8} {taken : ℕ} (continues : reader.start.buf ++ unread = whole)
    (arrived : socket.bytes <+: unread) (inside : taken ≤ socket.bytes.length) :
    unread.drop (socket.bytes.length - (socket.skip taken).bytes.length) =
        whole.drop (reader.start.buf.length + taken) ∧
      (socket.skip taken).bytes <+:
        unread.drop (socket.bytes.length - (socket.skip taken).bytes.length) := by
  have count : socket.bytes.length - (socket.skip taken).bytes.length = taken := by
    rw [Socket.bytes_skip, List.length_drop]
    omega
  rw [count, ← continues, List.drop_length_add_append]
  refine ⟨rfl, ?_⟩
  rcases arrived with ⟨more, rfl⟩
  rw [Socket.bytes_skip, List.drop_append_of_le_length inside]
  exact List.prefix_append _ _

end Arrived

/-- What a call of `recv` returns when the header has arrived: the first packet. -/
theorem returns_of_header (packetProper : packet.Proper config)
    (inStep : reader.InStep unread (packet :: later)) (arrived : socket.bytes <+: unread)
    (whole : ReadsWhole config packet reader.start.buf.length socket)
    (enough : packet.headerSize config ≤ reader.start.buf.length + socket.bytes.length)
    (body : reader.start.buf.length + socket.bytes.length = packet.headerSize config →
      min (packet.bytes config).length config.readBufLen ≤ packet.headerSize config)
    {result : Except StateError ReceivedPacket}
    (returned : reader.recv socket = .returned result next rest) :
    ∃ received, result = .ok received ∧ next.packetLen.isSome ∧
      Returns config packet (unread.drop (socket.bytes.length - rest.bytes.length)) rest later
        received := by
  rcases packetProper with ⟨wellFormed, receivable⟩
  have begun := Begun.of_start reader socket
  have room := ServerPacket.headerSize_le_readBufLen receivable
  have inside := ServerPacket.headerSize_le_length_bytes receivable
  have behind := inStep.header packet rfl
  have length : (reader.start.buf ++ socket.bytes).length =
      reader.start.buf.length + socket.bytes.length := List.length_append
  have continues : reader.start.buf ++ unread = packet.bytes config ++ stream config later :=
    inStep.continues
  have bytes : reader.start.buf ++ socket.bytes =
      (packet.bytes config ++ stream config later).take
        (reader.start.buf.length + socket.bytes.length) := by
    rcases arrived with ⟨more, rfl⟩
    rw [← continues, ← List.append_assoc, ← length, List.take_left]
  rcases ServerPacket.exists_parseHeader wellFormed receivable (stream config later) with
    ⟨decoder, header, packetLen, headerSize⟩
  rcases parseHeader_take header (headerSize ▸ enough) with ⟨behindHeader, parsed⟩
  rw [← bytes] at parsed
  have received := recv_of_parsed begun parsed (by change _ ≤ decoder.headerSize; omega)
    (by change decoder.headerSize ≤ _; omega)
    (by change decoder.headerSize ≤ decoder.packetLen; omega)
    (by change decoder.headerSize < min decoder.packetLen _ → decoder.headerSize < _; omega)
  change reader.recv socket = (assembled config ((reader.start.buf ++ socket.bytes).take
    (decoder.headerSize + bodyRead config decoder
      (socket.skip (decoder.headerSize - reader.start.buf.length)))) decoder.packetLen).finish
    (socket.skip (decoder.headerSize - reader.start.buf.length + bodyRead config decoder
      (socket.skip (decoder.headerSize - reader.start.buf.length)))) at received
  rw [headerSize, packetLen] at received
  have front_le := (socket.skip (packet.headerSize config - reader.start.buf.length)).front_le
  rw [Socket.bytes_skip, List.length_drop] at front_le
  generalize read_eq : bodyRead config decoder
    (socket.skip (packet.headerSize config - reader.start.buf.length)) = read at received
  unfold bodyRead at read_eq
  rw [headerSize, packetLen] at read_eq
  have taken : packet.headerSize config - reader.start.buf.length + read ≤ socket.bytes.length := by
    omega
  have stop : reader.start.buf.length + (packet.headerSize config - reader.start.buf.length + read) =
      packet.headerSize config + read := by omega
  rcases left_of_skip continues arrived taken with ⟨left, arrivedRest⟩
  rw [stop] at left
  have front : (reader.start.buf ++ socket.bytes).take (packet.headerSize config + read) =
      (packet.bytes config).take (packet.headerSize config + read) := by
    rw [bytes, List.take_take, Nat.min_eq_left (by omega),
      List.take_append_of_le_length (by omega)]
  have buf : (assembled config
      ((packet.bytes config).take (packet.headerSize config + read))
        (packet.bytes config).length).buf =
          (packet.bytes config).take (packet.headerSize config + read) := by
    apply buf_assembled
    rw [List.length_take]
    omega
  rw [received, front] at returned
  by_cases isPublish : packet.typ = .publish
  · rcases ServerPacket.exists_of_typ_eq_publish isPublish with
      ⟨dup, retain, qosPid, topicName, properties, payload, packet_eq⟩
    have size := ServerPacket.headerSize_publish config packet_eq
    have all : ((packet.bytes config).take (packet.headerSize config + read)).take
        (packet.bytes config).length =
          (packet.bytes config).take (packet.headerSize config + read) := by
      rw [List.take_of_length_le]
      exact List.length_take_le' _ _
    have enough : (packet.headerBytes config).length + 2 + topicName.bytes.length + 2 ≤
        packet.headerSize config + read := by omega
    have decoded := ServerPacket.fromBuffer_publish packet_eq wellFormed [] enough
    rw [List.append_nil, all] at decoded
    simp only [finish, decode, packetLen_assembled, buf, all, decoded,
      Recv.returned.injEq] at returned
    rcases returned with ⟨rfl, rfl, rfl⟩
    refine ⟨_, rfl, rfl, .publish packet_eq (by omega) arrivedRest ?_⟩
    rw [left, List.drop_append_of_le_length (by omega)]
  · have complete : packet.headerSize config + read = (packet.bytes config).length := by
      have := ServerPacket.length_le_readBufLen receivable isPublish
      have := whole isPublish
      omega
    rw [complete, List.take_length] at returned
    rw [complete, List.take_length] at buf
    rw [complete, List.drop_left] at left
    simp only [finish, decode, packetLen_assembled, buf, List.take_length,
      ServerPacket.fromBuffer_bytes wellFormed isPublish] at returned
    by_cases codesFit : packet.CodesFit config
    · simp only [if_pos codesFit, Recv.returned.injEq] at returned
      rcases returned with ⟨rfl, rfl, rfl⟩
      exact ⟨_, rfl, rfl, .whole isPublish left⟩
    · simp [if_neg codesFit] at returned

/-- What a call of `recv` returns: the next packet of the broker, or an error of the connection. -/
theorem InStep.recv (inStep : reader.InStep unread packets)
    (proper : ∀ packet ∈ packets, packet.Proper config) (arrived : socket.bytes <+: unread)
    (whole : ∀ packet ∈ packets.head?, ReadsWhole config packet reader.start.buf.length socket)
    {result : Except StateError ReceivedPacket}
    (returned : reader.recv socket = .returned result next rest) :
    (∃ kind, result = .error (.io kind)) ∨
      ∃ packet later received, packets = packet :: later ∧ result = .ok received ∧
        next.packetLen.isSome ∧
        Returns config packet (unread.drop (socket.bytes.length - rest.bytes.length)) rest later
          received := by
  cases packets with
  | nil =>
      left
      have nothing := inStep.continues
      rw [stream_nil, List.append_eq_nil_iff] at nothing
      rw [nothing.2, List.prefix_nil] at arrived
      refine result_of_short ?_ ?_ returned
      · intro length _
        rw [nothing.1, arrived, List.append_nil, List.take_nil]
        rfl
      · rw [nothing.1, arrived]
        simp [CrateConfig.readBufLen]
  | cons packet later =>
      have packetProper := proper packet List.mem_cons_self
      have room := ServerPacket.headerSize_le_readBufLen packetProper.receivable
      rcases ServerPacket.exists_parseHeader packetProper.wellFormed packetProper.receivable
        (stream config later) with ⟨decoder, header, packetLen, headerSize⟩
      have continues : reader.start.buf ++ unread = packet.bytes config ++ stream config later :=
        inStep.continues
      have length : (reader.start.buf ++ socket.bytes).length =
          reader.start.buf.length + socket.bytes.length := List.length_append
      have bytes : reader.start.buf ++ socket.bytes =
          (packet.bytes config ++ stream config later).take
            (reader.start.buf.length + socket.bytes.length) := by
        rcases arrived with ⟨more, rfl⟩
        rw [← continues, ← List.append_assoc, ← length, List.take_left]
      by_cases short :
          reader.start.buf.length + socket.bytes.length < packet.headerSize config
      · left
        refine result_of_short ?_ (by omega) returned
        intro length inside
        rw [bytes, List.take_take, Nat.min_eq_left inside]
        exact parseHeader_take_of_lt header (by omega)
      · by_cases body : reader.start.buf.length + socket.bytes.length = packet.headerSize config →
            min (packet.bytes config).length config.readBufLen ≤ packet.headerSize config
        · right
          rcases returns_of_header packetProper inStep arrived (whole packet rfl) (by omega) body
            returned with ⟨received, rfl, known, returns⟩
          exact ⟨packet, later, received, rfl, rfl, known, returns⟩
        · left
          push Not at body
          rcases parseHeader_take header (headerSize ▸ (not_lt.mp short)) with ⟨behind, parsed⟩
          rw [← bytes] at parsed
          refine result_of_header parsed ?_ ?_ returned
          · change _ = decoder.headerSize
            omega
          · change decoder.headerSize < min decoder.packetLen _
            omega

/-- A call that is dropped before it takes the length from the header has moved some bytes into the
buffer, and they do not have a complete header. -/
theorem missing_of_dropAfter {iterations : ℕ}
    (dropped : reader.dropAfter socket iterations = some (next, rest))
    (unknown : next.packetLen = none) :
    next.buf ++ rest.bytes = reader.start.buf ++ socket.bytes ∧
      reader.start.buf.length ≤ next.buf.length ∧
      parseHeader config next.buf = fail .insufficientBytes := by
  unfold PacketReader.dropAfter at dropped
  split at dropped
  · rename_i middle between unfinished
    rcases recvLoop_eq_unfinished reader.start_packetLen unfinished with
      ⟨unknownMiddle, same, longer, _⟩
    split at dropped
    · rename_i asked len next_eq
      simp only [Option.some.injEq, Prod.mk.injEq] at dropped
      rcases dropped with ⟨rfl, rfl⟩
      rcases parseHeader_cases config middle.buf with
        ⟨decoder, header⟩ | missing | ⟨_, header, invalid⟩
      · rw [nextReadBuf_of_parsed unknownMiddle header] at next_eq
        split at next_eq
        · simp at next_eq
        · simp only [Except.ok.injEq, Prod.mk.injEq] at next_eq
          rw [← next_eq.1] at unknown
          simp at unknown
      · rw [nextReadBuf_of_missing unknownMiddle missing] at next_eq
        simp only [Except.ok.injEq, Prod.mk.injEq] at next_eq
        rw [← next_eq.1]
        exact ⟨same, longer, missing⟩
      · rw [nextReadBuf_of_invalid unknownMiddle header invalid] at next_eq
        simp at next_eq
    · simp at dropped
  · simp at dropped

/-- A call that is dropped before it takes the length from the header keeps the reader in step. -/
theorem InStep.dropAfter (inStep : reader.InStep unread packets)
    (proper : ∀ packet ∈ packets, packet.Proper config) (arrived : socket.bytes <+: unread)
    {iterations : ℕ} (dropped : reader.dropAfter socket iterations = some (next, rest))
    (unknown : next.packetLen = none) :
    next.InStep (unread.drop (socket.bytes.length - rest.bytes.length)) packets := by
  rcases missing_of_dropAfter dropped unknown with ⟨same, longer, missing⟩
  have start : next.start = next := if_neg (by simp [unknown])
  rcases arrived with ⟨more, rfl⟩
  have lengths := congrArg List.length same
  simp only [List.length_append] at lengths
  have left : (socket.bytes ++ more).drop (socket.bytes.length - rest.bytes.length) =
      rest.bytes ++ more := by
    have behind := congrArg (List.drop next.buf.length) same
    rw [List.drop_left, List.drop_append, List.drop_of_length_le longer, List.nil_append] at behind
    have count : socket.bytes.length - rest.bytes.length =
        next.buf.length - reader.start.buf.length := by omega
    rw [count, List.drop_append_of_le_length (by omega), ← behind]
  have continues : next.buf ++ (rest.bytes ++ more) = stream config packets := by
    rw [← inStep.continues, ← List.append_assoc, same, List.append_assoc]
  refine ⟨by rw [start, left, continues], ?_⟩
  cases packets with
  | nil => simp
  | cons first later =>
      intro packet isFirst
      rcases Option.some.inj isFirst with rfl
      have packetProper := proper first List.mem_cons_self
      rcases ServerPacket.exists_parseHeader packetProper.wellFormed packetProper.receivable
        (stream config later) with ⟨decoder, header, _, headerSize⟩
      have held : (first.bytes config ++ stream config later).take next.buf.length = next.buf := by
        rw [← stream_cons, ← continues, List.take_left]
      rw [start]
      by_contra beyond
      have complete : decoder.headerSize ≤ next.buf.length := by omega
      rcases parseHeader_take header complete with ⟨_, parsed⟩
      rw [held, missing] at parsed
      simp [fail] at parsed

end PacketReader

end Mqttrust
