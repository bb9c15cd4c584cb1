import Mqttrust.Reader.Session

/-!
# Assembling one packet

While `recv` assembles a packet it must not ask for bytes behind its end. The length
of the packet is only used when its header is complete, and for a PUBLISH this takes
two bytes behind the topic, whatever the packet has. So a PUBLISH with fewer bytes
there is read past its end. Every other packet stays inside its bounds, in every
state that the reader can be in and however the stream is split.

Decoding a complete acknowledgement of a subscription panics when it has too many
reason codes; nothing else in `recv` panics.
-/

namespace Mqttrust

/-- The stream starts with a packet that fits into the read buffer, all of whose bytes do not
complete the header that the reader waits for: a PUBLISH with fewer than two bytes behind its
topic. -/
def ShortPublish (config : CrateConfig) (stream : List UInt8) : Prop :=
  ∃ decoder, MqttDecoder.tryNew config stream = .ok decoder ∧
    decoder.packetLen ≤ stream.length ∧ decoder.packetLen < config.readBufLen ∧
    parseHeader config (stream.take decoder.packetLen) = fail .insufficientBytes

/-- The stream starts with an acknowledgement of a subscription that fits into the read buffer and
has more reason codes than a vector of capacity `MAX_SUB_TOPICS_PER_MSG` can hold. -/
def SurplusAck (config : CrateConfig) (stream : List UInt8) : Prop :=
  ∃ decoder, MqttDecoder.tryNew config (stream.take decoder.packetLen) = .ok decoder ∧
    decoder.packetLen ≤ stream.length ∧ decoder.packetLen ≤ config.readBufLen ∧
    decoder.TooManyCodes config

section Header

variable {config : CrateConfig} {stream : List UInt8} {decoder parsed : MqttDecoder}

theorem not_shortPublish_of_parseHeader
    (created : MqttDecoder.tryNew config stream = .ok decoder)
    (header : parseHeader config (stream.take decoder.packetLen) = .ok parsed) :
    ¬ShortPublish config stream := by
  rintro ⟨other, created', _, _, missing⟩
  rcases Except.ok.inj (created.symm.trans created') with rfl
  simp [header, fail] at missing

theorem not_surplusAck_of_publish (created : MqttDecoder.tryNew config stream = .ok decoder)
    (publish : decoder.fixedHeader.typ = .publish) : ¬SurplusAck config stream := by
  rintro ⟨other, created', _, _, surplus⟩
  have whole := MqttDecoder.tryNew_append created' (stream.drop other.packetLen)
  rw [List.take_append_drop, created, Except.ok.injEq] at whole
  subst whole
  rcases surplus.1 with typ | ⟨typ, _⟩ <;> simp [typ] at publish

end Header

namespace PacketReader

variable {config : CrateConfig} {reader next : PacketReader config} {socket rest : Socket}

/-- The reader waits for more bytes of a header. -/
def Waiting (reader : PacketReader config) : Prop :=
  parseHeader config reader.start.buf = fail .insufficientBytes

theorem waiting_of_known (known : reader.packetLen.isSome) : reader.Waiting := by
  unfold Waiting start
  rw [if_pos known]
  rfl

theorem waiting_of_missing (unknown : reader.packetLen = none)
    (missing : parseHeader config reader.buf = fail .insufficientBytes) : reader.Waiting := by
  unfold Waiting start
  rw [if_neg (by simp [unknown])]
  exact missing

theorem waiting_reset (reader : PacketReader config) : reader.reset.Waiting :=
  waiting_of_missing rfl rfl

theorem waiting_of_nextReadBuf {len : ℕ} (unknown : reader.packetLen = none)
    (asked : reader.nextReadBuf = .ok (next, len)) : next.Waiting := by
  rcases parseHeader_cases config reader.buf with ⟨decoder, header⟩ | missing | ⟨_, header, invalid⟩
  · rw [nextReadBuf_of_parsed unknown header] at asked
    split at asked
    · simp at asked
    · simp only [Except.ok.injEq, Prod.mk.injEq] at asked
      exact asked.1 ▸ waiting_of_known rfl
  · rw [nextReadBuf_of_missing unknown missing] at asked
    simp only [Except.ok.injEq, Prod.mk.injEq] at asked
    exact asked.1 ▸ waiting_of_missing unknown missing
  · rw [nextReadBuf_of_invalid unknown header invalid] at asked
    simp at asked

theorem waiting_of_readChunk_failed {kind : ErrorKind} (unknown : reader.packetLen = none)
    (failed : reader.readChunk socket = .failed kind next rest) : next.Waiting := by
  unfold readChunk at failed
  split at failed
  · simp at failed
  · simp only [Chunk.failed.injEq] at failed
    exact failed.2.1 ▸ waiting_reset reader
  · simp at failed
  · rename_i after len asked
    have waiting := waiting_of_nextReadBuf unknown asked
    split at failed <;> simp only [Chunk.failed.injEq, reduceCtorEq] at failed
    · exact failed.2.1 ▸ waiting
    · exact failed.2.1 ▸ waiting

theorem exists_of_finish_eq_returned {result : Except StateError ReceivedPacket}
    (returned : reader.finish socket = .returned result next rest) :
    next = reader ∧ rest = socket := by
  unfold finish at returned
  split at returned <;> simp only [Recv.returned.injEq, reduceCtorEq] at returned
  · exact ⟨returned.2.1.symm, returned.2.2.symm⟩
  · exact ⟨returned.2.1.symm, returned.2.2.symm⟩

theorem recvLoop_of_known (known : reader.packetLen.isSome) (iterations : ℕ) :
    reader.recvLoop iterations socket = reader.finish socket := by
  cases iterations <;> rw [recvLoop, if_pos known]

/-- A completed call of `recv` leaves the reader waiting for the next packet. -/
theorem waiting_of_recvLoop {result : Except StateError ReceivedPacket} {iterations : ℕ}
    (returned : reader.recvLoop iterations socket = .returned result next rest) : next.Waiting := by
  induction iterations generalizing reader socket with
  | zero =>
      by_cases known : reader.packetLen.isSome
      · rw [recvLoop_of_known known] at returned
        exact (exists_of_finish_eq_returned returned).1 ▸ waiting_of_known known
      · rw [recvLoop, if_neg known] at returned
        simp at returned
  | succ iterations ih =>
      by_cases known : reader.packetLen.isSome
      · rw [recvLoop_of_known known] at returned
        exact (exists_of_finish_eq_returned returned).1 ▸ waiting_of_known known
      · have unknown : reader.packetLen = none := by simpa using known
        rw [recvLoop_succ unknown] at returned
        split at returned
        · exact ih returned
        · rename_i failed
          simp only [Recv.returned.injEq] at returned
          exact returned.2.1 ▸ waiting_of_readChunk_failed unknown failed
        · simp at returned
        · simp at returned

theorem Reached.waiting (reached : Reached config reader socket) : reader.Waiting := by
  induction reached with
  | new socket => exact waiting_of_missing rfl rfl
  | received _ returned _ => exact waiting_of_recvLoop returned
  | @dropped reader next socket rest iterations _ dropped _ =>
      unfold dropAfter at dropped
      split at dropped
      · rename_i middle between unfinished
        have unknown := (recvLoop_eq_unfinished reader.start_packetLen unfinished).1
        split at dropped
        · rename_i asked
          simp only [Option.some.injEq, Prod.mk.injEq] at dropped
          exact dropped.1 ▸ waiting_of_nextReadBuf unknown asked
        · simp at dropped
      · simp at dropped
  | consumed _ _ waiting => exact waiting
  | reset other _ _ => exact waiting_reset _

/-- The slice that the next iteration reads into is in order and inside the packet. -/
def AsksWithinPacket (reader : PacketReader config) : Prop :=
  match reader.nextReadBuf with
  | .ok (_, len) =>
      ∀ decoder, MqttDecoder.tryNew config reader.buf = .ok decoder →
        reader.buf.length + len ≤ decoder.packetLen
  | .error fault => fault ≠ .panic

/-- No iteration of `recv` asks for bytes behind the packet, and `recv` does not panic. -/
def RecvSafe (reader : PacketReader config) (socket : Socket) : Prop :=
  (∀ iterations next rest, reader.start.recvLoop iterations socket = .unfinished next rest →
    next.AsksWithinPacket) ∧
  ∀ iterations, reader.start.recvLoop iterations socket ≠ .panicked

theorem exists_of_recvLoop_eq_panicked {iterations : ℕ} (unknown : reader.packetLen = none)
    (panicked : reader.recvLoop iterations socket = .panicked) :
    ∃ before next rest, reader.recvLoop before socket = .unfinished next rest ∧
      (next.readChunk rest = .panicked ∨
        ∃ last between, next.readChunk rest = .done last between ∧ last.packetLen.isSome ∧
          last.decode = .error .panic) := by
  induction iterations generalizing reader socket with
  | zero =>
      rw [recvLoop, if_neg (by simp [unknown])] at panicked
      simp at panicked
  | succ iterations ih =>
      have here : reader.recvLoop 0 socket = .unfinished reader socket := by
        rw [recvLoop, if_neg (by simp [unknown])]
      rcases chunk : reader.readChunk socket with ⟨middle, between⟩ | _ | _ | _
      · rw [recvLoop_succ unknown, chunk] at panicked
        simp only at panicked
        by_cases known : middle.packetLen.isSome
        · rw [recvLoop_of_known known] at panicked
          refine ⟨0, reader, socket, here, Or.inr ⟨middle, between, chunk, known, ?_⟩⟩
          unfold finish at panicked
          split at panicked
          · simp at panicked
          · simp at panicked
          · assumption
        · have unknown' : middle.packetLen = none := by simpa using known
          rcases ih unknown' panicked with ⟨before, next, rest, unfinished, last⟩
          refine ⟨before + 1, next, rest, ?_, last⟩
          rw [recvLoop_succ unknown, chunk]
          exact unfinished
      · rw [recvLoop_succ unknown, chunk] at panicked
        simp at panicked
      · exact ⟨0, reader, socket, here, Or.inl chunk⟩
      · rw [recvLoop_succ unknown, chunk] at panicked
        simp at panicked

/-- What is in the buffer while `recv` goes on. -/
structure Assembling (reader : PacketReader config) (socket : Socket) (stream : List UInt8) :
    Prop where
  unknown : reader.packetLen = none
  same : reader.buf ++ socket.bytes = stream
  missing : ∀ length, length < reader.buf.length →
    parseHeader config (stream.take length) = fail .insufficientBytes

theorem Waiting.assembling (waiting : reader.Waiting) {iterations : ℕ}
    (unfinished : reader.start.recvLoop iterations socket = .unfinished next rest) :
    next.Assembling rest (reader.start.buf ++ socket.bytes) := by
  rcases recvLoop_eq_unfinished reader.start_packetLen unfinished with
    ⟨unknown, same, longer, prefixes, _⟩
  refine ⟨unknown, same, fun length below => ?_⟩
  rcases Nat.lt_or_ge length reader.start.buf.length with early | late
  · rw [List.take_append_of_le_length (Nat.le_of_lt early)]
    exact parseHeader_take_of_missing waiting length
  · rw [← same, List.take_append_of_le_length (Nat.le_of_lt below)]
    exact prefixes length late below

/-- A packet that is not too short is not read past its end. -/
theorem Assembling.asksWithinPacket {stream : List UInt8}
    (assembling : reader.Assembling socket stream) (notShort : ¬ShortPublish config stream) :
    reader.AsksWithinPacket := by
  have fits := reader.fits
  have split := assembling.same
  have length_le : reader.buf.length ≤ stream.length := by
    rw [← split, List.length_append]
    exact Nat.le_add_right _ _
  have inside : ∀ decoder, MqttDecoder.tryNew config reader.buf = .ok decoder →
      parseHeader config (stream.take decoder.packetLen) = fail .insufficientBytes →
        decoder.packetLen ≤ stream.length → config.readBufLen ≤ decoder.packetLen := by
    intro decoder created missing present
    by_contra room
    have created' := MqttDecoder.tryNew_append created socket.bytes
    rw [split] at created'
    exact notShort ⟨_, created', present, Nat.not_le.mp room, missing⟩
  unfold AsksWithinPacket
  rcases parseHeader_cases config reader.buf with ⟨decoder, header⟩ | header | ⟨_, header, invalid⟩
  · rw [nextReadBuf_of_parsed assembling.unknown header]
    rcases exists_tryNew_of_parseHeader header with ⟨created_decoder, created, packetLen_eq, _⟩
    rw [← packetLen_eq]
    split_ifs with disordered
    · have missing := assembling.missing created_decoder.packetLen (by omega)
      have := inside created_decoder created missing (by omega)
      omega
    · intro decoder' created'
      rw [created, Except.ok.injEq] at created'
      rw [← created']
      omega
  · rw [nextReadBuf_of_missing assembling.unknown header]
    intro decoder created
    by_contra beyond
    have short : decoder.packetLen ≤ reader.buf.length := by omega
    have missing := parseHeader_take_of_missing header decoder.packetLen
    rw [← List.take_append_of_le_length short, split] at missing
    have := inside decoder created missing (by omega)
    omega
  · rw [nextReadBuf_of_invalid assembling.unknown header invalid]
    simp

/-- Decoding panics only for a complete acknowledgement with too many reason codes. -/
theorem surplusAck_of_decode_panic {last : PacketReader config} {between : Socket}
    (unknown : reader.packetLen = none) (chunk : reader.readChunk socket = .done last between)
    (known : last.packetLen.isSome) (panicked : last.decode = .error .panic) :
    SurplusAck config (reader.buf ++ socket.bytes) := by
  rcases readChunk_eq_done unknown chunk with
    ⟨decoder, taken, header, _, rfl⟩ | ⟨_, ⟨_, rfl, _⟩ | ⟨_, _, rfl, _⟩⟩
  · rcases exists_tryNew_of_parseHeader header with ⟨first, created, packetLen, headerLen, _⟩
    have header_le : first.headerLen ≤ reader.buf.length := by
      rcases MqttDecoder.exists_of_tryNew_eq_ok created with ⟨head, split, length, _⟩
      rw [split, List.length_append]
      omega
    have header_le_packet : first.headerLen ≤ first.packetLen := Nat.le_add_right _ _
    have fits := reader.fits
    have whole := MqttDecoder.tryNew_append created socket.bytes
    simp only [decode, assembled, ← List.take_length_add_append, List.take_take, ← packetLen]
      at panicked
    have cut := MqttDecoder.tryNew_take whole
      (min first.packetLen (min config.readBufLen (reader.buf.length + taken)))
      (by simp only; omega)
    have complete := (ReceivedPacket.fromBuffer_eq_panic_iff cut (by
      rw [List.length_take]
      exact Nat.le_trans (Nat.min_le_left _ _) (Nat.min_le_left _ _))).mp panicked
    rcases complete with ⟨length, surplus⟩
    change _ = first.packetLen at length
    rw [List.length_take] at length
    have stop : min first.packetLen (min config.readBufLen (reader.buf.length + taken)) =
        first.packetLen := by omega
    rw [stop] at cut surplus
    exact ⟨_, cut, by change first.packetLen ≤ _; omega, by change first.packetLen ≤ _; omega,
      surplus⟩
  · simp [unknown] at known
  · rw [push] at known
    simp [unknown] at known

/-- `recv` is safe on a stream that starts with neither kind of packet. -/
theorem Waiting.recvSafe (waiting : reader.Waiting)
    (notShort : ¬ShortPublish config (reader.start.buf ++ socket.bytes))
    (notSurplus : ¬SurplusAck config (reader.start.buf ++ socket.bytes)) :
    reader.RecvSafe socket := by
  have asks : ∀ iterations next rest,
      reader.start.recvLoop iterations socket = .unfinished next rest → next.AsksWithinPacket :=
    fun iterations next rest unfinished =>
      (waiting.assembling unfinished).asksWithinPacket notShort
  refine ⟨asks, fun iterations panicked => ?_⟩
  rcases exists_of_recvLoop_eq_panicked reader.start_packetLen panicked with
    ⟨before, next, rest, unfinished, outside | ⟨last, between, chunk, known, panicked⟩⟩
  · have inside := asks before next rest unfinished
    unfold AsksWithinPacket at inside
    unfold readChunk at outside
    split at outside <;> try simp at outside
    · rename_i disordered
      rw [disordered] at inside
      exact inside rfl
    · split at outside <;> simp at outside
  · have assembling := waiting.assembling unfinished
    have surplus := surplusAck_of_decode_panic assembling.unknown chunk known panicked
    rw [assembling.same] at surplus
    exact notSurplus surplus

theorem Waiting.not_recvSafe_of_short (waiting : reader.Waiting)
    (short : ShortPublish config (reader.start.buf ++ socket.bytes)) :
    ¬reader.RecvSafe socket := by
  rcases short with ⟨decoder, created, present, room, missing⟩
  have begun := Begun.of_start reader socket
  have header_le : decoder.headerLen ≤ decoder.packetLen := Nat.le_add_right _ _
  rintro ⟨asks, _⟩
  rcases Nat.lt_or_ge decoder.packetLen reader.start.buf.length with behind | before
  · have here : reader.start.recvLoop 0 socket = .unfinished reader.start socket := by
      rw [recvLoop, if_neg (by simp [reader.start_packetLen])]
    have inside := asks 0 _ _ here
    have created' := MqttDecoder.tryNew_take created reader.start.buf.length (by omega)
    rw [List.take_left] at created'
    rw [AsksWithinPacket, nextReadBuf_of_missing reader.start_packetLen waiting] at inside
    have bound := inside _ created'
    change _ ≤ decoder.packetLen at bound
    omega
  · have stop : reader.start.buf.length + (decoder.packetLen - reader.start.buf.length) =
        decoder.packetLen := by omega
    have missing_before : ∀ length, reader.start.buf.length ≤ length →
        length < reader.start.buf.length + (decoder.packetLen - reader.start.buf.length) →
          parseHeader config ((reader.start.buf ++ socket.bytes).take length) =
            fail .insufficientBytes := by
      intro length _ below
      have := parseHeader_take_of_missing missing length
      rwa [List.take_take, Nat.min_eq_left (by omega)] at this
    have there := recvLoop_header 0 begun.unread (by rw [stop]; exact present)
      (by rw [stop]; exact Nat.le_of_lt room) missing_before
    rw [← begun.held, Nat.add_zero, stop] at there
    have buf : (holding config ((reader.start.buf ++ socket.bytes).take decoder.packetLen)).buf =
        (reader.start.buf ++ socket.bytes).take decoder.packetLen :=
      buf_holding (Nat.le_trans (List.length_take_le _ _) (Nat.le_of_lt room))
    have inside := asks _ _ _ there
    rw [AsksWithinPacket, nextReadBuf_of_missing rfl (buf.symm ▸ missing), buf] at inside
    have bound := inside _ (MqttDecoder.tryNew_take created _ header_le)
    change _ ≤ decoder.packetLen at bound
    rw [List.length_take_of_le present] at bound
    omega

theorem Waiting.recv_of_surplus (waiting : reader.Waiting) {ending : Ending}
    {bytes : List UInt8} (surplus : SurplusAck config (reader.start.buf ++ bytes)) :
    reader.recv (Socket.full bytes ending) = .panicked := by
  rcases surplus with ⟨decoder, created, present, room, surplus⟩
  have notPublish : decoder.fixedHeader.typ ≠ .publish := by
    rcases surplus.1 with typ | ⟨typ, _⟩ <;> simp [typ]
  have taken : parseHeader config ((reader.start.buf ++ bytes).take decoder.packetLen) =
      .ok decoder := by
    rw [parseHeader, created]
    simp [notPublish]
  rcases parseHeader_append taken ((reader.start.buf ++ bytes).drop decoder.packetLen) with
    ⟨rest, header⟩
  rw [List.take_append_drop] at header
  have begun := Begun.of_start reader (Socket.full bytes ending)
  rw [Socket.bytes_full] at begun
  have inside := headerSize_le taken
  rw [List.length_take_of_le present] at inside
  have behind : reader.start.buf.length ≤ decoder.headerSize := by
    by_contra early
    rcases parseHeader_take header (Nat.le_of_lt (Nat.not_le.mp early)) with ⟨_, parsed⟩
    rw [List.take_left] at parsed
    have missing : parseHeader config reader.start.buf = fail .insufficientBytes := waiting
    simp [missing, fail] at parsed
  have length := present
  rw [List.length_append] at length
  have all : bodyRead config { decoder with rest := rest }
      ((Socket.full bytes ending).skip (decoder.headerSize - reader.start.buf.length)) =
        decoder.packetLen - decoder.headerSize := by
    change min (min decoder.packetLen config.readBufLen - decoder.headerSize) _ = _
    rw [Socket.skip_full, Socket.front_full, List.length_drop]
    omega
  have available : decoder.headerSize < min decoder.packetLen config.readBufLen →
      decoder.headerSize < (reader.start.buf ++ bytes).length := by
    intro more
    rw [List.length_append]
    omega
  have received := recv_of_parsed begun header behind (Nat.le_trans inside room) inside available
  have stop : decoder.headerSize + (decoder.packetLen - decoder.headerSize) =
      decoder.packetLen := by omega
  have panicked : ReceivedPacket.fromBuffer config
      ((reader.start.buf ++ bytes).take decoder.packetLen) = .error .panic :=
    (ReceivedPacket.fromBuffer_eq_panic_iff created (List.length_take_le _ _)).mpr
      ⟨List.length_take_of_le present, surplus⟩
  rw [headerSize_with_rest, all, stop] at received
  rw [received]
  change (assembled config _ decoder.packetLen).finish _ = _
  simp only [finish, decode, assembled, List.take_take, Nat.min_eq_right room, Nat.min_self,
    panicked]

theorem Waiting.not_recvSafe_of_surplus (waiting : reader.Waiting) {ending : Ending}
    {bytes : List UInt8} (surplus : SurplusAck config (reader.start.buf ++ bytes)) :
    ¬reader.RecvSafe (Socket.full bytes ending) :=
  fun safe => safe.2 (config.readBufLen + 1) (waiting.recv_of_surplus surplus)

/-- In every state that can be reached, `recv` stays inside the packet that it assembles and does
not panic, however the bytes still to come are split, exactly when these bytes start neither with a
PUBLISH that has fewer than two bytes behind its topic nor with an acknowledgement of a
subscription that has too many reason codes. -/
theorem recvSafe_iff (reached : Reached config reader socket) :
    (∀ other : Socket, other.bytes = socket.bytes → reader.RecvSafe other) ↔
      ¬ShortPublish config (reader.unread socket) ∧ ¬SurplusAck config (reader.unread socket) := by
  have waiting := reached.waiting
  constructor
  · intro safe
    refine ⟨fun short => ?_, fun surplus => ?_⟩
    · exact waiting.not_recvSafe_of_short short (safe socket rfl)
    · exact waiting.not_recvSafe_of_surplus surplus
        (safe (Socket.full socket.bytes socket.ending) (Socket.bytes_full _ _))
  · rintro ⟨notShort, notSurplus⟩ other same
    rw [unread, ← same] at notShort notSurplus
    exact waiting.recvSafe notShort notSurplus

/-- A QoS 1 PUBLISH, and a SUBACK behind it. -/
def publishThenSubAck : List UInt8 :=
  [0x32, 0x08, 0x00, 0x01, 0x77, 0x00, 0x05, 0x00, 0x2A, 0x2B, 0x90, 0x04, 0x00, 0x06, 0x00, 0x01]

/-- A call is dropped behind the first three bytes of the PUBLISH: the reader that goes on is safe,
however the other bytes of the two packets are split. -/
theorem recvSafe_iff_withinPublish :
    ∃ (reader : PacketReader (CrateConfig.default .mqttv5 true)) (socket : Socket),
      (new _).dropAfter (Socket.full publishThenSubAck .waiting) 3 = some (reader, socket) ∧
        reader.unread socket = publishThenSubAck ∧
        ∀ other : Socket, other.bytes = socket.bytes → reader.RecvSafe other := by
  have dropped : (new (CrateConfig.default .mqttv5 true)).dropAfter
      (Socket.full publishThenSubAck .waiting) 3 =
        some (holding _ [0x32, 0x08, 0x00], Socket.full (publishThenSubAck.drop 3) .waiting) := rfl
  refine ⟨_, _, dropped, rfl, (recvSafe_iff (.dropped (.new _) dropped)).mpr ⟨?_, ?_⟩⟩
  · exact not_shortPublish_of_parseHeader rfl rfl
  · exact not_surplusAck_of_publish rfl rfl

/-- With feature `mqttv3` a QoS 0 PUBLISH without payload is followed by a PINGRESP: the reader asks
for the first byte of the PINGRESP before it knows the length of the PUBLISH, and panics. -/
theorem not_recvSafe_on_empty_publish :
    ∃ packets : List ServerPacket,
      (∀ packet ∈ packets, packet.WellFormed (CrateConfig.default .mqttv3 false)) ∧
        ∃ socket : Socket,
          socket.bytes =
              (packets.map (ServerPacket.bytes (CrateConfig.default .mqttv3 false))).flatten ∧
            (new (CrateConfig.default .mqttv3 false)).recv socket = .panicked := by
  refine ⟨[.publish false false .atMostOnce ⟨[0x61], by decide⟩ [] [], .pingResp], ?_,
    Socket.full [0x30, 0x03, 0x00, 0x01, 0x61, 0xD0, 0x00] .waiting, ?_, rfl⟩
  · intro packet packet_mem
    simp only [List.mem_cons, List.not_mem_nil, or_false] at packet_mem
    rcases packet_mem with rfl | rfl
    · exact ⟨⟨by simp [QosPid.qos], by decide⟩, by decide⟩
    · exact ⟨trivial, by decide⟩
  · rw [Socket.bytes_full]
    decide

end PacketReader

end Mqttrust
