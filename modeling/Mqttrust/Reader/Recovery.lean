import Mqttrust.Reader.Assembly
import Mqttrust.Reader.Delivery

/-!
# Going on after an error

After an error of the deserialization the connection is kept. The next call of `recv`
starts behind what the last one has read, which is at most what fits into the read
buffer. So it starts at the next packet exactly when the packet was not longer than
the buffer, or was a PUBLISH that was received and read to its end.
-/

namespace Mqttrust

/-- A packet with a correct fixed header and an arbitrary body. -/
structure RawPacket where
  firstByte : UInt8
  body : List UInt8
  encodable : body.length < 2 ^ 28

/-- The packet on the wire. -/
def RawPacket.bytes (packet : RawPacket) : List UInt8 :=
  packet.firstByte :: (Varint.encode packet.body.length ++ packet.body)

/-- The bytes of some packets. -/
def rawStream (packets : List RawPacket) : List UInt8 := (packets.map RawPacket.bytes).flatten

theorem rawStream_cons (packet : RawPacket) (packets : List RawPacket) :
    rawStream (packet :: packets) = packet.bytes ++ rawStream packets := rfl

/-- After every call the next one starts at the first byte of the following packet. -/
def InSync : List RawPacket → List Outcome → Prop
  | _, [] => True
  | [], _ :: _ => False
  | _ :: packets, outcome :: outcomes =>
      outcome.unread = rawStream packets ∧ InSync packets outcomes

/-- No packet can be received from the bytes: their header cannot be parsed, they have a PUBLISH that
ends before its header does, or an acknowledgement with too many reason codes. -/
def Ends (config : CrateConfig) (bytes : List UInt8) : Prop :=
  (∀ decoder, parseHeader config (bytes.take config.readBufLen) = .ok decoder →
      decoder.packetLen < decoder.headerSize) ∨
    SurplusAck config bytes

/-- The bytes start with a packet that is longer than the read buffer and that is not received as a
PUBLISH: it has another type, or its packet identifier is zero. -/
def Oversized (config : CrateConfig) (bytes : List UInt8) : Prop :=
  ∃ decoder, parseHeader config (bytes.take config.readBufLen) = .ok decoder ∧
    config.readBufLen < decoder.packetLen ∧
    (decoder.fixedHeader.typ = .publish → ∀ qosPid, QosPid.fromDecoder decoder ≠ .ok qosPid)

/-- For each of the calls, until no packet can be received, the next packet is not oversized. -/
def NoneOversized (config : CrateConfig) : List RawPacket → List Consume → Prop
  | [], _ => True
  | _, [] => True
  | packet :: packets, _ :: consumes =>
      ¬Oversized config (rawStream (packet :: packets)) ∧
        (Ends config (rawStream (packet :: packets)) ∨ NoneOversized config packets consumes)

/-- Calls that are not dropped. -/
def receives (consumes : List Consume) : List Call := consumes.map fun consume => ⟨[], consume⟩

namespace RawPacket

variable {config : CrateConfig} {packet : RawPacket} {more : List UInt8} {decoder : MqttDecoder}

/-- The fixed header gives the length of the packet. -/
theorem packetLen_eq (created : MqttDecoder.tryNew config (packet.bytes ++ more) = .ok decoder) :
    decoder.packetLen = packet.bytes.length := by
  have nonempty : Varint.encode packet.body.length ++ packet.body ++ more ≠ [] := by
    simp [Varint.encode_ne_nil]
  rw [bytes, List.cons_append, MqttDecoder.tryNew_cons config _ nonempty, List.append_assoc,
    MqttDecoder.readLen_encode packet.encodable] at created
  split at created
  · exact absurd created MqttDecoder.fail_ne_ok
  · simp only at created
    split at created
    · exact absurd created MqttDecoder.fail_ne_ok
    · simp only [Except.ok.injEq] at created
      rw [← created]
      simp only [MqttDecoder.packetLen, bytes, List.length_cons, List.length_append]
      omega

theorem packetLen_of_parseHeader {count : ℕ}
    (header : parseHeader config ((packet.bytes ++ more).take count) = .ok decoder) :
    decoder.packetLen = packet.bytes.length := by
  rcases parseHeader_append header ((packet.bytes ++ more).drop count) with ⟨rest, whole⟩
  rw [List.take_append_drop] at whole
  rcases exists_tryNew_of_parseHeader whole with ⟨first, created, packetLen, _⟩
  rw [← packetLen_eq created, packetLen]
  rfl

theorem not_oversized_of_ends (ends : Ends config (packet.bytes ++ more)) :
    ¬Oversized config (packet.bytes ++ more) := by
  rintro ⟨decoder, header, long, _⟩
  rcases ends with invalid | ⟨other, created, _, room, _⟩
  · have short := invalid decoder header
    have size := headerSize_le header
    rw [List.length_take] at size
    omega
  · have whole := MqttDecoder.tryNew_append created ((packet.bytes ++ more).drop other.packetLen)
    rw [List.take_append_drop] at whole
    have same := (packetLen_eq whole).trans (packetLen_of_parseHeader header).symm
    change other.packetLen = _ at same
    omega

theorem not_oversized_of_fits (fits : packet.bytes.length ≤ config.readBufLen) :
    ¬Oversized config (packet.bytes ++ more) := by
  rintro ⟨decoder, header, long, _⟩
  rw [packetLen_of_parseHeader header] at long
  omega

end RawPacket

/-- Packets that fit into the read buffer are not oversized, whatever their decoders say to them. -/
theorem noneOversized_of_fits {config : CrateConfig} {packets : List RawPacket}
    (fits : ∀ packet ∈ packets, packet.bytes.length ≤ config.readBufLen)
    (consumes : List Consume) : NoneOversized config packets consumes := by
  induction packets generalizing consumes with
  | nil => trivial
  | cons packet packets ih =>
      rcases List.forall_mem_cons.mp fits with ⟨first, others⟩
      cases consumes with
      | nil => trivial
      | cons consume consumes =>
          exact ⟨RawPacket.not_oversized_of_fits first, .inr (ih others consumes)⟩

namespace PacketReader

variable {config : CrateConfig} {reader : PacketReader config} {decoder : MqttDecoder}
  {stream : List UInt8} {ending : Ending}

/-- A call that returns a packet or an error of the deserialization has parsed a header. -/
theorem exists_of_recv_eq_returned {result : Except StateError ReceivedPacket}
    {next : PacketReader config} {socket rest : Socket} {iterations : ℕ}
    (unknown : reader.packetLen = none)
    (returned : reader.recvLoop iterations socket = .returned result next rest)
    (tolerated : ∀ kind, result ≠ .error (.io kind)) :
    ∃ decoder, parseHeader config ((reader.buf ++ socket.bytes).take config.readBufLen) =
      .ok decoder ∧ decoder.headerSize ≤ decoder.packetLen := by
  induction iterations generalizing reader socket with
  | zero =>
      rw [recvLoop, if_neg (by simp [unknown])] at returned
      simp at returned
  | succ iterations ih =>
      rw [recvLoop_succ unknown] at returned
      rcases chunk : reader.readChunk socket with ⟨middle, between⟩ | ⟨kind, _, _⟩ | _ | _
      · rw [chunk] at returned
        simp only at returned
        rcases readChunk_eq_done unknown chunk with
          ⟨decoder, taken, header, inside, _⟩ | ⟨_, ⟨_, rfl, rfl⟩ | ⟨room, _, rfl, rfl⟩⟩
        · have fits := reader.fits
          have := headerSize_le header
          rw [List.take_append, List.take_of_length_le fits]
          rcases parseHeader_append header (socket.bytes.take (config.readBufLen -
            reader.buf.length)) with ⟨rest, whole⟩
          exact ⟨_, whole, by change decoder.headerSize ≤ decoder.packetLen; omega⟩
        · exact ih unknown returned
        · have buf : (reader.push (socket.bytes.take 1)).buf =
              reader.buf ++ socket.bytes.take 1 := by
            apply List.take_of_length_le
            rw [List.length_append, List.length_take]
            omega
          have unknown' : (reader.push (socket.bytes.take 1)).packetLen = none := unknown
          have found := ih unknown' returned
          rwa [buf, Socket.bytes_skip, List.append_assoc, List.take_append_drop] at found
      · rw [chunk] at returned
        simp only [Recv.returned.injEq] at returned
        exact absurd returned.1.symm (tolerated kind)
      · rw [chunk] at returned
        simp at returned
      · rw [chunk] at returned
        simp at returned

variable {calls : List Call}

theorem session_of_ends (empty : reader.start = holding config []) (ends : Ends config stream)
    (consume : Consume) :
    session (⟨[], consume⟩ :: calls) reader (Socket.full stream ending) = [] := by
  have notTolerated : ∀ result next rest,
      reader.recv (Socket.full stream ending) = .returned result next rest →
        ∃ kind, result = .error (.io kind) := by
    intro result next rest returned
    by_contra tolerated
    rw [not_exists] at tolerated
    rcases ends with invalid | surplus
    · rcases exists_of_recv_eq_returned reader.start_packetLen returned tolerated with
        ⟨decoder, header, ordered⟩
      rw [empty, Socket.bytes_full] at header
      have := invalid decoder header
      omega
    · have waiting : reader.Waiting := by
        rw [Waiting, empty]
        rfl
      rw [waiting.recv_of_surplus (by rw [empty]; exact surplus)] at returned
      simp at returned
  rw [session, recvAfter]
  rcases recv_eq : reader.recv (Socket.full stream ending) with ⟨result, next, rest⟩ | _ | _ | _
  · rcases notTolerated result next rest recv_eq with ⟨kind, rfl⟩
    rfl
  · rfl
  · rfl
  · rfl

theorem exists_fromBuffer_publish {buf : List UInt8}
    (header : parseHeader config buf = .ok decoder)
    (isPublish : decoder.fixedHeader.typ = .publish) :
    ∃ topicName, ReceivedPacket.fromBuffer config buf =
      (QosPid.fromDecoder decoder >>= fun qosPid =>
        .ok (.partialPublish qosPid topicName ⟨buf.take decoder.packetLen, decoder.packetLen⟩)) := by
  unfold parseHeader at header
  split at header
  · simp at header
  · rename_i created_decoder created
    split at header
    · rename_i typ_eq
      split at header
      · simp at header
      · rename_i topicName after read
        split at header
        · simp at header
        · simp only [Except.ok.injEq] at header
          subst header
          refine ⟨topicName, ?_⟩
          rw [ReceivedPacket.fromBuffer, created]
          simp only [bind, Except.bind, typ_eq, read]
    · rename_i typ_ne
      simp only [Except.ok.injEq] at header
      rw [header] at typ_ne
      exact absurd isPublish typ_ne

theorem recv_of_whole {packet : RawPacket} {more : List UInt8} (ending : Ending)
    (empty : reader.start = holding config [])
    (header : parseHeader config ((packet.bytes ++ more).take config.readBufLen) = .ok decoder)
    (ordered : decoder.headerSize ≤ decoder.packetLen) :
    decoder.packetLen = packet.bytes.length ∧
      reader.recv (Socket.full (packet.bytes ++ more) ending) =
        (assembled config
          ((packet.bytes ++ more).take (min packet.bytes.length config.readBufLen))
          packet.bytes.length).finish
          (Socket.full ((packet.bytes ++ more).drop (min packet.bytes.length config.readBufLen))
            ending) := by
  have packetLen := RawPacket.packetLen_of_parseHeader header
  refine ⟨packetLen, ?_⟩
  rcases parseHeader_append header ((packet.bytes ++ more).drop config.readBufLen) with
    ⟨rest, whole⟩
  rw [List.take_append_drop] at whole
  have room := headerSize_le header
  have begun : Begun reader (Socket.full (packet.bytes ++ more) ending) (packet.bytes ++ more) 0 :=
    ⟨by simpa using empty, by simp⟩
  have room' : decoder.headerSize ≤ config.readBufLen :=
    Nat.le_trans room (List.length_take_le _ _)
  have available : decoder.headerSize < min decoder.packetLen config.readBufLen →
      decoder.headerSize < (packet.bytes ++ more).length := by
    intro before
    rw [List.length_append]
    omega
  have received := recv_of_parsed begun whole (Nat.zero_le _) room' ordered available
  have all : bodyRead config { decoder with rest := rest }
      ((Socket.full (packet.bytes ++ more) ending).skip (decoder.headerSize - 0)) =
        min packet.bytes.length config.readBufLen - decoder.headerSize := by
    change min (min decoder.packetLen config.readBufLen - decoder.headerSize) _ = _
    rw [Socket.skip_full, Socket.front_full, List.length_drop, List.length_append]
    omega
  have stop : decoder.headerSize +
      (min packet.bytes.length config.readBufLen - decoder.headerSize) =
        min packet.bytes.length config.readBufLen := by omega
  rw [headerSize_with_rest, all, stop, Nat.sub_zero, stop, Socket.skip_full] at received
  rw [received]
  change (assembled config _ decoder.packetLen).finish _ = _
  rw [packetLen]

/-- A call that receives a packet goes on behind it, or behind the bytes that fit into the read
buffer when the packet is oversized. -/
theorem exists_session_of_whole {packet : RawPacket} {more : List UInt8}
    (empty : reader.start = holding config [])
    (goesOn : ¬Ends config (packet.bytes ++ more)) (consume : Consume) (calls : List Call)
    (ending : Ending) :
    ∃ result next count, next.start = holding config [] ∧
      session (⟨[], consume⟩ :: calls) reader (Socket.full (packet.bytes ++ more) ending) =
        ⟨result, 0, (packet.bytes ++ more).drop count⟩ ::
          session calls next (Socket.full ((packet.bytes ++ more).drop count) ending) ∧
      (Oversized config (packet.bytes ++ more) → count < packet.bytes.length) ∧
      (¬Oversized config (packet.bytes ++ more) → count = packet.bytes.length) := by
  rw [Ends, not_or, not_forall] at goesOn
  rcases goesOn with ⟨⟨decoder, readable⟩, notSurplus⟩
  rw [Classical.not_imp, Nat.not_lt] at readable
  rcases readable with ⟨header, ordered⟩
  rcases recv_of_whole ending empty header ordered with ⟨packetLen, received⟩
  have headerSize := Nat.le_trans (headerSize_le header) (List.length_take_le _ _)
  generalize stop_eq : min packet.bytes.length config.readBufLen = stop at received
  have length : ((packet.bytes ++ more).take stop).length = stop := by
    rw [List.length_take, List.length_append]
    omega
  rcases parseHeader_take header (show decoder.headerSize ≤ stop by omega) with ⟨rest, header'⟩
  rw [List.take_take, Nat.min_eq_left (by omega)] at header'
  rcases exists_tryNew_of_parseHeader header' with ⟨first, created, packetLen', _, fixedHeader⟩
  have packetLen' : first.packetLen = packet.bytes.length := packetLen'.trans packetLen
  have calm : ReceivedPacket.fromBuffer config ((packet.bytes ++ more).take stop) ≠
      .error .panic := by
    intro panicked
    rcases (ReceivedPacket.fromBuffer_eq_panic_iff created (by omega)).mp panicked with
      ⟨complete, tooMany⟩
    rw [length] at complete
    refine notSurplus ⟨first, complete ▸ created, ?_, by omega, tooMany⟩
    rw [List.length_append]
    omega
  have buf : (assembled config ((packet.bytes ++ more).take stop) packet.bytes.length).buf =
      (packet.bytes ++ more).take stop := buf_assembled (by omega)
  have whole : ((packet.bytes ++ more).take stop).take packet.bytes.length =
      (packet.bytes ++ more).take stop := List.take_of_length_le (by omega)
  simp only [finish, decode, packetLen_assembled, buf, whole] at received
  -- a buffer that is full holds exactly the bytes that decide whether the packet is oversized
  have same_decoder : config.readBufLen < packet.bytes.length →
      ({ decoder with rest := rest } : MqttDecoder) = decoder := by
    intro long
    have : stop = config.readBufLen := by omega
    rw [this, header, Except.ok.injEq] at header'
    exact header'.symm
  have oversized_iff : Oversized config (packet.bytes ++ more) ↔
      config.readBufLen < packet.bytes.length ∧ (decoder.fixedHeader.typ = .publish →
        ∀ qosPid, QosPid.fromDecoder { decoder with rest := rest } ≠ .ok qosPid) := by
    constructor
    · rintro ⟨decoder', header'', long, undelivered⟩
      rw [header, Except.ok.injEq] at header''
      subst header''
      rw [packetLen] at long
      exact ⟨long, by rw [same_decoder long]; exact undelivered⟩
    · rintro ⟨long, undelivered⟩
      refine ⟨decoder, header, packetLen ▸ long, ?_⟩
      rwa [same_decoder long] at undelivered
  have known : (assembled config ((packet.bytes ++ more).take stop)
      packet.bytes.length).packetLen.isSome := rfl
  have stops_early : Oversized config (packet.bytes ++ more) → stop < packet.bytes.length := by
    intro oversized
    have := (oversized_iff.mp oversized).1
    omega
  by_cases isPublish : decoder.fixedHeader.typ = .publish
  · rcases exists_fromBuffer_publish header' isPublish with ⟨topicName, decoded⟩
    rcases qosPid_eq : QosPid.fromDecoder { decoder with rest := rest } with fault | qosPid
    · rw [qosPid_eq] at decoded
      cases fault with
      | panic => exact absurd decoded calm
      | error error =>
          refine ⟨.error error, _, stop, start_of_known known, ?_, stops_early, ?_⟩
          · rw [session, recvAfter, received, decoded]
            simp only [bind, Except.bind, unread_of_known known, Socket.bytes_full]
          · intro notOversized
            by_contra short
            refine notOversized (oversized_iff.mpr ⟨by omega, fun _ qosPid => ?_⟩)
            simp [qosPid_eq]
    · have packetLen'' : ({ decoder with rest := rest } : MqttDecoder).packetLen =
          packet.bytes.length := packetLen
      rw [qosPid_eq, packetLen'', whole] at decoded
      simp only [bind, Except.bind] at decoded
      rw [decoded] at received
      rcases PartialPublish.consume_eq_done
          ⟨(packet.bytes ++ more).take stop, packet.bytes.length⟩
          (Socket.full ((packet.bytes ++ more).drop stop) ending) consume
          (by
            rw [Socket.bytes_full, length, List.length_drop, List.length_append]
            change packet.bytes.length - _ ≤ _
            omega)
        with ⟨frame, done, _⟩
      have rest_length : stop + (packet.bytes.length - stop) = packet.bytes.length := by omega
      simp only [length, Socket.skip_full, List.drop_drop, rest_length] at done
      have delivers : deliver consume (Socket.full ((packet.bytes ++ more).drop stop) ending)
          (.partialPublish qosPid topicName
            ⟨(packet.bytes ++ more).take stop, packet.bytes.length⟩) =
          some (.publish qosPid topicName (if consume = .copyAll then some frame else none),
            Socket.full ((packet.bytes ++ more).drop packet.bytes.length) ending) := by
        rw [deliver, done]
      have delivered : ¬Oversized config (packet.bytes ++ more) := fun oversized =>
        (oversized_iff.mp oversized).2 isPublish qosPid qosPid_eq
      refine ⟨.ok (.publish qosPid topicName (if consume = .copyAll then some frame else none)), _,
        packet.bytes.length, start_of_known known, ?_,
        fun oversized => absurd oversized delivered, fun _ => rfl⟩
      rw [session_cons (by rw [recvAfter, received]) known delivers, Socket.bytes_full]
  · have notPublish : first.fixedHeader.typ ≠ .publish := by
      rw [fixedHeader]
      exact isPublish
    have stops : ¬Oversized config (packet.bytes ++ more) → stop = packet.bytes.length := by
      intro notOversized
      by_contra short
      exact notOversized (oversized_iff.mpr ⟨by omega, fun publish => absurd publish isPublish⟩)
    rcases decoded : ReceivedPacket.fromBuffer config ((packet.bytes ++ more).take stop) with
      fault | value
    · cases fault with
      | panic => exact absurd decoded calm
      | error error =>
          refine ⟨.error error, _, stop, start_of_known known, ?_, stops_early, stops⟩
          rw [session, recvAfter, received, decoded]
          simp only [unread_of_known known, Socket.bytes_full]
    · refine ⟨.ok (.packet value), _, stop, start_of_known known, ?_, stops_early, stops⟩
      rw [decoded] at received
      rw [session_cons (by rw [recvAfter, received]) known
        (deliver_of_ne_publish created notPublish decoded consume _), Socket.bytes_full]

/-- The next call of `recv` starts at the first byte of the following packet, after every packet and
after every error that the connection survives, exactly when no packet that is reached is longer
than the read buffer without being received as a PUBLISH. -/
theorem inSync_iff {packets : List RawPacket} {consumes : List Consume}
    (empty : reader.start = holding config []) :
    InSync packets (session (receives consumes) reader (Socket.full (rawStream packets) ending)) ↔
      NoneOversized config packets consumes := by
  induction packets generalizing reader consumes with
  | nil =>
      have nothing : session (receives consumes) reader (Socket.full (rawStream []) ending) = [] := by
        cases consumes with
        | nil => rfl
        | cons consume consumes =>
            refine session_of_ends empty (Or.inl fun decoder header => ?_) consume
            simp [rawStream, parseHeader, MqttDecoder.tryNew, fail] at header
      rw [nothing]
      simp [InSync, NoneOversized]
  | cons packet packets ih =>
      cases consumes with
      | nil => simp [receives, session, InSync, NoneOversized]
      | cons consume consumes =>
          have receives_cons : receives (consume :: consumes) =
              ⟨[], consume⟩ :: receives consumes := rfl
          rw [receives_cons]
          by_cases ends : Ends config (rawStream (packet :: packets))
          · have notOversized := RawPacket.not_oversized_of_ends ends
            rw [session_of_ends empty ends]
            simp only [InSync, NoneOversized, true_iff]
            exact ⟨notOversized, Or.inl ends⟩
          · rw [rawStream_cons] at ends ⊢
            rcases exists_session_of_whole empty ends consume (receives consumes) ending with
              ⟨result, next, count, next_empty, first, early, late⟩
            rw [first, InSync, NoneOversized]
            by_cases oversized : Oversized config (packet.bytes ++ rawStream packets)
            · have short := early oversized
              have behind : (packet.bytes ++ rawStream packets).drop count ≠
                  rawStream packets := by
                intro same
                have := congrArg List.length same
                rw [List.length_drop, List.length_append] at this
                omega
              simp only [behind, false_and, rawStream_cons, oversized, not_true_eq_false]
            · have behind : (packet.bytes ++ rawStream packets).drop count =
                  rawStream packets := by
                rw [late oversized, List.drop_left]
              simp only [behind, true_and, rawStream_cons, oversized, not_false_eq_true, ends,
                false_or]
              exact ih next_empty

/-- A PUBLISH, a SUBACK that ends within its identifier, and a PINGRESP. -/
def refusedSubAck : List RawPacket :=
  [⟨0x30, [0x00, 0x01, 0x78, 0x00, 0x2C], by decide⟩, ⟨0x90, [0x00], by decide⟩,
    ⟨0xD0, [], by decide⟩]

/-- The decoder refuses the SUBACK, and the next call starts at the PINGRESP. -/
theorem inSync_iff_refusedSubAck :
    (session (receives [.copyAll, .discard, .discard]) (new (CrateConfig.default .mqttv5 false))
        (Socket.full (rawStream refusedSubAck) .waiting)).map Outcome.result =
      [.ok (.publish .atMostOnce ⟨[0x78], by decide⟩
          (some [0x30, 0x05, 0x00, 0x01, 0x78, 0x00, 0x2C])),
        .error .insufficientBytes, .ok (.packet .pingResp)] ∧
    InSync refusedSubAck (session (receives [.copyAll, .discard, .discard])
      (new (CrateConfig.default .mqttv5 false))
      (Socket.full (rawStream refusedSubAck) .waiting)) :=
  ⟨rfl, (inSync_iff rfl).mpr (noneOversized_of_fits (by decide) _)⟩

set_option maxRecDepth 4000 in
/-- A PINGRESP with a body of 140 bytes is received, and the next call starts inside its body. -/
theorem not_inSync_on_long_pingResp :
    ∃ packets : List RawPacket,
      (session (receives [.discard]) (new (CrateConfig.default .mqttv3 false))
          (Socket.full (rawStream packets) .waiting)).map Outcome.result =
        [.ok (.packet .pingResp)] ∧
      ¬InSync packets (session (receives [.discard]) (new (CrateConfig.default .mqttv3 false))
          (Socket.full (rawStream packets) .waiting)) := by
  refine ⟨[⟨0xD0, List.replicate 140 0x00, by decide⟩], rfl, ?_⟩
  intro inSync
  have behind := inSync.1
  revert behind
  decide

end PacketReader

end Mqttrust
