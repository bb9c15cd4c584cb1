import Mqttrust.Reader.Delivery

/-!
# Framing

The rest of a packet is read only once. So when a piece of the stream ends inside the
body of a packet that is not a PUBLISH, the reader decodes a truncated packet and the
next call of `recv` starts inside that body. A session does not depend on the pieces
exactly when no body is split in this way.
-/

namespace Mqttrust

/-- No piece of the stream ends inside the body of a packet other than a PUBLISH. -/
def BodiesUnsplit (config : CrateConfig) : List ServerPacket → Socket → Prop
  | [], _ => True
  | packet :: packets, socket =>
      (packet.typ ≠ .publish →
        (packet.body config).length ≤
          (socket.skip (packet.headerBytes config).length).front) ∧
      BodiesUnsplit config packets (socket.skip (packet.bytes config).length)

/-- The calls that receive some packets without being dropped. -/
def undropped (packets : List (ServerPacket × Consume)) : List Call :=
  packets.map fun entry => ⟨[], entry.2⟩

theorem undropped_cons (entry : ServerPacket × Consume) (packets : List (ServerPacket × Consume)) :
    undropped (entry :: packets) = ⟨[], entry.2⟩ :: undropped packets := rfl

/-- The outcomes of a session that delivers some packets and loses no byte of them. -/
def outcomes (config : CrateConfig) : List (ServerPacket × Consume) → List Outcome
  | [] => []
  | entry :: packets =>
      ⟨.ok (entry.1.delivered config entry.2), 0, stream config (packets.map Prod.fst)⟩ ::
        outcomes config packets

variable {config : CrateConfig} {packets : List (ServerPacket × Consume)} {socket : Socket}

theorem map_result_outcomes (config : CrateConfig) (packets : List (ServerPacket × Consume)) :
    (outcomes config packets).map Outcome.result =
      packets.map fun entry => .ok (entry.1.delivered config entry.2) := by
  induction packets with
  | nil => rfl
  | cons entry packets ih => simp [outcomes, ih]

theorem bodiesUnsplit_full (config : CrateConfig) (packets : List ServerPacket) (ending : Ending) :
    BodiesUnsplit config packets (Socket.full (stream config packets) ending) := by
  induction packets with
  | nil => trivial
  | cons packet packets ih =>
      refine ⟨fun _ => ?_, ?_⟩
      · rw [Socket.skip_full, Socket.front_full, stream_cons, List.length_drop, List.length_append,
          ServerPacket.length_bytes]
        omega
      · rw [Socket.skip_full, stream_cons, List.drop_left]
        exact ih

namespace PacketReader

variable {reader : PacketReader config}

section Step

variable {packet : ServerPacket} {more : List UInt8} (consume : Consume) (calls : List Call)

/-- A packet whose body is not split is delivered, and the session goes on behind it. -/
theorem session_of_unsplit_body (wellFormed : packet.WellFormed config)
    (receivable : packet.Receivable config) (empty : reader.start = holding config [])
    (bytes : socket.bytes = packet.bytes config ++ more) (codesFit : packet.CodesFit config)
    (unsplit : packet.typ ≠ .publish →
      (packet.body config).length ≤ (socket.skip (packet.headerBytes config).length).front) :
    ∃ next : PacketReader config, next.start = holding config [] ∧
      session (⟨[], consume⟩ :: calls) reader socket =
        ⟨.ok (packet.delivered config consume), 0, more⟩ ::
          session calls next (socket.skip (packet.bytes config).length) := by
  have begun : Begun reader socket (packet.bytes config ++ more) 0 :=
    bytes ▸ Begun.of_empty empty socket
  have unsplit' : packet.typ ≠ .publish →
      (packet.bytes config).length - packet.headerSize config ≤
        (socket.skip (packet.headerSize config - 0)).front := by
    intro notPublish
    have := unsplit notPublish
    rw [ServerPacket.headerSize_of_ne_publish config notPublish, ServerPacket.length_bytes, Nat.sub_zero]
    omega
  rcases exists_recv_delivered wellFormed receivable begun (Nat.zero_le _) unsplit' codesFit consume
    with ⟨received, next, rest, returned, known, delivers⟩
  refine ⟨next, start_of_known known, ?_⟩
  have dropped : recvAfter (Call.mk [] consume).drops reader socket =
      (0, .returned (.ok received) next rest) := by rw [← returned, recvAfter]
  rw [session_cons dropped known delivers, Nat.sub_zero, Socket.bytes_skip, bytes, List.drop_left]

theorem session_of_surplus (wellFormed : packet.WellFormed config)
    (receivable : packet.Receivable config) (empty : reader.start = holding config [])
    (bytes : socket.bytes = packet.bytes config ++ more) (surplus : ¬packet.CodesFit config)
    (unsplit : packet.typ ≠ .publish →
      (packet.body config).length ≤ (socket.skip (packet.headerBytes config).length).front) :
    session (⟨[], consume⟩ :: calls) reader socket = [] := by
  have begun : Begun reader socket (packet.bytes config ++ more) 0 :=
    bytes ▸ Begun.of_empty empty socket
  have notPublish : packet.typ ≠ .publish := fun isPublish =>
    surplus (ServerPacket.codesFit_of_publish isPublish)
  have panicked := recv_of_complete wellFormed receivable begun (Nat.zero_le _) notPublish (by
    have := unsplit notPublish
    rw [ServerPacket.headerSize_of_ne_publish config notPublish, ServerPacket.length_bytes, Nat.sub_zero]
    omega)
  rw [if_neg surplus] at panicked
  rw [session, recvAfter, panicked]

/-- A packet whose body is split is not delivered, or the session does not go on behind it. -/
theorem session_of_split_body (wellFormed : packet.WellFormed config)
    (receivable : packet.Receivable config) (empty : reader.start = holding config [])
    (bytes : socket.bytes = packet.bytes config ++ more) (notPublish : packet.typ ≠ .publish)
    (split : (socket.skip (packet.headerBytes config).length).front < (packet.body config).length)
    (delivered : Delivered) (outcomes : List Outcome) :
    session (⟨[], consume⟩ :: calls) reader socket ≠ ⟨.ok delivered, 0, more⟩ :: outcomes := by
  have begun : Begun reader socket (packet.bytes config ++ more) 0 :=
    bytes ▸ Begun.of_empty empty socket
  have received := recv_packet wellFormed receivable begun (Nat.zero_le _)
  have size := ServerPacket.headerSize_of_ne_publish config notPublish
  have length := ServerPacket.length_bytes config packet
  rw [size, Nat.sub_zero] at received
  have room := ServerPacket.length_le_readBufLen receivable notPublish
  generalize read_eq : restRead config packet (socket.skip (packet.headerBytes config).length) =
    read at received
  have read_lt : read < (packet.body config).length := by
    rw [← read_eq, restRead]
    omega
  have taken_length : ((packet.bytes config ++ more).take
      ((packet.headerBytes config).length + read)).length =
        (packet.headerBytes config).length + read := by
    rw [List.length_take, List.length_append]
    omega
  have taken : (packet.bytes config ++ more).take ((packet.headerBytes config).length + read) =
      packet.headerBytes config ++ (packet.body config ++ more).take read := by
    rw [ServerPacket.bytes, List.append_assoc, List.take_length_add_append]
  have created := ServerPacket.tryNew_headerBytes wellFormed
    ((packet.body config ++ more).take read)
  rw [← taken] at created
  have buf : (assembled config ((packet.bytes config ++ more).take
      ((packet.headerBytes config).length + read)) (packet.bytes config).length).buf =
        (packet.bytes config ++ more).take ((packet.headerBytes config).length + read) :=
    buf_assembled (by omega)
  have whole := List.take_of_length_le (show ((packet.bytes config ++ more).take
    ((packet.headerBytes config).length + read)).length ≤ (packet.bytes config).length by omega)
  simp only [finish, decode, packetLen_assembled, buf, whole] at received
  rw [session, recvAfter, received]
  rcases decoded : ReceivedPacket.fromBuffer config ((packet.bytes config ++ more).take
    ((packet.headerBytes config).length + read)) with fault | value
  · cases fault <;> simp
  · have known : (assembled config ((packet.bytes config ++ more).take
        ((packet.headerBytes config).length + read)) (packet.bytes config).length).packetLen.isSome :=
      rfl
    simp only [deliver_of_ne_publish created notPublish decoded, unread_of_known known]
    intro same
    have unread := congrArg List.length (Outcome.mk.inj (List.cons.inj same).1).2.2
    rw [Socket.bytes_skip, bytes, List.length_drop, List.length_append] at unread
    omega

end Step

theorem session_eq_outcomes (wellFormed : ∀ entry ∈ packets, entry.1.WellFormed config)
    (receivable : ∀ entry ∈ packets, entry.1.Receivable config)
    (empty : reader.start = holding config [])
    (bytes : socket.bytes = stream config (packets.map Prod.fst))
    (codesFit : ∀ entry ∈ packets, entry.1.CodesFit config)
    (unsplit : BodiesUnsplit config (packets.map Prod.fst) socket) :
    session (undropped packets) reader socket = outcomes config packets := by
  induction packets generalizing reader socket with
  | nil => rfl
  | cons entry packets ih =>
      simp only [List.forall_mem_cons] at wellFormed receivable codesFit
      rcases session_of_unsplit_body entry.2 (undropped packets) wellFormed.1 receivable.1 empty
        bytes codesFit.1 unsplit.1 with ⟨next, next_empty, first⟩
      have bytes' : (socket.skip (entry.1.bytes config).length).bytes =
          stream config (packets.map Prod.fst) := by
        rw [Socket.bytes_skip, bytes, List.map_cons, stream_cons, List.drop_left]
      have rest := ih wellFormed.2 receivable.2 next_empty bytes' codesFit.2 unsplit.2
      rw [undropped_cons, first, outcomes]
      exact congrArg (List.cons _) rest

/-- A session that delivers all packets of a stream whose bodies are not split has found room for
their reason codes. -/
theorem codesFit_of_session (wellFormed : ∀ entry ∈ packets, entry.1.WellFormed config)
    (receivable : ∀ entry ∈ packets, entry.1.Receivable config)
    (empty : reader.start = holding config [])
    (bytes : socket.bytes = stream config (packets.map Prod.fst))
    (unsplit : BodiesUnsplit config (packets.map Prod.fst) socket)
    (complete : (session (undropped packets) reader socket).length = packets.length) :
    ∀ entry ∈ packets, entry.1.CodesFit config := by
  induction packets generalizing reader socket with
  | nil => simp
  | cons entry packets ih =>
      simp only [List.forall_mem_cons] at wellFormed receivable ⊢
      by_cases codesFit : entry.1.CodesFit config
      · rcases session_of_unsplit_body entry.2 (undropped packets) wellFormed.1 receivable.1 empty
          bytes codesFit unsplit.1 with ⟨next, next_empty, first⟩
        have bytes' : (socket.skip (entry.1.bytes config).length).bytes =
            stream config (packets.map Prod.fst) := by
          rw [Socket.bytes_skip, bytes, List.map_cons, stream_cons, List.drop_left]
        rw [undropped_cons, first, List.length_cons, List.length_cons] at complete
        exact ⟨codesFit, ih wellFormed.2 receivable.2 next_empty bytes' unsplit.2
          (Nat.succ.inj complete)⟩
      · have nothing := session_of_surplus entry.2 (undropped packets) wellFormed.1 receivable.1
          empty bytes codesFit unsplit.1
        rw [undropped_cons, nothing] at complete
        simp at complete

/-- A session that delivers all packets and goes on behind each of them has met no split body. -/
theorem bodiesUnsplit_of_session (wellFormed : ∀ entry ∈ packets, entry.1.WellFormed config)
    (receivable : ∀ entry ∈ packets, entry.1.Receivable config)
    (empty : reader.start = holding config [])
    (bytes : socket.bytes = stream config (packets.map Prod.fst))
    (codesFit : ∀ entry ∈ packets, entry.1.CodesFit config)
    (same : session (undropped packets) reader socket = outcomes config packets) :
    BodiesUnsplit config (packets.map Prod.fst) socket := by
  induction packets generalizing reader socket with
  | nil => trivial
  | cons entry packets ih =>
      simp only [List.forall_mem_cons] at wellFormed receivable codesFit
      rw [undropped_cons, outcomes] at same
      have unsplit : entry.1.typ ≠ .publish →
          (entry.1.body config).length ≤
            (socket.skip (entry.1.headerBytes config).length).front := by
        intro notPublish
        by_contra split
        exact session_of_split_body entry.2 (undropped packets) wellFormed.1 receivable.1 empty
          bytes notPublish (Nat.not_le.mp split) _ _ same
      rcases session_of_unsplit_body entry.2 (undropped packets) wellFormed.1 receivable.1 empty
        bytes codesFit.1 unsplit with ⟨next, next_empty, first⟩
      have bytes' : (socket.skip (entry.1.bytes config).length).bytes =
          stream config (packets.map Prod.fst) := by
        rw [Socket.bytes_skip, bytes, List.map_cons, stream_cons, List.drop_left]
      refine ⟨unsplit, ih wellFormed.2 receivable.2 next_empty bytes' codesFit.2 ?_⟩
      exact (List.cons.inj (first.symm.trans same)).2

/-- A session returns the packets of the stream, and does the same as when every read fills the
requested slice, exactly when the reason codes fit and no body is split. -/
theorem session_eq_full_iff (wellFormed : ∀ entry ∈ packets, entry.1.WellFormed config)
    (receivable : ∀ entry ∈ packets, entry.1.Receivable config)
    (bytes : socket.bytes = stream config (packets.map Prod.fst)) :
    (session (undropped packets) (new config) socket =
        session (undropped packets) (new config) (Socket.full socket.bytes socket.ending) ∧
      (session (undropped packets) (new config) socket).map Outcome.result =
        packets.map fun entry => .ok (entry.1.delivered config entry.2)) ↔
      (∀ entry ∈ packets, entry.1.CodesFit config) ∧
        BodiesUnsplit config (packets.map Prod.fst) socket := by
  have empty : (new config).start = holding config [] := rfl
  have full_bytes := Socket.bytes_full socket.bytes socket.ending
  have full_unsplit := bodiesUnsplit_full config (packets.map Prod.fst) socket.ending
  rw [← bytes] at full_unsplit
  have full_same := session_eq_outcomes wellFormed receivable empty (full_bytes.trans bytes)
  constructor
  · rintro ⟨same, results⟩
    have complete : (session (undropped packets) (new config)
        (Socket.full socket.bytes socket.ending)).length = packets.length := by
      have := congrArg List.length results
      rwa [same, List.length_map, List.length_map] at this
    have codesFit := codesFit_of_session wellFormed receivable empty (full_bytes.trans bytes)
      full_unsplit complete
    refine ⟨codesFit, bodiesUnsplit_of_session wellFormed receivable empty bytes codesFit ?_⟩
    rw [same, full_same codesFit full_unsplit]
  · rintro ⟨codesFit, unsplit⟩
    rw [full_same codesFit full_unsplit,
      session_eq_outcomes wellFormed receivable empty bytes codesFit unsplit]
    exact ⟨rfl, map_result_outcomes config packets⟩

/-- A CONNACK and a PUBLISH whose pieces end in the fixed header of the one and in the payload of
the other. -/
theorem session_eq_full_example :
    ∃ socket : Socket, socket.pieces = [[0x20], [0x02, 0x00, 0x00, 0x30], [0x05, 0x00, 0x01, 0x61,
        0x01], [0x02]] ∧
      session (undropped [(.connAck false 0x00 [], .discard),
          (.publish false false .atMostOnce ⟨[0x61], by decide⟩ [] [0x01, 0x02], .copyAll)])
          (new (CrateConfig.default .mqttv3 false)) socket =
        session (undropped [(.connAck false 0x00 [], .discard),
          (.publish false false .atMostOnce ⟨[0x61], by decide⟩ [] [0x01, 0x02], .copyAll)])
          (new (CrateConfig.default .mqttv3 false)) (Socket.full socket.bytes socket.ending) := by
  refine ⟨⟨[[0x20], [0x02, 0x00, 0x00, 0x30], [0x05, 0x00, 0x01, 0x61, 0x01], [0x02]], .waiting,
    by decide⟩, rfl, ?_⟩
  refine ((session_eq_full_iff ?_ ?_ ?_).mpr ⟨?_, ?_⟩).1
  · simp only [List.forall_mem_cons, List.not_mem_nil, false_implies, implies_true, and_true]
    exact ⟨⟨trivial, by decide⟩, ⟨by decide, by decide⟩, by decide⟩
  · simp only [List.forall_mem_cons, List.not_mem_nil, false_implies, implies_true, and_true]
    exact ⟨by unfold ServerPacket.Receivable; decide, by unfold ServerPacket.Receivable; decide⟩
  · decide
  · simp only [List.forall_mem_cons, List.not_mem_nil, false_implies, implies_true, and_true]
    exact ⟨trivial, trivial⟩
  · exact ⟨fun _ => by decide, fun notPublish => absurd rfl notPublish, trivial⟩

/-- A CONNACK whose last byte arrives alone is not received. -/
theorem not_session_eq_full_on_split_connAck :
    ∃ (packet : ServerPacket) (socket : Socket),
      packet.WellFormed (CrateConfig.default .mqttv3 false) ∧
        packet.Receivable (CrateConfig.default .mqttv3 false) ∧
        packet.CodesFit (CrateConfig.default .mqttv3 false) ∧
        socket.bytes = packet.bytes (CrateConfig.default .mqttv3 false) ∧
        (session (undropped [(packet, .discard)]) (new (CrateConfig.default .mqttv3 false))
            (Socket.full socket.bytes socket.ending)).map Outcome.result =
          [.ok (packet.delivered (CrateConfig.default .mqttv3 false) .discard)] ∧
        (session (undropped [(packet, .discard)]) (new (CrateConfig.default .mqttv3 false))
            socket).map Outcome.result = [.error .insufficientBytes] := by
  refine ⟨.connAck false 0x00 [], ⟨[[0x20, 0x02, 0x00], [0x00]], .waiting, by decide⟩,
    ⟨trivial, by decide⟩, ?_, trivial, by decide, rfl, rfl⟩
  unfold ServerPacket.Receivable
  decide

end PacketReader

end Mqttrust
