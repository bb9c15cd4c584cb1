import Mqttrust.Reader.Delivery

/-!
# Dropped calls of `recv`

A call that is dropped while the header is incomplete leaves its bytes in the buffer,
and the next call goes on with them. A call that is dropped while it waits for the
rest of a packet has stored the length of the packet, which the next call takes for
the mark of a packet that was received before: it clears the buffer and starts in the
middle of the packet. So nothing is lost exactly when no call is dropped there.
-/

namespace Mqttrust

/-- One of the calls is dropped when all of the header is in the buffer and the reader waits for
the rest of the packet. -/
def DroppedInBody (config : CrateConfig) (packet : ServerPacket) (drops : List ℕ) : Prop :=
  packet.headerSize config < min (packet.bytes config).length config.readBufLen ∧
    ∃ calls, (drops.take calls).sum = packet.headerSize config

namespace PacketReader

variable {config : CrateConfig} {packet : ServerPacket} {reader : PacketReader config}
  {socket : Socket} {more : List UInt8} {count : ℕ}

section DropAfter

theorem dropAfter_of_incomplete (wellFormed : packet.WellFormed config)
    (receivable : packet.Receivable config)
    (begun : Begun reader socket (packet.bytes config ++ more) count) {iterations : ℕ}
    (incomplete : count + iterations < packet.headerSize config) :
    reader.dropAfter socket iterations =
      some (holding config ((packet.bytes config ++ more).take (count + iterations)),
        socket.skip iterations) := by
  rcases ServerPacket.exists_parseHeader wellFormed receivable more with
    ⟨decoder, header, packetLen, headerSize⟩
  have room := ServerPacket.headerSize_le_readBufLen receivable
  have inside := ServerPacket.headerSize_le_length_bytes receivable
  have length : ((packet.bytes config ++ more).take (count + iterations)).length =
      count + iterations := by
    rw [List.length_take, List.length_append]
    omega
  have buf : (holding config ((packet.bytes config ++ more).take (count + iterations))).buf =
      (packet.bytes config ++ more).take (count + iterations) := buf_holding (by omega)
  have missing := parseHeader_take_of_lt header (headerSize ▸ incomplete)
  have one : min (count + iterations + 1) config.readBufLen - (count + iterations) = 0 + 1 := by
    omega
  rw [dropAfter, recvLoop_of_incomplete begun header (by omega) (by omega)]
  simp only [nextReadBuf_of_missing rfl (buf.symm ▸ missing), buf, length, one]

/-- The loop of `recv` when the header is complete: the length of the packet is stored and the rest
is asked for. -/
theorem recvLoop_of_header (wellFormed : packet.WellFormed config)
    (receivable : packet.Receivable config)
    (begun : Begun reader socket (packet.bytes config ++ more) count) {iterations : ℕ}
    (complete : count + iterations = packet.headerSize config) :
    ∃ next, reader.start.recvLoop iterations socket = .unfinished next (socket.skip iterations) ∧
      next.nextReadBuf =
        .ok (assembled config ((packet.bytes config ++ more).take (packet.headerSize config))
            (packet.bytes config).length,
          min (packet.bytes config).length config.readBufLen - packet.headerSize config) := by
  rcases ServerPacket.exists_parseHeader wellFormed receivable more with
    ⟨decoder, header, packetLen, headerSize⟩
  have room := ServerPacket.headerSize_le_readBufLen receivable
  have inside := ServerPacket.headerSize_le_length_bytes receivable
  have length : ((packet.bytes config ++ more).take (packet.headerSize config)).length =
      packet.headerSize config := by
    rw [List.length_take, List.length_append]
    omega
  have buf : (holding config ((packet.bytes config ++ more).take (packet.headerSize config))).buf =
      (packet.bytes config ++ more).take (packet.headerSize config) := buf_holding (by omega)
  rcases parseHeader_take header (Nat.le_of_eq headerSize) with ⟨rest, taken⟩
  have ordered : ¬min (packet.bytes config).length config.readBufLen <
      packet.headerSize config := by omega
  refine ⟨_, recvLoop_of_incomplete begun header (by omega) (by omega), ?_⟩
  rw [complete, nextReadBuf_of_parsed rfl (buf.symm ▸ taken), buf, length]
  change (if min decoder.packetLen _ < _ then _ else
    Except.ok (assembled config _ decoder.packetLen, min decoder.packetLen _ - _)) = _
  rw [packetLen, if_neg ordered]

theorem dropAfter_of_body (wellFormed : packet.WellFormed config)
    (receivable : packet.Receivable config)
    (begun : Begun reader socket (packet.bytes config ++ more) count) {iterations : ℕ}
    (complete : count + iterations = packet.headerSize config)
    (body : packet.headerSize config < min (packet.bytes config).length config.readBufLen) :
    reader.dropAfter socket iterations =
      some (assembled config ((packet.bytes config ++ more).take (packet.headerSize config))
        (packet.bytes config).length, socket.skip iterations) := by
  rcases recvLoop_of_header wellFormed receivable begun complete with ⟨next, unfinished, asked⟩
  rcases Nat.exists_eq_add_of_lt (Nat.sub_pos_of_lt body) with ⟨len, len_eq⟩
  rw [dropAfter, unfinished]
  simp only [asked, len_eq]

theorem dropAfter_of_complete (wellFormed : packet.WellFormed config)
    (receivable : packet.Receivable config)
    (begun : Begun reader socket (packet.bytes config ++ more) count)
    (behind : count ≤ packet.headerSize config) {iterations : ℕ}
    (complete : packet.headerSize config < count + iterations ∨
      (count + iterations = packet.headerSize config ∧
        min (packet.bytes config).length config.readBufLen ≤ packet.headerSize config)) :
    reader.dropAfter socket iterations = none := by
  rcases complete with later | ⟨complete, noBody⟩
  · rcases ServerPacket.exists_parseHeader wellFormed receivable more with
      ⟨decoder, header, packetLen, headerSize⟩
    have room := ServerPacket.headerSize_le_readBufLen receivable
    have inside := ServerPacket.headerSize_le_length_bytes receivable
    rw [dropAfter, recvLoop_of_parsed begun header (by omega) (by omega) (by omega) _ (by omega)]
    · split
      · rename_i finished
        exact absurd finished finish_ne_unfinished
      · rfl
    · intro before
      rw [List.length_append]
      omega
  · rcases recvLoop_of_header wellFormed receivable begun complete with ⟨next, unfinished, asked⟩
    rw [dropAfter, unfinished]
    simp only [asked, Nat.sub_eq_zero_of_le noBody]

end DropAfter

theorem begun_of_dropped (begun : Begun reader socket (packet.bytes config ++ more) count)
    (iterations : ℕ) :
    Begun (holding config ((packet.bytes config ++ more).take (count + iterations)))
      (socket.skip iterations) (packet.bytes config ++ more) (count + iterations) where
  held := rfl
  unread := by rw [Socket.bytes_skip, begun.unread, List.drop_drop]

/-- Calls that are not dropped in the body keep all bytes of the header. -/
theorem exists_begun_of_drops (wellFormed : packet.WellFormed config)
    (receivable : packet.Receivable config) {drops : List ℕ}
    (begun : Begun reader socket (packet.bytes config ++ more) count)
    (behind : count < packet.headerSize config)
    (notInBody : packet.headerSize config < min (packet.bytes config).length config.readBufLen →
      ∀ calls, count + (drops.take calls).sum ≠ packet.headerSize config) :
    ∃ (last : PacketReader config) (kept : ℕ),
      Begun last (socket.skip kept) (packet.bytes config ++ more) (count + kept) ∧
        count + kept ≤ packet.headerSize config ∧
        recvAfter drops reader socket = (0, last.recv (socket.skip kept)) := by
  induction drops generalizing reader socket count with
  | nil => exact ⟨reader, 0, by simpa using begun, by omega, by rw [recvAfter, Socket.skip_zero]⟩
  | cons iterations drops ih =>
      rcases Nat.lt_or_ge (count + iterations) (packet.headerSize config) with incomplete | enough
      · have dropped := dropAfter_of_incomplete wellFormed receivable begun incomplete
        have keeps : (holding config ((packet.bytes config ++ more).take
            (count + iterations))).lost = 0 := Nat.sub_self _
        rcases ih (begun_of_dropped begun iterations) incomplete fun body calls => by
            have := notInBody body (calls + 1)
            rwa [List.take_succ_cons, List.sum_cons, ← Nat.add_assoc] at this
          with ⟨last, kept, begun', behind', same⟩
        refine ⟨last, iterations + kept, ?_, by omega, ?_⟩
        · rw [Socket.skip_skip, Nat.add_assoc] at begun'
          exact begun'
        · rw [recvAfter, dropped]
          simp only [same, keeps, Nat.add_zero, Socket.skip_skip]
      · have completes : reader.dropAfter socket iterations = none := by
          apply dropAfter_of_complete wellFormed receivable begun (Nat.le_of_lt behind)
          rcases Nat.lt_or_eq_of_le enough with later | complete
          · exact Or.inl later
          · refine Or.inr ⟨complete.symm, ?_⟩
            by_contra body
            have := notInBody (Nat.not_le.mp body) 1
            simp only [List.take_succ_cons, List.take_zero, List.sum_cons, List.sum_nil] at this
            omega
        exact ⟨reader, 0, by simpa using begun, by omega,
          by rw [recvAfter, completes, Socket.skip_zero]⟩

theorem lost_of_drops (wellFormed : packet.WellFormed config)
    (receivable : packet.Receivable config) {drops : List ℕ}
    (begun : Begun reader socket (packet.bytes config ++ more) count)
    (behind : count < packet.headerSize config)
    (body : packet.headerSize config < min (packet.bytes config).length config.readBufLen)
    (inBody : ∃ calls, count + (drops.take calls).sum = packet.headerSize config) :
    0 < (recvAfter drops reader socket).1 := by
  induction drops generalizing reader socket count with
  | nil =>
      rcases inBody with ⟨calls, sum⟩
      simp only [List.take_nil, List.sum_nil] at sum
      omega
  | cons iterations drops ih =>
      rcases inBody with ⟨_ | calls, sum⟩
      · simp only [List.take_zero, List.sum_nil] at sum
        omega
      · rw [List.take_succ_cons, List.sum_cons, ← Nat.add_assoc] at sum
        rcases Nat.lt_or_ge (count + iterations) (packet.headerSize config) with
          incomplete | enough
        · rw [recvAfter, dropAfter_of_incomplete wellFormed receivable begun incomplete]
          have := ih (begun_of_dropped begun iterations) incomplete ⟨calls, sum⟩
          simp only
          omega
        · rw [recvAfter, dropAfter_of_body wellFormed receivable begun (by omega) body]
          have clears : (assembled config ((packet.bytes config ++ more).take
              (packet.headerSize config)) (packet.bytes config).length).lost =
                packet.headerSize config := by
            have room := ServerPacket.headerSize_le_readBufLen receivable
            have inside := ServerPacket.headerSize_le_length_bytes receivable
            rw [lost, start_of_known rfl]
            simp only [assembled, holding, List.take_nil, List.length_nil, Nat.sub_zero,
              List.length_take, List.length_append]
            omega
          have := ServerPacket.headerSize_pos config packet
          simp only [clears]
          omega

/-- The calls that receive some packets. -/
def calls (packets : List (ServerPacket × Call)) : List Call := packets.map Prod.snd

section Step

variable (call : Call) (rest : List Call) {ending : Ending}

/-- A session begins with the bytes that its first calls lose, or with nothing. -/
theorem session_eq_nil_or_cons (reader : PacketReader config) (socket : Socket) :
    session (call :: rest) reader socket = [] ∨
      ∃ result unread outcomes, session (call :: rest) reader socket =
        ⟨result, (recvAfter call.drops reader socket).1, unread⟩ :: outcomes := by
  rw [session]
  split
  · rename_i lost packet next behind same
    split
    · exact Or.inr ⟨_, _, _, by rw [same]⟩
    · exact Or.inl rfl
  · rename_i lost error next behind same
    exact Or.inr ⟨_, _, _, by rw [same]⟩
  · exact Or.inl rfl

/-- When no call is dropped in its body, a packet is delivered and the session goes on behind it. -/
theorem session_of_notInBody (wellFormed : packet.WellFormed config)
    (receivable : packet.Receivable config) (empty : reader.start = holding config [])
    (notInBody : ¬DroppedInBody config packet call.drops) :
    ∃ next : PacketReader config, next.start = holding config [] ∧
      session (call :: rest) reader (Socket.full (packet.bytes config ++ more) ending) =
        if packet.CodesFit config then
          ⟨.ok (packet.delivered config call.consume), 0, more⟩ ::
            session rest next (Socket.full more ending)
        else [] := by
  have begun : Begun reader (Socket.full (packet.bytes config ++ more) ending)
      (packet.bytes config ++ more) 0 := ⟨by simpa using empty, by simp⟩
  have positive := ServerPacket.headerSize_pos config packet
  have inside := ServerPacket.headerSize_le_length_bytes receivable
  rcases exists_begun_of_drops wellFormed receivable begun positive
    (fun body calls sum => notInBody ⟨body, calls, by rwa [Nat.zero_add] at sum⟩)
    with ⟨last, kept, begun', behind, same⟩
  rw [Nat.zero_add] at begun' behind
  have unsplit : (packet.bytes config).length - packet.headerSize config ≤
      (((Socket.full (packet.bytes config ++ more) ending).skip kept).skip
        (packet.headerSize config - kept)).front := by
    rw [Socket.skip_skip, Socket.skip_full, Socket.front_full, List.length_drop,
      List.length_append]
    omega
  by_cases codesFit : packet.CodesFit config
  · rcases exists_recv_delivered wellFormed receivable begun' behind (fun _ => unsplit) codesFit
      call.consume with ⟨received, next, behind, returned, known, delivers⟩
    refine ⟨next, start_of_known known, ?_⟩
    have stop : kept + ((packet.bytes config).length - kept) = (packet.bytes config).length := by
      omega
    rw [returned] at same
    rw [Socket.skip_skip, stop, Socket.skip_full, List.drop_left] at delivers
    rw [session_cons same known delivers, if_pos codesFit, Socket.bytes_full]
  · have notPublish : packet.typ ≠ .publish := fun isPublish =>
      codesFit (ServerPacket.codesFit_of_publish isPublish)
    have panicked := recv_of_complete wellFormed receivable begun' behind notPublish unsplit
    rw [if_neg codesFit] at panicked
    refine ⟨new config, rfl, ?_⟩
    rw [session, same, panicked, if_neg codesFit]

end Step

/-- Calls of `recv` that can be dropped while they wait return the packets of the stream, and no
byte that was read is lost, exactly when the reason codes fit and no call is dropped while it waits
for the rest of a packet. -/
theorem session_delivers_iff {packets : List (ServerPacket × Call)} {ending : Ending}
    (wellFormed : ∀ entry ∈ packets, entry.1.WellFormed config)
    (receivable : ∀ entry ∈ packets, entry.1.Receivable config)
    (empty : reader.start = holding config []) :
    ((session (calls packets) reader
          (Socket.full (stream config (packets.map Prod.fst)) ending)).map Outcome.result =
        (packets.map fun entry => .ok (entry.1.delivered config entry.2.consume)) ∧
      ∀ outcome ∈ session (calls packets) reader
          (Socket.full (stream config (packets.map Prod.fst)) ending), outcome.lost = 0) ↔
      ∀ entry ∈ packets,
        entry.1.CodesFit config ∧ ¬DroppedInBody config entry.1 entry.2.drops := by
  induction packets generalizing reader with
  | nil => simp [calls, session]
  | cons entry packets ih =>
      simp only [List.forall_mem_cons] at wellFormed receivable ⊢
      have bytes : stream config ((entry :: packets).map Prod.fst) =
          entry.1.bytes config ++ stream config (packets.map Prod.fst) := rfl
      have calls_cons : calls (entry :: packets) = entry.2 :: calls packets := rfl
      rw [bytes, calls_cons]
      by_cases inBody : DroppedInBody config entry.1 entry.2.drops
      · have begun : Begun reader (Socket.full (entry.1.bytes config ++
            stream config (packets.map Prod.fst)) ending)
            (entry.1.bytes config ++ stream config (packets.map Prod.fst)) 0 :=
          ⟨by simpa using empty, by simp⟩
        have loses := lost_of_drops wellFormed.1 receivable.1 begun
          (ServerPacket.headerSize_pos config entry.1) inBody.1
          (by simpa only [Nat.zero_add] using inBody.2)
        constructor
        · rintro ⟨results, kept⟩
          rcases session_eq_nil_or_cons entry.2 (calls packets) reader (Socket.full
              (entry.1.bytes config ++ stream config (packets.map Prod.fst)) ending)
            with nothing | ⟨result, unread, outcomes, some_outcome⟩
          · rw [nothing] at results
            simp at results
          · rw [some_outcome] at kept
            have := kept _ (List.mem_cons_self ..)
            simp only at this
            omega
        · rintro ⟨⟨_, notInBody⟩, _⟩
          exact absurd inBody notInBody
      · rcases session_of_notInBody entry.2 (calls packets) wellFormed.1 receivable.1 empty inBody
          with ⟨next, next_empty, first⟩
        rw [first]
        by_cases codesFit : entry.1.CodesFit config
        · have rest := ih wellFormed.2 receivable.2 next_empty
          simp only [codesFit, inBody, if_true, List.map_cons, List.cons.injEq, true_and,
            List.forall_mem_cons, not_false_eq_true]
          exact rest
        · simp [codesFit]

/-- A PINGRESP between whose two bytes the call is dropped. -/
theorem session_delivers_example :
    ((session (calls [(.pingResp, ⟨[1], .discard⟩)]) (new (CrateConfig.default .mqttv5 false))
          (Socket.full (stream (CrateConfig.default .mqttv5 false) [.pingResp])
            .waiting)).map Outcome.result = [.ok (.packet .pingResp)]) := by
  refine ((session_delivers_iff ?_ ?_ rfl).mpr ?_).1
  · simp only [List.forall_mem_cons, List.not_mem_nil, false_implies, implies_true, and_true]
    exact ⟨trivial, by decide⟩
  · simp only [List.forall_mem_cons, List.not_mem_nil, false_implies, implies_true, and_true]
    unfold ServerPacket.Receivable
    decide
  · simp only [List.forall_mem_cons, List.not_mem_nil, false_implies, implies_true, and_true]
    refine ⟨trivial, fun inBody => ?_⟩
    exact absurd inBody.1 (by decide)

/-- A CONNACK is lost when the call is dropped behind its fixed header. -/
theorem not_session_delivers_on_connAck :
    ∃ (packet : ServerPacket) (call : Call),
      packet.WellFormed (CrateConfig.default .mqttv3 false) ∧
        packet.Receivable (CrateConfig.default .mqttv3 false) ∧
        packet.CodesFit (CrateConfig.default .mqttv3 false) ∧
        (recvAfter call.drops (new (CrateConfig.default .mqttv3 false)) (Socket.full
          (stream (CrateConfig.default .mqttv3 false) [packet]) .waiting)).1 = 2 ∧
        session [call] (new (CrateConfig.default .mqttv3 false)) (Socket.full
          (stream (CrateConfig.default .mqttv3 false) [packet]) .waiting) = [] := by
  refine ⟨.connAck false 0x00 [], ⟨[2], .discard⟩, ⟨trivial, by decide⟩, ?_, trivial, rfl, rfl⟩
  unfold ServerPacket.Receivable
  decide

end PacketReader

end Mqttrust
