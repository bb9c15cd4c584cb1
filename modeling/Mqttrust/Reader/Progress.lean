import Mqttrust.Reader.Receive

/-!
# Progress of the receive loop

An iteration of the loop of `recv` that neither reads a byte nor learns the length
of the packet repeats itself for ever. This happens when the buffer is full before
the header is complete, which takes a PUBLISH whose topic does not fit into the
buffer. On all other inputs the loop ends within `READ_BUF_LEN + 1` iterations.
-/

namespace Mqttrust

/-- The bytes fill the read buffer before they complete a header. -/
def Stuck (config : CrateConfig) (bytes : List UInt8) : Prop :=
  config.readBufLen ≤ bytes.length ∧
    parseHeader config (bytes.take config.readBufLen) = fail .insufficientBytes

namespace PacketReader

variable {config : CrateConfig} {reader next : PacketReader config} {socket rest : Socket}

/-- An iteration that consumes a byte, learns the length of the packet, or ends the loop. When the
slice to read into is out of order the iteration panics, after it has learned the length. -/
def Progresses (reader : PacketReader config) (socket : Socket) : Prop :=
  match reader.readChunk socket with
  | .done next rest => next.packetLen.isSome ∨ rest.bytes.length < socket.bytes.length
  | _ => True

theorem readChunk_eq_done (unknown : reader.packetLen = none)
    (done : reader.readChunk socket = .done next rest) :
    (∃ decoder taken, parseHeader config reader.buf = .ok decoder ∧
        reader.buf.length + taken ≤ decoder.packetLen ∧
        next = assembled config (reader.buf ++ socket.bytes.take taken) decoder.packetLen) ∨
      (parseHeader config reader.buf = fail .insufficientBytes ∧
        ((reader.buf.length = config.readBufLen ∧ next = reader ∧ rest = socket) ∨
          (reader.buf.length < config.readBufLen ∧ socket.bytes ≠ [] ∧
            next = reader.push (socket.bytes.take 1) ∧ rest = socket.skip 1))) := by
  rcases parseHeader_cases config reader.buf with ⟨decoder, header⟩ | missing | ⟨_, header, invalid⟩
  · left
    rcases Nat.lt_or_ge decoder.packetLen reader.buf.length with short | ordered
    · rw [readChunk_of_short unknown header short] at done
      simp at done
    · by_cases available : reader.buf.length < min decoder.packetLen config.readBufLen →
          socket.bytes ≠ []
      · rw [readChunk_of_parsed unknown header ordered available] at done
        simp only [Chunk.done.injEq] at done
        exact ⟨decoder, _, header, by omega, done.1.symm⟩
      · rw [Classical.not_imp, not_not] at available
        rw [readChunk_of_parsed_nil unknown header available.1 available.2] at done
        split at done <;> simp at done
  · right
    refine ⟨missing, ?_⟩
    rcases Nat.lt_or_eq_of_le reader.fits with room | full
    · right
      by_cases nothing_left : socket.bytes = []
      · rw [readChunk_of_missing_nil unknown missing room nothing_left] at done
        split at done <;> simp at done
      · rw [readChunk_of_missing unknown missing room nothing_left] at done
        simp only [Chunk.done.injEq] at done
        exact ⟨room, nothing_left, done.1.symm, done.2.symm⟩
    · rw [readChunk_of_full unknown missing full] at done
      simp only [Chunk.done.injEq] at done
      exact Or.inl ⟨full, done.1.symm, done.2.symm⟩
  · rw [readChunk_of_invalid unknown header invalid] at done
    simp at done

/-- The loop stays where it is once the buffer is full without a complete header. -/
theorem not_progresses_of_full (unknown : reader.packetLen = none)
    (missing : parseHeader config reader.buf = fail .insufficientBytes)
    (full : reader.buf.length = config.readBufLen) : ¬reader.Progresses socket := by
  simp [Progresses, readChunk_of_full unknown missing full, unknown]

theorem progresses_of_not_full (unknown : reader.packetLen = none)
    (notFull : ¬(parseHeader config reader.buf = fail .insufficientBytes ∧
      reader.buf.length = config.readBufLen)) : reader.Progresses socket := by
  unfold Progresses
  rcases chunk : reader.readChunk socket with ⟨next, rest⟩ | _ | _ | _
  · rcases readChunk_eq_done unknown chunk with learned | ⟨missing, ⟨full, _⟩ | ⟨_, left, _, rfl⟩⟩
    · rcases learned with ⟨decoder, taken, _, _, rfl⟩
      exact Or.inl rfl
    · exact absurd ⟨missing, full⟩ notFull
    · right
      have := List.length_pos_iff.mpr left
      rw [Socket.bytes_skip, List.length_drop]
      omega
  all_goals trivial

theorem finish_ne_unfinished : reader.finish socket ≠ .unfinished next rest := by
  unfold finish
  split <;> simp

/-- While the loop goes on bytes have moved into the buffer, without a complete header; every
iteration moves one, unless the buffer gets full. -/
theorem recvLoop_eq_unfinished {iterations : ℕ} (unknown : reader.packetLen = none)
    (unfinished : reader.recvLoop iterations socket = .unfinished next rest) :
    next.packetLen = none ∧ next.buf ++ rest.bytes = reader.buf ++ socket.bytes ∧
      reader.buf.length ≤ next.buf.length ∧
      (∀ length, reader.buf.length ≤ length → length < next.buf.length →
        parseHeader config (next.buf.take length) = fail .insufficientBytes) ∧
      (Stuck config (reader.buf ++ socket.bytes) ∨
        next.buf.length = reader.buf.length + iterations) := by
  induction iterations generalizing reader socket with
  | zero =>
      simp only [recvLoop, unknown, Option.isSome_none, Bool.false_eq_true, if_false,
        Recv.unfinished.injEq] at unfinished
      rcases unfinished with ⟨rfl, rfl⟩
      exact ⟨unknown, rfl, Nat.le_refl _, fun length above below => by omega, Or.inr rfl⟩
  | succ iterations ih =>
      rw [recvLoop_succ unknown] at unfinished
      rcases chunk : reader.readChunk socket with ⟨middle, between⟩ | _ | _ | _
      · rw [chunk] at unfinished
        simp only at unfinished
        rcases readChunk_eq_done unknown chunk with
          learned | ⟨missing, ⟨full, rfl, rfl⟩ | ⟨room, left, rfl, rfl⟩⟩
        · rcases learned with ⟨decoder, taken, _, _, rfl⟩
          rw [recvLoop_assembled] at unfinished
          exact absurd unfinished finish_ne_unfinished
        · rcases ih unknown unfinished with ⟨unknown', same, longer, prefixes, _⟩
          refine ⟨unknown', same, longer, prefixes, Or.inl ⟨?_, ?_⟩⟩
          · rw [List.length_append]
            omega
          · rw [← full, List.take_left, missing]
        · have one : (socket.bytes.take 1).length = 1 := by
            have := List.length_pos_iff.mpr left
            rw [List.length_take]
            omega
          have buf : (reader.push (socket.bytes.take 1)).buf =
              reader.buf ++ socket.bytes.take 1 := by
            apply List.take_of_length_le
            rw [List.length_append]
            omega
          have length_buf : (reader.push (socket.bytes.take 1)).buf.length =
              reader.buf.length + 1 := by rw [buf, List.length_append, one]
          have same : (reader.push (socket.bytes.take 1)).buf ++ (socket.skip 1).bytes =
              reader.buf ++ socket.bytes := by
            rw [buf, Socket.bytes_skip, List.append_assoc, List.take_append_drop]
          have still_unknown : (reader.push (socket.bytes.take 1)).packetLen = none := unknown
          rcases ih still_unknown unfinished with ⟨unknown', same', longer, prefixes, length⟩
          rw [same, length_buf] at length
          rw [length_buf] at longer prefixes
          refine ⟨unknown', same'.trans same, by omega, ?_, ?_⟩
          · intro length above below
            rcases Nat.lt_or_eq_of_le above with later | rfl
            · exact prefixes length later below
            · have : next.buf.take reader.buf.length = reader.buf := by
                have := congrArg (List.take reader.buf.length) (same'.trans same)
                rwa [List.take_left, List.take_append_of_le_length (by omega)] at this
              rw [this, missing]
          · rcases length with stuck | length
            · exact Or.inl stuck
            · exact Or.inr (by omega)
      all_goals
        rw [chunk] at unfinished
        simp at unfinished

/-- A stuck reader fills its buffer and then makes no progress. -/
theorem exists_not_progresses_of_stuck (reader : PacketReader config) (socket : Socket)
    (stuck : Stuck config (reader.start.buf ++ socket.bytes)) :
    ∃ iterations next rest, reader.start.recvLoop iterations socket = .unfinished next rest ∧
      ¬next.Progresses rest := by
  rcases stuck with ⟨long, missing⟩
  have begun := Begun.of_start reader socket
  have fits := reader.start.fits
  have length : ((reader.start.buf ++ socket.bytes).take config.readBufLen).length =
      config.readBufLen := List.length_take_of_le long
  have missing_before : ∀ length, length ≤ config.readBufLen →
      parseHeader config ((reader.start.buf ++ socket.bytes).take length) =
        fail .insufficientBytes := by
    intro length below
    have := parseHeader_take_of_missing missing length
    rwa [List.take_take, Nat.min_eq_left below] at this
  refine ⟨config.readBufLen - reader.start.buf.length,
    holding config ((reader.start.buf ++ socket.bytes).take config.readBufLen),
    socket.skip (config.readBufLen - reader.start.buf.length), ?_, ?_⟩
  · have stop : reader.start.buf.length + (config.readBufLen - reader.start.buf.length) =
        config.readBufLen := by omega
    have filled := recvLoop_header 0 begun.unread
      (by rw [stop]; exact long) (by rw [stop]) fun length _ below =>
        missing_before length (by omega)
    rw [← begun.held, Nat.add_zero, stop] at filled
    rw [filled, recvLoop]
    rfl
  · apply not_progresses_of_full rfl
    · rw [buf_holding (by omega)]
      exact missing
    · rw [buf_holding (by omega), length]

/-- The loop of `recv` makes progress in every iteration, and ends after at most one iteration more
than its buffer has bytes, exactly when the buffered and inbound bytes complete a header within the
buffer. -/
theorem recv_progresses_iff (reader : PacketReader config) (socket : Socket) :
    ((∀ iterations next rest, reader.start.recvLoop iterations socket = .unfinished next rest →
        next.Progresses rest) ∧
      ∀ iterations, config.readBufLen + 1 ≤ iterations →
        ∀ next rest, reader.start.recvLoop iterations socket ≠ .unfinished next rest) ↔
      ¬Stuck config (reader.start.buf ++ socket.bytes) := by
  constructor
  · rintro ⟨progress, _⟩ stuck
    rcases exists_not_progresses_of_stuck reader socket stuck with
      ⟨iterations, next, rest, unfinished, notProgress⟩
    exact notProgress (progress iterations next rest unfinished)
  · intro notStuck
    constructor
    · intro iterations next rest unfinished
      rcases recvLoop_eq_unfinished reader.start_packetLen unfinished with ⟨unknown, same, _⟩
      apply progresses_of_not_full unknown
      rintro ⟨missing, full⟩
      refine notStuck ⟨?_, ?_⟩
      · rw [← same, List.length_append]
        omega
      · rw [← same, ← full, List.take_left, missing]
    · intro iterations many next rest unfinished
      rcases recvLoop_eq_unfinished reader.start_packetLen unfinished with
        ⟨_, _, _, _, stuck | length⟩
      · exact notStuck stuck
      · have := next.fits
        omega

set_option maxRecDepth 4000 in
/-- With the default configuration a PUBLISH with a topic of 200 bytes keeps `recv` from ever
returning. -/
theorem not_progresses_on_long_topic :
    ∃ iterations next rest,
      (new (CrateConfig.default .mqttv5 false)).start.recvLoop iterations
          (Socket.full ([0x30, 0xD5, 0x01, 0x00, 0xC8] ++ List.replicate 200 0x61 ++
            List.replicate 11 0x00) .waiting) = .unfinished next rest ∧ ¬next.Progresses rest := by
  apply exists_not_progresses_of_stuck
  rw [Socket.bytes_full]
  exact ⟨by decide, rfl⟩

end PacketReader

end Mqttrust
