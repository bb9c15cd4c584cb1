import Mqttrust.Reader.PacketReader

/-!
# What receiving a packet does

Parsing a header is stable: as soon as enough bytes are there the outcome does not
change any more, and before that bytes are missing. So the loop of `recv` first
reads bytes one after the other, until the header is complete, and then asks once
for the rest of the packet. The lemmas describe these two phases by the bytes that
the reader holds and those that the socket delivers.
-/

namespace Mqttrust

/-- The number of bytes that the reader needs before it takes the length from the header. -/
def MqttDecoder.headerSize (decoder : MqttDecoder) : ℕ :=
  if decoder.fixedHeader.typ = .publish then decoder.offset + 2 else decoder.offset

section ParseHeader

variable {config : CrateConfig} {buf : List UInt8} {decoder : MqttDecoder} {fault : Fault}

theorem parseHeader_append_of_error (more : List UInt8)
    (failed : parseHeader config buf = .error fault)
    (decided : fault ≠ .error .insufficientBytes) :
    parseHeader config (buf ++ more) = .error fault := by
  unfold parseHeader at failed
  split at failed
  · rename_i fault' created
    simp only [Except.error.injEq] at failed
    subst failed
    rw [parseHeader, MqttDecoder.tryNew_append_of_error more created decided]
  · rename_i created_decoder created
    have created' := MqttDecoder.tryNew_append created more
    split at failed
    · rename_i isPublish
      rw [parseHeader, created']
      simp only [isPublish, if_true]
      split at failed
      · rename_i fault' read
        simp only [Except.error.injEq] at failed
        subst failed
        rw [MqttDecoder.readStr_append_of_error more read decided]
      · rename_i text after read
        unfold MqttDecoder.checkRemaining at failed
        split at failed
        · rename_i fault' short
          split at short
          · simp only [fail, Except.error.injEq] at short failed
            exact absurd (failed.symm.trans short.symm) decided
          · simp at short
        · simp at failed
    · simp at failed

theorem exists_of_parseHeader_eq_ok (parsed : parseHeader config buf = .ok decoder) :
    ∃ head tail, buf = head ++ tail ∧ head.length = decoder.headerSize ∧ 2 ≤ head.length ∧
      ∀ more, ∃ rest, parseHeader config (head ++ more) = .ok { decoder with rest := rest } := by
  unfold parseHeader at parsed
  split at parsed
  · simp at parsed
  · rename_i created_decoder created
    rcases MqttDecoder.exists_of_tryNew_eq_ok created with ⟨head, rfl, length, offset, two, same⟩
    split at parsed
    · rename_i isPublish
      split at parsed
      · simp at parsed
      · rename_i text after read
        rcases MqttDecoder.exists_of_readStr_eq_ok read with ⟨high, low, rest_eq, len, after_eq⟩
        split at parsed
        · simp at parsed
        · rename_i enough
          simp only [Except.ok.injEq] at parsed
          subst parsed
          have two_left : 2 ≤ after.rest.length := by
            unfold MqttDecoder.checkRemaining at enough
            split at enough
            · simp [fail] at enough
            · omega
          have typ : after.fixedHeader.typ = .publish := by
            rw [after_eq]
            exact isPublish
          have after_offset : after.offset = head.length + 2 + text.bytes.length := by
            rw [after_eq, length, ← offset]
          refine ⟨head ++ high :: low :: (text.bytes ++ after.rest.take 2), after.rest.drop 2,
            ?_, ?_, ?_, ?_⟩
          · rw [rest_eq]
            simp
          · simp only [List.length_append, List.length_cons, List.length_take,
              MqttDecoder.headerSize, typ, if_true, after_offset]
            omega
          · simp only [List.length_append]
            omega
          · intro more
            refine ⟨after.rest.take 2 ++ more, ?_⟩
            have created' : MqttDecoder.tryNew config
                (head ++ high :: low :: (text.bytes ++ after.rest.take 2) ++ more) =
                  .ok { created_decoder with
                    rest := high :: low :: (text.bytes ++ (after.rest.take 2 ++ more)) } := by
              rw [List.append_assoc, same]
              simp
            rw [parseHeader, created']
            simp only [isPublish, if_true]
            rw [MqttDecoder.readStr_cons _ _ _ _ len]
            have enough' : ¬(after.rest.take 2 ++ more).length < 2 := by
              simp only [List.length_append, List.length_take]
              omega
            simp only [MqttDecoder.checkRemaining, enough', if_false, Except.ok.injEq]
            rw [after_eq]
    · rename_i notPublish
      simp only [Except.ok.injEq] at parsed
      subst parsed
      refine ⟨head, _, rfl, ?_, two, fun more => ⟨more, ?_⟩⟩
      · simp [MqttDecoder.headerSize, notPublish, length, offset]
      · rw [parseHeader, same more]
        simp [notPublish]

theorem exists_tryNew_of_parseHeader (parsed : parseHeader config buf = .ok decoder) :
    ∃ created, MqttDecoder.tryNew config buf = .ok created ∧
      created.packetLen = decoder.packetLen ∧ created.headerLen = decoder.headerLen ∧
      created.fixedHeader = decoder.fixedHeader := by
  unfold parseHeader at parsed
  split at parsed
  · simp at parsed
  · rename_i created_decoder created
    refine ⟨created_decoder, created, ?_⟩
    split at parsed
    · split at parsed
      · simp at parsed
      · rename_i text after read
        rcases MqttDecoder.exists_of_readStr_eq_ok read with ⟨_, _, _, _, after_eq⟩
        split at parsed
        · simp at parsed
        · simp only [Except.ok.injEq] at parsed
          subst parsed
          rw [after_eq]
          exact ⟨rfl, rfl, rfl⟩
    · simp only [Except.ok.injEq] at parsed
      subst parsed
      exact ⟨rfl, rfl, rfl⟩

theorem headerSize_with_rest (decoder : MqttDecoder) (rest : List UInt8) :
    ({ decoder with rest := rest } : MqttDecoder).headerSize = decoder.headerSize := rfl

theorem headerSize_le (parsed : parseHeader config buf = .ok decoder) :
    decoder.headerSize ≤ buf.length := by
  rcases exists_of_parseHeader_eq_ok parsed with ⟨head, tail, rfl, length, _, _⟩
  rw [← length, List.length_append]
  exact Nat.le_add_right _ _

theorem parseHeader_append (parsed : parseHeader config buf = .ok decoder) (more : List UInt8) :
    ∃ rest, parseHeader config (buf ++ more) = .ok { decoder with rest := rest } := by
  rcases exists_of_parseHeader_eq_ok parsed with ⟨head, tail, rfl, _, _, same⟩
  rw [List.append_assoc]
  exact same (tail ++ more)

theorem parseHeader_take (parsed : parseHeader config buf = .ok decoder) {count : ℕ}
    (enough : decoder.headerSize ≤ count) :
    ∃ rest, parseHeader config (buf.take count) = .ok { decoder with rest := rest } := by
  rcases exists_of_parseHeader_eq_ok parsed with ⟨head, tail, rfl, length, _, same⟩
  have : (head ++ tail).take count = head ++ tail.take (count - head.length) := by
    rw [List.take_append, List.take_of_length_le (by omega)]
  rw [this]
  exact same _

theorem parseHeader_take_of_lt (parsed : parseHeader config buf = .ok decoder) {count : ℕ}
    (short : count < decoder.headerSize) :
    parseHeader config (buf.take count) = fail .insufficientBytes := by
  rcases taken : parseHeader config (buf.take count) with fault | early
  · by_cases missing : fault = .error .insufficientBytes
    · rw [missing]
      rfl
    · have := parseHeader_append_of_error (buf.drop count) taken missing
      rw [List.take_append_drop, parsed] at this
      simp at this
  · rcases parseHeader_append taken (buf.drop count) with ⟨rest, whole⟩
    rw [List.take_append_drop, parsed, Except.ok.injEq] at whole
    have size : decoder.headerSize = early.headerSize := by
      rw [whole]
      rfl
    have := headerSize_le taken
    rw [List.length_take] at this
    omega

theorem parseHeader_take_of_missing (missing : parseHeader config buf = fail .insufficientBytes)
    (count : ℕ) : parseHeader config (buf.take count) = fail .insufficientBytes := by
  rcases taken : parseHeader config (buf.take count) with fault | early
  · by_cases same : fault = .error .insufficientBytes
    · rw [same]
      rfl
    · have := parseHeader_append_of_error (buf.drop count) taken same
      rw [List.take_append_drop, missing] at this
      simp only [fail, Except.error.injEq] at this
      exact absurd this.symm same
  · rcases parseHeader_append taken (buf.drop count) with ⟨rest, whole⟩
    rw [List.take_append_drop, missing] at whole
    simp [fail] at whole

theorem parseHeader_ne_panic (config : CrateConfig) (buf : List UInt8) :
    parseHeader config buf ≠ .error .panic := by
  grind [parseHeader, MqttDecoder.tryNew_ne_panic, MqttDecoder.readStr_ne_panic,
    MqttDecoder.checkRemaining_ne_panic]

/-- A header is parsed, is not complete, or is rejected. -/
theorem parseHeader_cases (config : CrateConfig) (buf : List UInt8) :
    (∃ decoder, parseHeader config buf = .ok decoder) ∨
      parseHeader config buf = fail .insufficientBytes ∨
      ∃ error, parseHeader config buf = fail error ∧ error ≠ .insufficientBytes := by
  rcases header : parseHeader config buf with fault | decoder
  · cases fault with
    | panic => exact absurd header (parseHeader_ne_panic config buf)
    | error error =>
        by_cases missing : error = .insufficientBytes
        · exact .inr (.inl (missing ▸ rfl))
        · exact .inr (.inr ⟨error, rfl, missing⟩)
  · exact .inl ⟨decoder, rfl⟩

end ParseHeader

namespace PacketReader

variable {config : CrateConfig}

/-- The reader that holds some bytes of a packet whose length it does not know. -/
def holding (config : CrateConfig) (bytes : List UInt8) : PacketReader config :=
  ⟨bytes.take config.readBufLen, none, List.length_take_le _ _⟩

/-- The reader that holds some bytes of a packet of known length. -/
def assembled (config : CrateConfig) (bytes : List UInt8) (packetLen : ℕ) : PacketReader config :=
  ⟨bytes.take config.readBufLen, some packetLen, List.length_take_le _ _⟩

@[simp]
theorem packetLen_holding (bytes : List UInt8) : (holding config bytes).packetLen = none := rfl

@[simp]
theorem packetLen_assembled (bytes : List UInt8) (packetLen : ℕ) :
    (assembled config bytes packetLen).packetLen = some packetLen := rfl

theorem buf_holding {bytes : List UInt8} (room : bytes.length ≤ config.readBufLen) :
    (holding config bytes).buf = bytes := List.take_of_length_le room

theorem buf_assembled {bytes : List UInt8} {packetLen : ℕ}
    (room : bytes.length ≤ config.readBufLen) :
    (assembled config bytes packetLen).buf = bytes := List.take_of_length_le room

theorem take_take_append (bytes more : List UInt8) (count : ℕ) :
    (bytes.take count ++ more).take count = (bytes ++ more).take count := by
  rw [List.take_append, List.take_append, List.take_take, Nat.min_self, List.length_take]
  congr 2
  omega

@[simp]
theorem push_holding (bytes more : List UInt8) :
    (holding config bytes).push more = holding config (bytes ++ more) :=
  PacketReader.ext (take_take_append bytes more config.readBufLen) rfl

@[simp]
theorem push_assembled (bytes more : List UInt8) (packetLen : ℕ) :
    (assembled config bytes packetLen).push more = assembled config (bytes ++ more) packetLen :=
  PacketReader.ext (take_take_append bytes more config.readBufLen) rfl

theorem eq_holding {reader : PacketReader config} (unknown : reader.packetLen = none) :
    reader = holding config reader.buf :=
  PacketReader.ext (List.take_of_length_le reader.fits).symm unknown

theorem start_packetLen (reader : PacketReader config) : reader.start.packetLen = none := by
  unfold start
  split
  · rfl
  · rename_i unknown
    simpa using unknown

section ReadChunk

variable {reader : PacketReader config} {socket : Socket}

theorem nextReadBuf_of_missing (unknown : reader.packetLen = none)
    (missing : parseHeader config reader.buf = fail .insufficientBytes) :
    reader.nextReadBuf =
      .ok (reader, min (reader.buf.length + 1) config.readBufLen - reader.buf.length) := by
  have fits := reader.fits
  have ordered : ¬min (reader.buf.length + 1) config.readBufLen < reader.buf.length := by omega
  simp [nextReadBuf, parsed, tryParseHeader, unknown, missing, fail, ordered]

theorem nextReadBuf_of_parsed {decoder : MqttDecoder} (unknown : reader.packetLen = none)
    (header : parseHeader config reader.buf = .ok decoder) :
    reader.nextReadBuf =
      if min decoder.packetLen config.readBufLen < reader.buf.length then .error .panic
      else .ok (assembled config reader.buf decoder.packetLen,
        min decoder.packetLen config.readBufLen - reader.buf.length) := by
  have same : ({ reader with packetLen := some decoder.packetLen } : PacketReader config) =
      assembled config reader.buf decoder.packetLen :=
    PacketReader.ext (List.take_of_length_le reader.fits).symm rfl
  have buf : (assembled config reader.buf decoder.packetLen).buf = reader.buf :=
    buf_assembled reader.fits
  simp only [nextReadBuf, parsed, tryParseHeader, unknown, header, Option.isNone_none, if_true,
    same, packetLen_assembled, Option.getD_some, buf]

theorem readChunk_of_full (unknown : reader.packetLen = none)
    (missing : parseHeader config reader.buf = fail .insufficientBytes)
    (full : reader.buf.length = config.readBufLen) :
    reader.readChunk socket = .done reader socket := by
  have : min (reader.buf.length + 1) config.readBufLen - reader.buf.length = 0 := by omega
  simp [readChunk, nextReadBuf_of_missing unknown missing, this]

theorem readChunk_of_missing (unknown : reader.packetLen = none)
    (missing : parseHeader config reader.buf = fail .insufficientBytes)
    (room : reader.buf.length < config.readBufLen) (some_left : socket.bytes ≠ []) :
    reader.readChunk socket = .done (reader.push (socket.bytes.take 1)) (socket.skip 1) := by
  have one : min (reader.buf.length + 1) config.readBufLen - reader.buf.length = 0 + 1 := by omega
  have front : min 1 socket.front = 1 := Nat.min_eq_left (socket.front_pos some_left)
  simp only [readChunk, nextReadBuf_of_missing unknown missing, one]
  rw [Socket.read_eq_ready socket some_left, Nat.zero_add, front]

theorem readChunk_of_missing_nil (unknown : reader.packetLen = none)
    (missing : parseHeader config reader.buf = fail .insufficientBytes)
    (room : reader.buf.length < config.readBufLen) (nothing_left : socket.bytes = []) :
    reader.readChunk socket =
      match socket.ending with
      | .waiting => .pending reader socket
      | .closed => .failed .notConnected reader socket
      | .failed kind => .failed kind reader socket := by
  have one : min (reader.buf.length + 1) config.readBufLen - reader.buf.length = 0 + 1 := by omega
  simp only [readChunk, nextReadBuf_of_missing unknown missing, one]
  rw [Socket.read_eq_ending socket nothing_left]
  cases socket.ending <;> rfl

theorem nextReadBuf_of_invalid {error : EncodingError} (unknown : reader.packetLen = none)
    (invalid : parseHeader config reader.buf = fail error) (decided : error ≠ .insufficientBytes) :
    reader.nextReadBuf = .error (.error error) := by
  simp only [nextReadBuf, parsed, tryParseHeader, unknown, invalid, fail, Option.isNone_none,
    if_true]
  cases error <;> simp_all

theorem readChunk_of_invalid {error : EncodingError} (unknown : reader.packetLen = none)
    (invalid : parseHeader config reader.buf = fail error) (decided : error ≠ .insufficientBytes) :
    reader.readChunk socket = .failed .invalidData reader.reset socket := by
  simp only [readChunk, nextReadBuf_of_invalid unknown invalid decided]

/-- A packet that ends before the bytes that are already in the buffer panics. -/
theorem readChunk_of_short {decoder : MqttDecoder} (unknown : reader.packetLen = none)
    (header : parseHeader config reader.buf = .ok decoder)
    (short : decoder.packetLen < reader.buf.length) : reader.readChunk socket = .panicked := by
  have disordered : min decoder.packetLen config.readBufLen < reader.buf.length := by omega
  simp only [readChunk, nextReadBuf_of_parsed unknown header, disordered, if_true]

theorem readChunk_of_parsed {decoder : MqttDecoder} (unknown : reader.packetLen = none)
    (header : parseHeader config reader.buf = .ok decoder)
    (ordered : reader.buf.length ≤ decoder.packetLen)
    (available : reader.buf.length < min decoder.packetLen config.readBufLen → socket.bytes ≠ []) :
    reader.readChunk socket =
      .done
        (assembled config
          (reader.buf ++ socket.bytes.take
            (min (min decoder.packetLen config.readBufLen - reader.buf.length) socket.front))
          decoder.packetLen)
        (socket.skip
          (min (min decoder.packetLen config.readBufLen - reader.buf.length) socket.front)) := by
  have fits := reader.fits
  have notShort : ¬min decoder.packetLen config.readBufLen < reader.buf.length := by omega
  simp only [readChunk, nextReadBuf_of_parsed unknown header, notShort, if_false]
  rcases len_eq : min decoder.packetLen config.readBufLen - reader.buf.length with _ | len
  · simp
  · simp only
    rw [Socket.read_eq_ready socket (available (by omega))]
    simp

theorem readChunk_of_parsed_nil {decoder : MqttDecoder} (unknown : reader.packetLen = none)
    (header : parseHeader config reader.buf = .ok decoder)
    (more : reader.buf.length < min decoder.packetLen config.readBufLen)
    (nothing_left : socket.bytes = []) :
    reader.readChunk socket =
      match socket.ending with
      | .waiting => .pending (assembled config reader.buf decoder.packetLen) socket
      | .closed => .failed .notConnected (assembled config reader.buf decoder.packetLen) socket
      | .failed kind => .failed kind (assembled config reader.buf decoder.packetLen) socket := by
  have notShort : ¬min decoder.packetLen config.readBufLen < reader.buf.length := by omega
  simp only [readChunk, nextReadBuf_of_parsed unknown header, notShort, if_false]
  rcases len_eq : min decoder.packetLen config.readBufLen - reader.buf.length with _ | len
  · omega
  · simp only
    rw [Socket.read_eq_ending socket nothing_left]
    cases socket.ending <;> rfl

end ReadChunk

section RecvLoop

variable {socket : Socket} {bytes : List UInt8}

theorem recvLoop_succ {reader : PacketReader config} (unknown : reader.packetLen = none)
    (iterations : ℕ) :
    reader.recvLoop (iterations + 1) socket =
      match reader.readChunk socket with
      | .done reader socket => reader.recvLoop iterations socket
      | .failed kind reader socket => .returned (.error (.io kind)) reader socket
      | .panicked => .panicked
      | .pending reader socket => .pending reader socket := by
  cases chunk : reader.readChunk socket <;> simp [recvLoop, unknown, chunk]

theorem recvLoop_assembled (iterations : ℕ) (bytes : List UInt8) (packetLen : ℕ) :
    (assembled config bytes packetLen).recvLoop iterations socket =
      (assembled config bytes packetLen).finish socket := by
  cases iterations <;> simp [recvLoop]

/-- The loop reads bytes one after the other while the header is incomplete. -/
theorem recvLoop_header {count steps : ℕ} (iterations : ℕ)
    (unread : socket.bytes = bytes.drop count) (inside : count + steps ≤ bytes.length)
    (room : count + steps ≤ config.readBufLen)
    (missing : ∀ length, count ≤ length → length < count + steps →
      parseHeader config (bytes.take length) = fail .insufficientBytes) :
    (holding config (bytes.take count)).recvLoop (steps + iterations) socket =
      (holding config (bytes.take (count + steps))).recvLoop iterations (socket.skip steps) := by
  induction steps generalizing count socket with
  | zero => simp
  | succ steps ih =>
      have length : (bytes.take count).length = count := by
        rw [List.length_take]
        omega
      have buf : (holding config (bytes.take count)).buf = bytes.take count :=
        buf_holding (by omega)
      have some_left : socket.bytes ≠ [] := by
        rw [unread]
        intro nothing
        have := List.drop_eq_nil_iff.mp nothing
        omega
      have first := missing count (Nat.le_refl _) (by omega)
      rw [Nat.succ_add, recvLoop_succ rfl, readChunk_of_missing rfl (buf.symm ▸ first)
        (by rw [buf, length]; omega) some_left]
      simp only [push_holding, unread, ← List.take_add]
      rw [ih (by rw [Socket.bytes_skip, unread, List.drop_drop]) (by omega) (by omega)
        fun length above below => missing length (by omega) (by omega)]
      rw [Socket.skip_skip, Nat.add_assoc, Nat.add_comm 1 steps]

/-- The bytes of the rest of a packet that a single read returns. -/
def bodyRead (config : CrateConfig) (decoder : MqttDecoder) (socket : Socket) : ℕ :=
  min (min decoder.packetLen config.readBufLen - decoder.headerSize) socket.front

variable {decoder : MqttDecoder} {count : ℕ}

theorem recvLoop_parsed (header : parseHeader config bytes = .ok decoder)
    (room : decoder.headerSize ≤ config.readBufLen)
    (ordered : decoder.headerSize ≤ decoder.packetLen)
    (unread : socket.bytes = bytes.drop decoder.headerSize)
    (available : decoder.headerSize < min decoder.packetLen config.readBufLen →
      decoder.headerSize < bytes.length) (iterations : ℕ) :
    (holding config (bytes.take decoder.headerSize)).recvLoop (iterations + 1) socket =
      (assembled config (bytes.take (decoder.headerSize + bodyRead config decoder socket))
        decoder.packetLen).finish (socket.skip (bodyRead config decoder socket)) := by
  rcases parseHeader_take header (Nat.le_refl decoder.headerSize) with ⟨rest, taken⟩
  have length : (bytes.take decoder.headerSize).length = decoder.headerSize := by
    have := headerSize_le header
    rw [List.length_take]
    omega
  have buf : (holding config (bytes.take decoder.headerSize)).buf =
      bytes.take decoder.headerSize := buf_holding (by omega)
  have some_left : decoder.headerSize < min decoder.packetLen config.readBufLen →
      socket.bytes ≠ [] := by
    intro more
    have := available more
    rw [unread]
    intro nothing
    have := List.drop_eq_nil_iff.mp nothing
    omega
  rw [recvLoop_succ rfl, readChunk_of_parsed rfl (buf.symm ▸ taken)]
  · simp only [buf, length, recvLoop_assembled]
    change (assembled config (bytes.take decoder.headerSize ++
        socket.bytes.take (bodyRead config decoder socket)) decoder.packetLen).finish
      (socket.skip (bodyRead config decoder socket)) = _
    rw [unread, ← List.take_add]
  · rw [buf, length]
    exact ordered
  · rw [buf, length]
    exact some_left

/-- How many bytes of a stream a reader starts with, and that it has not seen the end of a header
among them. -/
structure Begun (reader : PacketReader config) (socket : Socket) (bytes : List UInt8) (count : ℕ) :
    Prop where
  held : reader.start = holding config (bytes.take count)
  unread : socket.bytes = bytes.drop count

theorem Begun.of_start (reader : PacketReader config) (socket : Socket) :
    Begun reader socket (reader.start.buf ++ socket.bytes) reader.start.buf.length where
  held := by simpa using eq_holding reader.start_packetLen
  unread := by simp

theorem Begun.of_empty {reader : PacketReader config} (empty : reader.start = holding config [])
    (socket : Socket) : Begun reader socket socket.bytes 0 where
  held := by simpa using empty
  unread := rfl

variable {reader : PacketReader config}

theorem recvLoop_of_incomplete (begun : Begun reader socket bytes count)
    (header : parseHeader config bytes = .ok decoder) {steps : ℕ}
    (before : count + steps ≤ decoder.headerSize) (room : decoder.headerSize ≤ config.readBufLen) :
    reader.start.recvLoop steps socket =
      .unfinished (holding config (bytes.take (count + steps))) (socket.skip steps) := by
  have inside := headerSize_le header
  have there := recvLoop_header 0 begun.unread (show count + steps ≤ bytes.length by omega)
    (show count + steps ≤ config.readBufLen by omega)
    fun length _ below => parseHeader_take_of_lt header (by omega)
  rw [begun.held, ← Nat.add_zero steps, there, recvLoop]
  rfl

/-- The loop of `recv` assembles a packet whose header it can parse, with what a single read returns
of the rest. -/
theorem recvLoop_of_parsed (begun : Begun reader socket bytes count)
    (header : parseHeader config bytes = .ok decoder) (behind : count ≤ decoder.headerSize)
    (room : decoder.headerSize ≤ config.readBufLen)
    (ordered : decoder.headerSize ≤ decoder.packetLen)
    (available : decoder.headerSize < min decoder.packetLen config.readBufLen →
      decoder.headerSize < bytes.length) {iterations : ℕ}
    (enough : decoder.headerSize - count < iterations) :
    reader.start.recvLoop iterations socket =
      (assembled config (bytes.take (decoder.headerSize +
          bodyRead config decoder (socket.skip (decoder.headerSize - count))))
        decoder.packetLen).finish
        (socket.skip (decoder.headerSize - count +
          bodyRead config decoder (socket.skip (decoder.headerSize - count)))) := by
  have inside := headerSize_le header
  have split : iterations = decoder.headerSize - count +
      (iterations - (decoder.headerSize - count) - 1 + 1) := by omega
  have stop : count + (decoder.headerSize - count) = decoder.headerSize := by omega
  rw [begun.held, split, recvLoop_header _ begun.unread (by omega) (by omega)
    fun length _ below => parseHeader_take_of_lt header (by omega), stop,
    recvLoop_parsed header room ordered _ available, Socket.skip_skip]
  rw [Socket.bytes_skip, begun.unread, List.drop_drop, stop]

theorem recv_of_parsed (begun : Begun reader socket bytes count)
    (header : parseHeader config bytes = .ok decoder) (behind : count ≤ decoder.headerSize)
    (room : decoder.headerSize ≤ config.readBufLen)
    (ordered : decoder.headerSize ≤ decoder.packetLen)
    (available : decoder.headerSize < min decoder.packetLen config.readBufLen →
      decoder.headerSize < bytes.length) :
    reader.recv socket =
      (assembled config (bytes.take (decoder.headerSize +
          bodyRead config decoder (socket.skip (decoder.headerSize - count))))
        decoder.packetLen).finish
        (socket.skip (decoder.headerSize - count +
          bodyRead config decoder (socket.skip (decoder.headerSize - count)))) :=
  recvLoop_of_parsed begun header behind room ordered available (by omega)

/-- `recv` panics on a packet that ends before its header does. -/
theorem recv_of_short (begun : Begun reader socket bytes count)
    (header : parseHeader config bytes = .ok decoder) (behind : count ≤ decoder.headerSize)
    (room : decoder.headerSize ≤ config.readBufLen)
    (short : decoder.packetLen < decoder.headerSize) : reader.recv socket = .panicked := by
  have inside := headerSize_le header
  have iterations : config.readBufLen + 1 = decoder.headerSize - count +
      (config.readBufLen - (decoder.headerSize - count) + 1) := by omega
  have stop : count + (decoder.headerSize - count) = decoder.headerSize := by omega
  rcases parseHeader_take header (Nat.le_refl decoder.headerSize) with ⟨rest, taken⟩
  have length : (bytes.take decoder.headerSize).length = decoder.headerSize := by
    rw [List.length_take]
    omega
  have buf : (holding config (bytes.take decoder.headerSize)).buf =
      bytes.take decoder.headerSize := buf_holding (by omega)
  rw [recv, begun.held, iterations, recvLoop_header _ begun.unread (by omega) (by omega)
    fun length _ below => parseHeader_take_of_lt header (by omega), stop, recvLoop_succ rfl,
    readChunk_of_short rfl (buf.symm ▸ taken)]
  rw [buf, length]
  exact short

end RecvLoop

end PacketReader

end Mqttrust
