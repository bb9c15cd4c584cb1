import Mqttrust.Encoding.ReceivedPacket
import Mqttrust.Reader.Socket

/-!
# The packet reader

`PacketReader` assembles one packet at a time from a socket. While the length of
the packet is not known it asks for one byte after the other; when the header can
be parsed, for a PUBLISH with its topic and two more bytes, it asks once for the
rest of the packet, as far as it fits into the buffer, and decodes what it has.

The future returned by `recv` can be dropped whenever it waits for the socket. Its
loop is therefore modelled by the number of iterations that it completes.
-/

namespace Mqttrust

/-- `READ_BUF_LEN`: fixed header, length of the topic, topic and packet identifier. -/
def CrateConfig.readBufLen (config : CrateConfig) : ℕ := 5 + 2 + config.maxTopicLen + 2

/-- A packet reader; `buf` is the part of its buffer that holds received bytes. -/
@[ext]
structure PacketReader (config : CrateConfig) where
  buf : List UInt8
  packetLen : Option ℕ
  fits : buf.length ≤ config.readBufLen

/-- The parse of `try_parse_header`: the decoder behind what has to be received before the length
of the packet is taken from the header. -/
def parseHeader (config : CrateConfig) (buf : List UInt8) : Except Fault MqttDecoder :=
  match MqttDecoder.tryNew config buf with
  | .error fault => .error fault
  | .ok decoder =>
      if decoder.fixedHeader.typ = .publish then
        match decoder.readStr with
        | .error fault => .error fault
        | .ok (_, decoder) =>
            match decoder.checkRemaining 2 with
            | .error fault => .error fault
            | .ok () => .ok decoder
      else .ok decoder

/-- One iteration of the loop of `recv`. -/
inductive Chunk (config : CrateConfig) where
  | done (reader : PacketReader config) (socket : Socket)
  | failed (kind : ErrorKind) (reader : PacketReader config) (socket : Socket)
  | panicked
  /-- The future waits for the socket. -/
  | pending (reader : PacketReader config) (socket : Socket)

/-- A call of `recv`. -/
inductive Recv (config : CrateConfig) where
  | returned (result : Except StateError ReceivedPacket) (reader : PacketReader config)
      (socket : Socket)
  | panicked
  /-- The future waits for the socket. -/
  | pending (reader : PacketReader config) (socket : Socket)
  /-- The loop has completed the given number of iterations and goes on. -/
  | unfinished (reader : PacketReader config) (socket : Socket)

namespace PacketReader

variable {config : CrateConfig}

/-- `PacketReader::new`. -/
def new (config : CrateConfig) : PacketReader config := ⟨[], none, Nat.zero_le _⟩

/-- `PacketReader::reset`. -/
def reset (_reader : PacketReader config) : PacketReader config := ⟨[], none, Nat.zero_le _⟩

variable (reader : PacketReader config) (socket : Socket)

/-- The reader after `recv` has cleared a packet that was received before. -/
def start : PacketReader config := if reader.packetLen.isSome then reader.reset else reader

/-- Puts received bytes into the buffer. -/
def push (bytes : List UInt8) : PacketReader config where
  buf := (reader.buf ++ bytes).take config.readBufLen
  packetLen := reader.packetLen
  fits := List.length_take_le _ _

/-- `PacketReader::try_parse_header`. -/
def tryParseHeader : Except Fault (PacketReader config) :=
  match parseHeader config reader.buf with
  | .error fault => .error fault
  | .ok decoder => .ok { reader with packetLen := some decoder.packetLen }

/-- The first part of `PacketReader::next_read_buf`. -/
def parsed : Except Fault (PacketReader config) :=
  if reader.packetLen.isNone then
    match reader.tryParseHeader with
    | .ok reader => .ok reader
    | .error (.error .insufficientBytes) => .ok reader
    | .error fault => .error fault
  else .ok reader

/-- `PacketReader::next_read_buf`: the length of the slice to read into. A slice that ends before it
starts panics. -/
def nextReadBuf : Except Fault (PacketReader config × ℕ) :=
  match reader.parsed with
  | .error fault => .error fault
  | .ok reader =>
      let stop := min (reader.packetLen.getD (reader.buf.length + 1)) config.readBufLen
      if stop < reader.buf.length then .error .panic else .ok (reader, stop - reader.buf.length)

/-- `PacketReader::read_chunk`. -/
def readChunk : Chunk config :=
  match reader.nextReadBuf with
  | .error .panic => .panicked
  | .error (.error _) => .failed .invalidData reader.reset socket
  | .ok (reader, 0) => .done reader socket
  | .ok (reader, len + 1) =>
      match socket.read (len + 1) with
      | .ready bytes socket => .done (reader.push bytes) socket
      | .closed => .failed .notConnected reader socket
      | .failed kind => .failed kind reader socket
      | .pending => .pending reader socket

/-- `PacketReader::decode`. -/
def decode : Except Fault ReceivedPacket :=
  match reader.packetLen with
  | none => fail .malformedPacket
  | some packetLength => ReceivedPacket.fromBuffer config (reader.buf.take packetLength)

/-- The end of `recv`. -/
def finish : Recv config :=
  match reader.decode with
  | .ok packet => .returned (.ok packet) reader socket
  | .error (.error error) => .returned (.error (.deserialization error)) reader socket
  | .error .panic => .panicked

/-- The loop of `recv`, for some number of iterations. -/
def recvLoop : ℕ → PacketReader config → Socket → Recv config
  | 0, reader, socket =>
      if reader.packetLen.isSome then reader.finish socket else .unfinished reader socket
  | iterations + 1, reader, socket =>
      if reader.packetLen.isSome then reader.finish socket
      else
        match reader.readChunk socket with
        | .done reader socket => recvLoop iterations reader socket
        | .failed kind reader socket => .returned (.error (.io kind)) reader socket
        | .panicked => .panicked
        | .pending reader socket => .pending reader socket

/-- `PacketReader::recv`, for as many iterations as the buffer has room for bytes, and one more. -/
def recv : Recv config := recvLoop (config.readBufLen + 1) reader.start socket

end PacketReader

/-- What happens to a received PUBLISH. -/
inductive Consume where
  | copyAll
  | discard
deriving DecidableEq, Repr

/-- What `copy_all` or `discard` did. -/
inductive Consumed where
  | done (frame : List UInt8) (socket : Socket)
  | failed (kind : ErrorKind)
  | pending

/-- The errors of `read_exact` as `copy_all` and `discard` report them. -/
def consumed (frame : List UInt8) : ReadResult → Consumed
  | .ready bytes socket => .done (frame ++ bytes) socket
  | .closed => .failed .brokenPipe
  | .failed kind => .failed kind
  | .pending => .pending

namespace PartialPublish

variable (publish : PartialPublish) (socket : Socket)

/-- `PartialPublish::copy_all`, into a slice as long as the packet. -/
def copyAll : Consumed :=
  if publish.buf.length < publish.packetLen then
    consumed publish.buf (socket.readExact (publish.packetLen - publish.buf.length))
  else .done publish.buf socket

/-- The loop of `PartialPublish::discard`, which reads at most 64 bytes at a time. -/
def discardLoop : ℕ → ℕ → Socket → Consumed
  | 0, _, socket => .done [] socket
  | iterations + 1, left, socket =>
      if 0 < left then
        match consumed [] (socket.readExact (min left 64)) with
        | .done _ socket => discardLoop iterations (left - min left 64) socket
        | failure => failure
      else .done [] socket

/-- `PartialPublish::discard`; every iteration reads at least one byte. -/
def discard : Consumed :=
  discardLoop (publish.packetLen - publish.buf.length) (publish.packetLen - publish.buf.length)
    socket

/-- The chosen treatment of a PUBLISH. -/
def consume : Consume → Consumed
  | .copyAll => publish.copyAll socket
  | .discard => publish.discard socket

end PartialPublish

end Mqttrust
