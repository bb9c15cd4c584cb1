import Mqttrust.Encoding.ServerPacket
import Mqttrust.Reader.Progress

/-!
# Sessions of a reader

Successive calls of `recv` on one connection. A call can be dropped several times
while it waits for the socket before it completes; a received PUBLISH is consumed
before the next call. The session goes on after a packet and after an error of the
deserialization, and ends with any other outcome.
-/

namespace Mqttrust

/-- What the client gets from a call of `recv`: a PUBLISH with the bytes that `copy_all` copied, or
any other packet. -/
inductive Delivered where
  | publish (qosPid : QosPid) (topicName : Utf8) (frame : Option (List UInt8))
  | packet (packet : ReceivedPacket)
deriving DecidableEq

/-- A completed call of `recv`. -/
structure Outcome where
  result : Except EncodingError Delivered
  /-- The number of bytes that had been read into the buffer and were discarded by the call, or by
  one that was dropped before it. -/
  lost : ℕ
  /-- The bytes with which the next call starts. -/
  unread : List UInt8

/-- A call of `recv`: the numbers of iterations after which it is dropped and started again, and
what is done with a PUBLISH. -/
structure Call where
  drops : List ℕ
  consume : Consume
deriving DecidableEq, Repr

namespace PacketReader

variable {config : CrateConfig}

section Definitions

variable (reader : PacketReader config) (socket : Socket)

/-- The state in which a call of `recv` leaves the reader when it is dropped while its next
iteration waits for the socket. -/
def dropAfter (iterations : ℕ) : Option (PacketReader config × Socket) :=
  match reader.start.recvLoop iterations socket with
  | .unfinished next rest =>
      match next.nextReadBuf with
      | .ok (next, _ + 1) => some (next, rest)
      | _ => none
  | _ => none

/-- The number of bytes that the next call of `recv` clears from the buffer. -/
def lost : ℕ := reader.buf.length - reader.start.buf.length

/-- Calls of `recv` that are dropped, and one that completes; a call that completes before it is
dropped is the last one. The number of bytes that dropped calls left to be cleared comes first. -/
def recvAfter : List ℕ → PacketReader config → Socket → ℕ × Recv config
  | [], reader, socket => (0, reader.recv socket)
  | iterations :: drops, reader, socket =>
      match reader.dropAfter socket iterations with
      | some (reader, socket) =>
          (reader.lost + (recvAfter drops reader socket).1, (recvAfter drops reader socket).2)
      | none => (0, reader.recv socket)

end Definitions

/-- What becomes of a received packet. -/
def deliver (consume : Consume) (socket : Socket) : ReceivedPacket → Option (Delivered × Socket)
  | .partialPublish qosPid topicName publish =>
      match publish.consume socket consume with
      | .done frame socket =>
          some (.publish qosPid topicName (if consume = .copyAll then some frame else none), socket)
      | _ => none
  | packet => some (.packet packet, socket)

/-- The bytes with which the next call of `recv` starts. -/
def unread (reader : PacketReader config) (socket : Socket) : List UInt8 :=
  reader.start.buf ++ socket.bytes

/-- A session of completed calls. -/
def session : List Call → PacketReader config → Socket → List Outcome
  | [], _, _ => []
  | call :: calls, reader, socket =>
      match recvAfter call.drops reader socket with
      | (lost, .returned (.ok packet) reader socket) =>
          match deliver call.consume socket packet with
          | some (delivered, socket) =>
              ⟨.ok delivered, lost, reader.unread socket⟩ :: session calls reader socket
          | none => []
      | (lost, .returned (.error (.deserialization error)) reader socket) =>
          ⟨.error error, lost, reader.unread socket⟩ :: session calls reader socket
      | _ => []

/-- The states of a reader on successive connections, whatever is received, dropped and reset. -/
inductive Reached (config : CrateConfig) : PacketReader config → Socket → Prop where
  | new (socket : Socket) : Reached config (PacketReader.new config) socket
  | received {reader next : PacketReader config} {socket rest : Socket}
      {result : Except StateError ReceivedPacket} :
      Reached config reader socket → reader.recv socket = .returned result next rest →
        Reached config next rest
  | dropped {reader next : PacketReader config} {socket rest : Socket} {iterations : ℕ} :
      Reached config reader socket → reader.dropAfter socket iterations = some (next, rest) →
        Reached config next rest
  | consumed {reader : PacketReader config} {socket rest : Socket} {publish : PartialPublish}
      {consume : Consume} {frame : List UInt8} :
      Reached config reader socket → publish.consume socket consume = .done frame rest →
        Reached config reader rest
  | reset {reader : PacketReader config} {socket : Socket} (other : Socket) :
      Reached config reader socket → Reached config reader.reset other

end PacketReader

end Mqttrust
