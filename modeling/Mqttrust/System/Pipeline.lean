import Mqttrust.Encoding.ClientPacket
import Mqttrust.Foundation.Transcript
import Mqttrust.Pubsub.Pipe
import Mqttrust.System.Link

/-!
# The bytes on their way to the broker

A pipeline is a link whose TX channel is a publish/subscribe channel with its
buffer, and whose packets are written byte by byte. A call encodes its packet into
its write grant and commits it; the stack writes the bytes of its read grant, as
they are in the buffer at that time, or those of a packet of its own. The socket
takes some bytes at a time, and may fail between any two of them.

A write grant that is dropped queues an empty frame. The stack reads it, writes
nothing and flushes.

The future of `run` is not dropped. What is recorded of the packets that were begun
is not read by any operation.
-/

namespace Mqttrust.System

/-- The packets that a client sends through the TX channel. -/
inductive ClientPacket where
  | publish (packet : Publish)
  | subscribe (packet : Subscribe)
  | unsubscribe (packet : Unsubscribe)

namespace ClientPacket

/-- What `send` distinguishes of a packet. -/
def kind : ClientPacket → SendPacket
  | publish packet => .publish packet.qos
  | subscribe _ => .subscribe
  | unsubscribe _ => .unsubscribe

/-- `MqttEncode::set_pid`. -/
def setPid (pid : Pid) : ClientPacket → ClientPacket
  | publish packet => publish { packet with pid := some pid }
  | subscribe packet => subscribe { packet with pid := some pid }
  | unsubscribe packet => unsubscribe { packet with pid := some pid }

/-- `MqttEncode::max_packet_size`. -/
def maxPacketSize (config : CrateConfig) : ClientPacket → Option ℕ
  | publish packet => packet.maxPacketSize config
  | subscribe packet => packet.maxPacketSize config
  | unsubscribe packet => packet.maxPacketSize config

instance : MqttEncode ClientPacket where
  packetType
    | publish packet => MqttEncode.packetType packet
    | subscribe packet => MqttEncode.packetType packet
    | unsubscribe packet => MqttEncode.packetType packet
  flags
    | publish packet => MqttEncode.flags packet
    | subscribe packet => MqttEncode.flags packet
    | unsubscribe packet => MqttEncode.flags packet
  writeBody config
    | publish packet => MqttEncode.writeBody config packet
    | subscribe packet => MqttEncode.writeBody config packet
    | unsubscribe packet => MqttEncode.writeBody config packet
  advances config
    | publish packet => MqttEncode.advances config packet
    | subscribe packet => MqttEncode.advances config packet
    | unsubscribe packet => MqttEncode.advances config packet

end ClientPacket

/-- The acknowledgement of a reply; a PINGREQ is none. -/
def Reply.ack? : Reply → Option AckPacket
  | .pubAck pid => some (.success .pubAck pid)
  | .pubRec pid => some (.success .pubRec pid)
  | .pubRel pid => some (.success .pubRel pid)
  | .pubComp pid => some (.success .pubComp pid)
  | .pingReq => none

instance : MqttEncode Reply where
  packetType reply := reply.ack?.elim (MqttEncode.packetType PingReq.pingReq) MqttEncode.packetType
  flags reply := reply.ack?.elim (MqttEncode.flags PingReq.pingReq) MqttEncode.flags
  writeBody config reply :=
    match reply.ack? with
    | some packet => MqttEncode.writeBody config packet
    | none => MqttEncode.writeBody config PingReq.pingReq
  advances config reply := by
    split
    · exact MqttEncode.advances config _
    · exact MqttEncode.advances config _

/-- The const generics of the TX channel. -/
def txConfig (config : CrateConfig) : Pubsub.ChannelConfig := ⟨config.maxPubsubMessages, 1⟩

/-- What comes of asking for a write grant and encoding a packet into it. -/
inductive Acquired where
  | refused
  | encoded (writer used : ℕ)
  | failed (writer : ℕ)
deriving DecidableEq, Repr

/-- The packet is encoded into a write grant; a panic ends everything. -/
def encodeInto {Packet : Type} [MqttEncode Packet] (config : CrateConfig) (tx : Pubsub.World)
    (writer : ℕ) (grant : Pubsub.FrameGrantW) (packet : Packet) :
    Option (Pubsub.World × Acquired) :=
  let stored (buf : List UInt8) (acquired : Acquired) :=
    (Execution.run (Pubsub.step (txConfig config)) tx (Pubsub.stores writer 0 buf)).map
      fun tx => (tx, acquired)
  match MqttEncode.toBuffer config packet
    (MqttEncoder.new (Pubsub.bytesAt tx.buf grant.region)) with
  | .ok () encoder => stored encoder.buf (.encoded writer encoder.usedSize)
  | .error (.error _) encoder => stored encoder.buf (.failed writer)
  | .error .panic _ => none

/-- The TX channel is asked for a write grant, into which the packet is encoded. -/
def acquire {Packet : Type} [MqttEncode Packet] (config : CrateConfig) (tx : Pubsub.World)
    (size : ℕ) (cx : Option Pubsub.Waker) (packet : Packet) :
    Option (Pubsub.World × Acquired) := do
  let asked ← Pubsub.step (txConfig config) tx (.grant size cx)
  match asked.writers.get? tx.writers.next with
  | none => some (asked, .refused)
  | some grant => encodeInto config asked tx.writers.next grant packet

/-- A link with its TX channel. -/
structure Pipeline (T : Type) (config : CrateConfig) where
  link : Link T config
  tx : Pubsub.World
  /-- The write grant of the call that is granted, and the size of its packet. -/
  granted : Option (ℕ × ℕ)
  /-- The read grant of `select`. -/
  reader : Option ℕ
  /-- `MqttStack::write_buf`. -/
  writeBuf : List UInt8
  /-- The packet of the stack's own that is written. -/
  own : List UInt8
  /-- The number of bytes of the current packet that were written. -/
  position : ℕ
  /-- The packets that were begun and what the socket took of them. A packet is labelled with its
  frame of the TX channel, unless it is one of the stack's own. -/
  transcript : Transcript (Option Pubsub.Frame) UInt8

/-- What happens to a pipeline. -/
inductive PipelineAction (T : Type) where
  /-- The future of `grant_async` is polled by a call, which then encodes its packet. -/
  | pollGrant (handle : ℕ) (packet : ClientPacket) (waker : Pubsub.Waker)
  /-- `Subscription::drop`: which locks of the shared state are free. -/
  | dropSubscription (pidLocked statusLocked : Bool) (topics : List Utf8)
  /-- `select` polls the future of `read_async`. -/
  | pollRead (waker : Pubsub.Waker)
  /-- An empty frame is released. -/
  | skipped
  /-- The flush behind an empty frame fails. -/
  | skipFails
  /-- The transport has connected, and the CONNECT packet is encoded. -/
  | opened (connect : Connect)
  /-- The socket takes some bytes. -/
  | write (count : ℕ)
  | link (action : LinkAction T)

/-- Whether the stack is in `write_all`. -/
def Link.writes {T : Type} {config : CrateConfig} (link : Link T config) : Bool :=
  match link.world.stack with
  | .connecting => link.handshake = .greeting
  | .writing _ | .replying _ => true
  | _ => false

namespace Pipeline

variable {T : Type} [Transport T] {config : CrateConfig}

/-- A new stack and its client on a transport; a connection that is open already is counted. -/
def new (config : CrateConfig) (capacity : ℕ) (transport : T) : Pipeline T config where
  link := { Link.new config transport with
    opened := (Transport.socket transport).elim 0 (· + 1) }
  tx := Pubsub.World.newPipe (txConfig config) capacity
  granted := none
  reader := none
  writeBuf := List.replicate 32 0
  own := []
  position := 0
  transcript := .empty

variable (pipeline : Pipeline T config)

/-- The bytes of the current packet, as they are in the buffer. -/
def current : List UInt8 :=
  match pipeline.reader.bind pipeline.tx.readers.get? with
  | some grant => Pubsub.bytesAt pipeline.tx.buf grant.region
  | none => pipeline.own

/-- The stack handles an empty frame. -/
def skips : Bool := pipeline.reader.isSome && pipeline.link.world.stack = .idle

/-- A packet begins to be written. -/
def begin (connection : ℕ) (frame : Option Pubsub.Frame) (bytes : List UInt8) :
    Pipeline T config :=
  { pipeline with
    position := 0
    transcript := pipeline.transcript.begin connection frame bytes }

/-- A call that polled `grant_async` goes on. -/
def afterGrant (handle : ℕ) (tx : Pubsub.World) : Acquired → Option (Pipeline T config)
  | .refused => some { pipeline with tx := tx }
  | .encoded writer used => do
      let link ← linkStep pipeline.link (.client (.grant handle (.ok ())))
      some { pipeline with link := link, tx := tx, granted := some (writer, used) }
  | .failed writer => do
      let link ← linkStep pipeline.link (.client (.grant handle (.error .encoding)))
      let tx ← Pubsub.step (txConfig config) tx (.dropWriter writer)
      some { pipeline with link := link, tx := tx }

/-- The future of `grant_async` is polled. -/
def pollGrant (handle : ℕ) (packet : ClientPacket) (waker : Pubsub.Waker) :
    Option (Pipeline T config) := do
  let call ← pipeline.link.world.calls.get? handle
  if call.phase = .publishing ∧ packet.kind = call.packet then
    let size ← packet.maxPacketSize config
    let (tx, acquired) ← acquire config pipeline.tx size (some waker) (packet.setPid call.pid)
    pipeline.afterGrant handle tx acquired
  else none

/-- `Subscription::drop` goes on behind its grant. -/
def afterDropGrant (pidLocked statusLocked : Bool) (tx : Pubsub.World) :
    Acquired → Option (Pipeline T config)
  | .refused => do
      let link ← linkStep pipeline.link
        (.client (.dropSubscription ⟨pidLocked, false, statusLocked, false⟩))
      some { pipeline with link := link, tx := tx }
  | .encoded writer used => do
      let link ← linkStep pipeline.link
        (.client (.dropSubscription ⟨pidLocked, true, statusLocked, true⟩))
      let tx ← Pubsub.step (txConfig config) tx (.commit writer used)
      some { pipeline with link := link, tx := tx }
  | .failed writer => do
      let link ← linkStep pipeline.link
        (.client (.dropSubscription ⟨pidLocked, true, statusLocked, false⟩))
      let tx ← Pubsub.step (txConfig config) tx (.dropWriter writer)
      some { pipeline with link := link, tx := tx }

/-- `Subscription::drop` of a subscription that has topic filters. -/
def dropSubscription (pidLocked statusLocked : Bool) (topics : List Utf8) :
    Option (Pipeline T config) :=
  if topics = [] then none
  else if pipeline.link.world.txPublisher ≠ none then
    pipeline.afterDropGrant pidLocked statusLocked pipeline.tx .refused
  else do
    let pid := if pidLocked then pipeline.link.world.shared.nextPid else Pid.new
    let packet : Unsubscribe := ⟨some pid, .slice [], topics⟩
    let size ← packet.maxPacketSize config
    let (tx, acquired) ← acquire config pipeline.tx size none packet
    pipeline.afterDropGrant pidLocked statusLocked tx acquired

/-- The future of `read_async` was polled. -/
def afterRead (connection reader : ℕ) (tx : Pubsub.World) : Option (Pipeline T config) :=
  match tx.readers.get? reader with
  | none => some { pipeline with tx := tx }
  | some grant =>
      if grant.len = 0 then some { pipeline with tx := tx, reader := some reader }
      else do
        let link ← linkStep pipeline.link (.write .read)
        let frame : Pubsub.Frame := ⟨grant.messageId, Pubsub.bytesAt tx.buf grant.region⟩
        some (begin { pipeline with link := link, tx := tx, reader := some reader } connection
          (some frame) frame.bytes)

/-- The future of `read_async` is polled. -/
def pollRead (waker : Pubsub.Waker) : Option (Pipeline T config) := do
  let connection ← Transport.socket pipeline.link.transport
  if pipeline.link.world.stack = .idle ∧ pipeline.reader = none then
    let tx ← Pubsub.step (txConfig config) pipeline.tx (.read 0 (some waker))
    pipeline.afterRead connection pipeline.tx.readers.next tx
  else none

/-- The read grant of `select` is released, or dropped. -/
def release (link : Link T config) (call : ℕ → Pubsub.Action) : Option (Pipeline T config) := do
  let reader ← pipeline.reader
  let tx ← Pubsub.step (txConfig config) pipeline.tx (call reader)
  some { pipeline with link := link, tx := tx, reader := none }

/-- The end of the TX branch of `select`, for an empty frame. -/
def skip : Option (Pipeline T config) := do
  let reader ← pipeline.reader
  let grant ← pipeline.tx.readers.get? reader
  if pipeline.link.world.stack = .idle then
    let world := pipeline.link.world
    let shared :=
      if grant.pid ≠ 0 then
        { world.shared with outgoingPid := world.shared.outgoingPid.remove grant.pid }
      else world.shared
    pipeline.release { pipeline.link with world := { world with shared := shared } } .release
  else none

/-- The TX branch of `select` returns an error, for an empty frame. -/
def skipFails : Option (Pipeline T config) := do
  let world ← step pipeline.link.world (.receiveFails (.io .other))
  pipeline.release { pipeline.link with world := world } .dropReader

/-- The transport has connected; `connect_mqtt` encodes its packet. -/
def opened (connect : Connect) : Option (Pipeline T config) := do
  let link ← linkStep pipeline.link .opened
  match Transport.socket link.transport,
      encodePacket config (List.replicate 1024 0) connect with
  | none, _ => some { pipeline with link := link }
  | some connection, .ok bytes =>
      some (begin { pipeline with link := link, own := bytes } connection none bytes)
  | some _, .error (.error _) =>
      some { pipeline with
        link := { link with handshake := .refused, log := pipeline.link.log } }
  | some _, .error .panic => none

/-- The socket takes some bytes of the current packet. -/
def write (count : ℕ) : Option (Pipeline T config) := do
  let connection ← Transport.socket pipeline.link.transport
  let bytes := (pipeline.current.drop pipeline.position).take count
  if pipeline.link.writes ∧ 0 < count ∧ bytes.length = count then
    some { pipeline with
      position := pipeline.position + count
      transcript := pipeline.transcript.append connection bytes }
  else none

/-- The insertions of `send` were made, and the grant is committed; otherwise it is dropped. -/
def commit (link : Link T config) (handle : ℕ) : Option (Pipeline T config) := do
  let call ← pipeline.link.world.calls.get? handle
  let (writer, used) ← pipeline.granted
  match pipeline.link.world.shared.register call.packet call.pid with
  | .done _ => do
      let tx ← Execution.run (Pubsub.step (txConfig config)) pipeline.tx
        [.setPid writer call.pid.val, .commit writer used]
      some { pipeline with link := link, tx := tx, granted := none }
  | .full _ => do
      let tx ← Pubsub.step (txConfig config) pipeline.tx (.dropWriter writer)
      some { pipeline with link := link, tx := tx, granted := none }
  | .panicked _ => some { pipeline with link := link }

/-- The future of a call is dropped, and with it its grant. -/
def drop (link : Link T config) (handle : ℕ) : Option (Pipeline T config) := do
  let call ← pipeline.link.world.calls.get? handle
  if call.phase = .granted then
    let (writer, _) ← pipeline.granted
    let tx ← Pubsub.step (txConfig config) pipeline.tx (.dropWriter writer)
    some { pipeline with link := link, tx := tx, granted := none }
  else some { pipeline with link := link }

/-- A packet was handled or the keep-alive timer was, and the answer is encoded. -/
def answer (link : Link T config) : Option (Pipeline T config) :=
  match link.world.stack, Transport.socket link.transport with
  | .replying reply, some connection =>
      match MqttEncode.toBuffer config reply (MqttEncoder.new pipeline.writeBuf) with
      | .ok () encoder =>
          let bytes := encoder.intoPacketBytes
          some (begin { pipeline with link := link, writeBuf := encoder.buf, own := bytes }
            connection none bytes)
      | .error (.error _) encoder =>
          some { pipeline with
            link := { link with world := { link.world with stack := .failing } }
            writeBuf := encoder.buf }
      | .error .panic _ => none
  | _, _ => some { pipeline with link := link }

/-- The packet is completely written. -/
def complete (link : Link T config) : Option (Pipeline T config) :=
  if pipeline.position = pipeline.current.length then some { pipeline with link := link }
  else none

/-- A write fails, and the read grant is dropped. -/
def writeFails (link : Link T config) : Option (Pipeline T config) :=
  let transcript := pipeline.transcript.breakOff (Transport.socket pipeline.link.transport)
  match pipeline.reader with
  | some reader => do
      let tx ← Pubsub.step (txConfig config) pipeline.tx (.dropReader reader)
      some { pipeline with link := link, tx := tx, reader := none, transcript := transcript }
  | none => some { pipeline with link := link, transcript := transcript }

/-- An attempt to connect fails or times out. -/
def connectFails (link : Link T config) : Pipeline T config :=
  { pipeline with
    link := link
    transcript :=
      if pipeline.link.writes then
        pipeline.transcript.breakOff (Transport.socket pipeline.link.transport)
      else pipeline.transcript }

/-- What an action of the link means for the TX channel and the bytes. -/
def follow (link : Link T config) : LinkAction T → Option (Pipeline T config)
  | .client (.commit handle) => pipeline.commit link handle
  | .client (.drop handle _) => pipeline.drop link handle
  | .greeted | .write .written | .write .replied => pipeline.complete link
  | .write .transmitted => pipeline.release link .release
  | .write .writeFails => pipeline.writeFails link
  | .write .keepAlive | .receive _ _ => pipeline.answer link
  | .connectFails => some (pipeline.connectFails link)
  | .client (.grant _ _) | .client (.dropSubscription _) | .write .read | .opened | .dropRun
  | .disconnect _ => none
  | _ => some { pipeline with link := link }

end Pipeline

/-- Whether an action is one of the client's. -/
def LinkAction.isClient {T : Type} : LinkAction T → Bool
  | .client _ => true
  | _ => false

variable {T : Type} [Transport T] {config : CrateConfig}

/-- One action of a pipeline. While the stack handles an empty frame, only the client goes on. -/
def pipelineStep (pipeline : Pipeline T config) (action : PipelineAction T) :
    Option (Pipeline T config) :=
  if pipeline.link.world.panicked.isSome then none
  else
    match action with
    | .pollGrant handle packet waker => pipeline.pollGrant handle packet waker
    | .dropSubscription pidLocked statusLocked topics =>
        pipeline.dropSubscription pidLocked statusLocked topics
    | .pollRead waker => pipeline.pollRead waker
    | .skipped => pipeline.skip
    | .skipFails => pipeline.skipFails
    | .opened connect => pipeline.opened connect
    | .write count => pipeline.write count
    | .link action =>
        if pipeline.skips && !action.isClient then none
        else (linkStep pipeline.link action).bind fun link => pipeline.follow link action

/-- A run of a new stack and its client, with a TX buffer of the given capacity. -/
abbrev pipelineRun (config : CrateConfig) (capacity : ℕ) (transport : T)
    (actions : List (PipelineAction T)) : Option (Pipeline T config) :=
  Execution.run pipelineStep (Pipeline.new config capacity transport) actions

end Mqttrust.System
