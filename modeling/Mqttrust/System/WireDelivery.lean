import Mqttrust.Encoding.Message
import Mqttrust.Reader.InStep
import Mqttrust.System.LiveConnection
import Mqttrust.System.StreamWakers

/-!
# From the broker to the subscriptions

A broker sends packets on the connection of a receiver, and the stack takes bytes from
it: in `recv`, which may be dropped and started again, and when it copies or discards
the payload of a PUBLISH. As long as the stack stays in step with the packets, what a
subscription hands out are the publishes of the broker: their topics, their payloads,
their flags and their packet identifiers.

The bytes that a call of `recv` finds are a part of what the broker has sent. So a
connection can end anywhere, and the packets behind that point are lost.
-/

namespace Mqttrust

/-- What the application is to get of a PUBLISH. -/
structure Publication where
  dup : Bool
  retain : Bool
  qosPid : QosPid
  topicName : Utf8
  payload : List UInt8

/-- What a broker publishes with a packet. -/
def ServerPacket.publication? : ServerPacket → Option Publication
  | .publish dup retain qosPid topicName _ payload => some ⟨dup, retain, qosPid, topicName, payload⟩
  | _ => none

/-- What the application gets of a message. -/
def Message.publication? (message : Message) : Option Publication :=
  message.topicName?.map fun topicName =>
    ⟨message.dup, message.retain, message.qosPid, topicName, message.payloadBytes⟩

end Mqttrust

namespace Mqttrust.System

open Pubsub (bytesAt)

variable {T : Type} {config : CrateConfig}

/-- A transport that is connected as long as it has a socket. -/
class OpenedTransport (T : Type) [Transport T] : Prop extends ClosingTransport T where
  isConnected_eq (transport : T) :
    Transport.isConnected transport = (Transport.socket transport).isSome

instance : OpenedTransport NalTransport where
  isConnected_eq _ := rfl

/-- What a broker sends, and what has become of it. -/
structure BrokerStream where
  /-- What was sent on the connection and not read. -/
  unread : List UInt8
  /-- The packets that were sent on the connection, oldest first. -/
  sent : List ServerPacket
  /-- Those of them that `recv` has not returned. -/
  pending : List ServerPacket
  /-- The packets that `recv` has returned on all connections, most recent first. -/
  received : List ServerPacket

namespace BrokerStream

/-- Nothing was sent. -/
def new : BrokerStream := ⟨[], [], [], []⟩

variable (broker : BrokerStream)

/-- The broker sends a packet. -/
def send (config : CrateConfig) (packet : ServerPacket) : BrokerStream :=
  { broker with
    unread := broker.unread ++ packet.bytes config
    sent := broker.sent ++ [packet]
    pending := broker.pending ++ [packet] }

/-- A new connection is opened. -/
def reopen : BrokerStream := { broker with unread := [], sent := [], pending := [] }

/-- The stack takes some bytes from the connection. -/
def read (count : ℕ) : BrokerStream := { broker with unread := broker.unread.drop count }

/-- `recv` returns a packet. -/
def returned : BrokerStream :=
  { broker with
    pending := broker.pending.tail
    received := broker.pending.head?.toList ++ broker.received }

end BrokerStream

variable [Transport T]

namespace Inbound

variable (inbound : Inbound T config)

/-- A call of `recv` returns. -/
def takes (broker : BrokerStream) (socket : Socket) : Option BrokerStream :=
  if socket.bytes <+: broker.unread then
    match inbound.link.reader.recv socket with
    | .returned (.ok _) _ rest =>
        some (broker.read (socket.bytes.length - rest.bytes.length)).returned
    | .returned (.error _) _ rest =>
        some (broker.read (socket.bytes.length - rest.bytes.length))
    | _ => none
  else none

/-- What an action of the stack leaves of the stream. -/
def consumes (broker : BrokerStream) : InboundAction T → Option BrokerStream
  | .recv socket | .link (.recvConnAck socket) => inbound.takes broker socket
  | .link (.pending socket iterations) =>
      if socket.bytes <+: broker.unread then
        (inbound.link.reader.dropAfter socket iterations).map fun after =>
          broker.read (socket.bytes.length - after.2.bytes.length)
      else none
  | .copyAll | .discard =>
      inbound.publishing.map fun publishing =>
        broker.read (min (publishing.publish.packetLen - publishing.publish.buf.length)
          publishing.socket.bytes.length)
  | .link .opened => some broker.reopen
  | _ => some broker

end Inbound

/-- A receiver and its broker. -/
structure Wired (T : Type) (config : CrateConfig) where
  receiver : Receiver T config
  broker : BrokerStream

/-- What happens to a receiver and its broker. -/
inductive WiredAction (T : Type) where
  | send (packet : ServerPacket)
  | receiver (action : ReceiverAction T)

namespace Wired

/-- A new stack on a transport; a broker has not sent anything. -/
def new (config : CrateConfig) (capacity : ℕ) (transport : T) : Wired T config :=
  ⟨.new config capacity transport, .new⟩

variable (wired : Wired T config)

/-- What an action of the receiver leaves of the stream. -/
def consumes : ReceiverAction T → Option BrokerStream
  | .inbound action => wired.receiver.inbound.consumes wired.broker action
  | _ => some wired.broker

end Wired

/-- One action of a receiver or of its broker. -/
def wiredStep (wired : Wired T config) : WiredAction T → Option (Wired T config)
  | .send packet =>
      if (Transport.socket wired.receiver.inbound.link.transport).isSome then
        some { wired with broker := wired.broker.send config packet }
      else none
  | .receiver action => do
      let broker ← wired.consumes action
      let receiver ← receiverStep wired.receiver action
      some ⟨receiver, broker⟩

namespace Inbound

variable (inbound : Inbound T config)

/-- A call of `recv` does not read the rest of its packet in more than one piece, unless it is a
PUBLISH. -/
def ReadsWhole (broker : BrokerStream) (socket : Socket) : Prop :=
  ∀ packet ∈ broker.pending.head?, PacketReader.ReadsWhole config packet
    inbound.link.reader.start.buf.length socket

instance (broker : BrokerStream) (socket : Socket) :
    Decidable (inbound.ReadsWhole broker socket) :=
  inferInstanceAs (Decidable (∀ packet ∈ broker.pending.head?, _))

/-- The condition on an action of the stack: no packet but a PUBLISH is split behind its header, no
`recv` is dropped behind the header and no `run` in a PUBLISH, a connection is opened with an empty
reader, and the broker does not answer a CONNECT with a PUBLISH. -/
def Undisturbed (broker : BrokerStream) : InboundAction T → Prop
  | .recv socket => inbound.ReadsWhole broker socket
  | .link (.recvConnAck socket) =>
      inbound.ReadsWhole broker socket ∧ ∀ packet ∈ broker.pending.head?, packet.typ ≠ .publish
  | .link (.pending socket iterations) =>
      ∀ after ∈ inbound.link.reader.dropAfter socket iterations, after.1.packetLen = none
  | .link .opened => inbound.link.reader.start.buf = []
  | .link .dropRun => inbound.publishing.isNone
  | _ => True

instance (broker : BrokerStream) (action : InboundAction T) :
    Decidable (inbound.Undisturbed broker action) := by
  unfold Undisturbed
  split <;> infer_instance

end Inbound

/-- The condition on an action: the stack is not disturbed, and no payload is changed. -/
def Wired.Undisturbed (wired : Wired T config) : WiredAction T → Prop
  | .receiver (.payloadMut _ _ _) => False
  | .receiver (.inbound action) => wired.receiver.inbound.Undisturbed wired.broker action
  | _ => True

instance (wired : Wired T config) (action : WiredAction T) :
    Decidable (wired.Undisturbed action) := by
  unfold Wired.Undisturbed
  split <;> infer_instance

/-! ### The link -/

/-- Whether an action uses the packet reader. -/
def LinkAction.usesReader : LinkAction T → Bool
  | .recvConnAck _ | .pending _ _ | .receive _ _ | .reset => true
  | _ => false

namespace Link

variable {link next : Link T config}

/-- The stack may read from its connection. -/
structure Reads (link : Link T config) : Prop where
  socket : (Transport.socket link.transport).isSome = true
  notFailing : link.world.stack ≠ .failing
  notRefused : ¬link.Connects .refused

theorem reads_of_selecting (socket : (Transport.socket link.transport).isSome = true)
    (selecting : link.world.stack.selecting = true) (notFailing : link.world.stack ≠ .failing) :
    link.Reads := by
  refine ⟨socket, notFailing, ?_⟩
  rintro ⟨connecting, _⟩
  simp [connecting, StackPhase.selecting] at selecting

theorem Reads.of_eq (reads : next.Reads) (transport : link.transport = next.transport)
    (stack : link.world.stack = next.world.stack) (handshake : link.handshake = next.handshake) :
    link.Reads where
  socket := by rw [transport]; exact reads.socket
  notFailing := by rw [stack]; exact reads.notFailing
  notRefused := by
    unfold Connects
    rw [stack, handshake]
    exact reads.notRefused

theorem not_reads_of_lost [OpenedTransport T]
    (isLost : Transport.isConnected link.transport = false)
    (transport : next.transport = link.transport) : ¬next.Reads := by
  intro reads
  have socket := reads.socket
  rw [transport, ← OpenedTransport.isConnected_eq, isLost] at socket
  simp at socket

theorem not_reads_of_disconnect [OpenedTransport T] {transport : T}
    (closed : next.transport = Transport.disconnect transport) : ¬next.Reads := by
  intro reads
  have socket := reads.socket
  rw [closed, ← OpenedTransport.isConnected_eq, ClosingTransport.isConnected_disconnect] at socket
  simp at socket

omit [Transport T] in
theorem notFailing_of_isWrite {world after : World config} {action : Action}
    (isWrite : action.isWrite = true) (stepped : step world action = some after) :
    world.stack ≠ .failing := by
  intro failing
  cases action with
  | read | written | flushed | transmitted | writeFails | keepAlive | replied =>
      simp [step, failing] at stepped
  | _ => simp [Action.isWrite] at isWrite

/-- Only `connect` opens a connection, and a stack that has given up its connection does not read. -/
theorem reads_of_linkStep [OpenedTransport T] {action : LinkAction T} (notOpened : action ≠ .opened)
    (stepped : linkStep link action = some next) (reads : next.Reads) : link.Reads := by
  cases transition_of_linkStep stepped with
  | connect isLost inner => exact absurd reads (not_reads_of_lost isLost rfl)
  | opened phase => exact absurd rfl notOpened
  | greeted socket phase =>
      refine ⟨reads.socket, by simp [phase.1], ?_⟩
      simp [Connects, phase.2]
  | recvConnAck socket phase returned =>
      refine ⟨by simp [socket], by simp [phase.1], ?_⟩
      simp [Connects, phase.2]
  | connected accepted inner =>
      cases (transition_of_step inner).2 with
      | connected sessionPresent phase =>
          refine ⟨reads.socket, by simp [phase], ?_⟩
          simp [Connects, accepted]
  | connectFails notAccepted inner => exact absurd reads (not_reads_of_disconnect rfl)
  | pending phase dropped => exact reads.of_eq rfl rfl rfl
  | receive socket returned inner =>
      have idle := (selecting_of_receive inner).1
      exact reads_of_selecting (by simp [socket]) (by rw [idle]; rfl) (by simp [idle])
  | receiveFails socket returned inner =>
      have idle := (selecting_of_receiveFails inner).1
      exact reads_of_selecting (by simp [socket]) (by rw [idle]; rfl) (by simp [idle])
  | client isClient inner => exact reads.of_eq rfl (stack_of_isClient isClient inner).1.symm rfl
  | write socket isWrite inner =>
      exact reads_of_selecting (by simp [socket]) (selecting_of_isWrite isWrite inner).1
        (notFailing_of_isWrite isWrite inner)
  | socketFails noSocket inner =>
      have socket := reads.socket
      rw [show Transport.socket link.transport = none from noSocket] at socket
      simp at socket
  | lost isLost inner => exact absurd reads (not_reads_of_lost isLost rfl)
  | drifts phase drifts =>
      rcases Option.isSome_iff_exists.mp reads.socket with ⟨connection, socket⟩
      have before := ClosingTransport.socket_drifts drifts socket
      exact ⟨by simp [before], reads.notFailing, reads.notRefused⟩
  | reset inner => exact absurd reads (not_reads_of_disconnect rfl)
  | dropRun notRefused inner =>
      by_cases failing : link.world.stack = .failing
      · exact absurd reads (not_reads_of_disconnect (if_pos failing))
      · refine ⟨?_, failing, notRefused⟩
        rw [← show link.dropped = link.transport from if_neg failing]
        exact reads.socket
  | disconnect socket inner => exact absurd reads (not_reads_of_disconnect rfl)
  | disconnectFails socket inner => exact reads.of_eq rfl rfl rfl

theorem reader_of_linkStep {action : LinkAction T} (notReader : action.usesReader = false)
    (stepped : linkStep link action = some next) : next.reader = link.reader := by
  cases transition_of_linkStep stepped with
  | opened phase =>
      unfold connectTransport
      dsimp only
      split <;> rfl
  | recvConnAck | pending | receive | receiveFails | reset =>
      simp [LinkAction.usesReader] at notReader
  | _ => rfl

end Link

/-! ### The stack -/

omit [Transport T] in
/-- Whether a packet is a PUBLISH. -/
def isPublish (packet : ServerPacket) : Bool := packet.typ = .publish

/-- A PUBLISH of the broker was received, and what was committed of it is its packet. -/
structure Reception.Carries (config : CrateConfig) (reception : Reception) (packet : ServerPacket) :
    Prop where
  proper : packet.Proper config
  isPublish : ∃ dup retain topicName properties payload,
    packet = .publish dup retain reception.qosPid topicName properties payload
  whole : ∀ frame, reception.fate = .committed frame → frame = packet.bytes config

namespace Inbound

variable {inbound next : Inbound T config} {broker : BrokerStream} {link : Link T config}
  {publishing : InboundPublish} {socket : Socket}

/-- What is known while `select` handles a PUBLISH of the broker. -/
structure Handles (inbound : Inbound T config) (broker : BrokerStream)
    (publishing : InboundPublish) : Prop where
  known : inbound.link.reader.packetLen.isSome
  reading : publishing.stage ≠ .committed → ∃ packet earlier held,
    broker.received = packet :: earlier ∧ packet.typ = .publish ∧
      held ≤ (packet.bytes config).length ∧
      publishing.publish = ⟨(packet.bytes config).take held, (packet.bytes config).length⟩ ∧
      publishing.socket.bytes <+: broker.unread ∧
      broker.unread = (packet.bytes config).drop held ++ stream config broker.pending
  behind : publishing.stage = .committed → broker.unread = stream config broker.pending

/-- The stack is in step with its broker. -/
structure Synced (inbound : Inbound T config) (broker : BrokerStream) : Prop where
  proper : ∀ packet ∈ broker.pending, packet.Proper config
  boundary : inbound.publishing = none → inbound.link.Reads →
    inbound.link.reader.InStep broker.unread broker.pending
  handles : ∀ publishing, inbound.publishing = some publishing → inbound.Handles broker publishing
  receptions : List.Forall₂ (Reception.Carries config) inbound.receptions
    (broker.received.filter isPublish)
  earlier : ∃ earlier, broker.received.reverse ++ broker.pending = earlier ++ broker.sent

theorem Synced.new (config : CrateConfig) (capacity : ℕ) (transport : T) :
    (Inbound.new config capacity transport).Synced .new where
  proper := by simp [BrokerStream.new]
  boundary _ _ := .of_empty rfl rfl
  handles := by simp [Inbound.new]
  receptions := .nil
  earlier := ⟨[], rfl⟩

/-- The stack goes on between two packets, or gives up its connection. -/
theorem Synced.of_link (synced : inbound.Synced broker) (idle : inbound.publishing = none)
    (publishing : next.publishing = inbound.publishing)
    (receptions : next.receptions = inbound.receptions)
    (reader : next.link.Reads → next.link.reader = inbound.link.reader)
    (reads : next.link.Reads → inbound.link.Reads) : next.Synced broker where
  proper := synced.proper
  boundary := by
    intro _ nextReads
    rw [reader nextReads]
    exact synced.boundary idle (reads nextReads)
  handles := by simp [publishing, idle]
  receptions := by rw [receptions]; exact synced.receptions
  earlier := synced.earlier

/-- The broker sends another packet. -/
theorem Synced.send (synced : inbound.Synced broker) {packet : ServerPacket}
    (packetProper : packet.Proper config) : inbound.Synced (broker.send config packet) where
  proper := by
    intro other listed
    rcases List.mem_append.mp listed with before | new
    · exact synced.proper other before
    · rw [List.mem_singleton.mp new]
      exact packetProper
  boundary := fun idle reads => (synced.boundary idle reads).send packet
  handles := by
    intro publishing active
    have handles := synced.handles publishing active
    have longer : stream config (broker.pending ++ [packet]) =
        stream config broker.pending ++ packet.bytes config := by simp [stream]
    refine ⟨handles.known, ?_, ?_⟩
    · intro reading
      rcases handles.reading reading with
        ⟨current, earlier, held, received, typ, inside, front, arrived, unread⟩
      refine ⟨current, earlier, held, received, typ, inside, front, ?_, ?_⟩
      · exact arrived.trans (List.prefix_append _ _)
      · change broker.unread ++ packet.bytes config = _
        rw [unread, List.append_assoc]
        exact congrArg _ longer.symm
    · intro committed
      change broker.unread ++ packet.bytes config = _
      rw [handles.behind committed]
      exact longer.symm
  receptions := synced.receptions
  earlier := by
    rcases synced.earlier with ⟨earlier, split⟩
    refine ⟨earlier, ?_⟩
    change broker.received.reverse ++ (broker.pending ++ [packet]) = earlier ++ (broker.sent ++ [packet])
    rw [← List.append_assoc, split, List.append_assoc]

/-- What `goOn` changes. -/
structure Follows (inbound : Inbound T config) (link : Link T config) (next : Inbound T config) :
    Prop where
  publishing : next.publishing = inbound.publishing
  receptions : next.receptions = inbound.receptions
  reader : next.link.reader = link.reader
  reads : next.link.Reads → link.Reads

theorem follows_goOn (stepped : inbound.goOn link = some next) : inbound.Follows link next := by
  unfold goOn at stepped
  split at stepped
  · unfold encode at stepped
    split at stepped
    · rcases Option.some.inj stepped with rfl
      exact ⟨rfl, rfl, rfl, id⟩
    · rcases Option.some.inj stepped with rfl
      exact ⟨rfl, rfl, rfl, fun reads => absurd rfl reads.notFailing⟩
    · simp at stepped
  · rcases Option.some.inj stepped with rfl
    exact ⟨rfl, rfl, rfl, id⟩

/-- `select` goes on behind a PUBLISH. -/
theorem Synced.of_proceed {payload : Payload}
    (stepped : inbound.proceed publishing payload = some next)
    (proper : ∀ packet ∈ broker.pending, packet.Proper config)
    (receptions : List.Forall₂ (Reception.Carries config) inbound.receptions
      (broker.received.filter isPublish))
    (earlier : ∃ earlier, broker.received.reverse ++ broker.pending = earlier ++ broker.sent)
    (inStep : next.link.Reads →
      inbound.link.reader.packetLen.isSome ∧ broker.unread = stream config broker.pending) :
    next.Synced broker := by
  simp only [proceed, Option.bind_eq_bind, Option.bind_eq_some_iff] at stepped
  rcases stepped with ⟨connection, _, world, _, stepped⟩
  have follows := follows_goOn stepped
  refine ⟨proper, ?_, ?_, ?_, earlier⟩
  · intro _ reads
    rcases inStep reads with ⟨known, behind⟩
    rw [follows.reader]
    exact .of_known known behind
  · intro other active
    rw [follows.publishing] at active
    simp at active
  · rw [follows.receptions]
    exact receptions

theorem not_reads_of_failed {error : StateError}
    (stepped : inbound.proceed publishing (.failed error) = some next) : ¬next.link.Reads := by
  simp only [proceed, Option.bind_eq_bind, Option.bind_eq_some_iff] at stepped
  rcases stepped with ⟨connection, _, world, received, stepped⟩
  intro reads
  apply ((follows_goOn stepped).reads reads).notFailing
  cases (transition_of_step received).2 with
  | receive => rfl

/-- The newest PUBLISH has met its fate. -/
theorem receptions_settle {newest : Reception} {others : List Reception} {packet : ServerPacket}
    {earlier : List ServerPacket} (fate : Fate)
    (receptions : List.Forall₂ (Reception.Carries config) (newest :: others)
      ((packet :: earlier).filter isPublish)) (typ : packet.typ = .publish)
    (whole : ∀ frame, fate = .committed frame → frame = packet.bytes config) :
    List.Forall₂ (Reception.Carries config) (settle fate (newest :: others))
      ((packet :: earlier).filter isPublish) := by
  rw [List.filter_cons_of_pos (by simpa [isPublish] using typ)] at receptions ⊢
  cases receptions with
  | cons first later => exact .cons ⟨first.proper, first.isPublish, whole⟩ later

variable {capacity : ℕ}

/-- What is left of the stream behind a PUBLISH. -/
theorem unread_behind {held left : ℕ} {packet : ServerPacket}
    (unread : broker.unread = (packet.bytes config).drop held ++ stream config broker.pending)
    (available : (packet.bytes config).length - held ≤ left) :
    (broker.read (min ((packet.bytes config).length - held) left)).unread =
      stream config broker.pending := by
  have length : ((packet.bytes config).drop held).length = (packet.bytes config).length - held :=
    List.length_drop
  change broker.unread.drop _ = _
  rw [Nat.min_eq_left available, unread, ← length, List.drop_left]

theorem Synced.copyAll (synced : inbound.Synced broker) (disciplined : inbound.Disciplined capacity)
    (active : inbound.publishing = some publishing) (stepped : inbound.copyAll = some next) :
    next.Synced (broker.read (min (publishing.publish.packetLen - publishing.publish.buf.length)
      publishing.socket.bytes.length)) := by
  have handles := synced.handles publishing active
  have receptions := synced.receptions
  simp only [Inbound.copyAll, Option.bind_eq_bind, Option.bind_eq_some_iff] at stepped
  rcases stepped with ⟨current, current_eq, stepped⟩
  rcases Option.some.inj (active.symm.trans current_eq) with rfl
  split at stepped
  · rename_i writer stage
    rcases disciplined.exists_grant active stage with ⟨grant, others, live, length, _, newest⟩
    rcases handles.reading (by simp [stage]) with
      ⟨packet, earlier, held, received, typ, inside, front, arrived, unread⟩
    have held_eq : publishing.publish.buf.length = held := by
      rw [front]
      exact List.length_take_of_le inside
    have packetLen : publishing.publish.packetLen = (packet.bytes config).length := by rw [front]
    rw [newest, received] at receptions
    rcases Option.bind_eq_some_iff.mp stepped with ⟨grant', live', stepped⟩
    rcases Option.some.inj (live.symm.trans live') with rfl
    split at stepped
    · rename_i frame rest copied
      rw [front] at copied
      rw [unread] at arrived
      have room : (bytesAt inbound.rx.buf grant.region).length = (packet.bytes config).length := by
        rw [Pubsub.length_bytesAt, ← packetLen]
        exact length
      rcases PartialPublish.copied_of_split inside room arrived copied with ⟨rfl, available⟩
      have settled := receptions_settle (.committed (packet.bytes config)) receptions typ
        fun frame same => (Fate.committed.inj same).symm
      have behind := unread_behind unread available
      rw [packetLen, held_eq]
      simp only [commit, Option.bind_eq_bind, Option.bind_eq_some_iff] at stepped
      rcases stepped with ⟨rx, _, stepped⟩
      rw [← newest, ← received] at settled
      split at stepped
      · rcases Option.some.inj stepped with rfl
        refine ⟨synced.proper, by simp, ?_, settled, synced.earlier⟩
        intro other active
        rcases Option.some.inj active with rfl
        exact ⟨handles.known, by simp, fun _ => behind⟩
      · exact Synced.of_proceed stepped synced.proper settled synced.earlier fun _ =>
          ⟨handles.known, behind⟩
    · rcases Option.bind_eq_some_iff.mp stepped with ⟨after, dropped, stepped⟩
      simp only [cut, Option.bind_eq_bind, Option.bind_eq_some_iff, Option.some.injEq] at dropped
      rcases dropped with ⟨rx, _, rfl⟩
      have settled := receptions_settle .cut receptions typ (by simp)
      rw [← newest, ← received] at settled
      exact Synced.of_proceed stepped synced.proper settled synced.earlier fun reads =>
        absurd reads (not_reads_of_failed stepped)
    · simp at stepped
    · simp at stepped
  · simp at stepped

theorem Synced.discard (synced : inbound.Synced broker)
    (active : inbound.publishing = some publishing) (stepped : inbound.discard = some next) :
    next.Synced (broker.read (min (publishing.publish.packetLen - publishing.publish.buf.length)
      publishing.socket.bytes.length)) := by
  have handles := synced.handles publishing active
  simp only [Inbound.discard, Option.bind_eq_bind, Option.bind_eq_some_iff] at stepped
  rcases stepped with ⟨current, current_eq, stepped⟩
  rcases Option.some.inj (active.symm.trans current_eq) with rfl
  split at stepped
  · rename_i stage
    rcases handles.reading (by simp [stage]) with
      ⟨packet, earlier, held, received, typ, inside, front, arrived, unread⟩
    have held_eq : publishing.publish.buf.length = held := by
      rw [front]
      exact List.length_take_of_le inside
    have packetLen : publishing.publish.packetLen = (packet.bytes config).length := by rw [front]
    split at stepped
    · rename_i frame rest done
      have available := PartialPublish.available_of_discard done
      rw [packetLen, held_eq] at available ⊢
      exact Synced.of_proceed stepped synced.proper synced.receptions synced.earlier fun _ =>
        ⟨handles.known, unread_behind unread available⟩
    · exact Synced.of_proceed stepped synced.proper synced.receptions synced.earlier fun reads =>
        absurd reads (not_reads_of_failed stepped)
    · simp at stepped
  · simp at stepped

theorem Synced.insert (synced : inbound.Synced broker) (stepped : inbound.insert = some next) :
    next.Synced broker := by
  simp only [Inbound.insert, Option.bind_eq_bind, Option.bind_eq_some_iff] at stepped
  rcases stepped with ⟨publishing, active, stepped⟩
  have handles := synced.handles publishing active
  split at stepped
  · rename_i stage
    exact Synced.of_proceed stepped synced.proper synced.receptions synced.earlier fun _ =>
      ⟨handles.known, handles.behind stage⟩
  · simp at stepped

/-- `recv` has returned the next packet of the broker. -/
structure Takes (config : CrateConfig) (broker after : BrokerStream) (rest : Socket)
    (packet : ServerPacket) (received : ReceivedPacket) : Prop where
  pending : broker.pending = packet :: after.pending
  listed : after.received = packet :: broker.received
  sent : after.sent = broker.sent
  returns : PacketReader.Returns config packet after.unread rest after.pending received

namespace Takes

variable {after : BrokerStream} {rest : Socket} {packet : ServerPacket} {received : ReceivedPacket}

theorem proper (takes : Takes config broker after rest packet received)
    (all : ∀ packet ∈ broker.pending, packet.Proper config) :
    packet.Proper config ∧ ∀ packet ∈ after.pending, packet.Proper config := by
  rw [takes.pending] at all
  exact List.forall_mem_cons.mp all

theorem earlier (takes : Takes config broker after rest packet received)
    (before : ∃ earlier, broker.received.reverse ++ broker.pending = earlier ++ broker.sent) :
    ∃ earlier, after.received.reverse ++ after.pending = earlier ++ after.sent := by
  rcases before with ⟨earlier, split⟩
  refine ⟨earlier, ?_⟩
  rw [takes.sent, ← split, takes.listed, takes.pending]
  simp

theorem filter_received (takes : Takes config broker after rest packet received)
    (notPublish : packet.typ ≠ .publish) :
    after.received.filter isPublish = broker.received.filter isPublish := by
  rw [takes.listed, List.filter_cons_of_neg (by simpa [isPublish] using notPublish)]

end Takes

/-- A call of `recv` returns the next packet of the broker, or an error of the connection. -/
theorem Synced.takes (synced : inbound.Synced broker) (idle : inbound.publishing = none)
    (reads : inbound.link.Reads) (whole : inbound.ReadsWhole broker socket) {after : BrokerStream}
    (consumed : inbound.takes broker socket = some after)
    {result : Except StateError ReceivedPacket} {reader : PacketReader config} {rest : Socket}
    (returned : inbound.link.reader.recv socket = .returned result reader rest) :
    ((∃ kind, result = .error (.io kind)) ∧ ∃ count, after = broker.read count) ∨
      ∃ packet received, result = .ok received ∧ reader.packetLen.isSome ∧
        Takes config broker after rest packet received := by
  simp only [Inbound.takes, Option.ite_none_right_eq_some] at consumed
  rcases consumed with ⟨arrived, consumed⟩
  rw [returned] at consumed
  rcases (synced.boundary idle reads).recv synced.proper arrived whole returned with
    ⟨kind, rfl⟩ | ⟨packet, later, received, pending, rfl, known, returns⟩
  · exact .inl ⟨⟨kind, rfl⟩, _, (Option.some.inj consumed).symm⟩
  · rcases Option.some.inj consumed with rfl
    refine .inr ⟨packet, received, rfl, known, ?_⟩
    constructor
    · simp [BrokerStream.returned, BrokerStream.read, pending]
    · simp [BrokerStream.returned, BrokerStream.read, pending]
    · rfl
    · simpa [BrokerStream.returned, BrokerStream.read, pending] using returns

/-- What holds when the connection is given up in `recv`. -/
theorem Synced.of_error (synced : inbound.Synced broker) (count : ℕ)
    (publishing : next.publishing = none) (receptions : next.receptions = inbound.receptions)
    (notReads : ¬next.link.Reads) : next.Synced (broker.read count) where
  proper := synced.proper
  boundary := fun _ reads => absurd reads notReads
  handles := by simp [publishing]
  receptions := by rw [receptions]; exact synced.receptions
  earlier := synced.earlier

/-- What holds behind a packet that is not a PUBLISH. -/
theorem Synced.of_whole (synced : inbound.Synced broker) {after : BrokerStream} {rest : Socket}
    {packet : ServerPacket} {received : ReceivedPacket}
    (takes : Takes config broker after rest packet received) (notPublish : packet.typ ≠ .publish)
    (publishing : next.publishing = none) (receptions : next.receptions = inbound.receptions)
    (known : next.link.reader.packetLen.isSome) : next.Synced after where
  proper := (takes.proper synced.proper).2
  boundary := by
    intro _ _
    refine .of_known known ?_
    cases takes.returns with
    | whole _ behind => exact behind
    | publish isPublish => exact absurd (by rw [isPublish]; rfl) notPublish
  handles := by simp [publishing]
  receptions := by
    rw [receptions, takes.filter_received notPublish]
    exact synced.receptions
  earlier := takes.earlier synced.earlier

theorem Synced.grantImmediate (synced : inbound.Synced broker) {after : BrokerStream}
    {rest : Socket} {packet : ServerPacket} {qosPid : QosPid} {topicName : Utf8}
    {publish : PartialPublish} {reader : PacketReader config}
    (takes : Takes config broker after rest packet (.partialPublish qosPid topicName publish))
    (known : reader.packetLen.isSome)
    (stepped : inbound.grantImmediate qosPid topicName publish reader rest = some next) :
    next.Synced after := by
  rcases takes.proper synced.proper with ⟨packetProper, proper⟩
  generalize received_eq : ReceivedPacket.partialPublish qosPid topicName publish = received
    at takes
  cases takes.returns with
  | whole notPublish behind =>
      cases packet with
      | publish => exact absurd rfl notPublish
      | ack kind pid tail =>
          cases kind <;> simp [ServerPacket.received, AckKind.received] at received_eq
      | _ => simp [ServerPacket.received] at received_eq
  | @publish dup retain qosPid' topicName' properties payload held isPublish inside arrived behind =>
      rcases ReceivedPacket.partialPublish.inj received_eq with ⟨rfl, rfl, rfl⟩
      have typ : packet.typ = .publish := by rw [isPublish]; rfl
      have carries (fate : Fate) (pending : fate = .granted ∨ fate = .refused)
          (publish : PartialPublish) :
          List.Forall₂ (Reception.Carries config) (⟨qosPid, publish, fate⟩ :: inbound.receptions)
            (after.received.filter System.isPublish) := by
        rw [takes.listed, List.filter_cons_of_pos (by simpa [System.isPublish] using typ)]
        refine .cons ⟨packetProper, ⟨dup, retain, topicName, properties, payload, isPublish⟩, ?_⟩
          synced.receptions
        rintro frame rfl
        simp at pending
      have handles (stage : PublishStage) (after' : Inbound T config) (notCommitted : stage ≠ .committed)
          (same : after'.link.reader = reader) :
          after'.Handles after ⟨qosPid, topicName,
            ⟨(packet.bytes config).take held, (packet.bytes config).length⟩, rest, stage⟩ := by
        refine ⟨by rw [same]; exact known, ?_, fun committed => absurd committed notCommitted⟩
        exact fun _ => ⟨packet, broker.received, held, takes.listed, typ, inside, rfl, arrived, behind⟩
      simp only [Inbound.grantImmediate, Option.bind_eq_bind, Option.bind_eq_some_iff] at stepped
      rcases stepped with ⟨rx, _, stepped⟩
      split at stepped
      · rcases Option.some.inj stepped with rfl
        refine ⟨proper, by simp, ?_, carries .granted (.inl rfl) _, takes.earlier synced.earlier⟩
        intro other active
        rcases Option.some.inj active with rfl
        exact handles _ _ (by simp) rfl
      · rcases Option.some.inj stepped with rfl
        refine ⟨proper, by simp, ?_, carries .refused (.inr rfl) _, takes.earlier synced.earlier⟩
        intro other active
        rcases Option.some.inj active with rfl
        exact handles _ _ (by simp) rfl

theorem Synced.recv (synced : inbound.Synced broker) {after : BrokerStream}
    (whole : inbound.ReadsWhole broker socket) (consumed : inbound.takes broker socket = some after)
    (stepped : inbound.recv socket = some next) : next.Synced after := by
  simp only [Inbound.recv, Option.bind_eq_bind, Option.bind_eq_some_iff,
    Option.ite_none_left_eq_some, not_or, Bool.not_eq_true, Option.isSome_eq_false_iff,
    Option.isNone_iff_eq_none, not_not] at stepped
  rcases stepped with ⟨connection, opened, ⟨idle, phase⟩, stepped⟩
  have reads : inbound.link.Reads :=
    Link.reads_of_selecting (by simp [opened]) (by rw [phase]; rfl) (by simp [phase])
  split at stepped
  · rename_i qosPid topicName publish reader rest returned
    rcases synced.takes idle reads whole consumed returned with
      ⟨⟨_, impossible⟩, _⟩ | ⟨packet, received, same, known, takes⟩
    · simp at impossible
    · rcases Except.ok.inj same with rfl
      exact synced.grantImmediate takes known stepped
  · rename_i notPartial
    rcases Option.bind_eq_some_iff.mp stepped with ⟨link, received, stepped⟩
    have follows := follows_goOn stepped
    cases Link.transition_of_linkStep received with
    | receive _ returned inner =>
        rcases synced.takes idle reads whole consumed returned with
          ⟨⟨_, impossible⟩, _⟩ | ⟨packet, received, same, known, takes⟩
        · simp at impossible
        · rcases Except.ok.inj same with rfl
          have notPublish : packet.typ ≠ .publish := by
            intro isPublish
            cases takes.returns with
            | whole notPublish => exact notPublish isPublish
            | publish => exact notPartial _ _ _ _ _ returned
          refine synced.of_whole takes notPublish (follows.publishing.trans idle) follows.receptions ?_
          rw [follows.reader]
          exact known
    | receiveFails _ returned inner =>
        rcases synced.takes idle reads whole consumed returned with
          ⟨⟨kind, same⟩, count, rfl⟩ | ⟨_, _, impossible, _⟩
        · rcases Except.error.inj same with rfl
          refine synced.of_error count (follows.publishing.trans idle) follows.receptions ?_
          intro nextReads
          apply (follows.reads nextReads).notFailing
          cases (transition_of_step inner).2 with
          | receiveFails => rfl
        · simp at impossible

theorem Synced.recvConnAck (synced : inbound.Synced broker) {after : BrokerStream}
    (idle : inbound.publishing = none) (whole : inbound.ReadsWhole broker socket)
    (notPublish : ∀ packet ∈ broker.pending.head?, packet.typ ≠ .publish)
    (consumed : inbound.takes broker socket = some after)
    (received : linkStep inbound.link (.recvConnAck socket) = some link)
    (stepped : inbound.goOn link = some next) : next.Synced after := by
  have follows := follows_goOn stepped
  cases Link.transition_of_linkStep received with
  | recvConnAck opened phase returned =>
      have reads : inbound.link.Reads :=
        ⟨by simp [opened], by simp [phase.1], by simp [Link.Connects, phase.2]⟩
      rcases synced.takes idle reads whole consumed returned with
        ⟨⟨kind, rfl⟩, count, rfl⟩ | ⟨packet, received, rfl, known, takes⟩
      · refine synced.of_error count (follows.publishing.trans idle) follows.receptions ?_
        intro nextReads
        exact (follows.reads nextReads).notRefused ⟨phase.1, rfl⟩
      · refine synced.of_whole takes (notPublish packet (by rw [takes.pending]; rfl))
          (follows.publishing.trans idle) follows.receptions ?_
        rw [follows.reader]
        exact known

/-- The run lemma of a link follows the actions that do not use the reader. -/
theorem Synced.goOn [OpenedTransport T] (synced : inbound.Synced broker)
    (idle : inbound.publishing = none) {action : LinkAction T}
    (notReader : action.usesReader = false) (notOpened : action ≠ .opened)
    (performed : linkStep inbound.link action = some link)
    (stepped : inbound.goOn link = some next) : next.Synced broker := by
  have follows := follows_goOn stepped
  refine synced.of_link idle follows.publishing follows.receptions ?_ ?_
  · intro _
    rw [follows.reader]
    exact Link.reader_of_linkStep notReader performed
  · intro nextReads
    exact Link.reads_of_linkStep notOpened performed (follows.reads nextReads)

theorem Synced.follow [OpenedTransport T] (synced : inbound.Synced broker) {after : BrokerStream}
    {action : LinkAction T} (undisturbed : inbound.Undisturbed broker (.link action))
    (consumed : inbound.consumes broker (.link action) = some after)
    (performed : linkStep inbound.link action = some link)
    (stepped : inbound.follow action link = some next) : next.Synced after := by
  unfold Inbound.follow at stepped
  split at stepped
  · rename_i publishing current action' active
    rcases Option.some.inj stepped with rfl
    rcases Option.some.inj consumed with rfl
    have same := Link.reader_of_linkStep rfl performed
    refine ⟨synced.proper, by simp [active], ?_, synced.receptions, synced.earlier⟩
    intro other active'
    have handles := synced.handles other active'
    exact ⟨same ▸ handles.known, handles.reading, handles.behind⟩
  · rename_i publishing active
    have nothing : inbound.publishing.isNone = true := undisturbed
    simp [active] at nothing
  · simp at stepped
  · simp at stepped
  · rename_i written idle
    rcases Option.some.inj consumed with rfl
    unfold encode at stepped
    split at stepped
    · rcases Option.some.inj stepped with rfl
      exact synced.of_link idle rfl rfl (fun _ => Link.reader_of_linkStep rfl performed)
        fun reads => Link.reads_of_linkStep (by simp) performed reads
    · rcases Option.some.inj stepped with rfl
      exact synced.of_link idle rfl rfl (fun _ => rfl) id
    · simp at stepped
  · rename_i other _ _ idle notReceive notDisconnect
    cases other with
    | recvConnAck socket =>
        exact synced.recvConnAck idle undisturbed.1 undisturbed.2 consumed performed stepped
    | pending socket iterations =>
        have follows := follows_goOn stepped
        simp only [Inbound.consumes, Option.ite_none_right_eq_some, Option.map_eq_some_iff]
          at consumed
        rcases consumed with ⟨arrived, ⟨reader, rest⟩, dropped, rfl⟩
        have unknown := undisturbed _ dropped
        cases Link.transition_of_linkStep performed with
        | pending phase dropped' =>
            rcases Option.some.inj (dropped.symm.trans dropped') with rfl
            refine ⟨synced.proper, ?_, by simp [follows.publishing, idle], ?_, synced.earlier⟩
            · intro _ nextReads
              have reads := Link.reads_of_linkStep (by simp) performed (follows.reads nextReads)
              rw [follows.reader]
              exact (synced.boundary idle reads).dropAfter synced.proper arrived dropped unknown
            · rw [follows.receptions]
              exact synced.receptions
    | opened =>
        have follows := follows_goOn stepped
        rcases Option.some.inj consumed with rfl
        refine ⟨by simp [BrokerStream.reopen], ?_, by simp [follows.publishing, idle], ?_, ?_⟩
        · intro _ _
          rw [follows.reader, Link.reader_of_linkStep rfl performed]
          exact .of_empty undisturbed rfl
        · rw [follows.receptions]
          exact synced.receptions
        · exact ⟨broker.received.reverse, rfl⟩
    | receive socket payload => exact absurd rfl (notReceive socket payload)
    | disconnect written => exact absurd rfl (notDisconnect written)
    | reset =>
        have follows := follows_goOn stepped
        rcases Option.some.inj consumed with rfl
        cases Link.transition_of_linkStep performed with
        | reset inner =>
            refine synced.of_link idle follows.publishing follows.receptions ?_ ?_
            · exact fun reads => absurd (follows.reads reads) (Link.not_reads_of_disconnect rfl)
            · exact fun reads => absurd (follows.reads reads) (Link.not_reads_of_disconnect rfl)
    | connect | greeted | connected | connectFails | client | write | socketFails | lost | drifts
    | dropRun =>
        rcases Option.some.inj consumed with rfl
        exact synced.goOn idle rfl (by simp) performed stepped

/-- Every action that is not disturbed keeps the stack in step. -/
theorem Synced.step [OpenedTransport T] (synced : inbound.Synced broker)
    (disciplined : inbound.Disciplined capacity) {after : BrokerStream} {action : InboundAction T}
    (undisturbed : inbound.Undisturbed broker action)
    (consumed : inbound.consumes broker action = some after)
    (stepped : inboundStep inbound action = some next) : next.Synced after := by
  unfold inboundStep at stepped
  split at stepped
  · simp at stepped
  · cases action with
    | recv socket => exact synced.recv undisturbed consumed stepped
    | copyAll =>
        rcases Option.map_eq_some_iff.mp consumed with ⟨publishing, active, rfl⟩
        exact synced.copyAll disciplined active stepped
    | discard =>
        rcases Option.map_eq_some_iff.mp consumed with ⟨publishing, active, rfl⟩
        exact synced.discard active stepped
    | insert =>
        rcases Option.some.inj consumed with rfl
        exact synced.insert stepped
    | subscriber action =>
        rcases Option.some.inj consumed with rfl
        simp only [Option.ite_none_right_eq_some, Option.map_eq_some_iff] at stepped
        rcases stepped with ⟨_, rx, _, rfl⟩
        exact ⟨synced.proper, synced.boundary, fun publishing active =>
          ⟨(synced.handles publishing active).known, (synced.handles publishing active).reading,
            (synced.handles publishing active).behind⟩, synced.receptions, synced.earlier⟩
    | link action =>
        rcases Option.bind_eq_some_iff.mp stepped with ⟨link, performed, stepped⟩
        exact synced.follow undisturbed consumed performed stepped

end Inbound

/-! ### The publications -/

omit [Transport T] in
/-- The entries of a list of which some are kept, and those that they are related to. -/
theorem exists_sublist_of_forall₂ {First Second : Type} {related : First → Second → Prop}
    {kept all : List First} {others : List Second} (sublist : kept.Sublist all)
    (pairs : List.Forall₂ related all others) :
    ∃ keptOthers, keptOthers.Sublist others ∧ List.Forall₂ related kept keptOthers := by
  induction sublist generalizing others with
  | slnil => exact ⟨others, List.Sublist.refl _, pairs⟩
  | cons first sublist ih =>
      cases pairs with
      | cons pair pairs =>
          rcases ih pairs with ⟨keptOthers, sublist, keptPairs⟩
          exact ⟨keptOthers, sublist.cons _, keptPairs⟩
  | cons_cons first sublist ih =>
      cases pairs with
      | cons pair pairs =>
          rcases ih pairs with ⟨keptOthers, sublist, keptPairs⟩
          exact ⟨_, sublist.cons_cons _, .cons pair keptPairs⟩

/-- Whether one of the topic filters matches. -/
def MessageStream.matches (stream : MessageStream config) (publication : Publication) : Bool :=
  stream.topicFilters.any fun filter => filter.isMatch publication.topicName

/-- The publications that `recv` has returned, oldest first. -/
def BrokerStream.publications (broker : BrokerStream) : List Publication :=
  broker.received.reverse.filterMap ServerPacket.publication?

omit [Transport T] in
theorem BrokerStream.publications_eq (broker : BrokerStream) :
    broker.publications =
      (broker.received.filter isPublish).reverse.filterMap ServerPacket.publication? := by
  unfold publications
  rw [← List.filter_reverse, List.filterMap_filter]
  congr 1
  funext packet
  cases packet with
  | publish => rfl
  | ack kind pid tail => cases kind <;> rfl
  | _ => rfl

namespace Reception.Carries

variable {reception : Reception} {packet : ServerPacket} {stream : MessageStream config}

omit [Transport T] in
theorem exists_publication (carries : reception.Carries config packet)
    (stream : MessageStream config) :
    ∃ publication, packet.publication? = some publication ∧
      (stream.accepts (packet.bytes config)).map Message.publication? =
        if stream.matches publication then some (some publication) else none := by
  rcases carries.isPublish with ⟨dup, retain, topicName, properties, payload, isPublish⟩
  have parsed := tryNew_publish isPublish carries.proper.wellFormed
  rcases @publishMessage_fields config _ _ _ _ _ _ _ isPublish with
    ⟨sameDup, sameRetain, samePid, sameTopic, samePayload⟩
  refine ⟨⟨dup, retain, reception.qosPid, topicName, payload⟩, by rw [isPublish]; rfl, ?_⟩
  have topic : (publishMessage config packet reception.qosPid topicName properties
      payload).topicName? = some topicName := by
    rw [Message.topicName?, sameTopic, Utf8.ofBytes?_bytes]
  have wants : stream.wants (publishMessage config packet reception.qosPid topicName properties
      payload) = stream.matches ⟨dup, retain, reception.qosPid, topicName, payload⟩ := by
    simp only [MessageStream.wants, topic, Option.any_some, MessageStream.matches]
  simp only [MessageStream.accepts, parsed, wants]
  split
  · simp only [Option.map_some, Message.publication?, topic, sameDup, sameRetain, samePid,
      samePayload]
  · rfl

omit [Transport T] in
/-- A PUBLISH that was not committed does not become a message. -/
theorem messageOf?_eq_none (notCommitted : ∀ frame, reception.fate ≠ .committed frame) :
    stream.messageOf? reception = none := by
  unfold MessageStream.messageOf? Reception.handed?
  cases fate : reception.fate with
  | committed frame => exact absurd fate (notCommitted frame)
  | cut => rfl
  | granted | refused => rfl

omit [Transport T] in
/-- The messages that a subscription makes of some publishes. -/
theorem exists_publications {receptions : List Reception} {packets : List ServerPacket}
    (carried : List.Forall₂ (Reception.Carries config) receptions packets)
    (stream : MessageStream config) :
    ∃ kept, kept.Sublist (packets.filterMap ServerPacket.publication?) ∧
      (receptions.filterMap stream.messageOf?).map Message.publication? =
        (kept.filter stream.matches).map some ∧
      ((∀ reception ∈ receptions, ∃ frame, reception.fate = .committed frame) →
        kept = packets.filterMap ServerPacket.publication? ∧ kept.length = receptions.length) := by
  induction carried with
  | nil => exact ⟨[], List.Sublist.refl _, rfl, fun _ => ⟨rfl, rfl⟩⟩
  | @cons reception packet receptions packets carries carried ih =>
      rcases ih with ⟨kept, sublist, messages, all⟩
      rcases carries.exists_publication stream with ⟨publication, published, accepted⟩
      rw [List.filterMap_cons_some published]
      by_cases committed : ∃ frame, reception.fate = .committed frame
      · rcases committed with ⟨frame, fate⟩
        have whole := carries.whole frame fate
        have made : stream.messageOf? reception = stream.accepts (packet.bytes config) := by
          simp only [MessageStream.messageOf?, Reception.handed?, fate, whole, Option.bind_some]
        refine ⟨publication :: kept, sublist.cons_cons _, ?_, ?_⟩
        · by_cases isMatch : stream.matches publication = true
          · rw [if_pos isMatch] at accepted
            rcases Option.map_eq_some_iff.mp accepted with ⟨message, isMessage, same⟩
            rw [List.filterMap_cons_some (made.trans isMessage), List.map_cons, same, messages,
              List.filter_cons_of_pos isMatch, List.map_cons]
          · rw [if_neg isMatch, Option.map_eq_none_iff] at accepted
            rw [List.filterMap_cons_none (made.trans accepted), messages,
              List.filter_cons_of_neg isMatch]
        · intro allCommitted
          rcases all fun other listed => allCommitted other (List.mem_cons_of_mem _ listed) with
            ⟨whole, length⟩
          exact ⟨by rw [whole], by rw [List.length_cons, List.length_cons, length]⟩
      · have notMade : stream.messageOf? reception = none :=
          messageOf?_eq_none fun frame fate => committed ⟨frame, fate⟩
        refine ⟨kept, sublist.cons _, ?_, ?_⟩
        · rw [List.filterMap_cons_none notMade, messages]
        · intro allCommitted
          exact absurd (allCommitted reception List.mem_cons_self) committed

end Reception.Carries

namespace Wired

variable {capacity : ℕ} {wired next : Wired T config}

/-- The invariant of a run. -/
structure Sound (capacity : ℕ) (wired : Wired T config) : Prop where
  receiver : wired.receiver.Sound capacity
  synced : wired.receiver.inbound.Synced wired.broker

/-- What uses the RX channel alone does not disturb the stack. -/
theorem synced_of_used [OpenedTransport T] {inbound after : Inbound T config}
    {broker : BrokerStream} {used : List Pubsub.Action}
    (disciplined : inbound.Disciplined capacity) (synced : inbound.Synced broker)
    (performed : Execution.run inboundStep inbound (used.map .subscriber) = some after) :
    after.Synced broker := by
  have isSubscriber : Execution.Guarded inboundStep
      (fun _ action => InboundAction.isSubscriber action = true) inbound (used.map .subscriber) := by
    refine Execution.guarded_of_forall fun _ action listed => ?_
    rcases List.mem_map.mp listed with ⟨inner, _, rfl⟩
    rfl
  refine (Execution.invariant_of_guarded
    (fun inbound => inbound.Disciplined capacity ∧ inbound.Synced broker) ?_ isSubscriber
    ⟨disciplined, synced⟩ performed).2
  rintro state next action isSubscriber ⟨disciplined, synced⟩ stepped
  cases action with
  | subscriber action =>
      have undisturbed : state.Undisturbed broker (.subscriber action) := trivial
      exact ⟨(disciplined.step stepped).disciplined,
        synced.step disciplined undisturbed rfl stepped⟩
  | recv | copyAll | discard | insert | link => simp [InboundAction.isSubscriber] at isSubscriber

theorem Sound.step [OpenedTransport T] {action : WiredAction T} (small : capacity ≤ 65535)
    (undisturbed : wired.Undisturbed action)
    (proper : ∀ packet, action = .send packet → packet.Proper config) (sound : wired.Sound capacity)
    (stepped : wiredStep wired action = some next) : next.Sound capacity := by
  cases action with
  | send packet =>
      simp only [wiredStep, Option.ite_none_right_eq_some, Option.some.injEq] at stepped
      rcases stepped with ⟨_, rfl⟩
      exact ⟨sound.receiver, sound.synced.send (proper packet rfl)⟩
  | receiver action =>
      simp only [wiredStep, Option.bind_eq_bind, Option.bind_eq_some_iff, Option.some.injEq]
        at stepped
      rcases stepped with ⟨broker, consumed, receiver, performed, rfl⟩
      have noPayloadMut : ∀ message offset byte, action ≠ .payloadMut message offset byte := by
        rintro message offset byte rfl
        exact undisturbed
      refine ⟨sound.receiver.step small noPayloadMut performed, ?_⟩
      rcases Receiver.cases_of_step performed with ⟨inner, rfl, _, inbound, _⟩ | ⟨used, serves⟩
      · exact sound.synced.step sound.receiver.disciplined undisturbed consumed inbound
      · have unchanged : broker = wired.broker := by
          cases serves.uses with
          | subscriber | create | abandon | unread | read | skip | payloadMut | dropMessage
          | dropStream => exact (Option.some.inj consumed).symm
        rw [unchanged]
        exact synced_of_used sound.receiver.disciplined sound.synced serves.performed

/-- The publications of which a subscription hands out messages. -/
theorem Sound.exists_kept (sound : wired.Sound capacity) {id : ℕ} {stream : MessageStream config}
    (live : wired.receiver.streams.get? id = some stream) :
    ∃ since kept, since <:+ wired.broker.publications ∧ kept.Sublist since ∧
      (stream.handedOut ++ wired.receiver.queued stream).map Message.publication? =
        (kept.filter stream.matches).map some ∧
      (wired.receiver.evictedFrom stream = [] →
        (∀ reception ∈ wired.receiver.inbound.receptions,
          ∃ frame, reception.fate = .committed frame) →
        kept = since ∧ since.length = (wired.receiver.committedFor stream).length) := by
  rcases sound.receiver.exists_kept live with
    ⟨since, kept, suffix, frames, sublist, nothingEvicted, handedOut⟩
  have carried := List.forall₂_reverse_iff.mpr sound.synced.receptions
  have sinceCarried := List.forall₂_drop
    (wired.receiver.inbound.receptions.reverse.length - since.length) carried
  rw [← List.suffix_iff_eq_drop.mp suffix] at sinceCarried
  have inOrder := wired.broker.publications_eq
  have published : (List.filterMap ServerPacket.publication?
      ((wired.broker.received.filter isPublish).reverse.drop
        (wired.receiver.inbound.receptions.reverse.length - since.length))) <:+
      wired.broker.publications := by
    rw [inOrder]
    exact (List.drop_suffix _ _).filterMap _
  by_cases nothing : wired.receiver.evictedFrom stream = []
  · rcases nothingEvicted nothing with rfl
    rcases Reception.Carries.exists_publications sinceCarried stream with
      ⟨publications, keptSublist, messages, all⟩
    refine ⟨_, publications, published, keptSublist, by rw [handedOut, messages], ?_⟩
    intro _ committed
    have inSince : ∀ reception ∈ kept, ∃ frame, reception.fate = .committed frame :=
      fun reception listed => committed reception (List.mem_reverse.mp (suffix.subset listed))
    rcases all inSince with ⟨whole, length⟩
    refine ⟨whole, ?_⟩
    have handedOver : (kept.filterMap Reception.handed?).length = kept.length := by
      rw [List.filterMap_length_eq_length]
      intro reception listed
      rcases inSince reception listed with ⟨frame, fate⟩
      simp [Reception.handed?, fate]
    rw [frames, List.length_map] at handedOver
    rw [← whole, length, handedOver]
  · rcases exists_sublist_of_forall₂ sublist sinceCarried with ⟨packets, inPackets, keptCarried⟩
    rcases Reception.Carries.exists_publications keptCarried stream with
      ⟨publications, keptSublist, messages, _⟩
    exact ⟨_, publications, published, keptSublist.trans (inPackets.filterMap _),
      by rw [handedOut, messages], fun impossible => absurd impossible nothing⟩

end Wired

end Mqttrust.System
