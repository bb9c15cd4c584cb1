import Mqttrust.Encoding.BrokerPacket
import Mqttrust.Pubsub.Handover
import Mqttrust.Reader.Fidelity
import Mqttrust.System.Pipeline

/-!
# Publishes on their way to the subscribers

What `select` does with a received PUBLISH, between the points at which it may be
suspended: it asks the RX channel for a grant, copies the packet into it from the
socket, commits it and answers, or it discards the payload. The subscribers use
the RX channel at any time, and `run` may be dropped while the payload is read.
Until a copy is complete, what it has stored in its grant is not read by anyone.

The stack encodes its answers, PINGREQ and DISCONNECT into `write_buf`. What was
received, what became of it and what was begun to be written is recorded. No
operation reads it.
-/

namespace Mqttrust.System

open Pubsub (bytesAt)

/-- The const generics of the RX channel. -/
def rxConfig (config : CrateConfig) : Pubsub.ChannelConfig :=
  ⟨config.maxPubsubMessages, config.maxSubscribers⟩

/-- Where `select` is with a PUBLISH. -/
inductive PublishStage where
  /-- In `copy_all`, with a grant of the RX channel. -/
  | copying (writer : ℕ)
  /-- In `discard`. -/
  | discarding
  /-- A PUBLISH of QoS 2 is committed; waiting for the shared state. -/
  | committed
deriving DecidableEq, Repr

/-- A PUBLISH that `select` handles, and the connection behind what `recv` has read of it. -/
structure InboundPublish where
  qosPid : QosPid
  topicName : Utf8
  publish : PartialPublish
  socket : Socket
  stage : PublishStage

/-- The packet as `recv` has returned it. -/
def InboundPublish.packet (publishing : InboundPublish) : ReceivedPacket :=
  .partialPublish publishing.qosPid publishing.topicName publishing.publish

/-- What has become of a received PUBLISH. -/
inductive Fate where
  /-- There is a grant, and the payload is read. -/
  | granted
  /-- There was no grant. -/
  | refused
  /-- The payload was not read to its end. -/
  | cut
  /-- The grant was committed with these bytes. -/
  | committed (frame : List UInt8)
deriving DecidableEq, Repr

/-- A received PUBLISH. -/
structure Reception where
  qosPid : QosPid
  publish : PartialPublish
  fate : Fate
deriving DecidableEq

/-- The newest PUBLISH has met its fate. -/
def settle (fate : Fate) : List Reception → List Reception
  | [] => []
  | newest :: earlier => { newest with fate := fate } :: earlier

/-- The packet of `MqttStack::disconnect`. -/
def disconnectPacket (config : CrateConfig) : DisconnectPacket where
  reasonCode := DisconnectReasonCode.normal
  properties :=
    match config.protocol with
    | .mqttv3 => .slice []
    | .mqttv5 => .slice [.sessionExpiryInterval 0]

/-- A link with its RX channel. -/
structure Inbound (T : Type) (config : CrateConfig) where
  link : Link T config
  rx : Pubsub.World
  publishing : Option InboundPublish
  /-- `MqttStack::write_buf`. -/
  writeBuf : List UInt8
  /-- The publishes that were received, most recent first. -/
  receptions : List Reception
  /-- The packets that were encoded into `write_buf` and begun to be written, most recent first. -/
  written : List (List UInt8)

/-- What happens to the stack and the RX channel. -/
inductive InboundAction (T : Type) where
  /-- The `recv` of `select` returns; a PUBLISH goes on to `grant_immediate`. -/
  | recv (socket : Socket)
  /-- `copy_all` returns; the grant is committed, or dropped. -/
  | copyAll
  /-- `discard` returns. -/
  | discard
  /-- The identifier of a PUBLISH of QoS 2 is inserted. -/
  | insert
  /-- A subscriber uses the RX channel. -/
  | subscriber (action : Pubsub.Action)
  | link (action : LinkAction T)

namespace Inbound

variable {T : Type} [Transport T] {config : CrateConfig}

/-- A new stack on a transport, which has taken the publisher of the RX channel. -/
def new (config : CrateConfig) (capacity : ℕ) (transport : T) : Inbound T config where
  link := Link.new config transport
  rx := (Pubsub.World.new capacity).publisher
  publishing := none
  writeBuf := List.replicate 32 0
  receptions := []
  written := []

variable (inbound : Inbound T config)

/-- `encode_packet`, and the start of `write_bytes`: what follows when the packet is encoded, and
when it is not. -/
def encode {Packet : Type} [MqttEncode Packet] (packet : Packet) (encoded failed : Link T config) :
    Option (Inbound T config) :=
  match MqttEncode.toBuffer config packet (MqttEncoder.new inbound.writeBuf) with
  | .ok () encoder =>
      some { inbound with
        link := encoded
        writeBuf := encoder.buf
        written := encoder.intoPacketBytes :: inbound.written }
  | .error (.error _) encoder => some { inbound with link := failed, writeBuf := encoder.buf }
  | .error .panic _ => none

/-- The link goes on, and an answer is encoded. -/
def goOn (link : Link T config) : Option (Inbound T config) :=
  match inbound.link.world.stack, link.world.stack with
  | .idle, .replying reply =>
      inbound.encode reply link
        { link with
          world := { link.world with stack := .failing }
          log := inbound.link.log }
  | _, _ => some { inbound with link := link }

/-- `select` goes on behind the payload of a PUBLISH. -/
def proceed (publishing : InboundPublish) (payload : Payload) : Option (Inbound T config) := do
  let connection ← Transport.socket inbound.link.transport
  let world ← step inbound.link.world (.receive publishing.packet payload)
  goOn { inbound with publishing := none } (inbound.link.goOn connection world)

/-- A PUBLISH was received. -/
def grantImmediate (qosPid : QosPid) (topicName : Utf8) (publish : PartialPublish)
    (reader : PacketReader config) (socket : Socket) : Option (Inbound T config) := do
  let rx ← Pubsub.step (rxConfig config) inbound.rx (.grantImmediate publish.packetLen)
  let link := { inbound.link with reader := reader }
  match rx.writers.get? inbound.rx.writers.next with
  | some _ =>
      let stage := .copying inbound.rx.writers.next
      some { inbound with
        link := link
        rx := rx
        publishing := some ⟨qosPid, topicName, publish, socket, stage⟩
        receptions := ⟨qosPid, publish, .granted⟩ :: inbound.receptions }
  | none =>
      some { inbound with
        link := link
        rx := rx
        publishing := some ⟨qosPid, topicName, publish, socket, .discarding⟩
        receptions := ⟨qosPid, publish, .refused⟩ :: inbound.receptions }

/-- The `recv` of `select` returns. -/
def recv (socket : Socket) : Option (Inbound T config) := do
  let _ ← Transport.socket inbound.link.transport
  if inbound.publishing.isSome ∨ inbound.link.world.stack ≠ .idle then none
  else
    match inbound.link.reader.recv socket with
    | .returned (.ok (.partialPublish qosPid topicName publish)) reader rest =>
        inbound.grantImmediate qosPid topicName publish reader rest
    | _ => (linkStep inbound.link (.receive socket .copied)).bind inbound.goOn

/-- The grant is committed. Before a PUBREC the shared state is locked. -/
def commit (publishing : InboundPublish) (writer : ℕ) (frame : List UInt8) :
    Option (Inbound T config) := do
  let rx ← Execution.run (Pubsub.step (rxConfig config)) inbound.rx
    (Pubsub.stores writer 0 frame ++ [.commit writer publishing.publish.packetLen])
  let inbound :=
    { inbound with rx := rx, receptions := settle (.committed frame) inbound.receptions }
  match publishing.qosPid with
  | .exactlyOnce _ =>
      some { inbound with publishing := some { publishing with stage := .committed } }
  | _ => inbound.proceed publishing .copied

/-- The grant is dropped, and the payload is not read any further. -/
def cut (writer : ℕ) : Option (Inbound T config) := do
  let rx ← Pubsub.step (rxConfig config) inbound.rx (.dropWriter writer)
  some { inbound with rx := rx, receptions := settle .cut inbound.receptions }

/-- `copy_all` returns. -/
def copyAll : Option (Inbound T config) := do
  let publishing ← inbound.publishing
  match publishing.stage with
  | .copying writer => do
      let grant ← inbound.rx.writers.get? writer
      match publishing.publish.copyInto (bytesAt inbound.rx.buf grant.region) publishing.socket with
      | .done frame _ => inbound.commit publishing writer frame
      | .failed kind => do
          let after ← inbound.cut writer
          after.proceed publishing (.failed (.io kind))
      | .panicked | .pending => none
  | _ => none

/-- `discard` returns. -/
def discard : Option (Inbound T config) := do
  let publishing ← inbound.publishing
  match publishing.stage with
  | .discarding =>
      match publishing.publish.discard publishing.socket with
      | .done _ _ => inbound.proceed publishing .discarded
      | .failed kind => inbound.proceed publishing (.failed (.io kind))
      | .pending => none
  | _ => none

/-- The shared state is locked for a PUBLISH of QoS 2. -/
def insert : Option (Inbound T config) := do
  let publishing ← inbound.publishing
  match publishing.stage with
  | .committed => inbound.proceed publishing .copied
  | _ => none

/-- The future of `run` is dropped while `select` handles a PUBLISH. -/
def dropRun (publishing : InboundPublish) (link : Link T config) : Option (Inbound T config) :=
  match publishing.stage with
  | .copying writer => (inbound.cut writer).map fun after =>
      { after with link := link, publishing := none }
  | _ => some { inbound with link := link, publishing := none }

/-- An action of the link. While `select` handles a PUBLISH, only the client goes on. -/
def follow (action : LinkAction T) (link : Link T config) : Option (Inbound T config) :=
  match inbound.publishing, action with
  | some _, .client _ => some { inbound with link := link }
  | some publishing, .dropRun => inbound.dropRun publishing link
  | some _, _ => none
  | none, .receive _ _ => none
  | none, .disconnect _ => inbound.encode (disconnectPacket config) link inbound.link
  | none, _ => inbound.goOn link

end Inbound

variable {T : Type} [Transport T] {config : CrateConfig}

/-- One action of the stack, its client or a subscriber. -/
def inboundStep (inbound : Inbound T config) (action : InboundAction T) :
    Option (Inbound T config) :=
  if inbound.link.world.panicked.isSome then none
  else
    match action with
    | .recv socket => inbound.recv socket
    | .copyAll => inbound.copyAll
    | .discard => inbound.discard
    | .insert => inbound.insert
    | .subscriber action =>
        if action.isSubscriber then
          (Pubsub.step (rxConfig config) inbound.rx action).map fun rx => { inbound with rx := rx }
        else none
    | .link action => (linkStep inbound.link action).bind (inbound.follow action)

/-- A run of a new stack on a transport, with an RX buffer of the given capacity. -/
abbrev inboundRun (config : CrateConfig) (capacity : ℕ) (transport : T)
    (actions : List (InboundAction T)) : Option (Inbound T config) :=
  Execution.run inboundStep (Inbound.new config capacity transport) actions

end Mqttrust.System
