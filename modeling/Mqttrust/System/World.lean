import Mqttrust.Foundation.Execution
import Mqttrust.Foundation.Table
import Mqttrust.System.Stack

/-!
# A client, its stack and the broker

A world is the shared state together with the client's calls, the TX channel and
the task of the stack. An action takes one task from one suspension point to the
next, so a run of actions is one interleaving of the tasks; every try of a lock
may also find it taken. Calls begin at any time, connected or not.

The TX channel is a queue: it hands every committed frame to the stack once and
in order, and it may give a write grant at any time. A read grant that is dropped
without being released is released all the same, so its frame is lost.

The broker's part of a world is the list of the publishes that it received and
has not answered. The history records what was transmitted and received, most
recent first. No operation of the client or the stack reads either.
-/

namespace Mqttrust.System

/-- A committed frame of the TX channel. -/
inductive Frame where
  /-- The packet of a call of `send`. -/
  | send (call : ℕ) (packet : SendPacket) (pid : Pid)
  /-- The UNSUBSCRIBE of `Subscription::drop`, which does not set the identifier of its grant. -/
  | dropped (pid : Pid)
deriving DecidableEq, Repr

/-- `FrameGrantR::pid`. -/
def Frame.txPid : Frame → ℕ
  | .send _ _ pid => pid.val
  | .dropped _ => 0

/-- Where the task of the stack is suspended. -/
inductive StackPhase where
  /-- At the top of the loop of `run`, with the transport not connected. -/
  | disconnected
  /-- In `connect_mqtt`. -/
  | connecting
  /-- In `select`, waiting for a frame, a packet or the keep-alive timer. -/
  | idle
  /-- In `write_all` of a frame. -/
  | writing (frame : Frame)
  /-- In `flush`, after a frame was written. -/
  | flushing (frame : Frame)
  /-- Waiting for the shared state, after a frame was flushed. -/
  | transmitting (frame : Frame)
  /-- In `write_bytes` of a packet of its own. -/
  | replying (reply : Reply)
  /-- `select` returned an error and `reset` is to follow. -/
  | failing
deriving DecidableEq, Repr

/-- The frame that the stack has taken from the TX channel and not released. -/
def StackPhase.frame? : StackPhase → Option Frame
  | .writing frame | .flushing frame | .transmitting frame => some frame
  | _ => none

/-- What is recorded of a run. -/
inductive Event where
  /-- A frame was completely written to the socket. -/
  | written (frame : Frame)
  | pubAck (pid : Pid)
  | pubRec (pid : Pid)
  | pubComp (pid : Pid)
  | pubRel (pid : Pid)
  /-- A PUBLISH of QoS 2 was received and copied. -/
  | publish (pid : Pid)
  /-- `Shared::reset` was called. -/
  | reset
deriving DecidableEq, Repr

/-- What is recorded of a received packet. -/
def receivedEvents (payload : Payload) : ReceivedPacket → List Event
  | .pubAck packet => [.pubAck packet.pid]
  | .pubRec packet => [.pubRec packet.pid]
  | .pubComp packet => [.pubComp packet.pid]
  | .pubRel packet => [.pubRel packet.pid]
  | .partialPublish (.exactlyOnce pid) _ _ => if payload = .copied then [.publish pid] else []
  | _ => []

/-- The publish that a packet acknowledges: its identifier and its quality of service. -/
def answers? : ReceivedPacket → Option (Pid × QoS)
  | .pubAck packet => some (packet.pid, .atLeastOnce)
  | .pubRec packet => some (packet.pid, .exactlyOnce)
  | _ => none

/-- The broker: the publishes of QoS 1 and 2 that it has received and not answered. -/
structure Broker where
  unanswered : List (Pid × QoS)
deriving DecidableEq, Repr

namespace Broker

/-- The broker receives a frame. -/
def receive (broker : Broker) : Frame → Broker
  | .send _ (.publish .atLeastOnce) pid => ⟨(pid, .atLeastOnce) :: broker.unanswered⟩
  | .send _ (.publish .exactlyOnce) pid => ⟨(pid, .exactlyOnce) :: broker.unanswered⟩
  | _ => broker

/-- The broker sends a packet. -/
def send (broker : Broker) (packet : ReceivedPacket) : Broker :=
  match answers? packet with
  | some entry => ⟨broker.unanswered.erase entry⟩
  | none => broker

end Broker

/-- Which parts of `Subscription::drop` go through: each lock of the shared state, the grant and the
encoding. -/
structure SubscriptionDrop where
  pidLocked : Bool
  granted : Bool
  statusLocked : Bool
  encoded : Bool
deriving DecidableEq, Repr

/-- What a task does from one suspension point to the next. -/
inductive Action where
  /-- A call of `send` begins. -/
  | send (packet : SendPacket)
  /-- `tx_publisher.lock()` in `send`. -/
  | lock (call : ℕ)
  /-- `grant_async` and the encoding of the packet. -/
  | grant (call : ℕ) (result : Except Error Unit)
  /-- The insertions of `send` and the commit. -/
  | commit (call : ℕ)
  | waitTx (call : ℕ)
  | waitAck (call : ℕ)
  | waitRel (call : ℕ)
  /-- A SUBSCRIBE or an UNSUBSCRIBE waits for its reason codes. -/
  | waitStatus (call : ℕ) (contended : Bool)
  /-- The future of a call is dropped. -/
  | drop (call : ℕ) (contended : Bool)
  | dropSubscription (drop : SubscriptionDrop)
  /-- `run` begins to connect. -/
  | connect
  | connectFails
  | connected (sessionPresent : Bool)
  /-- `run` finds that the transport is not connected any more. -/
  | lost
  /-- The TX branch of `select` takes a frame. -/
  | read
  | written
  | flushed
  | transmitted
  /-- Writing a frame or a reply fails, or flushing it. -/
  | writeFails
  | receive (packet : ReceivedPacket) (payload : Payload)
  | receiveFails (error : StateError)
  | keepAlive
  | replied
  /-- `MqttStack::reset`; the transport may stay connected. -/
  | reset (isConnected : Bool)
  /-- The future of `run` is dropped, and `run` is called again. -/
  | dropRun (isConnected : Bool)
  /-- `MqttStack::disconnect`, while `run` is not running. -/
  | disconnect
deriving DecidableEq

namespace Action

/-- The packet with which a call begins. -/
def sends? : Action → Option SendPacket
  | .send packet => some packet
  | _ => none

/-- The call that commits its frame. -/
def commits? : Action → Option ℕ
  | .commit handle => some handle
  | _ => none

/-- The packet that is received. -/
def receives? : Action → Option ReceivedPacket
  | .receive packet _ => some packet
  | _ => none

/-- Whether the shared state is reset. -/
def resets : Action → Bool
  | .reset _ | .disconnect => true
  | _ => false

end Action

/-- A client, its stack and the broker. -/
structure World (config : CrateConfig) where
  shared : Shared config
  calls : Table Call
  /-- The call that holds the lock `tx_publisher`. -/
  txPublisher : Option ℕ
  /-- The committed frames of the TX channel. -/
  frames : List Frame
  stack : StackPhase
  awaitingPingresp : Bool
  /-- The assertion that failed. -/
  panicked : Option Panic
  broker : Broker
  history : List Event
deriving DecidableEq

namespace World

variable {config : CrateConfig}

/-- A new client that is not connected. -/
def new (config : CrateConfig) : World config where
  shared := .new
  calls := .empty
  txPublisher := none
  frames := []
  stack := .disconnected
  awaitingPingresp := false
  panicked := none
  broker := ⟨[]⟩
  history := []

variable (world : World config)

/-- A call goes on to a phase. -/
def setPhase (handle : ℕ) (call : Call) (phase : Phase) : World config :=
  { world with calls := world.calls.replace handle { call with phase := phase } }

/-- The first part of `send`; without room the call is over. -/
def send (packet : SendPacket) : World config :=
  if world.shared.hasRoom packet then
    { world with
      shared := world.shared.takePid
      calls := world.calls.insert ⟨packet, world.shared.nextPid, .checked⟩ }
  else world

/-- The call gets the lock `tx_publisher`. -/
def lock (handle : ℕ) (call : Call) : World config :=
  { world.setPhase handle call .publishing with txPublisher := some handle }

/-- The call gets a grant and encodes its packet, or fails. -/
def grant (handle : ℕ) (call : Call) : Except Error Unit → World config
  | .ok _ => world.setPhase handle call .granted
  | .error error =>
      { world.setPhase handle call (.finished (.error error)) with txPublisher := none }

/-- The insertions of `send` and the commit of the frame. -/
def commit (handle : ℕ) (call : Call) : World config :=
  match world.shared.register call.packet call.pid with
  | .done shared =>
      { world.setPhase handle call .sent with
        shared := shared
        txPublisher := none
        frames := world.frames ++ [.send handle call.packet call.pid] }
  | .full shared =>
      { world.setPhase handle call (.finished (.error .maxInflight)) with
        shared := shared
        txPublisher := none }
  | .panicked place => { world with panicked := some place }

/-- The reason codes of an acknowledgement are taken; an error code makes the call fail. -/
def finishStatus (handle : ℕ) (call : Call) (shared : Shared config) (codes : List UInt8)
    (contended : Bool) : World config :=
  if codes.any fun code => 0x80 ≤ code then
    { world.setPhase handle call (.finished (.error .badTopicFilter)) with
      shared := shared.clean call.packet call.pid contended }
  else { world.setPhase handle call (.finished (.ok ())) with shared := shared }

/-- The future of the call is dropped. -/
def drop (handle : ℕ) (call : Call) (contended : Bool) : World config :=
  match call.phase with
  | .checked => world.setPhase handle call .dropped
  | .publishing | .granted => { world.setPhase handle call .dropped with txPublisher := none }
  | .sent | .transmitted | .acked =>
      { world.setPhase handle call .dropped with
        shared := world.shared.clean call.packet call.pid contended }
  | .finished _ | .dropped => world

/-- `Subscription::drop`. -/
def dropSubscription (drop : SubscriptionDrop) : World config :=
  let pid := if drop.pidLocked then world.shared.nextPid else Pid.new
  let shared := if drop.pidLocked then world.shared.takePid else world.shared
  if world.txPublisher = none ∧ drop.granted then
    { world with
      shared :=
        if drop.statusLocked then
          { shared with
            ackStatus :=
              (shared.ackStatus.insert pid.val (.awaitingUnsubAck false)).getD shared.ackStatus }
        else shared
      frames := if drop.encoded then world.frames ++ [.dropped pid] else world.frames }
  else { world with shared := shared }

/-- `set_connected` at the start of a connection. -/
def connect : World config :=
  { world with shared := world.shared.setConnected none, stack := .connecting }

/-- The connection is established; without a session the broker has nothing left to answer. -/
def connected (sessionPresent : Bool) : World config :=
  { world with
    shared := world.shared.setConnected (some sessionPresent)
    stack := .idle
    broker := if sessionPresent then world.broker else ⟨[]⟩ }

/-- The frame is completely written. -/
def written (frame : Frame) : World config :=
  { world with
    stack := .flushing frame
    broker := world.broker.receive frame
    history := .written frame :: world.history }

/-- The TX branch of `select` after the flush. -/
def transmitted (frame : Frame) : World config :=
  { world with
    shared :=
      if frame.txPid ≠ 0 then
        { world.shared with outgoingPid := world.shared.outgoingPid.remove frame.txPid }
      else world.shared
    stack := .idle }

/-- The RX branch of `select`. -/
def receive (packet : ReceivedPacket) (payload : Payload) : World config :=
  let world :=
    { world with
      broker := world.broker.send packet
      history := receivedEvents payload packet ++ world.history }
  match world.shared.handle payload packet with
  | .done shared reply =>
      { world with
        shared := shared
        stack := reply.elim .idle .replying
        awaitingPingresp := world.awaitingPingresp && packet != .pingResp }
  | .failed _ => { world with stack := .failing }
  | .panicked place => { world with panicked := some place }

/-- An error of `recv`: only I/O errors end `select`. -/
def receiveFails : StateError → World config
  | .io _ => { world with stack := .failing }
  | _ => world

/-- `MqttStack::handle_keep_alive`. -/
def keepAlive : World config :=
  if world.awaitingPingresp then { world with stack := .failing }
  else { world with awaitingPingresp := true, stack := .replying .pingReq }

/-- The shared state is reset. -/
def resetShared (stack : StackPhase) : World config :=
  { world with
    shared := world.shared.reset
    stack := stack
    history := .reset :: world.history }

/-- `MqttStack::reset` after an error. -/
def reset (isConnected : Bool) : World config :=
  { world.resetShared (if isConnected then .idle else .disconnected) with
    awaitingPingresp := false }

end World

/-- One action. It is not possible when the task it belongs to is not where the action starts, when
it has to wait, or after a panic. -/
def step {config : CrateConfig} (world : World config) (action : Action) : Option (World config) :=
  if world.panicked.isSome then none
  else
    match action with
    | .send packet => if packet.supported config then some (world.send packet) else none
    | .lock handle => do
        let call ← world.calls.get? handle
        if call.phase = .checked ∧ world.txPublisher = none then some (world.lock handle call)
        else none
    | .grant handle result => do
        let call ← world.calls.get? handle
        if call.phase = .publishing then some (world.grant handle call result) else none
    | .commit handle => do
        let call ← world.calls.get? handle
        if call.phase = .granted then some (world.commit handle call) else none
    | .waitTx handle => do
        let call ← world.calls.get? handle
        if call.phase = .sent then
          (world.shared.waitTx call.packet call.pid).map (world.setPhase handle call)
        else none
    | .waitAck handle => do
        let call ← world.calls.get? handle
        match call.phase, call.packet with
        | .transmitted, .publish qos =>
            (world.shared.waitAck qos call.pid).map (world.setPhase handle call)
        | _, _ => none
    | .waitRel handle => do
        let call ← world.calls.get? handle
        if call.phase = .acked then
          (world.shared.waitRel call.pid).map (world.setPhase handle call)
        else none
    | .waitStatus handle contended => do
        let call ← world.calls.get? handle
        match call.phase, call.packet with
        | .transmitted, .subscribe | .transmitted, .unsubscribe => do
            let (shared, codes) ← world.shared.waitStatus call.pid
            some (world.finishStatus handle call shared codes contended)
        | _, _ => none
    | .drop handle contended => do
        let call ← world.calls.get? handle
        some (world.drop handle call contended)
    | .dropSubscription drop => some (world.dropSubscription drop)
    | .connect => if world.stack = .disconnected then some world.connect else none
    | .connectFails =>
        if world.stack = .connecting then some { world with stack := .disconnected } else none
    | .connected sessionPresent =>
        if world.stack = .connecting then some (world.connected sessionPresent) else none
    | .lost => if world.stack = .idle then some { world with stack := .disconnected } else none
    | .read =>
        match world.stack, world.frames with
        | .idle, frame :: rest => some { world with stack := .writing frame, frames := rest }
        | _, _ => none
    | .written =>
        match world.stack with
        | .writing frame => some (world.written frame)
        | _ => none
    | .flushed =>
        match world.stack with
        | .flushing frame => some { world with stack := .transmitting frame }
        | _ => none
    | .transmitted =>
        match world.stack with
        | .transmitting frame => some (world.transmitted frame)
        | _ => none
    | .writeFails =>
        match world.stack with
        | .writing _ | .flushing _ | .replying _ => some { world with stack := .failing }
        | _ => none
    | .receive packet payload =>
        if world.stack = .idle ∧ receivable config packet then some (world.receive packet payload)
        else none
    | .receiveFails error => if world.stack = .idle then some (world.receiveFails error) else none
    | .keepAlive => if world.stack = .idle then some world.keepAlive else none
    | .replied =>
        match world.stack with
        | .replying _ => some { world with stack := .idle }
        | _ => none
    | .reset isConnected => if world.stack = .failing then some (world.reset isConnected) else none
    | .dropRun isConnected =>
        some { world with stack := if isConnected then .idle else .disconnected }
    | .disconnect => if world.stack = .idle then some (world.resetShared .disconnected) else none

/-- A run of a new client: the world after some actions. -/
abbrev runFrom (config : CrateConfig) (actions : List Action) : Option (World config) :=
  Execution.run step (World.new config) actions

end Mqttrust.System
