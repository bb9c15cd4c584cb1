import Mqttrust.Reader.Session
import Mqttrust.System.Transition

/-!
# A stack on its transport

`MqttStack::run` opens connections through a transport, performs the handshake of
`connect_mqtt` on each and then calls `select` in a loop. A link is a world
together with the transport, the packet reader and the progress of the handshake.
Whether the handshake is made is decided by `is_connected` alone.

Each action that receives something comes with the receiving end of the
connection as it is then, so a connection delivers any bytes at any time. The log
records what is written to the connections and when a CONNACK is accepted, most
recent first. No operation reads it.
-/

namespace Mqttrust.System

/-- `Transport`. A connection is named by the order in which it was opened. -/
class Transport (T : Type) where
  /-- `connect`, when it succeeds with a new connection. -/
  connect : T → ℕ → T
  disconnect : T → T
  isConnected : T → Bool
  socket : T → Option ℕ
  /-- What may become of the transport by itself. -/
  drifts : T → T → Bool

/-- `NalTransport`. -/
structure NalTransport where
  socket : Option ℕ
deriving DecidableEq, Repr

instance : Transport NalTransport where
  connect _ connection := ⟨some connection⟩
  disconnect _ := ⟨none⟩
  isConnected transport := transport.socket.isSome
  socket transport := transport.socket
  drifts _ _ := false

/-- `ConnectedSocketTransport`. -/
structure ConnectedSocketTransport where
  socket : ℕ
deriving DecidableEq, Repr

instance : Transport ConnectedSocketTransport where
  connect transport _ := transport
  disconnect transport := transport
  isConnected _ := true
  socket transport := some transport.socket
  drifts _ _ := false

/-- Where `run` is while it connects. -/
inductive Handshake where
  /-- In `Transport::connect`. -/
  | opening
  /-- In `write_bytes` of the CONNECT packet. -/
  | greeting
  /-- In `recv` of the CONNACK packet. -/
  | awaiting
  /-- The CONNACK was accepted; waiting for the shared state. -/
  | accepted (sessionPresent : Bool)
  /-- `connect_mqtt` returned an error. -/
  | refused
deriving DecidableEq, Repr

/-- The packets that are written to a connection. -/
inductive Packet where
  | connect
  | frame (frame : Frame)
  | reply (reply : Reply)
  | disconnect
deriving DecidableEq, Repr

/-- What is recorded of a connection. -/
inductive Wire where
  /-- A packet begins to be written. -/
  | begun (connection : ℕ) (packet : Packet)
  /-- The packet is completely written. -/
  | completed (connection : ℕ)
  /-- A successful CONNACK was received. -/
  | connAck (connection : ℕ)
  /-- `connect_mqtt` calls `recv`: whether the receiving state is clean. -/
  | firstRecv (connection : ℕ) (clean : Bool)
deriving DecidableEq, Repr

/-- `ConnAckReasonCode::success`. -/
def ConnAckReasonCode.success : Protocol → ReasonCode → Bool
  | .mqttv3, code => code == 0x00
  | .mqttv5, code => code < 0x80

/-- What `connect_mqtt` makes of the packet that it receives. -/
def Handshake.result (config : CrateConfig) : Except StateError ReceivedPacket → Handshake
  | .ok (.connAck packet) =>
      if ConnAckReasonCode.success config.protocol packet.reasonCode then
        .accepted packet.sessionPresent
      else .refused
  | _ => .refused

theorem Handshake.result_cases (config : CrateConfig) (result : Except StateError ReceivedPacket) :
    (∃ sessionPresent, Handshake.result config result = .accepted sessionPresent) ∨
      Handshake.result config result = .refused := by
  unfold Handshake.result
  split
  · split
    · exact .inl ⟨_, rfl⟩
    · exact .inr rfl
  · exact .inr rfl

/-- Whether an action is one of the client's. -/
def Action.isClient : Action → Bool
  | .send _ | .lock _ | .grant _ _ | .commit _ | .waitTx _ | .waitAck _ | .waitRel _
  | .waitStatus _ _ | .drop _ _ | .dropSubscription _ => true
  | _ => false

/-- Whether an action writes to the socket, or follows a write. -/
def Action.isWrite : Action → Bool
  | .read | .written | .flushed | .transmitted | .writeFails | .keepAlive | .replied => true
  | _ => false

/-- A stack and its transport. -/
structure Link (T : Type) (config : CrateConfig) where
  world : World config
  transport : T
  /-- The progress of `connect_mqtt`, while the stack is connecting. -/
  handshake : Handshake
  reader : PacketReader config
  /-- The number of connections that were opened. -/
  opened : ℕ
  log : List Wire

/-- What happens to a link. -/
inductive LinkAction (T : Type) where
  /-- `run` finds that the transport is not connected. -/
  | connect
  /-- The transport has connected. -/
  | opened
  /-- The CONNECT packet is written. -/
  | greeted
  /-- The first `recv` on a connection returns. -/
  | recvConnAck (socket : Socket)
  /-- `run` stores that the client is connected. -/
  | connected
  /-- An attempt to connect fails or times out. -/
  | connectFails
  /-- A `recv` has read some bytes and waits. -/
  | pending (socket : Socket) (iterations : ℕ)
  /-- The `recv` of `select` returns. -/
  | receive (socket : Socket) (payload : Payload)
  | client (action : Action)
  | write (action : Action)
  /-- `Transport::socket` fails before `select`. -/
  | socketFails
  /-- `run` finds that the transport is not connected any more. -/
  | lost
  | drifts (transport : T)
  /-- `Transport::disconnect` and `MqttStack::reset` after an error. -/
  | reset
  /-- The future of `run` is dropped, and `run` is called again. -/
  | dropRun
  /-- `MqttStack::disconnect`, while `run` is not running; its write may fail. -/
  | disconnect (written : Bool)

namespace Link

variable {T : Type} [Transport T] {config : CrateConfig}

/-- A new stack on a transport. -/
def new (config : CrateConfig) (transport : T) : Link T config where
  world := { World.new config with
    stack := if Transport.isConnected transport then .idle else .disconnected }
  transport := transport
  handshake := .opening
  reader := PacketReader.new config
  opened := 0
  log := []

variable (link : Link T config)

/-- The stack is at some point of `connect_mqtt`. -/
def Connects (handshake : Handshake) : Prop :=
  link.world.stack = .connecting ∧ link.handshake = handshake

instance (handshake : Handshake) : Decidable (link.Connects handshake) :=
  inferInstanceAs (Decidable (_ ∧ _))

/-- The reader holds no bytes with which the next packet would start, and no PINGRESP is awaited. -/
def clean : Bool := link.reader.start.buf.isEmpty && !link.world.awaitingPingresp

/-- What is recorded when the stack goes from one phase to another. -/
def observed (connection : ℕ) : StackPhase → StackPhase → List Wire
  | .idle, .writing frame => [.begun connection (.frame frame)]
  | .idle, .replying reply => [.begun connection (.reply reply)]
  | .writing _, .flushing _ => [.completed connection]
  | .replying _, .idle => [.completed connection]
  | _, _ => []

/-- The stack goes on, and what it writes is recorded. -/
def goOn (connection : ℕ) (world : World config) : Link T config :=
  { link with
    world := world
    log := observed connection link.world.stack world.stack ++ link.log }

/-- The transport has connected. -/
def connectTransport : Link T config :=
  let transport := Transport.connect link.transport link.opened
  match Transport.socket transport with
  | some connection =>
      { link with
        transport := transport
        handshake := .greeting
        opened := link.opened + 1
        log := .begun connection .connect :: link.log }
  | none => { link with transport := transport, handshake := .refused, opened := link.opened + 1 }

/-- The first packet was received. -/
def recvConnAck (connection : ℕ) (result : Except StateError ReceivedPacket)
    (reader : PacketReader config) : Link T config :=
  let handshake := Handshake.result config result
  { link with
    handshake := handshake
    reader := reader
    log :=
      match handshake with
      | .accepted _ => .connAck connection :: link.log
      | _ => link.log }

/-- The transport as the future of `run` leaves it: after an error it is disconnected first. -/
def dropped : T :=
  if link.world.stack = .failing then Transport.disconnect link.transport else link.transport

/-- `MqttStack::disconnect` after its packet was written; the packet reader and `awaiting_pingresp`
are left as they are. -/
def disconnect (connection : ℕ) (world : World config) : Link T config :=
  let transport := Transport.disconnect link.transport
  { link with
    world := { world with
      stack := if Transport.isConnected transport then .idle else .disconnected }
    transport := transport
    log := .completed connection :: .begun connection .disconnect :: link.log }

end Link

variable {T : Type} [Transport T] {config : CrateConfig}

/-- One action of a link. -/
def linkStep (link : Link T config) : LinkAction T → Option (Link T config)
  | .connect =>
      if Transport.isConnected link.transport then none
      else (step link.world .connect).map fun world =>
        { link with world := world, handshake := .opening }
  | .opened => if link.Connects .opening then some link.connectTransport else none
  | .greeted => do
      let connection ← Transport.socket link.transport
      if link.Connects .greeting then
        some { link with
          handshake := .awaiting
          log := .firstRecv connection link.clean :: .completed connection :: link.log }
      else none
  | .recvConnAck socket => do
      let connection ← Transport.socket link.transport
      if link.Connects .awaiting then
        match link.reader.recv socket with
        | .returned result reader _ => some (link.recvConnAck connection result reader)
        | _ => none
      else none
  | .connected =>
      match link.handshake with
      | .accepted sessionPresent =>
          (step link.world (.connected sessionPresent)).map fun world =>
            { link with world := world }
      | _ => none
  | .connectFails =>
      match link.handshake with
      | .accepted _ => none
      | _ =>
          (step link.world .connectFails).map fun world =>
            { link with world := world, transport := Transport.disconnect link.transport }
  | .pending socket iterations =>
      if link.Connects .awaiting ∨ link.world.stack = .idle then
        (link.reader.dropAfter socket iterations).map fun after => { link with reader := after.1 }
      else none
  | .receive socket payload => do
      let connection ← Transport.socket link.transport
      match link.reader.recv socket with
      | .returned (.ok packet) reader _ =>
          (step link.world (.receive packet payload)).map fun world =>
            { link.goOn connection world with reader := reader }
      | .returned (.error error) reader _ =>
          (step link.world (.receiveFails error)).map fun world =>
            { link.goOn connection world with reader := reader }
      | _ => none
  | .client action =>
      if action.isClient then
        (step link.world action).map fun world => { link with world := world }
      else none
  | .write action => do
      let connection ← Transport.socket link.transport
      if action.isWrite then (step link.world action).map (link.goOn connection) else none
  | .socketFails =>
      match Transport.socket link.transport with
      | some _ => none
      | none =>
          (step link.world (.receiveFails (.io .notConnected))).map fun world =>
            { link with world := world }
  | .lost =>
      if Transport.isConnected link.transport then none
      else (step link.world .lost).map fun world => { link with world := world }
  | .drifts transport =>
      if (link.world.stack = .idle ∨ link.world.stack = .disconnected) ∧
          Transport.drifts link.transport transport then
        some { link with transport := transport }
      else none
  | .reset =>
      let transport := Transport.disconnect link.transport
      (step link.world (.reset (Transport.isConnected transport))).map fun world =>
        { link with world := world, transport := transport, reader := link.reader.reset }
  | .dropRun =>
      if link.Connects .refused then none
      else
        (step link.world (.dropRun (Transport.isConnected link.dropped))).map fun world =>
          { link with
            world := { world with
              awaitingPingresp := world.awaitingPingresp && link.world.stack != .failing }
            transport := link.dropped }
  | .disconnect written => do
      let connection ← Transport.socket link.transport
      let world ← step link.world .disconnect
      some (if written then link.disconnect connection world
        else { link with log := .begun connection .disconnect :: link.log })

/-- A run of a new stack on a transport. -/
abbrev linkRun (config : CrateConfig) (transport : T) (actions : List (LinkAction T)) :
    Option (Link T config) :=
  Execution.run linkStep (Link.new config transport) actions

/-- The stack is past the handshake: in `select`, or at the end of it. -/
def StackPhase.selecting : StackPhase → Bool
  | .disconnected | .connecting => false
  | _ => true

section Phases

variable {world next : World config} {action : Action}

theorem stack_of_isClient (isClient : action.isClient = true)
    (stepped : step world action = some next) :
    next.stack = world.stack ∧ next.awaitingPingresp = world.awaitingPingresp := by
  cases (transition_of_step stepped).2 with
  | send packet =>
      unfold World.send
      split <;> exact ⟨rfl, rfl⟩
  | grant result => cases result <;> exact ⟨rfl, rfl⟩
  | commit =>
      unfold World.commit
      split <;> exact ⟨rfl, rfl⟩
  | waitStatus =>
      unfold World.finishStatus
      split <;> exact ⟨rfl, rfl⟩
  | drop =>
      unfold World.drop
      split <;> exact ⟨rfl, rfl⟩
  | dropSubscription drop =>
      unfold World.dropSubscription
      dsimp only
      split <;> exact ⟨rfl, rfl⟩
  | lock | waitTx | waitAck | waitRel => exact ⟨rfl, rfl⟩
  | _ => simp [Action.isClient] at isClient

/-- A write begins and ends within `select`. -/
theorem selecting_of_isWrite (isWrite : action.isWrite = true)
    (stepped : step world action = some next) :
    world.stack.selecting = true ∧ next.stack.selecting = true := by
  cases (transition_of_step stepped).2 with
  | read phase => simp [phase, StackPhase.selecting]
  | written phase => simp [phase, StackPhase.selecting, World.written]
  | flushed phase => simp [phase, StackPhase.selecting]
  | transmitted phase => simp [phase, StackPhase.selecting, World.transmitted]
  | writeFails =>
      simp only [step] at stepped
      split at stepped
      · simp at stepped
      · split at stepped
        · rename_i phase
          simp [phase, StackPhase.selecting]
        · rename_i phase
          simp [phase, StackPhase.selecting]
        · rename_i phase
          simp [phase, StackPhase.selecting]
        · simp at stepped
  | keepAlive phase =>
      unfold World.keepAlive
      split <;> simp [phase, StackPhase.selecting]
  | replied =>
      simp only [step] at stepped
      split at stepped
      · simp at stepped
      · split at stepped
        · rename_i phase
          simp [phase, StackPhase.selecting]
        · simp at stepped
  | _ => simp [Action.isWrite] at isWrite

theorem selecting_of_receive {packet : ReceivedPacket} {payload : Payload}
    (stepped : step world (.receive packet payload) = some next) :
    world.stack = .idle ∧ next.stack.selecting = true := by
  cases (transition_of_step stepped).2 with
  | receive payload phase =>
      refine ⟨phase, ?_⟩
      unfold World.receive
      dsimp only
      split
      · rename_i shared reply handled
        cases reply <;> rfl
      · rfl
      · simp only [phase, StackPhase.selecting]

theorem selecting_of_receiveFails {error : StateError}
    (stepped : step world (.receiveFails error) = some next) :
    world.stack = .idle ∧ next.stack.selecting = true := by
  cases (transition_of_step stepped).2 with
  | receiveFails error phase =>
      refine ⟨phase, ?_⟩
      cases error with
      | io kind => rfl
      | _ => simp only [World.receiveFails, phase, StackPhase.selecting]

end Phases

namespace Link

/-- The steps of a link. -/
inductive Transition (link : Link T config) : LinkAction T → Link T config → Prop where
  | connect {world : World config} (isLost : Transport.isConnected link.transport = false)
      (stepped : step link.world .connect = some world) :
      Transition link .connect { link with world := world, handshake := .opening }
  | opened (phase : link.Connects .opening) : Transition link .opened link.connectTransport
  | greeted {connection : ℕ} (socket : Transport.socket link.transport = some connection)
      (phase : link.Connects .greeting) :
      Transition link .greeted { link with
        handshake := .awaiting
        log := .firstRecv connection link.clean :: .completed connection :: link.log }
  | recvConnAck {connection : ℕ} {received rest : Socket} {reader : PacketReader config}
      {result : Except StateError ReceivedPacket}
      (socket : Transport.socket link.transport = some connection)
      (phase : link.Connects .awaiting)
      (returned : link.reader.recv received = .returned result reader rest) :
      Transition link (.recvConnAck received) (link.recvConnAck connection result reader)
  | connected {sessionPresent : Bool} {world : World config}
      (accepted : link.handshake = .accepted sessionPresent)
      (stepped : step link.world (.connected sessionPresent) = some world) :
      Transition link .connected { link with world := world }
  | connectFails {world : World config}
      (notAccepted : ∀ sessionPresent, link.handshake ≠ .accepted sessionPresent)
      (stepped : step link.world .connectFails = some world) :
      Transition link .connectFails
        { link with world := world, transport := Transport.disconnect link.transport }
  | pending {received : Socket} {iterations : ℕ} {after : PacketReader config × Socket}
      (phase : link.Connects .awaiting ∨ link.world.stack = .idle)
      (dropped : link.reader.dropAfter received iterations = some after) :
      Transition link (.pending received iterations) { link with reader := after.1 }
  | receive {connection : ℕ} {received rest : Socket} {packet : ReceivedPacket}
      {payload : Payload} {reader : PacketReader config} {world : World config}
      (socket : Transport.socket link.transport = some connection)
      (returned : link.reader.recv received = .returned (.ok packet) reader rest)
      (stepped : step link.world (.receive packet payload) = some world) :
      Transition link (.receive received payload)
        { link.goOn connection world with reader := reader }
  | receiveFails {connection : ℕ} {received rest : Socket} {error : StateError}
      {payload : Payload} {reader : PacketReader config} {world : World config}
      (socket : Transport.socket link.transport = some connection)
      (returned : link.reader.recv received = .returned (.error error) reader rest)
      (stepped : step link.world (.receiveFails error) = some world) :
      Transition link (.receive received payload)
        { link.goOn connection world with reader := reader }
  | client {action : Action} {world : World config} (isClient : action.isClient = true)
      (stepped : step link.world action = some world) :
      Transition link (.client action) { link with world := world }
  | write {connection : ℕ} {action : Action} {world : World config}
      (socket : Transport.socket link.transport = some connection)
      (isWrite : action.isWrite = true) (stepped : step link.world action = some world) :
      Transition link (.write action) (link.goOn connection world)
  | socketFails {world : World config} (noSocket : Transport.socket link.transport = none)
      (stepped : step link.world (.receiveFails (.io .notConnected)) = some world) :
      Transition link .socketFails { link with world := world }
  | lost {world : World config} (isLost : Transport.isConnected link.transport = false)
      (stepped : step link.world .lost = some world) :
      Transition link .lost { link with world := world }
  | drifts {transport : T} (phase : link.world.stack = .idle ∨ link.world.stack = .disconnected)
      (drifts : Transport.drifts link.transport transport = true) :
      Transition link (.drifts transport) { link with transport := transport }
  | reset {world : World config}
      (stepped : step link.world
        (.reset (Transport.isConnected (Transport.disconnect link.transport))) = some world) :
      Transition link .reset
        { link with
          world := world
          transport := Transport.disconnect link.transport
          reader := link.reader.reset }
  | dropRun {world : World config} (notRefused : ¬link.Connects .refused)
      (stepped : step link.world (.dropRun (Transport.isConnected link.dropped)) = some world) :
      Transition link .dropRun
        { link with
          world := { world with
            awaitingPingresp := world.awaitingPingresp && link.world.stack != .failing }
          transport := link.dropped }
  | disconnect {connection : ℕ} {world : World config}
      (socket : Transport.socket link.transport = some connection)
      (stepped : step link.world .disconnect = some world) :
      Transition link (.disconnect true) (link.disconnect connection world)
  | disconnectFails {connection : ℕ} {world : World config}
      (socket : Transport.socket link.transport = some connection)
      (stepped : step link.world .disconnect = some world) :
      Transition link (.disconnect false)
        { link with log := .begun connection .disconnect :: link.log }

theorem transition_of_linkStep {link next : Link T config} {action : LinkAction T}
    (stepped : linkStep link action = some next) : link.Transition action next := by
  cases action with
  | connect =>
      simp only [linkStep, Option.ite_none_left_eq_some, Option.map_eq_some_iff,
        Bool.not_eq_true] at stepped
      rcases stepped with ⟨isLost, world, stepped, rfl⟩
      exact .connect isLost stepped
  | opened =>
      simp only [linkStep, Option.ite_none_right_eq_some, Option.some.injEq] at stepped
      rcases stepped with ⟨phase, rfl⟩
      exact .opened phase
  | greeted =>
      simp only [linkStep, Option.bind_eq_bind, Option.bind_eq_some_iff,
        Option.ite_none_right_eq_some, Option.some.injEq] at stepped
      rcases stepped with ⟨connection, socket, phase, rfl⟩
      exact .greeted socket phase
  | recvConnAck received =>
      simp only [linkStep, Option.bind_eq_bind, Option.bind_eq_some_iff,
        Option.ite_none_right_eq_some] at stepped
      rcases stepped with ⟨connection, socket, phase, stepped⟩
      split at stepped
      · rename_i result reader rest returned
        rcases Option.some.inj stepped with rfl
        exact .recvConnAck socket phase returned
      · simp at stepped
  | connected =>
      simp only [linkStep] at stepped
      split at stepped
      · rename_i sessionPresent accepted
        rcases Option.map_eq_some_iff.mp stepped with ⟨world, inner, rfl⟩
        exact .connected accepted inner
      · simp at stepped
  | connectFails =>
      simp only [linkStep] at stepped
      split at stepped
      · simp at stepped
      · rename_i notAccepted
        rcases Option.map_eq_some_iff.mp stepped with ⟨world, inner, rfl⟩
        exact .connectFails notAccepted inner
  | pending received iterations =>
      simp only [linkStep, Option.ite_none_right_eq_some, Option.map_eq_some_iff] at stepped
      rcases stepped with ⟨phase, after, dropped, rfl⟩
      exact .pending phase dropped
  | receive received payload =>
      simp only [linkStep, Option.bind_eq_bind, Option.bind_eq_some_iff] at stepped
      rcases stepped with ⟨connection, socket, stepped⟩
      split at stepped
      · rename_i packet reader rest returned
        rcases Option.map_eq_some_iff.mp stepped with ⟨world, inner, rfl⟩
        exact .receive socket returned inner
      · rename_i error reader rest returned
        rcases Option.map_eq_some_iff.mp stepped with ⟨world, inner, rfl⟩
        exact .receiveFails socket returned inner
      · simp at stepped
  | client action =>
      simp only [linkStep, Option.ite_none_right_eq_some, Option.map_eq_some_iff] at stepped
      rcases stepped with ⟨isClient, world, stepped, rfl⟩
      exact .client isClient stepped
  | write action =>
      simp only [linkStep, Option.bind_eq_bind, Option.bind_eq_some_iff,
        Option.ite_none_right_eq_some, Option.map_eq_some_iff] at stepped
      rcases stepped with ⟨connection, socket, isWrite, world, stepped, rfl⟩
      exact .write socket isWrite stepped
  | socketFails =>
      simp only [linkStep] at stepped
      split at stepped
      · simp at stepped
      · rename_i noSocket
        rcases Option.map_eq_some_iff.mp stepped with ⟨world, inner, rfl⟩
        exact .socketFails noSocket inner
  | lost =>
      simp only [linkStep, Option.ite_none_left_eq_some, Option.map_eq_some_iff,
        Bool.not_eq_true] at stepped
      rcases stepped with ⟨isLost, world, stepped, rfl⟩
      exact .lost isLost stepped
  | drifts transport =>
      simp only [linkStep, Option.ite_none_right_eq_some, Option.some.injEq] at stepped
      rcases stepped with ⟨⟨phase, drifts⟩, rfl⟩
      exact .drifts phase drifts
  | reset =>
      rcases Option.map_eq_some_iff.mp stepped with ⟨world, inner, rfl⟩
      exact .reset inner
  | dropRun =>
      simp only [linkStep, Option.ite_none_left_eq_some, Option.map_eq_some_iff] at stepped
      rcases stepped with ⟨notRefused, world, stepped, rfl⟩
      exact .dropRun notRefused stepped
  | disconnect written =>
      simp only [linkStep, Option.bind_eq_bind, Option.bind_eq_some_iff,
        Option.some.injEq] at stepped
      rcases stepped with ⟨connection, socket, world, stepped, rfl⟩
      cases written with
      | true => exact .disconnect socket stepped
      | false => exact .disconnectFails socket stepped

end Link

end Mqttrust.System
