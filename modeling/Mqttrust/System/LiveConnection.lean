import Mqttrust.System.Pipeline

/-!
# The live connection

The stack writes to the connection of its transport, from the handshake on. After
an error, or when the handshake fails, it disconnects the transport; if that closes
the connection, the next one is a new one.
-/

namespace Mqttrust.System

/-- A transport whose `disconnect` closes its connection. The other laws are what the names of the
connections mean. -/
class ClosingTransport (T : Type) [Transport T] : Prop where
  isConnected_disconnect (transport : T) :
    Transport.isConnected (Transport.disconnect transport) = false
  /-- `connect` opens a new connection. -/
  socket_connect {transport : T} {next connection : ℕ} :
    Transport.socket (Transport.connect transport next) = some connection → connection = next
  /-- By itself a transport can only lose its connection. -/
  socket_drifts {transport later : T} {connection : ℕ} :
    Transport.drifts transport later = true → Transport.socket later = some connection →
      Transport.socket transport = some connection

instance : ClosingTransport NalTransport where
  isConnected_disconnect _ := rfl
  socket_connect socket := (Option.some.inj socket).symm
  socket_drifts drifts := by simp [Transport.drifts] at drifts

/-- Whether `select` may hold a read grant. -/
def StackPhase.reads : StackPhase → Bool
  | .idle | .writing _ | .flushing _ | .transmitting _ => true
  | _ => false

/-- The calls that may queue a frame. -/
def Action.queues : Action → Bool
  | .commit _ | .dropSubscription _ => true
  | _ => false

/-- The actions behind which nothing is written but what was written before. -/
def LinkAction.isQuiet {T : Type} : LinkAction T → Bool
  | .connect | .recvConnAck _ | .connected | .pending _ _ | .socketFails | .lost | .drifts _
  | .reset | .write .flushed | .write .transmitted => true
  | _ => false

namespace World

variable {config : CrateConfig} (world : World config)

theorem frames_receive (packet : ReceivedPacket) (payload : Payload) :
    (world.receive packet payload).frames = world.frames := by
  unfold receive
  dsimp only
  split <;> rfl

theorem frames_receiveFails (error : StateError) :
    (world.receiveFails error).frames = world.frames := by
  cases error <;> rfl

theorem frames_keepAlive : world.keepAlive.frames = world.frames := by
  unfold keepAlive
  split <;> rfl

end World

namespace Link

variable {T : Type} [Transport T] {config : CrateConfig}

/-- The connection to which the stack writes, now or later. -/
def live (link : Link T config) : Option ℕ :=
  match link.world.stack with
  | .disconnected | .failing => none
  | .connecting =>
      match link.handshake with
      | .opening | .refused => none
      | .greeting | .awaiting | .accepted _ => Transport.socket link.transport
  | .idle | .writing _ | .flushing _ | .transmitting _ | .replying _ =>
      Transport.socket link.transport

variable {link next : Link T config}

theorem live_of_writes (writing : link.writes = true) :
    link.live = Transport.socket link.transport := by
  unfold writes at writing
  unfold live
  split at writing
  · rename_i phase
    rw [phase, of_decide_eq_true writing]
  · rename_i phase
    rw [phase]
  · rename_i phase
    rw [phase]
  · simp at writing

/-- Nothing is written before or after; the connection may be lost. -/
structure Quiet (link next : Link T config) : Prop where
  opened : next.opened = link.opened
  frames : next.world.frames = link.world.frames
  before : link.writes = false
  after : next.writes = false
  live : next.live = link.live ∨ next.live = none

/-- A packet begins to be written. -/
structure Starts (link : Link T config) (connection : ℕ) (next : Link T config) : Prop where
  opened : next.opened = link.opened
  before : link.writes = false
  after : next.writes = true
  live : link.live = some connection
  same : next.live = some connection

/-- A packet is completely written. -/
structure Ends (link next : Link T config) : Prop where
  opened : next.opened = link.opened
  frames : next.world.frames = link.world.frames
  before : link.writes = true
  after : next.writes = false
  live : next.live = link.live

/-- The connection is given up. -/
structure GivesUp (link next : Link T config) : Prop where
  opened : next.opened = link.opened
  frames : next.world.frames = link.world.frames
  after : next.writes = false
  live : next.live = none

theorem wire_of_isClient {action : Action} (stepped : linkStep link (.client action) = some next) :
    next.opened = link.opened ∧ next.writes = link.writes ∧ next.live = link.live ∧
      next.world.stack = link.world.stack := by
  cases transition_of_linkStep stepped with
  | client isClient inner =>
      have same := (stack_of_isClient isClient inner).1
      refine ⟨rfl, ?_, ?_, same⟩
      · simp only [writes, same]
      · simp only [live, same]

theorem frames_of_isClient {action : Action} (stepped : linkStep link (.client action) = some next)
    (notQueues : action.queues = false) : next.world.frames = link.world.frames := by
  cases transition_of_linkStep stepped with
  | client isClient inner =>
      cases (transition_of_step inner).2 with
      | send packet =>
          unfold World.send
          split <;> rfl
      | grant result => cases result <;> rfl
      | waitStatus =>
          unfold World.finishStatus
          split <;> rfl
      | drop =>
          unfold World.drop
          split <;> rfl
      | lock | waitTx | waitAck | waitRel => rfl
      | commit | dropSubscription => simp [Action.queues] at notQueues
      | _ => simp [Action.isClient] at isClient

/-- A commit queues a frame when the identifier was inserted. -/
theorem frames_of_commit {handle : ℕ} {call : Call}
    (stepped : linkStep link (.client (.commit handle)) = some next)
    (live : link.world.calls.get? handle = some call) :
    next.world.frames.length = link.world.frames.length +
      match link.world.shared.register call.packet call.pid with
      | .done _ => 1
      | _ => 0 := by
  cases transition_of_linkStep stepped with
  | client isClient inner =>
      cases (transition_of_step inner).2 with
      | commit live' phase =>
          rcases Option.some.inj (live.symm.trans live')
          unfold World.commit
          split
          · rename_i shared registered
            simp [registered]
          · rename_i shared registered
            simp [registered, World.setPhase]
          · rename_i place registered
            simp [registered]

theorem frames_of_dropSubscription {drop : SubscriptionDrop}
    (stepped : linkStep link (.client (.dropSubscription drop)) = some next) :
    next.world.frames.length = link.world.frames.length +
      if link.world.txPublisher = none ∧ drop.granted ∧ drop.encoded then 1 else 0 := by
  cases transition_of_linkStep stepped with
  | client isClient inner =>
      cases (transition_of_step inner).2 with
      | dropSubscription drop =>
          by_cases granted : link.world.txPublisher = none ∧ drop.granted = true
          · rcases encoded : drop.encoded with _ | _
            · simp [World.dropSubscription, granted, encoded]
            · simp [World.dropSubscription, granted, encoded]
          · have refused : ¬(link.world.txPublisher = none ∧ drop.granted ∧ drop.encoded) :=
              fun all => granted ⟨all.1, all.2.1⟩
            simp only [World.dropSubscription, if_neg granted, if_neg refused, Nat.add_zero]

theorem quiet_of_linkStep [ClosingTransport T] {action : LinkAction T}
    (isQuiet : action.isQuiet = true) (stepped : linkStep link action = some next) :
    link.Quiet next ∧
      (link.world.stack.reads = true → link.world.stack = .idle ∨ next.world.stack.reads = true) := by
  cases transition_of_linkStep stepped with
  | connect isLost inner =>
      cases (transition_of_step inner).2 with
      | connect phase =>
          refine ⟨⟨rfl, rfl, by simp [writes, phase], by simp [writes, World.connect], ?_⟩, ?_⟩
          · simp [live, World.connect]
          · simp [phase, StackPhase.reads]
  | @recvConnAck connection received rest reader result socket phase returned =>
      rcases phase with ⟨phase, handshake⟩
      refine ⟨⟨rfl, rfl, by simp [writes, phase, handshake], ?_, ?_⟩, by simp [phase, StackPhase.reads]⟩
      · rcases Handshake.result_cases config result with ⟨sessionPresent, accepted⟩ | refused
        · simp [writes, Link.recvConnAck, phase, accepted]
        · simp [writes, Link.recvConnAck, phase, refused]
      · rcases Handshake.result_cases config result with ⟨sessionPresent, accepted⟩ | refused
        · simp [live, Link.recvConnAck, phase, handshake, accepted]
        · simp [live, Link.recvConnAck, phase, refused]
  | connected accepted inner =>
      cases (transition_of_step inner).2 with
      | connected sessionPresent phase =>
          refine ⟨⟨rfl, rfl, by simp [writes, phase, accepted], by simp [writes, World.connected], ?_⟩,
            by simp [phase, StackPhase.reads]⟩
          simp [live, World.connected, phase, accepted]
  | pending phase dropped =>
      rcases phase with ⟨phase, handshake⟩ | phase
      · exact ⟨⟨rfl, rfl, by simp [writes, phase, handshake], by simp [writes, phase, handshake],
          .inl rfl⟩, by simp [phase, StackPhase.reads]⟩
      · exact ⟨⟨rfl, rfl, by simp [writes, phase], by simp [writes, phase], .inl rfl⟩,
          fun _ => .inl phase⟩
  | socketFails noSocket inner =>
      cases (transition_of_step inner).2 with
      | receiveFails error phase =>
          exact ⟨⟨rfl, rfl, by simp [writes, phase], by simp [writes, World.receiveFails],
            .inr (by simp [live, World.receiveFails])⟩, fun _ => .inl phase⟩
  | lost isLost inner =>
      cases (transition_of_step inner).2 with
      | lost phase =>
          exact ⟨⟨rfl, rfl, by simp [writes, phase], by simp [writes], .inr (by simp [live])⟩,
            fun _ => .inl phase⟩
  | @drifts later phase drifts =>
      rcases phase with phase | phase
      · refine ⟨⟨rfl, rfl, by simp [writes, phase], by simp [writes, phase], ?_⟩, fun _ => .inl phase⟩
        simp only [live, phase]
        rcases socket : Transport.socket later with _ | connection
        · exact .inr rfl
        · exact .inl (ClosingTransport.socket_drifts drifts socket).symm
      · exact ⟨⟨rfl, rfl, by simp [writes, phase], by simp [writes, phase],
          .inr (by simp [live, phase])⟩, by simp [phase, StackPhase.reads]⟩
  | reset inner =>
      cases (transition_of_step inner).2 with
      | reset isConnected phase =>
          have closed := ClosingTransport.isConnected_disconnect link.transport
          exact ⟨⟨rfl, rfl, by simp [writes, phase], by simp [writes, World.reset, World.resetShared, closed],
            .inr (by simp [live, World.reset, World.resetShared, closed])⟩,
            by simp [phase, StackPhase.reads]⟩
  | write socket isWrite inner =>
      cases (transition_of_step inner).2 with
      | flushed phase =>
          refine ⟨⟨rfl, rfl, by simp [writes, phase], by simp [writes, goOn], .inl ?_⟩,
            fun _ => .inr rfl⟩
          simp [live, goOn, phase]
      | transmitted phase =>
          refine ⟨⟨rfl, rfl, by simp [writes, phase], by simp [writes, goOn, World.transmitted], .inl ?_⟩,
            fun _ => .inr rfl⟩
          simp [live, goOn, World.transmitted, phase]
      | _ => simp [LinkAction.isQuiet] at isQuiet
  | _ => simp [LinkAction.isQuiet] at isQuiet

/-- `connect` opens the next connection, or none. -/
theorem connecting_of_opened [ClosingTransport T] (stepped : linkStep link .opened = some next) :
    link.world.stack = .connecting ∧ link.writes = false ∧ next.world.stack = .connecting ∧
      next.opened = link.opened + 1 ∧ next.world.frames = link.world.frames ∧
      (Transport.socket next.transport = some link.opened ∧ next.handshake = .greeting ∨
        Transport.socket next.transport = none ∧ next.handshake = .refused) := by
  cases transition_of_linkStep stepped with
  | opened phase =>
      rcases phase with ⟨phase, handshake⟩
      refine ⟨phase, by simp [writes, phase, handshake], ?_⟩
      unfold connectTransport
      dsimp only
      split
      · rename_i connection socket
        have isNext := ClosingTransport.socket_connect socket
        exact ⟨phase, rfl, rfl, .inl ⟨isNext ▸ socket, rfl⟩⟩
      · rename_i socket
        exact ⟨phase, rfl, rfl, .inr ⟨socket, rfl⟩⟩

theorem ends_of_greeted (stepped : linkStep link .greeted = some next) :
    link.Ends next ∧ link.world.stack = .connecting := by
  cases transition_of_linkStep stepped with
  | greeted socket phase =>
      rcases phase with ⟨phase, handshake⟩
      refine ⟨⟨rfl, rfl, by simp [writes, phase, handshake], by simp [writes, phase], ?_⟩, phase⟩
      simp [live, phase, handshake]

theorem ends_of_written (stepped : linkStep link (.write .written) = some next) :
    link.Ends next ∧ next.world.stack.reads = true := by
  cases transition_of_linkStep stepped with
  | write socket isWrite inner =>
      cases (transition_of_step inner).2 with
      | written phase =>
          refine ⟨⟨rfl, rfl, by simp [writes, phase], by simp [writes, goOn, World.written], ?_⟩, rfl⟩
          simp [live, goOn, World.written, phase]

theorem ends_of_replied (stepped : linkStep link (.write .replied) = some next) :
    link.Ends next ∧ next.world.stack.reads = true := by
  cases transition_of_linkStep stepped with
  | write socket isWrite inner =>
      have phase : ∃ reply, link.world.stack = .replying reply := by
        simp only [step] at inner
        split at inner
        · simp at inner
        · split at inner
          · exact ⟨_, ‹_›⟩
          · simp at inner
      rcases phase with ⟨reply, phase⟩
      cases (transition_of_step inner).2 with
      | replied =>
          refine ⟨⟨rfl, rfl, by simp [writes, phase], by simp [writes, goOn], ?_⟩, rfl⟩
          simp [live, goOn, phase]

theorem starts_of_read (stepped : linkStep link (.write .read) = some next) :
    ∃ connection, Transport.socket link.transport = some connection ∧
      link.Starts connection next ∧ next.world.stack.reads = true ∧
      ∃ frame, link.world.frames = frame :: next.world.frames := by
  cases transition_of_linkStep stepped with
  | @write connection _ _ socket isWrite inner =>
      cases (transition_of_step inner).2 with
      | read phase first =>
          refine ⟨connection, socket, ⟨rfl, by simp [writes, phase], by simp [writes, goOn], ?_, ?_⟩,
            rfl, _, first⟩
          · simp [live, phase, socket]
          · simp [live, goOn, socket]

theorem givesUp_of_writeFails (stepped : linkStep link (.write .writeFails) = some next) :
    link.GivesUp next ∧ link.live = Transport.socket link.transport := by
  cases transition_of_linkStep stepped with
  | write socket isWrite inner =>
      have isLive : link.live = Transport.socket link.transport := by
        simp only [step] at inner
        split at inner
        · simp at inner
        · split at inner
          · rename_i phase
            simp [live, phase]
          · rename_i phase
            simp [live, phase]
          · rename_i phase
            simp [live, phase]
          · simp at inner
      cases (transition_of_step inner).2 with
      | writeFails => exact ⟨⟨rfl, rfl, by simp [writes, goOn], by simp [live, goOn]⟩, isLive⟩

theorem givesUp_of_connectFails (stepped : linkStep link .connectFails = some next) :
    link.GivesUp next ∧ link.world.stack = .connecting := by
  cases transition_of_linkStep stepped with
  | connectFails notAccepted inner =>
      cases (transition_of_step inner).2 with
      | connectFails phase => exact ⟨⟨rfl, rfl, by simp [writes], by simp [live]⟩, phase⟩

/-- Behind a received packet or the keep-alive timer the stack writes an answer, or nothing. -/
def Answers (link next : Link T config) : Prop :=
  (∃ connection, Transport.socket link.transport = some connection ∧
    next.transport = link.transport ∧ link.Starts connection next ∧
    next.world.frames = link.world.frames ∧ ∃ reply, next.world.stack = .replying reply) ∨
  link.Quiet next ∧ ∀ reply, next.world.stack ≠ .replying reply

theorem answers_of_stack {connection : ℕ}
    (socket : Transport.socket link.transport = some connection)
    (phase : link.world.stack = .idle) (transport : next.transport = link.transport)
    (opened : next.opened = link.opened) (frames : next.world.frames = link.world.frames)
    (stack : next.world.stack = .idle ∨ next.world.stack = .failing ∨
      ∃ reply, next.world.stack = .replying reply) : link.Answers next := by
  have before : link.writes = false := by simp [writes, phase]
  have isLive : link.live = some connection := by simp [live, phase, socket]
  rcases stack with stack | stack | ⟨reply, stack⟩
  · refine .inr ⟨⟨opened, frames, before, by simp [writes, stack], .inl ?_⟩, by simp [stack]⟩
    simp [live, stack, phase, transport]
  · exact .inr ⟨⟨opened, frames, before, by simp [writes, stack], .inr (by simp [live, stack])⟩,
      by simp [stack]⟩
  · refine .inl ⟨connection, socket, transport, ⟨opened, before, by simp [writes, stack], isLive,
      ?_⟩, frames, reply, stack⟩
    simp [live, stack, transport, socket]

theorem answers_of_receive {received : Socket} {payload : Payload}
    (stepped : linkStep link (.receive received payload) = some next) :
    link.Answers next ∧ link.world.stack = .idle := by
  cases transition_of_linkStep stepped with
  | receive socket returned inner =>
      cases (transition_of_step inner).2 with
      | receive payload phase supported =>
          refine ⟨answers_of_stack socket phase rfl rfl (World.frames_receive ..) ?_, phase⟩
          simp only [goOn, World.receive]
          split
          · rename_i shared reply handled
            cases reply with
            | none => exact .inl rfl
            | some reply => exact .inr (.inr ⟨reply, rfl⟩)
          · exact .inr (.inl rfl)
          · exact .inl phase
  | @receiveFails connection _ rest error _ reader world socket returned inner =>
      cases (transition_of_step inner).2 with
      | receiveFails error phase =>
          refine ⟨answers_of_stack socket phase rfl rfl (World.frames_receiveFails ..) ?_, phase⟩
          cases error with
          | io kind => exact .inr (.inl rfl)
          | _ => exact .inl phase

theorem answers_of_keepAlive (stepped : linkStep link (.write .keepAlive) = some next) :
    link.Answers next ∧ link.world.stack = .idle := by
  cases transition_of_linkStep stepped with
  | write socket isWrite inner =>
      cases (transition_of_step inner).2 with
      | keepAlive phase =>
          refine ⟨answers_of_stack socket phase rfl rfl (World.frames_keepAlive _) ?_, phase⟩
          simp only [goOn, World.keepAlive]
          split
          · exact .inr (.inl rfl)
          · exact .inr (.inr ⟨.pingReq, rfl⟩)

end Link

end Mqttrust.System
