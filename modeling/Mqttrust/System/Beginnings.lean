import Mqttrust.System.Answers
import Mqttrust.System.Handshake
import Mqttrust.System.RequestContents

/-!
# Which packets are begun

A step of a pipeline begins at most one packet, on the live connection. It is the
CONNECT of a new connection, or the stack is past the handshake. A connection keeps
its number until it is lost, and only the CONNACK ends its handshake.
-/

namespace Mqttrust

/-- Whether a packet is a CONNECT: the upper half of its first byte tells. -/
def isConnect : List UInt8 → Bool
  | first :: _ => first &&& 0xF0 == 0x10
  | [] => false

namespace System

section Encoding

variable {Packet : Type} [MqttEncode Packet] {config : CrateConfig} {packet : Packet}
  {bytes : List UInt8}

theorem isConnect_of_encodes (encodes : Encodes config bytes packet) :
    isConnect bytes =
      (((MqttEncode.packetType packet).toByte ||| MqttEncode.flags packet) &&& 0xF0 == 0x10) := by
  rcases encodes with ⟨buf, encoded⟩
  unfold encodePacket at encoded
  split at encoded
  · rename_i encoder written
    rcases Except.ok.inj encoded
    rcases Encode.bind_eq_ok.mp written with ⟨_, body, written, finalizes⟩
    have advanced := MqttEncode.advances config packet written
    have finalized := MqttEncoder.finalized_of_finalizeFixedHeader advanced.headerStart finalizes
    rw [MqttEncoder.intoPacketBytes, finalized.headerStart, List.drop_zero, finalized.packet]
    rfl
  · simp at encoded

end Encoding

variable {config : CrateConfig} {bytes : List UInt8}

theorem ClientPacket.not_isConnect {packet : ClientPacket} (encodes : Encodes config bytes packet) :
    isConnect bytes = false := by
  rw [isConnect_of_encodes encodes]
  cases packet with
  | publish packet =>
      change (((0x30 : UInt8) ||| (packet.qos.toByte <<< 1 ||| (if packet.dup then 0b1000 else 0) |||
        (if packet.retain then 0b0001 else 0))) &&& 0xF0 == 0x10) = false
      cases packet.qos <;> cases packet.dup <;> cases packet.retain <;> decide
  | subscribe packet =>
      exact (by decide : (((0x80 : UInt8) ||| 0b0010) &&& 0xF0 == 0x10) = false)
  | unsubscribe packet =>
      exact (by decide : (((0xA0 : UInt8) ||| 0b0010) &&& 0xF0 == 0x10) = false)

theorem Reply.not_isConnect {reply : Reply} (encodes : Encodes config bytes reply) :
    isConnect bytes = false := by
  rw [isConnect_of_encodes encodes, Reply.first_eq]
  cases reply with
  | pubAck | pubRec | pubRel | pubComp | pingReq =>
      simp only [firstByte]
      decide

theorem encodes_of_toBuffer {Packet : Type} [MqttEncode Packet] {packet : Packet}
    {buf : List UInt8} {encoder : MqttEncoder}
    (encoded : MqttEncode.toBuffer config packet (MqttEncoder.new buf) = .ok () encoder) :
    Encodes config encoder.intoPacketBytes packet := by
  refine ⟨buf, ?_⟩
  rw [encodePacket, encoded]

variable {T : Type} [Transport T]

/-- The CONNECT packet is written, or its CONNACK is awaited. -/
def Link.InHandshake (link : Link T config) : Prop :=
  link.Connects .greeting ∨ link.Connects .awaiting

namespace Link

variable {link next : Link T config}

omit [Transport T] in
theorem not_inHandshake_of_stack (phase : link.world.stack ≠ .connecting) : ¬link.InHandshake := by
  rintro (greeting | awaiting)
  · exact phase greeting.1
  · exact phase awaiting.1

omit [Transport T] in
theorem inHandshake_of_eq (handshakes : link.InHandshake)
    (stack : next.world.stack = link.world.stack) (handshake : next.handshake = link.handshake) :
    next.InHandshake := by
  unfold InHandshake Connects
  rw [stack, handshake]
  exact handshakes

theorem not_connecting_of_write {action : Action}
    (stepped : linkStep link (.write action) = some next) : link.world.stack ≠ .connecting := by
  cases transition_of_linkStep stepped with
  | write socket isWrite inner =>
      intro phase
      have selecting := (selecting_of_isWrite isWrite inner).1
      simp [phase, StackPhase.selecting] at selecting

/-- Unless `run` is dropped or the first packet is received, the handshake goes on, or the connection
is lost. -/
theorem inHandshake_or_of_linkStep {action : LinkAction T} (notDrop : action.dropsRun = false)
    (stepped : linkStep link action = some next) (handshakes : link.InHandshake) :
    next.InHandshake ∨ next.live = none ∨ ∃ socket, action = .recvConnAck socket := by
  have phase : link.world.stack = .connecting := by
    rcases handshakes with greeting | awaiting
    · exact greeting.1
    · exact awaiting.1
  have elsewhere {stack : StackPhase} (other : link.world.stack = stack)
      (differs : stack ≠ .connecting) : next.InHandshake ∨ next.live = none ∨
        ∃ socket, action = .recvConnAck socket :=
    absurd (other.symm.trans phase) differs
  have further {handshake : Handshake} (other : link.handshake = handshake)
      (greeting : handshake ≠ .greeting) (awaiting : handshake ≠ .awaiting) :
      next.InHandshake ∨ next.live = none ∨ ∃ socket, action = .recvConnAck socket := by
    rcases handshakes with before | before
    · exact absurd (other.symm.trans before.2) greeting
    · exact absurd (other.symm.trans before.2) awaiting
  cases transition_of_linkStep stepped with
  | connect isLost inner =>
      cases (transition_of_step inner).2 with
      | connect other => exact elsewhere other (by simp)
  | opened opening => exact further opening.2 (by simp) (by simp)
  | greeted socket greeting => exact .inl (.inr ⟨phase, rfl⟩)
  | recvConnAck socket awaiting returned => exact .inr (.inr ⟨_, rfl⟩)
  | connected accepted inner => exact further accepted (by simp) (by simp)
  | connectFails notAccepted inner =>
      cases (transition_of_step inner).2 with
      | connectFails => exact .inr (.inl (by simp [live]))
  | pending before dropped => exact .inl handshakes
  | receive socket returned inner => exact elsewhere (selecting_of_receive inner).1 (by simp)
  | receiveFails socket returned inner =>
      exact elsewhere (selecting_of_receiveFails inner).1 (by simp)
  | client isClient inner =>
      exact .inl (inHandshake_of_eq handshakes (stack_of_isClient isClient inner).1 rfl)
  | write => exact absurd phase (not_connecting_of_write stepped)
  | socketFails noSocket inner => exact elsewhere (selecting_of_receiveFails inner).1 (by simp)
  | lost isLost inner =>
      cases (transition_of_step inner).2 with
      | lost other => exact elsewhere other (by simp)
  | drifts before drifts => exact .inl handshakes
  | reset inner =>
      cases (transition_of_step inner).2 with
      | reset isConnected other => exact elsewhere other (by simp)
  | dropRun notRefused inner => simp [LinkAction.dropsRun] at notDrop
  | disconnect socket inner =>
      cases (transition_of_step inner).2 with
      | disconnect other => exact elsewhere other (by simp)
  | disconnectFails socket inner => exact .inl handshakes

end Link

namespace Pipeline

/-- Which packet a step begins, and what becomes of the live connection. -/
inductive Begins (pipeline : Pipeline T config) : PipelineAction T → Pipeline T config → Prop where
  /-- Nothing is begun; the connection may be lost. -/
  | nothing {action : PipelineAction T} {next : Pipeline T config}
      (begun : ∀ other, next.transcript.begun other = pipeline.transcript.begun other)
      (live : next.link.live = pipeline.link.live ∨ next.link.live = none)
      (handshakes : pipeline.link.InHandshake → next.link.InHandshake ∨ next.link.live = none ∨
        ∃ socket, action = .link (.recvConnAck socket)) : Begins pipeline action next
  /-- A packet behind the handshake: one of the client's, or an answer. -/
  | packet {action : PipelineAction T} {next : Pipeline T config} {connection : ℕ}
      {label : Option Pubsub.Frame} {bytes : List UInt8} (past : ¬pipeline.link.InHandshake)
      (live : pipeline.link.live = some connection) (same : next.link.live = some connection)
      (begun : ∀ other, next.transcript.begun other = pipeline.transcript.begun other ++
        if connection = other then [(label, bytes)] else [])
      (own : label = none → ∃ reply : Reply, Encodes config bytes reply) :
      Begins pipeline action next
  /-- The CONNECT of a new connection. -/
  | connect {connect : Connect} {next : Pipeline T config} {bytes : List UInt8}
      (socket : Transport.socket next.link.transport = some pipeline.link.opened)
      (handshake : next.link.Connects .greeting)
      (begun : ∀ other, next.transcript.begun other = pipeline.transcript.begun other ++
        if pipeline.link.opened = other then [(none, bytes)] else [])
      (encodes : Encodes config bytes connect) : Begins pipeline (.opened connect) next

namespace Begins

variable {pipeline next : Pipeline T config} {link : Link T config} {action : PipelineAction T}

/-- A step of the client. -/
theorem client
    (stepped : link = pipeline.link ∨ ∃ call, linkStep pipeline.link (.client call) = some link)
    (same : next.link = link) (transcript : next.transcript = pipeline.transcript) :
    Begins pipeline action next := by
  rw [← same] at stepped
  rcases stepped with unchanged | ⟨call, stepped⟩
  · exact .nothing (fun _ => by rw [transcript]) (.inl (by rw [unchanged]))
      fun handshakes => .inl (unchanged ▸ handshakes)
  · refine .nothing (fun _ => by rw [transcript]) (.inl (Link.wire_of_isClient stepped).2.2.1) ?_
    intro handshakes
    rcases Link.inHandshake_or_of_linkStep rfl stepped handshakes with goesOn | lost | ⟨socket, same⟩
    · exact .inl goesOn
    · exact .inr (.inl lost)
    · simp at same

/-- A step of the link that begins no packet. -/
theorem linked {action : LinkAction T} (notDrop : action.dropsRun = false)
    (stepped : linkStep pipeline.link action = some next.link)
    (begun : ∀ other, next.transcript.begun other = pipeline.transcript.begun other)
    (live : next.link.live = pipeline.link.live ∨ next.link.live = none) :
    Begins pipeline (.link action) next := by
  refine .nothing begun live ?_
  intro handshakes
  rcases Link.inHandshake_or_of_linkStep notDrop stepped handshakes with
    goesOn | lost | ⟨socket, rfl⟩
  · exact .inl goesOn
  · exact .inr (.inl lost)
  · exact .inr (.inr ⟨socket, rfl⟩)

/-- Outside of the handshake. -/
theorem past (phase : pipeline.link.world.stack ≠ .connecting)
    (begun : ∀ other, next.transcript.begun other = pipeline.transcript.begun other)
    (live : next.link.live = pipeline.link.live ∨ next.link.live = none) :
    Begins pipeline action next :=
  .nothing begun live fun handshakes => absurd handshakes (Link.not_inHandshake_of_stack phase)

theorem pollGrant {handle : ℕ} {packet : ClientPacket} {waker : Pubsub.Waker}
    (stepped : pipeline.pollGrant handle packet waker = some next) :
    Begins pipeline action next := by
  simp only [Pipeline.pollGrant, Option.bind_eq_bind, Option.bind_eq_some_iff,
    Option.ite_none_right_eq_some] at stepped
  rcases stepped with ⟨call, _, _, size, _, ⟨tx, acquired⟩, asked, stepped⟩
  cases acquired with
  | refused =>
      rcases Option.some.inj stepped
      exact client (.inl rfl) rfl rfl
  | encoded writer used =>
      simp only [afterGrant, Option.bind_eq_bind, Option.bind_eq_some_iff,
        Option.some.injEq] at stepped
      rcases stepped with ⟨link, stepped, rfl⟩
      exact client (.inr ⟨_, stepped⟩) rfl rfl
  | failed writer =>
      simp only [afterGrant, Option.bind_eq_bind, Option.bind_eq_some_iff,
        Option.some.injEq] at stepped
      rcases stepped with ⟨link, stepped, tx, dropped, rfl⟩
      exact client (.inr ⟨_, stepped⟩) rfl rfl

theorem afterDropGrant {pidLocked statusLocked : Bool} {tx : Pubsub.World} {acquired : Acquired}
    (stepped : pipeline.afterDropGrant pidLocked statusLocked tx acquired = some next) :
    Begins pipeline action next := by
  cases acquired with
  | refused =>
      simp only [Pipeline.afterDropGrant, Option.bind_eq_bind, Option.bind_eq_some_iff,
        Option.some.injEq] at stepped
      rcases stepped with ⟨link, stepped, rfl⟩
      exact client (.inr ⟨_, stepped⟩) rfl rfl
  | encoded writer used =>
      simp only [Pipeline.afterDropGrant, Option.bind_eq_bind, Option.bind_eq_some_iff,
        Option.some.injEq] at stepped
      rcases stepped with ⟨link, stepped, tx, committed, rfl⟩
      exact client (.inr ⟨_, stepped⟩) rfl rfl
  | failed writer =>
      simp only [Pipeline.afterDropGrant, Option.bind_eq_bind, Option.bind_eq_some_iff,
        Option.some.injEq] at stepped
      rcases stepped with ⟨link, stepped, tx, dropped, rfl⟩
      exact client (.inr ⟨_, stepped⟩) rfl rfl

theorem dropSubscription {pidLocked statusLocked : Bool} {topics : List Utf8}
    (stepped : pipeline.dropSubscription pidLocked statusLocked topics = some next) :
    Begins pipeline action next := by
  simp only [Pipeline.dropSubscription, Option.ite_none_left_eq_some] at stepped
  rcases stepped with ⟨_, stepped⟩
  split at stepped
  · exact afterDropGrant stepped
  · simp only [Option.bind_eq_bind, Option.bind_eq_some_iff] at stepped
    rcases stepped with ⟨size, _, ⟨tx, acquired⟩, asked, stepped⟩
    exact afterDropGrant stepped

theorem commit {handle : ℕ}
    (linked : linkStep pipeline.link (.client (.commit handle)) = some link)
    (stepped : pipeline.commit link handle = some next) : Begins pipeline action next := by
  simp only [Pipeline.commit, Option.bind_eq_bind, Option.bind_eq_some_iff] at stepped
  rcases stepped with ⟨call, _, ⟨writer, used⟩, _, stepped⟩
  split at stepped
  · simp only [Option.bind_eq_some_iff, Option.some.injEq] at stepped
    rcases stepped with ⟨tx, _, rfl⟩
    exact client (.inr ⟨_, linked⟩) rfl rfl
  · simp only [Option.bind_eq_some_iff, Option.some.injEq] at stepped
    rcases stepped with ⟨tx, _, rfl⟩
    exact client (.inr ⟨_, linked⟩) rfl rfl
  · rcases Option.some.inj stepped
    exact client (.inr ⟨_, linked⟩) rfl rfl

theorem drop {handle : ℕ} {contended : Bool}
    (linked : linkStep pipeline.link (.client (.drop handle contended)) = some link)
    (stepped : pipeline.drop link handle = some next) : Begins pipeline action next := by
  simp only [Pipeline.drop, Option.bind_eq_bind, Option.bind_eq_some_iff] at stepped
  rcases stepped with ⟨call, _, stepped⟩
  split at stepped
  · simp only [Option.bind_eq_some_iff, Option.some.injEq] at stepped
    rcases stepped with ⟨⟨writer, used⟩, _, tx, _, rfl⟩
    exact client (.inr ⟨_, linked⟩) rfl rfl
  · rcases Option.some.inj stepped
    exact client (.inr ⟨_, linked⟩) rfl rfl

theorem pollRead {waker : Pubsub.Waker} (stepped : pipeline.pollRead waker = some next) :
    Begins pipeline action next := by
  simp only [Pipeline.pollRead, Option.bind_eq_bind, Option.bind_eq_some_iff,
    Option.ite_none_right_eq_some] at stepped
  rcases stepped with ⟨connection, socket, ⟨phase, _⟩, tx, read, stepped⟩
  have outside : pipeline.link.world.stack ≠ .connecting := by simp [phase]
  simp only [afterRead] at stepped
  split at stepped
  · rcases Option.some.inj stepped
    exact past outside (fun _ => rfl) (.inl rfl)
  · split at stepped
    · rcases Option.some.inj stepped
      exact past outside (fun _ => rfl) (.inl rfl)
    · simp only [Option.bind_eq_bind, Option.bind_eq_some_iff, Option.some.injEq] at stepped
      rcases stepped with ⟨link, linked, rfl⟩
      rcases Link.starts_of_read linked with ⟨current, socket', starts, _⟩
      rcases Option.some.inj (socket.symm.trans socket')
      exact .packet (Link.not_inHandshake_of_stack outside) starts.live starts.same
        (Transcript.begun_begin _ _ _ _) (by simp)

theorem release {call : ℕ → Pubsub.Action} (outside : pipeline.link.world.stack ≠ .connecting)
    (live : link.live = pipeline.link.live ∨ link.live = none)
    (stepped : pipeline.release link call = some next) : Begins pipeline action next := by
  simp only [Pipeline.release, Option.bind_eq_bind, Option.bind_eq_some_iff,
    Option.some.injEq] at stepped
  rcases stepped with ⟨reader, _, tx, _, rfl⟩
  exact past outside (fun _ => rfl) live

theorem skip (stepped : pipeline.skip = some next) : Begins pipeline action next := by
  simp only [Pipeline.skip, Option.bind_eq_bind, Option.bind_eq_some_iff,
    Option.ite_none_right_eq_some] at stepped
  rcases stepped with ⟨reader, _, grant, _, phase, stepped⟩
  refine release ?_ ?_ stepped
  · simp [phase]
  · exact .inl rfl

theorem skipFails (stepped : pipeline.skipFails = some next) : Begins pipeline action next := by
  simp only [Pipeline.skipFails, Option.bind_eq_bind, Option.bind_eq_some_iff] at stepped
  rcases stepped with ⟨world, failed, stepped⟩
  cases (transition_of_step failed).2 with
  | receiveFails error phase => exact release (by simp [phase]) (.inr rfl) stepped

theorem opened [ClosingTransport T] {connect : Connect}
    (stepped : pipeline.opened connect = some next) : Begins pipeline (.opened connect) next := by
  simp only [Pipeline.opened, Option.bind_eq_bind, Option.bind_eq_some_iff] at stepped
  rcases stepped with ⟨link, linked, stepped⟩
  rcases Link.connecting_of_opened linked with ⟨_, _, phase, _, _, opens⟩
  have notYet : ¬pipeline.link.InHandshake := by
    cases Link.transition_of_linkStep linked with
    | opened opening =>
        rintro (greeting | awaiting)
        · exact absurd (opening.2.symm.trans greeting.2) (by simp)
        · exact absurd (opening.2.symm.trans awaiting.2) (by simp)
  split at stepped
  · rename_i noSocket
    rcases Option.some.inj stepped
    rcases opens with ⟨socket, _⟩ | ⟨_, refused⟩
    · simp [noSocket] at socket
    · exact .nothing (fun _ => rfl) (.inr (by simp [Link.live, phase, refused]))
        fun handshakes => absurd handshakes notYet
  · rename_i connection bytes isSocket encoded
    rcases Option.some.inj stepped
    rcases opens with ⟨socket, greeting⟩ | ⟨noSocket, _⟩
    · rcases Option.some.inj (isSocket.symm.trans socket)
      exact .connect socket ⟨phase, greeting⟩ (Transcript.begun_begin _ _ _ _) ⟨_, encoded⟩
    · simp [noSocket] at isSocket
  · rcases Option.some.inj stepped
    exact .nothing (fun _ => rfl) (.inr (by simp [Link.live, phase]))
      fun handshakes => absurd handshakes notYet
  · simp at stepped

theorem write {count : ℕ} (stepped : pipeline.write count = some next) :
    Begins pipeline action next := by
  simp only [Pipeline.write, Option.bind_eq_bind, Option.bind_eq_some_iff,
    Option.ite_none_right_eq_some, Option.some.injEq] at stepped
  rcases stepped with ⟨connection, _, _, rfl⟩
  exact .nothing (fun _ => Transcript.begun_append ..) (.inl rfl) fun handshakes => .inl handshakes

theorem answer (answers : pipeline.link.Answers link) (phase : pipeline.link.world.stack = .idle)
    (stepped : pipeline.answer link = some next) : Begins pipeline action next := by
  have outside : pipeline.link.world.stack ≠ .connecting := by simp [phase]
  simp only [Pipeline.answer] at stepped
  rcases answers with
    ⟨connection, socket, transport, starts, frames, reply, replying⟩ | ⟨quiet, noReply⟩
  · rw [← transport] at socket
    simp only [replying, socket] at stepped
    split at stepped
    · rename_i encoder encoded
      rcases Option.some.inj stepped
      exact .packet (Link.not_inHandshake_of_stack outside) starts.live starts.same
        (Transcript.begun_begin _ _ _ _) fun _ => ⟨reply, encodes_of_toBuffer encoded⟩
    · rcases Option.some.inj stepped
      exact past outside (fun _ => rfl) (.inr (by simp [Link.live]))
    · simp at stepped
  · split at stepped
    · rename_i replying _
      exact absurd replying (noReply _)
    · rcases Option.some.inj stepped
      exact past outside (fun _ => rfl) quiet.live

theorem follow [ClosingTransport T] {action : LinkAction T}
    (linked : linkStep pipeline.link action = some link)
    (stepped : pipeline.follow link action = some next) : Begins pipeline (.link action) next := by
  have quiet (isQuiet : action.isQuiet = true) (notDrop : action.dropsRun = false)
      (same : pipeline.follow link action = some { pipeline with link := link }) :
      Begins pipeline (.link action) next := by
    rcases Option.some.inj (same.symm.trans stepped)
    exact Begins.linked notDrop linked (fun _ => rfl) (Link.quiet_of_linkStep isQuiet linked).1.live
  have completes (ends : pipeline.link.Ends link) (notDrop : action.dropsRun = false)
      (stepped : pipeline.complete link = some next) : Begins pipeline (.link action) next := by
    simp only [Pipeline.complete, Option.ite_none_right_eq_some, Option.some.injEq] at stepped
    rcases stepped with ⟨_, rfl⟩
    exact Begins.linked notDrop linked (fun _ => rfl) (.inl ends.live)
  cases action with
  | client call =>
      cases call with
      | commit handle => exact commit linked stepped
      | drop handle contended => exact drop linked stepped
      | grant | dropSubscription => simp [Pipeline.follow] at stepped
      | _ =>
          rcases Option.some.inj stepped
          exact client (.inr ⟨_, linked⟩) rfl rfl
  | greeted => exact completes (Link.ends_of_greeted linked).1 rfl stepped
  | connectFails =>
      rcases Option.some.inj stepped
      refine Begins.linked rfl linked ?_ (.inr (Link.givesUp_of_connectFails linked).1.live)
      intro other
      unfold Pipeline.connectFails
      dsimp only
      split <;> rfl
  | receive received payload =>
      rcases Link.answers_of_receive linked with ⟨answers, phase⟩
      exact answer answers phase stepped
  | write call =>
      cases call with
      | read => simp [Pipeline.follow] at stepped
      | written => exact completes (Link.ends_of_written linked).1 rfl stepped
      | replied => exact completes (Link.ends_of_replied linked).1 rfl stepped
      | flushed => exact quiet rfl rfl rfl
      | transmitted =>
          exact release (Link.not_connecting_of_write linked)
            (Link.quiet_of_linkStep rfl linked).1.live stepped
      | writeFails =>
          have outside := Link.not_connecting_of_write linked
          have lost := (Link.givesUp_of_writeFails linked).1.live
          simp only [Pipeline.follow, Pipeline.writeFails] at stepped
          split at stepped
          · simp only [Option.bind_eq_bind, Option.bind_eq_some_iff, Option.some.injEq] at stepped
            rcases stepped with ⟨tx, _, rfl⟩
            exact past outside (fun _ => rfl) (.inr lost)
          · rcases Option.some.inj stepped
            exact past outside (fun _ => rfl) (.inr lost)
      | keepAlive =>
          rcases Link.answers_of_keepAlive linked with ⟨answers, phase⟩
          exact answer answers phase stepped
      | _ => simp [linkStep, Action.isWrite] at linked
  | opened | dropRun | disconnect => simp [Pipeline.follow] at stepped
  | connect | recvConnAck | connected | pending | socketFails | lost | drifts | reset =>
      exact quiet rfl rfl rfl

theorem step [ClosingTransport T] (stepped : pipelineStep pipeline action = some next) :
    Begins pipeline action next := by
  simp only [pipelineStep, Option.ite_none_left_eq_some] at stepped
  rcases stepped with ⟨_, stepped⟩
  cases action with
  | pollGrant handle packet waker => exact pollGrant stepped
  | dropSubscription pidLocked statusLocked topics => exact dropSubscription stepped
  | pollRead waker => exact pollRead stepped
  | skipped => exact skip stepped
  | skipFails => exact skipFails stepped
  | opened connect => exact opened stepped
  | write count => exact write stepped
  | link action =>
      simp only [Option.ite_none_left_eq_some, Option.bind_eq_some_iff] at stepped
      rcases stepped with ⟨_, link, linked, stepped⟩
      exact follow linked stepped

end Begins

end Pipeline

end System

end Mqttrust
