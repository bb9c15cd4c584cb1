import Mqttrust.System.Inflight
import Mqttrust.System.Link

/-!
# The handshake comes first

Nothing but CONNECT may be written to a connection before its CONNACK was
accepted. A `NalTransport` is connected from the moment its socket is open, so
when the future of `run` is dropped between that moment and the CONNACK, the next
call of `run` skips the handshake and goes on to `select`. A
`ConnectedSocketTransport` is connected from the start, and no CONNECT is ever
written to it.
-/

namespace Mqttrust.System

/-- On every connection CONNECT was written first, and a CONNACK was accepted before any other
packet. -/
def HandshakeFirst : List Wire → Prop
  | [] => True
  | .begun connection packet :: older =>
      (packet ≠ .connect →
        .connAck connection ∈ older ∧ .begun connection .connect ∈ older) ∧ HandshakeFirst older
  | _ :: older => HandshakeFirst older

/-- Whether the future of `run` is dropped. -/
def LinkAction.dropsRun {T : Type} : LinkAction T → Bool
  | .dropRun => true
  | _ => false

/-- Whether an event is a part of the handshake. -/
def Wire.isHandshake : Wire → Bool
  | .begun _ .connect | .connAck _ => true
  | _ => false

variable {config : CrateConfig}

/-- The condition on an action: `run` is not dropped after its connection is open and before the
CONNACK is accepted. -/
def KeepsHandshake {T : Type} [Transport T] (link : Link T config) (action : LinkAction T) : Prop :=
  action.dropsRun = true → ¬(link.Connects .greeting ∨ link.Connects .awaiting)

instance {T : Type} [Transport T] (link : Link T config) (action : LinkAction T) :
    Decidable (KeepsHandshake link action) :=
  inferInstanceAs (Decidable (_ → ¬(_ ∨ _)))

namespace HandshakeFirst

theorem older {event : Wire} {log : List Wire} (first : HandshakeFirst (event :: log)) :
    HandshakeFirst log := by
  cases event with
  | begun => exact first.2
  | completed | connAck | firstRecv => exact first

/-- A packet that is in the log came after the CONNACK of its connection. -/
theorem of_mem {log : List Wire} {connection : ℕ} {packet : Packet}
    (first : HandshakeFirst log) (packet_mem : .begun connection packet ∈ log)
    (notConnect : packet ≠ .connect) : .connAck connection ∈ log := by
  induction log with
  | nil => simp at packet_mem
  | cons event log ih =>
      rcases List.mem_cons.mp packet_mem with rfl | earlier
      · exact List.mem_cons_of_mem _ (first.1 notConnect).1
      · exact List.mem_cons_of_mem _ (ih first.older earlier)

theorem of_nothing_begun {log : List Wire}
    (nothing : ∀ connection packet, .begun connection packet ∉ log) : HandshakeFirst log := by
  induction log with
  | nil => trivial
  | cons event log ih =>
      have rest := ih fun connection packet earlier =>
        nothing connection packet (List.mem_cons_of_mem _ earlier)
      cases event with
      | begun connection packet => exact absurd List.mem_cons_self (nothing connection packet)
      | completed | connAck | firstRecv => exact rest

end HandshakeFirst

namespace Link

section Nal

variable {link next : Link NalTransport config}

/-- The handshake is made on the connection that is open. -/
def Established (link : Link NalTransport config) (connection : ℕ) : Prop :=
  link.transport.socket = some connection ∧ .connAck connection ∈ link.log ∧
    .begun connection .connect ∈ link.log

/-- How far the handshake is in each phase of the stack. -/
def Progress (link : Link NalTransport config) : Prop :=
  match link.world.stack, link.handshake with
  | .disconnected, _ => link.transport.socket = none
  | .connecting, .opening => link.transport.socket = none
  | .connecting, .greeting | .connecting, .awaiting =>
      ∃ connection, link.transport.socket = some connection ∧
        .begun connection .connect ∈ link.log
  | .connecting, .refused => True
  | _, _ => ∃ connection, link.Established connection

theorem progress_iff_of_selecting (selecting : link.world.stack.selecting = true) :
    link.Progress ↔ ∃ connection, link.Established connection := by
  unfold Progress
  split <;> simp_all [StackPhase.selecting]

theorem established_of_selecting (progress : link.Progress)
    (selecting : link.world.stack.selecting = true) :
    ∃ connection, link.Established connection :=
  (progress_iff_of_selecting selecting).mp progress

theorem progress_of_selecting {connection : ℕ} (established : link.Established connection)
    (selecting : next.world.stack.selecting = true) (transport : next.transport = link.transport)
    (log : link.log ⊆ next.log) : next.Progress := by
  rw [progress_iff_of_selecting selecting]
  rcases established with ⟨socket, connAck, connect⟩
  exact ⟨connection, transport ▸ socket, log connAck, log connect⟩

theorem progress_of_disconnected (phase : next.world.stack = .disconnected)
    (closed : next.transport.socket = none) : next.Progress := by
  simp only [Progress, phase]
  exact closed

theorem handshakeFirst_observed {connection : ℕ} {before after : StackPhase}
    (established : link.Established connection) (first : HandshakeFirst link.log) :
    HandshakeFirst (observed connection before after ++ link.log) := by
  rcases established with ⟨_, connAck, connect⟩
  unfold observed
  split
  · exact ⟨fun _ => ⟨connAck, connect⟩, first⟩
  · exact ⟨fun _ => ⟨connAck, connect⟩, first⟩
  · exact first
  · exact first
  · exact first

/-- The handshake is as far as the phase says, and it came first on every connection. -/
structure Shaken (link : Link NalTransport config) : Prop where
  progress : link.Progress
  first : HandshakeFirst link.log

namespace Shaken

theorem new (config : CrateConfig) : (Link.new config (NalTransport.mk none)).Shaken :=
  ⟨rfl, trivial⟩

/-- The stack goes on in `select`, and what it writes follows the handshake. -/
theorem goOn (shaken : link.Shaken) {connection : ℕ} {world : World config}
    (socket : link.transport.socket = some connection)
    (before : link.world.stack.selecting = true) (after : world.stack.selecting = true) :
    (link.goOn connection world).Shaken := by
  rcases established_of_selecting shaken.progress before with ⟨current, established⟩
  rcases Option.some.inj (socket.symm.trans established.1) with rfl
  constructor
  · refine progress_of_selecting established after ?_ ?_
    · rfl
    · exact List.subset_append_right _ _
  · exact handshakeFirst_observed established shaken.first

theorem recvConnAck (shaken : link.Shaken) {connection : ℕ}
    {result : Except StateError ReceivedPacket} {reader : PacketReader config}
    (socket : link.transport.socket = some connection) (phase : link.Connects .awaiting) :
    (link.recvConnAck connection result reader).Shaken := by
  have progress := shaken.progress
  simp only [Progress, phase.1, phase.2] at progress
  rcases progress with ⟨current, current_socket, connect⟩
  rcases Option.some.inj (socket.symm.trans current_socket) with rfl
  rcases Handshake.result_cases config result with ⟨sessionPresent, accepted⟩ | refused
  · constructor
    · simp only [Progress, Link.recvConnAck, phase.1, accepted]
      refine ⟨connection, socket, ?_, ?_⟩
      · exact List.mem_cons_self
      · exact List.mem_cons_of_mem _ connect
    · simp only [Link.recvConnAck, accepted]
      exact shaken.first
  · constructor
    · simp only [Progress, Link.recvConnAck, phase.1, refused]
    · simp only [Link.recvConnAck, refused]
      exact shaken.first

theorem dropRun (shaken : link.Shaken) {world : World config}
    (keeps : KeepsHandshake link .dropRun) (notRefused : ¬link.Connects .refused)
    (stepped : step link.world (.dropRun (Transport.isConnected link.dropped)) = some world) :
    Shaken { link with
      world := { world with
        awaitingPingresp := world.awaitingPingresp && link.world.stack != .failing }
      transport := link.dropped } := by
  refine ⟨?_, shaken.first⟩
  have stack : world.stack =
      if Transport.isConnected link.dropped then .idle else .disconnected := by
    cases (transition_of_step stepped).2 with
    | dropRun => rfl
  rcases remains : link.dropped with ⟨_ | connection⟩
  · apply progress_of_disconnected
    · simp only [stack, remains, Transport.isConnected, Option.isSome_none, Bool.false_eq_true,
        if_false]
    · rfl
  · have notFailing : link.world.stack ≠ .failing := by
      intro failing
      simp [Link.dropped, failing, Transport.disconnect] at remains
    have transport : link.transport = ⟨some connection⟩ := by
      simpa [Link.dropped, notFailing] using remains
    have established : ∃ current, link.Established current := by
      have progress := shaken.progress
      have notHandshake := keeps rfl
      unfold Progress at progress
      split at progress
      · simp [transport] at progress
      · simp [transport] at progress
      · rename_i stack handshake
        exact absurd (.inl ⟨stack, handshake⟩) notHandshake
      · rename_i stack handshake
        exact absurd (.inr ⟨stack, handshake⟩) notHandshake
      · rename_i stack handshake
        exact absurd ⟨stack, handshake⟩ notRefused
      · exact progress
    rcases established with ⟨current, established⟩
    refine progress_of_selecting established ?_ ?_ ?_
    · simp only [stack, remains, Transport.isConnected, Option.isSome_some, if_true,
        StackPhase.selecting]
    · exact transport.symm
    · exact List.Subset.refl _

theorem step {action : LinkAction NalTransport} (shaken : link.Shaken)
    (keeps : KeepsHandshake link action) (stepped : linkStep link action = some next) :
    next.Shaken := by
  cases transition_of_linkStep stepped with
  | connect isLost inner =>
      refine ⟨?_, shaken.first⟩
      cases (transition_of_step inner).2 with
      | connect => simpa [Progress, World.connect, Transport.isConnected] using isLost
  | opened phase =>
      constructor
      · simp only [Progress, connectTransport, Transport.connect, Transport.socket, phase.1]
        exact ⟨_, rfl, List.mem_cons_self⟩
      · exact ⟨fun notConnect => absurd rfl notConnect, shaken.first⟩
  | greeted socket phase =>
      have progress := shaken.progress
      simp only [Progress, phase.1, phase.2] at progress
      rcases progress with ⟨connection, socket, connect⟩
      refine ⟨?_, shaken.first⟩
      simp only [Progress, phase.1]
      refine ⟨connection, socket, ?_⟩
      simp [connect]
  | recvConnAck socket phase returned => exact shaken.recvConnAck socket phase
  | connected accepted inner =>
      refine ⟨?_, shaken.first⟩
      cases (transition_of_step inner).2 with
      | connected sessionPresent phase =>
          have progress := shaken.progress
          simp only [Progress, phase, accepted] at progress
          rcases progress with ⟨connection, established⟩
          refine progress_of_selecting established rfl ?_ ?_
          · rfl
          · exact List.Subset.refl _
  | connectFails notAccepted inner =>
      refine ⟨?_, shaken.first⟩
      cases (transition_of_step inner).2 with
      | connectFails => exact progress_of_disconnected rfl rfl
  | pending phase dropped => exact ⟨shaken.progress, shaken.first⟩
  | receive socket returned inner =>
      rcases selecting_of_receive inner with ⟨idle, selecting⟩
      have kept := shaken.goOn socket (by simp [idle, StackPhase.selecting]) selecting
      exact ⟨kept.progress, kept.first⟩
  | receiveFails socket returned inner =>
      rcases selecting_of_receiveFails inner with ⟨idle, selecting⟩
      have kept := shaken.goOn socket (by simp [idle, StackPhase.selecting]) selecting
      exact ⟨kept.progress, kept.first⟩
  | client isClient inner =>
      refine ⟨?_, shaken.first⟩
      have progress := shaken.progress
      simp only [Progress, (stack_of_isClient isClient inner).1] at progress ⊢
      exact progress
  | write socket isWrite inner =>
      rcases selecting_of_isWrite isWrite inner with ⟨before, after⟩
      exact shaken.goOn socket before after
  | socketFails noSocket inner =>
      rcases selecting_of_receiveFails inner with ⟨idle, _⟩
      rcases established_of_selecting shaken.progress (by simp [idle, StackPhase.selecting]) with
        ⟨connection, socket, _⟩
      change link.transport.socket = none at noSocket
      simp [socket] at noSocket
  | lost isLost inner =>
      refine ⟨?_, shaken.first⟩
      cases (transition_of_step inner).2 with
      | lost =>
          apply progress_of_disconnected rfl
          simpa [Transport.isConnected] using isLost
  | drifts phase drifts => simp [Transport.drifts] at drifts
  | reset inner =>
      refine ⟨?_, shaken.first⟩
      cases (transition_of_step inner).2 with
      | reset => exact progress_of_disconnected rfl rfl
  | dropRun notRefused inner => exact shaken.dropRun keeps notRefused inner
  | disconnect socket inner =>
      cases (transition_of_step inner).2 with
      | disconnect phase =>
          rcases established_of_selecting shaken.progress (by simp [phase, StackPhase.selecting])
            with ⟨current, established⟩
          rcases Option.some.inj (socket.symm.trans established.1) with rfl
          constructor
          · exact progress_of_disconnected rfl rfl
          · exact ⟨fun _ => established.2, shaken.first⟩
  | disconnectFails socket inner =>
      cases (transition_of_step inner).2 with
      | disconnect phase =>
          rcases established_of_selecting shaken.progress (by simp [phase, StackPhase.selecting])
            with ⟨current, established⟩
          rcases Option.some.inj (socket.symm.trans established.1) with rfl
          constructor
          · refine progress_of_selecting established ?_ ?_ ?_
            · simp only [phase, StackPhase.selecting]
            · rfl
            · exact List.subset_cons_self _ _
          · exact ⟨fun _ => established.2, shaken.first⟩

end Shaken

end Nal

section ConnectedSocket

variable {link next : Link ConnectedSocketTransport config}

/-- The handshake is never made. -/
structure Skips (link : Link ConnectedSocketTransport config) : Prop where
  selecting : link.world.stack.selecting = true
  noHandshake : ∀ event ∈ link.log, event.isHandshake = false

namespace Skips

theorem new (config : CrateConfig) (connection : ℕ) :
    (Link.new config (ConnectedSocketTransport.mk connection)).Skips :=
  ⟨rfl, by simp [Link.new]⟩

theorem not_connects (skips : link.Skips) (handshake : Handshake) :
    ¬link.Connects handshake := by
  intro phase
  have selecting := skips.selecting
  simp [phase.1, StackPhase.selecting] at selecting

theorem noHandshake_observed (skips : link.Skips) (connection : ℕ) (before after : StackPhase) :
    ∀ event ∈ observed connection before after ++ link.log, event.isHandshake = false := by
  intro event event_mem
  rcases List.mem_append.mp event_mem with new | old
  · unfold observed at new
    split at new <;> simp_all [Wire.isHandshake]
  · exact skips.noHandshake event old

theorem step {action : LinkAction ConnectedSocketTransport} (skips : link.Skips)
    (stepped : linkStep link action = some next) : next.Skips := by
  have selecting := skips.selecting
  cases transition_of_linkStep stepped with
  | connect isLost inner => simp [Transport.isConnected] at isLost
  | opened phase => exact absurd phase (skips.not_connects _)
  | greeted socket phase => exact absurd phase (skips.not_connects _)
  | recvConnAck socket phase returned => exact absurd phase (skips.not_connects _)
  | connected accepted inner =>
      cases (transition_of_step inner).2 with
      | connected sessionPresent phase => simp [phase, StackPhase.selecting] at selecting
  | connectFails notAccepted inner =>
      cases (transition_of_step inner).2 with
      | connectFails phase => simp [phase, StackPhase.selecting] at selecting
  | pending phase dropped => exact ⟨selecting, skips.noHandshake⟩
  | receive socket returned inner =>
      exact ⟨(selecting_of_receive inner).2, skips.noHandshake_observed _ _ _⟩
  | receiveFails socket returned inner =>
      exact ⟨(selecting_of_receiveFails inner).2, skips.noHandshake_observed _ _ _⟩
  | client isClient inner =>
      refine ⟨?_, skips.noHandshake⟩
      rw [(stack_of_isClient isClient inner).1]
      exact selecting
  | write socket isWrite inner =>
      exact ⟨(selecting_of_isWrite isWrite inner).2, skips.noHandshake_observed _ _ _⟩
  | socketFails noSocket inner => simp [Transport.socket] at noSocket
  | lost isLost inner => simp [Transport.isConnected] at isLost
  | drifts phase drifts => simp [Transport.drifts] at drifts
  | reset inner =>
      refine ⟨?_, skips.noHandshake⟩
      cases (transition_of_step inner).2 with
      | reset => rfl
  | dropRun notRefused inner =>
      refine ⟨?_, skips.noHandshake⟩
      cases (transition_of_step inner).2 with
      | dropRun => rfl
  | disconnect socket inner =>
      refine ⟨rfl, ?_⟩
      simp only [Link.disconnect, List.forall_mem_cons]
      exact ⟨rfl, rfl, skips.noHandshake⟩
  | disconnectFails socket inner =>
      refine ⟨selecting, ?_⟩
      simp only [List.forall_mem_cons]
      exact ⟨rfl, skips.noHandshake⟩

/-- The handshake comes first as long as nothing is written. -/
theorem handshakeFirst_iff (skips : link.Skips) :
    HandshakeFirst link.log ↔ ∀ connection packet, .begun connection packet ∉ link.log := by
  constructor
  · intro first connection packet packet_mem
    have notConnect : packet ≠ .connect := by
      rintro rfl
      exact absurd (skips.noHandshake _ packet_mem) (by simp [Wire.isHandshake])
    have connAck := first.of_mem packet_mem notConnect
    exact absurd (skips.noHandshake _ connAck) (by simp [Wire.isHandshake])
  · exact HandshakeFirst.of_nothing_begun

end Skips

end ConnectedSocket

end Link

/-- On a `NalTransport` the handshake comes first on every connection as long as `run` is not
dropped between the opening of a connection and its CONNACK. On a `ConnectedSocketTransport` it
comes first only while nothing is written. -/
theorem handshakeFirst_of_keepsHandshake (config : CrateConfig) :
    (∀ (actions : List (LinkAction NalTransport)) (link : Link NalTransport config),
      Execution.Guarded linkStep KeepsHandshake (Link.new config (NalTransport.mk none)) actions →
        linkRun config (NalTransport.mk none) actions = some link → HandshakeFirst link.log) ∧
    (∀ (connection : ℕ) (actions : List (LinkAction ConnectedSocketTransport))
      (link : Link ConnectedSocketTransport config),
      linkRun config (ConnectedSocketTransport.mk connection) actions = some link →
        (HandshakeFirst link.log ↔
          ∀ connection packet, .begun connection packet ∉ link.log)) := by
  constructor
  · intro actions link guarded reached
    apply Link.Shaken.first
    apply Execution.invariant_of_guarded Link.Shaken _ guarded _ reached
    · intro link next action keeps shaken stepped
      exact shaken.step keeps stepped
    · exact Link.Shaken.new config
  · intro connection actions link reached
    apply Link.Skips.handshakeFirst_iff
    apply Execution.invariant_of_run Link.Skips _ _ reached
    · intro link next action skips stepped
      exact skips.step stepped
    · exact Link.Skips.new config connection

/-- A successful CONNACK. -/
def connAckBytes : Socket := .full [0x20, 0x03, 0x00, 0x00, 0x00] .waiting

/-- A PINGREQ follows a complete handshake. -/
theorem handshakeFirst_of_keepsHandshake_example :
    (∃ link, linkRun twoInflight (NalTransport.mk none)
        [.connect, .opened, .greeted, .recvConnAck connAckBytes, .connected,
          .write .keepAlive] = some link ∧
      .begun 0 (.reply .pingReq) ∈ link.log ∧ HandshakeFirst link.log) ∧
    ∃ link, linkRun twoInflight (ConnectedSocketTransport.mk 0) [.write .keepAlive] = some link ∧
      .begun 0 (.reply .pingReq) ∈ link.log ∧ ¬HandshakeFirst link.log := by
  constructor
  · rcases reached : linkRun twoInflight (NalTransport.mk none)
      [.connect, .opened, .greeted, .recvConnAck connAckBytes, .connected, .write .keepAlive]
      with _ | link
    · exact absurd reached (by decide)
    · refine ⟨link, rfl, ?_,
        (handshakeFirst_of_keepsHandshake twoInflight).1 _ link (by decide) reached⟩
      cases reached
      decide
  · rcases reached : linkRun twoInflight (ConnectedSocketTransport.mk 0) [.write .keepAlive]
      with _ | link
    · exact absurd reached (by decide)
    · have written : .begun 0 (.reply .pingReq) ∈ link.log := by
        cases reached
        decide
      refine ⟨link, rfl, written, ?_⟩
      rw [(handshakeFirst_of_keepsHandshake twoInflight).2 0 _ link reached]
      exact fun nothing => nothing _ _ written

/-- `run` is dropped while it writes CONNECT to a new connection; the next call writes a frame that
was queued meanwhile. -/
theorem not_handshakeFirst_after_dropRun :
    ∃ link, linkRun twoInflight (NalTransport.mk none)
        [.client (.send (.publish .atMostOnce)), .client (.lock 0), .client (.grant 0 (.ok ())),
          .client (.commit 0), .connect, .opened, .dropRun, .write .read] = some link ∧
      ¬HandshakeFirst link.log := by
  refine ⟨_, rfl, ?_⟩
  intro first
  exact absurd (first.1 (by decide)).1 (by decide)

end Mqttrust.System
