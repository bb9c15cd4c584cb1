import Mqttrust.System.Inflight
import Mqttrust.System.Link

/-!
# Connections start afresh

The packet reader and `awaiting_pingresp` belong to one connection, but the stack
keeps them, and of the ways in which a connection can end only an error of `select`
leads to `MqttStack::reset`. What the others leave behind is there when
`connect_mqtt` receives on the next connection.
-/

namespace Mqttrust.System

/-- Whenever `connect_mqtt` called `recv` the receiving state was clean. -/
def StartsClean (log : List Wire) : Prop :=
  ∀ connection clean, .firstRecv connection clean ∈ log → clean = true

variable {T : Type} [Transport T] {config : CrateConfig}

namespace Link

variable {link next : Link T config}

/-- Whether an action ends the connection without `MqttStack::reset`. -/
def ends (link : Link T config) : LinkAction T → Bool
  | .connectFails | .lost => true
  | .disconnect true => !Transport.isConnected (Transport.disconnect link.transport)
  | .dropRun => !Transport.isConnected link.dropped
  | _ => false

/-- The condition on an action: a connection that ends without `MqttStack::reset` ends between two
packets, with no PINGRESP awaited. Of a `reset` that is dropped, the part that clears
`awaiting_pingresp` is done. -/
def EndsClean (link : Link T config) (action : LinkAction T) : Prop :=
  link.ends action = true →
    link.reader.start.buf = [] ∧ (link.world.awaitingPingresp = true → link.world.stack = .failing)

instance (link : Link T config) (action : LinkAction T) : Decidable (link.EndsClean action) :=
  inferInstanceAs (Decidable (_ → _ ∧ (_ → _)))

omit [Transport T] in
theorem clean_iff :
    link.clean = true ↔ link.reader.start.buf = [] ∧ link.world.awaitingPingresp = false := by
  simp [clean]

/-- The next `recv` is the first one on a connection. -/
def BeforeRecv (link : Link T config) : Prop :=
  link.world.stack = .disconnected ∨ link.Connects .opening ∨ link.Connects .greeting

omit [Transport T] in
theorem not_beforeRecv_of_selecting (selecting : link.world.stack.selecting = true) :
    ¬link.BeforeRecv := by
  rintro (disconnected | connecting | connecting)
  · simp [disconnected, StackPhase.selecting] at selecting
  · simp [connecting.1, StackPhase.selecting] at selecting
  · simp [connecting.1, StackPhase.selecting] at selecting

omit [Transport T] in
/-- A stack that goes back to the top of the loop of `run` connects only when it has to. -/
theorem not_isConnected {isConnected : Bool}
    (stack : link.world.stack = if isConnected then .idle else .disconnected)
    (beforeRecv : link.BeforeRecv) : isConnected = false := by
  cases isConnected with
  | false => rfl
  | true => exact absurd beforeRecv (not_beforeRecv_of_selecting (by rw [stack]; rfl))

/-- Before the first `recv` on a connection the receiving state is clean. -/
structure Fresh (link : Link T config) : Prop where
  clean : link.BeforeRecv → link.clean = true
  startsClean : StartsClean link.log

end Link

theorem StartsClean.cons {event : Wire} {log : List Wire} (startsClean : StartsClean log)
    (cleanRecv : ∀ connection clean, event = .firstRecv connection clean → clean = true) :
    StartsClean (event :: log) := by
  intro connection clean recv_mem
  rcases List.mem_cons.mp recv_mem with same | earlier
  · exact cleanRecv connection clean same.symm
  · exact startsClean connection clean earlier

theorem StartsClean.append {new log : List Wire} (startsClean : StartsClean log)
    (noRecv : ∀ connection clean, .firstRecv connection clean ∉ new) :
    StartsClean (new ++ log) := by
  intro connection clean recv_mem
  rcases List.mem_append.mp recv_mem with inNew | inLog
  · exact absurd inNew (noRecv connection clean)
  · exact startsClean connection clean inLog

namespace Link.Fresh

variable {link next : Link T config}

theorem new (config : CrateConfig) (transport : T) : (Link.new config transport).Fresh :=
  ⟨fun _ => rfl, fun _ _ recv_mem => by simp [Link.new] at recv_mem⟩

omit [Transport T] in
theorem goOn (fresh : link.Fresh) {connection : ℕ} {world : World config}
    {reader : PacketReader config} (selecting : world.stack.selecting = true) :
    Fresh { link.goOn connection world with reader := reader } := by
  constructor
  · exact fun beforeRecv => absurd beforeRecv (not_beforeRecv_of_selecting selecting)
  · apply fresh.startsClean.append
    intro current clean recv_mem
    unfold observed at recv_mem
    split at recv_mem <;> simp at recv_mem

omit [Transport T] in
/-- What holds after an action that ends the connection without `MqttStack::reset`. -/
theorem of_clean (fresh : link.Fresh) (clean : next.clean = true) (log : next.log = link.log) :
    next.Fresh :=
  ⟨fun _ => clean, log ▸ fresh.startsClean⟩

omit [Transport T] in
theorem recvConnAck (fresh : link.Fresh) (phase : link.Connects .awaiting) {connection : ℕ}
    {result : Except StateError ReceivedPacket} {reader : PacketReader config} :
    (link.recvConnAck connection result reader).Fresh := by
  rcases Handshake.result_cases config result with ⟨sessionPresent, accepted⟩ | refused
  · constructor
    · simp [BeforeRecv, Connects, Link.recvConnAck, accepted, phase.1]
    · simp only [Link.recvConnAck, accepted]
      exact fresh.startsClean.cons (by simp)
  · constructor
    · simp [BeforeRecv, Connects, Link.recvConnAck, refused, phase.1]
    · simp only [Link.recvConnAck, refused]
      exact fresh.startsClean

theorem dropRun (fresh : link.Fresh) {world : World config} (endsClean : link.EndsClean .dropRun)
    (stepped : Mqttrust.System.step link.world (.dropRun (Transport.isConnected link.dropped)) =
      some world) :
    Fresh { link with
      world := { world with
        awaitingPingresp := world.awaitingPingresp && link.world.stack != .failing }
      transport := link.dropped } := by
  refine ⟨fun beforeRecv => ?_, fresh.startsClean⟩
  cases (transition_of_step stepped).2 with
  | dropRun =>
      have gone : link.ends .dropRun = true := by simpa [ends] using not_isConnected rfl beforeRecv
      rcases endsClean gone with ⟨empty, answered⟩
      rw [clean_iff]
      refine ⟨empty, ?_⟩
      simpa using answered

theorem step {action : LinkAction T} (fresh : link.Fresh) (endsClean : link.EndsClean action)
    (stepped : linkStep link action = some next) : next.Fresh := by
  cases transition_of_linkStep stepped with
  | connect isLost inner =>
      cases (transition_of_step inner).2 with
      | connect phase =>
          refine ⟨fun _ => ?_, fresh.startsClean⟩
          exact fresh.clean (.inl phase)
  | opened phase =>
      have clean := fresh.clean (.inr (.inl phase))
      unfold connectTransport
      dsimp only
      split
      · exact ⟨fun _ => clean, fresh.startsClean.cons (by simp)⟩
      · exact ⟨fun _ => clean, fresh.startsClean⟩
  | greeted socket phase =>
      have clean := fresh.clean (.inr (.inr phase))
      constructor
      · simp [BeforeRecv, Connects, phase.1]
      · apply StartsClean.cons _ fun _ _ same => (Wire.firstRecv.inj same).2 ▸ clean
        exact fresh.startsClean.cons (by simp)
  | recvConnAck socket phase returned => exact fresh.recvConnAck phase
  | connected accepted inner =>
      cases (transition_of_step inner).2 with
      | connected =>
          refine ⟨fun beforeRecv => ?_, fresh.startsClean⟩
          exact absurd beforeRecv (not_beforeRecv_of_selecting rfl)
  | connectFails notAccepted inner =>
      cases (transition_of_step inner).2 with
      | connectFails phase =>
          rcases endsClean rfl with ⟨empty, answered⟩
          refine fresh.of_clean (clean_iff.mpr ⟨empty, ?_⟩) rfl
          simpa [phase] using answered
  | pending phase dropped =>
      refine ⟨fun beforeRecv => ?_, fresh.startsClean⟩
      rcases phase with awaiting | idle
      · simp [BeforeRecv, Connects, awaiting.1, awaiting.2] at beforeRecv
      · exact absurd beforeRecv
          (not_beforeRecv_of_selecting (by simp [idle, StackPhase.selecting]))
  | receive socket returned inner => exact fresh.goOn (selecting_of_receive inner).2
  | receiveFails socket returned inner => exact fresh.goOn (selecting_of_receiveFails inner).2
  | client isClient inner =>
      refine ⟨fun beforeRecv => ?_, fresh.startsClean⟩
      rcases stack_of_isClient isClient inner with ⟨stack, awaiting⟩
      have clean := fresh.clean (by simpa [BeforeRecv, Connects, stack] using beforeRecv)
      rw [clean_iff] at clean ⊢
      exact ⟨clean.1, awaiting.trans clean.2⟩
  | write socket isWrite inner => exact fresh.goOn (selecting_of_isWrite isWrite inner).2
  | socketFails noSocket inner =>
      refine ⟨fun beforeRecv => ?_, fresh.startsClean⟩
      exact absurd beforeRecv (not_beforeRecv_of_selecting (selecting_of_receiveFails inner).2)
  | lost isLost inner =>
      cases (transition_of_step inner).2 with
      | lost phase =>
          rcases endsClean rfl with ⟨empty, answered⟩
          refine fresh.of_clean (clean_iff.mpr ⟨empty, ?_⟩) rfl
          simpa [phase] using answered
  | drifts phase drifts => exact ⟨fresh.clean, fresh.startsClean⟩
  | reset inner =>
      cases (transition_of_step inner).2 with
      | reset => exact fresh.of_clean rfl rfl
  | dropRun notRefused inner => exact fresh.dropRun endsClean inner
  | disconnect socket inner =>
      cases (transition_of_step inner).2 with
      | disconnect phase =>
          refine ⟨fun beforeRecv => ?_, (fresh.startsClean.cons (by simp)).cons (by simp)⟩
          rcases endsClean (by simpa [ends] using not_isConnected rfl beforeRecv) with ⟨empty, answered⟩
          rw [clean_iff]
          refine ⟨empty, ?_⟩
          simpa [Link.disconnect, World.resetShared, phase] using answered
  | disconnectFails socket inner =>
      exact ⟨fresh.clean, fresh.startsClean.cons (by simp)⟩

end Link.Fresh

namespace Link

variable {link next : Link NalTransport config}

/-- What remains of a connection that ended. -/
structure Left (link : Link NalTransport config) : Prop where
  noPanic : link.world.panicked = none
  stack : link.world.stack = .disconnected
  closed : link.transport.socket = none
  notClean : link.clean = false

theorem left_of_not_endsClean {action : LinkAction NalTransport}
    (leaves : ¬link.EndsClean action) (stepped : linkStep link action = some next) :
    next.Left := by
  unfold EndsClean at leaves
  push Not at leaves
  rcases leaves with ⟨ended, remains⟩
  have notClean : link.clean ≠ true := by
    intro clean
    rcases clean_iff.mp clean with ⟨empty, answered⟩
    simp [answered] at remains
    exact remains empty
  cases transition_of_linkStep stepped with
  | connectFails notAccepted inner =>
      rcases transition_of_step inner with ⟨noPanic, transition⟩
      cases transition with
      | connectFails => exact ⟨noPanic, rfl, rfl, Bool.eq_false_iff.mpr notClean⟩
  | lost isLost inner =>
      rcases transition_of_step inner with ⟨noPanic, transition⟩
      cases transition with
      | lost =>
          refine ⟨noPanic, rfl, ?_, Bool.eq_false_iff.mpr notClean⟩
          simpa [Transport.isConnected] using isLost
  | dropRun notRefused inner =>
      rcases transition_of_step inner with ⟨noPanic, transition⟩
      have gone : Transport.isConnected link.dropped = false := by simpa [ends] using ended
      cases transition with
      | dropRun =>
          refine ⟨noPanic, ?_, ?_, ?_⟩
          · simp [gone]
          · simpa [Transport.isConnected] using gone
          · rw [Bool.eq_false_iff, ne_eq, clean_iff]
            rintro ⟨empty, answered⟩
            rcases remains empty with ⟨awaiting, notFailing⟩
            simp [awaiting, notFailing] at answered
  | disconnect socket inner =>
      rcases transition_of_step inner with ⟨noPanic, transition⟩
      cases transition with
      | disconnect => exact ⟨noPanic, rfl, rfl, Bool.eq_false_iff.mpr notClean⟩
  | _ => simp [ends] at ended

theorem Left.not_startsClean (left : link.Left) :
    ∃ final, Execution.run linkStep link [.connect, .opened, .greeted] = some final ∧
      ¬StartsClean final.log := by
  rcases left with ⟨noPanic, stack, closed, notClean⟩
  have connects : linkStep link .connect =
      some { link with world := link.world.connect, handshake := .opening } := by
    simp [linkStep, Mqttrust.System.step, noPanic, stack, Transport.isConnected, closed]
  rw [Execution.run_cons, connects]
  refine ⟨_, rfl, fun startsClean => ?_⟩
  have clean := startsClean link.opened link.clean List.mem_cons_self
  simp [notClean] at clean

end Link

/-- Every connection starts from a clean receiving state as long as every connection that ends
without `MqttStack::reset` ends clean. What is left on a `NalTransport` otherwise is still there
after the next CONNECT. -/
theorem startsClean_of_endsClean (config : CrateConfig) :
    (∀ {T : Type} [Transport T] (transport : T) (actions : List (LinkAction T))
      (link : Link T config),
      Execution.Guarded linkStep Link.EndsClean (Link.new config transport) actions →
        linkRun config transport actions = some link → StartsClean link.log) ∧
    (∀ (link next : Link NalTransport config) (action : LinkAction NalTransport),
      ¬link.EndsClean action → linkStep link action = some next →
        ∃ final, Execution.run linkStep next [.connect, .opened, .greeted] = some final ∧
          ¬StartsClean final.log) := by
  constructor
  · intro T _ transport actions link guarded reached
    apply Link.Fresh.startsClean
    apply Execution.invariant_of_guarded Link.Fresh _ guarded _ reached
    · intro link next action endsClean fresh stepped
      exact fresh.step endsClean stepped
    · exact Link.Fresh.new config transport
  · intro link next action leaves stepped
    exact (Link.left_of_not_endsClean leaves stepped).not_startsClean

/-- A connection that is refused after the whole CONNACK leaves nothing for the next one. -/
theorem startsClean_of_endsClean_example :
    ∃ link, linkRun twoInflight (NalTransport.mk none)
        [.connect, .opened, .greeted,
          .recvConnAck (.full [0x20, 0x03, 0x00, 0x87, 0x00] .waiting), .connectFails,
          .connect, .opened, .greeted] = some link ∧
      .firstRecv 1 true ∈ link.log ∧ StartsClean link.log := by
  rcases reached : linkRun twoInflight (NalTransport.mk none)
    [.connect, .opened, .greeted, .recvConnAck (.full [0x20, 0x03, 0x00, 0x87, 0x00] .waiting),
      .connectFails, .connect, .opened, .greeted] with _ | link
  · exact absurd reached (by decide)
  · refine ⟨link, rfl, ?_,
      (startsClean_of_endsClean twoInflight).1 (NalTransport.mk none) _ link (by decide) reached⟩
    cases reached
    decide

/-- The attempt to connect times out after the first byte of the CONNACK, or a connection with an
unanswered PINGREQ is disconnected. -/
theorem not_startsClean_after_timeout :
    (∃ link, linkRun twoInflight (NalTransport.mk none)
        [.connect, .opened, .greeted, .pending (.full [0x20] .waiting) 1, .connectFails,
          .connect, .opened, .greeted] = some link ∧ ¬StartsClean link.log) ∧
    ∃ link, linkRun twoInflight (NalTransport.mk none)
        [.connect, .opened, .greeted, .recvConnAck (.full [0x20, 0x03, 0x00, 0x00, 0x00] .waiting),
          .connected, .write .keepAlive, .write .replied, .disconnect true, .connect, .opened,
          .greeted] = some link ∧
      ¬StartsClean link.log := by
  constructor
  · refine ⟨_, rfl, fun startsClean => ?_⟩
    exact absurd (startsClean 1 false (by decide)) (by decide)
  · refine ⟨_, rfl, fun startsClean => ?_⟩
    exact absurd (startsClean 1 false (by decide)) (by decide)

end Mqttrust.System
