import Mqttrust.System.Inflight

/-!
# Room for the publishes of QoS 2

The insertions into `incoming_pub` and `outgoing_rel` must not fail. Nothing
limits the publishes of QoS 2 that a broker may send, and `send` counts only the
publishes in flight, which a PUBREC moves to `outgoing_rel`. The insertions
succeed when the broker keeps the number of its unreleased publishes within the
capacity, and the client the number of its publishes that are not acknowledged
to the end.
-/

namespace Mqttrust.System

variable {config : CrateConfig}

/-- The publishes of QoS 2 that were received since the last reset and not released. -/
def unreleased : List Event → Finset ℕ
  | [] => ∅
  | .publish pid :: older => insert pid.val (unreleased older)
  | .pubRel pid :: older => (unreleased older).erase pid.val
  | .reset :: _ => ∅
  | .written _ :: older | .pubAck _ :: older | .pubRec _ :: older | .pubComp _ :: older =>
      unreleased older

/-- The identifier of a received PUBLISH of QoS 2 that is copied. -/
def Action.publishes? : Action → Option Pid
  | .receive (.partialPublish (.exactlyOnce pid) _ _) .copied => some pid
  | _ => none

/-- The condition on a step: a received PUBLISH of QoS 2 does not exceed the capacity together with
those not yet released, and neither does an inserted publish together with those not yet
acknowledged to the end. -/
def WithinLimits (world : World config) (action : Action) : Prop :=
  (∀ pid ∈ action.publishes?,
    (insert pid.val (unreleased world.history)).card ≤ config.maxInflight) ∧
  ∀ handle ∈ action.commits?, ∀ call ∈ world.calls.get? handle, call.packet.needsAck = true →
    (world.shared.outgoingPid.insert call.pid.val).isSome →
      (insert call.pid.val world.shared.unacked).card ≤ config.maxInflight

instance (world : World config) (action : Action) : Decidable (WithinLimits world action) :=
  inferInstanceAs (Decidable (_ ∧ _))

/-- No insertion into the sets of QoS 2 identifiers has panicked, and no PUBREC can make one
panic. -/
def World.QosSetsFit (world : World config) : Prop :=
  world.panicked ≠ some .incomingPub ∧ world.panicked ≠ some .outgoingRel ∧
    ∀ key ∈ world.shared.inflightPub.elements, (world.shared.outgoingRel.insert key).isSome

/-- The sets are limited by the publishes that the broker and the client have outstanding. -/
structure World.QosBounded (world : World config) : Prop where
  incomingPub : world.shared.incomingPub.elements = unreleased world.history
  unacked : world.shared.unacked.card ≤ config.maxInflight
  receiving : world.panicked ≠ some .incomingPub
  releasing : world.panicked ≠ some .outgoingRel

namespace Shared

variable {shared next : Shared config} {packet : SendPacket} {pid : Pid}

theorem incomingPub_clean (contended : Bool) :
    (shared.clean packet pid contended).incomingPub = shared.incomingPub := by
  unfold clean
  split
  · rfl
  · cases packet with
    | publish qos =>
        simp only [cleanPublish]
        split <;> split <;> rfl
    | subscribe | unsubscribe => rfl

theorem incomingPub_of_waitStatus {codes : List UInt8}
    (ready : shared.waitStatus pid = some (next, codes)) :
    next.incomingPub = shared.incomingPub := by
  rcases waitStatus_eq_some ready with ⟨_, rfl⟩
  rfl

/-- A received PUBLISH of QoS 2 is recorded together with its insertion, a PUBREL with the
removal. -/
theorem incomingPub_of_handle {payload : Payload} {packet : ReceivedPacket} {reply : Option Reply}
    {history : List Event} (same : shared.incomingPub.elements = unreleased history)
    (handled : shared.handle payload packet = .done next reply) :
    next.incomingPub.elements = unreleased (receivedEvents payload packet ++ history) := by
  cases packet with
  | partialPublish qosPid topicName publish =>
      rcases cases_of_handlePublish handled with
        ⟨rfl, notReceived⟩ | ⟨pid, incomingPub, rfl, rfl, inserted, rfl⟩
      · have silent : receivedEvents payload (.partialPublish qosPid topicName publish) = [] := by
          cases qosPid with
          | exactlyOnce pid => exact if_neg fun copied => notReceived copied pid rfl
          | _ => rfl
        rw [silent]
        exact same
      · rw [IndexSet.elements_of_insert inserted, same]
        rfl
  | pubRel ack =>
      rcases eq_of_handlePubRel handled with rfl
      exact congrArg (Finset.erase · ack.pid.val) same
  | pubRec ack =>
      rcases exists_of_handlePubRec handled with ⟨_, outgoingRel, _, rfl⟩
      exact same
  | subAck ack =>
      rcases Handled.done.inj handled with ⟨rfl, rfl⟩
      unfold handleSubAck
      split <;> exact same
  | unsubAck ack =>
      rcases Handled.done.inj handled with ⟨rfl, rfl⟩
      unfold handleUnsubAck
      split <;> exact same
  | pingResp | connAck | disconnect | pubAck | pubComp =>
      rcases Handled.done.inj handled with ⟨rfl, rfl⟩
      exact same

/-- An unsolicited packet that ends the connection changes no received publish. -/
theorem unreleased_of_failed {payload : Payload} {packet : ReceivedPacket} {error : StateError}
    {history : List Event} (same : shared.incomingPub.elements = unreleased history)
    (handled : shared.handle payload packet = .failed error) :
    unreleased (receivedEvents payload packet ++ history) = unreleased history := by
  cases packet with
  | partialPublish qosPid topicName publish =>
      simp only [handle, handlePublish] at handled
      split at handled
      · cases qosPid <;> rfl
      · simp at handled
      · split at handled
        · simp at handled
        · simp at handled
        · split at handled <;> simp at handled
  | pubRel ack =>
      simp only [handle, handlePubRel] at handled
      split at handled
      · simp at handled
      · rename_i absent
        have missing : ack.pid.val ∉ unreleased history := by
          rw [← same]
          simpa using absent
        exact Finset.erase_eq_of_notMem missing
  | pubRec ack => rfl
  | pingResp | connAck | disconnect | pubAck | pubComp | subAck | unsubAck =>
      simp [handle] at handled

end Shared

namespace Transition

variable {world next : World config} {action : Action}

theorem incomingPub (transition : Transition world action next)
    (notReceive : ∀ packet payload, action ≠ .receive packet payload)
    (same : world.shared.incomingPub.elements = unreleased world.history) :
    next.shared.incomingPub.elements = unreleased next.history := by
  cases transition with
  | send packet =>
      unfold World.send
      split <;> exact same
  | commit =>
      unfold World.commit
      split
      · rename_i registered
        change _ = unreleased world.history
        rw [← same, ← (Shared.registers_of_done registered).incomingPub]
      · rename_i registered
        rw [(Shared.eq_of_full registered).1]
        exact same
      · exact same
  | grant result => cases result <;> exact same
  | waitStatus contended live phase notPublish ready =>
      have kept := Shared.incomingPub_of_waitStatus ready
      unfold World.finishStatus
      split
      · dsimp only
        rw [Shared.incomingPub_clean, kept]
        exact same
      · dsimp only
        rw [kept]
        exact same
  | drop =>
      unfold World.drop
      split
      all_goals
        first
        | exact same
        | exact (congrArg IndexSet.elements (Shared.incomingPub_clean _)).trans same
  | dropSubscription drop =>
      unfold World.dropSubscription
      grind [Shared.takePid]
  | transmitted =>
      unfold World.transmitted
      split <;> exact same
  | receive payload => exact absurd rfl (notReceive _ payload)
  | receiveFails error => cases error <;> exact same
  | keepAlive =>
      unfold World.keepAlive
      split <;> exact same
  | reset | disconnect => rfl
  | lock | waitTx | waitAck | waitRel | connect | connectFails | connected | lost | read | written
  | flushed | writeFails | replied | dropRun => exact same

end Transition

namespace World.QosBounded

variable {world next : World config} {action : Action}

theorem new (config : CrateConfig) : (World.new config).QosBounded :=
  ⟨rfl, Nat.zero_le _, by simp [World.new], by simp [World.new]⟩

/-- A publish in flight has its room in `outgoing_rel`, because it is counted with those there. -/
theorem insert_isSome (bounded : world.QosBounded) {key : ℕ}
    (inflight : key ∈ world.shared.inflightPub.elements) :
    (world.shared.outgoingRel.insert key).isSome := by
  rw [Option.isSome_iff_ne_none]
  intro full
  have overfull := IndexSet.insert_eq_none_iff.mp full
  have counted : insert key world.shared.outgoingRel.elements ⊆ world.shared.unacked := by
    intro other other_mem
    rcases Finset.mem_insert.mp other_mem with rfl | released
    · exact Finset.mem_union_left _ inflight
    · exact Finset.mem_union_right _ released
  exact absurd ((Finset.card_le_card counted).trans bounded.unacked) (Nat.not_le_of_lt overfull)

theorem qosSetsFit (bounded : world.QosBounded) : world.QosSetsFit :=
  ⟨bounded.receiving, bounded.releasing, fun _ inflight => bounded.insert_isSome inflight⟩

theorem handle_ne_panicked (bounded : world.QosBounded) {packet : ReceivedPacket}
    {payload : Payload} (limits : WithinLimits world (.receive packet payload)) (place : Panic) :
    world.shared.handle payload packet ≠ .panicked place := by
  intro handled
  rcases Shared.insert_eq_none_of_handle handled with ⟨ack, rfl, _, inflight, full⟩ |
    ⟨pid, topicName, publish, rfl, rfl, _, full⟩
  · have fits := bounded.insert_isSome inflight
    simp [full] at fits
  · have overfull := IndexSet.insert_eq_none_iff.mp full
    rw [bounded.incomingPub] at overfull
    exact absurd (limits.1 pid rfl) (Nat.not_le_of_lt overfull)

theorem step_receive (bounded : world.QosBounded) {packet : ReceivedPacket} {payload : Payload}
    (limits : WithinLimits world (.receive packet payload)) :
    (world.receive packet payload).QosBounded := by
  unfold World.receive
  dsimp only
  split
  · rename_i shared reply handled
    refine ⟨Shared.incomingPub_of_handle bounded.incomingPub handled, ?_, bounded.receiving,
      bounded.releasing⟩
    exact (Finset.card_le_card (Shared.settles_handle handled).unacked).trans bounded.unacked
  · rename_i error handled
    refine ⟨?_, bounded.unacked, bounded.receiving, bounded.releasing⟩
    exact bounded.incomingPub.trans
      (Shared.unreleased_of_failed bounded.incomingPub handled).symm
  · rename_i place handled
    exact absurd handled (bounded.handle_ne_panicked limits place)

theorem unacked_commit (bounded : world.QosBounded) {handle : ℕ} {call : Call}
    (live : world.calls.get? handle = some call)
    (limits : WithinLimits world (.commit handle)) :
    (world.commit handle call).shared.unacked.card ≤ config.maxInflight := by
  unfold World.commit
  split
  · rename_i shared registered
    have registers := Shared.registers_of_done registered
    change shared.unacked.card ≤ config.maxInflight
    unfold Shared.unacked
    rw [registers.outgoingRel, registers.inflightPub]
    split
    · rename_i needed
      have room : (world.shared.outgoingPid.insert call.pid.val).isSome := by
        rcases Shared.cases_of_done registered with ⟨outgoingPid, inserted, _⟩
        simp [inserted]
      rw [Finset.insert_union]
      exact limits.2 handle rfl call live needed room
    · exact bounded.unacked
  · rename_i shared registered
    rw [(Shared.eq_of_full registered).1]
    exact bounded.unacked
  · exact bounded.unacked

theorem step (bounded : world.QosBounded) (limits : WithinLimits world action)
    (stepped : System.step world action = some next) : next.QosBounded := by
  rcases transition_of_step stepped with ⟨running, transition⟩
  by_cases isReceive : ∃ packet payload, action = .receive packet payload
  · rcases isReceive with ⟨packet, payload, rfl⟩
    cases transition with
    | receive => exact bounded.step_receive limits
  push Not at isReceive
  have unacked : next.shared.unacked.card ≤ config.maxInflight := by
    by_cases isCommit : ∃ handle, action = .commit handle
    · rcases isCommit with ⟨handle, rfl⟩
      cases transition with
      | commit live => exact bounded.unacked_commit live limits
    · push Not at isCommit
      exact (Finset.card_le_card (transition.settles isCommit).unacked).trans bounded.unacked
  have untouched : ∀ place, next.panicked = some place → place = .inflightPub := by
    intro place failed
    rcases transition.panicked running failed with ⟨_, _, _, _, _, registered⟩ |
      ⟨packet, payload, received, _⟩
    · exact (Shared.insert_eq_none_of_panicked registered).1
    · exact absurd received (isReceive packet payload)
  refine ⟨transition.incomingPub isReceive bounded.incomingPub, unacked, ?_, ?_⟩
  · exact fun failed => absurd (untouched _ failed) (by decide)
  · exact fun failed => absurd (untouched _ failed) (by decide)

end World.QosBounded

/-- In every run in which the broker keeps its unreleased publishes of QoS 2, and the client the
publishes that are not acknowledged to the end, within `MAX_INFLIGHT`, the sets of QoS 2
identifiers never overflow. -/
theorem qosSetsFit_of_withinLimits {actions : List Action} {world : World config}
    (limits : Execution.Guarded step WithinLimits (World.new config) actions)
    (reached : runFrom config actions = some world) : world.QosSetsFit :=
  (Execution.invariant_of_guarded World.QosBounded (fun limits bounded stepped =>
    bounded.step limits stepped) limits (World.QosBounded.new config) reached).qosSetsFit

/-- A PUBLISH of QoS 2 with topic `a` and no payload. -/
def inboundPublish (pid : Pid) : ReceivedPacket :=
  .partialPublish (.exactlyOnce pid) ⟨[0x61], by decide⟩
    ⟨[0x34, 0x06, 0x00, 0x01, 0x61, UInt8.ofNat (pid.val / 256), UInt8.ofNat pid.val, 0x00], 8⟩

/-- A call publishes with QoS 2 and its PUBREC is received. -/
def publishToPubRec (handle : ℕ) (pid : Pid) : List Action :=
  [.send (.publish .exactlyOnce), .lock handle, .grant handle (.ok ()), .commit handle, .read,
    .written, .flushed, .transmitted, .receive (.pubRec ⟨pid, some (0x00, [])⟩) .copied, .replied]

/-- A publish of each direction is under way. -/
theorem qosSetsFit_of_withinLimits_example :
    ∃ world, runFrom twoInflight ([.connect, .connected false] ++
        publishToPubRec 0 ⟨2, by decide, by decide⟩ ++
        [.receive (inboundPublish ⟨7, by decide, by decide⟩) .copied]) = some world ∧
      world.shared.outgoingRel.len = 1 ∧ world.shared.incomingPub.len = 1 ∧ world.QosSetsFit := by
  rcases reached : runFrom twoInflight ([.connect, .connected false] ++
    publishToPubRec 0 ⟨2, by decide, by decide⟩ ++
    [.receive (inboundPublish ⟨7, by decide, by decide⟩) .copied]) with _ | world
  · exact absurd reached (by decide)
  · refine ⟨world, reached, ?_, ?_, qosSetsFit_of_withinLimits (by decide) reached⟩
    · cases reached
      decide
    · cases reached
      decide

/-- With `MAX_INFLIGHT` two, the third unreleased PUBLISH of the broker makes `select` panic, and so
does the PUBREC for the client's third publish when the first two wait for PUBCOMP. -/
theorem not_qosSetsFit_of_three_publishes :
    (∃ world, runFrom twoInflight [.connect, .connected false,
        .receive (inboundPublish ⟨1, by decide, by decide⟩) .copied, .replied,
        .receive (inboundPublish ⟨2, by decide, by decide⟩) .copied, .replied,
        .receive (inboundPublish ⟨3, by decide, by decide⟩) .copied] = some world ∧
      ¬world.QosSetsFit) ∧
    ∃ world, runFrom twoInflight ([.connect, .connected false] ++
        publishToPubRec 0 ⟨2, by decide, by decide⟩ ++
        publishToPubRec 1 ⟨3, by decide, by decide⟩ ++
        (publishToPubRec 2 ⟨4, by decide, by decide⟩).take 9) = some world ∧
      ¬world.QosSetsFit :=
  ⟨⟨_, rfl, fun fits => fits.1 (by decide)⟩, ⟨_, rfl, fun fits => fits.2.1 (by decide)⟩⟩

end Mqttrust.System
