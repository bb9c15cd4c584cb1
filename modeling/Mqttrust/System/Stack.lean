import Mqttrust.Encoding.ReceivedPacket
import Mqttrust.System.Client

/-!
# The stack's reactions to received packets

What `MqttStack::select` does with a packet that `recv` returned: how the shared
state changes, and which packet is written in answer.
-/

namespace Mqttrust.System

/-- The packets that the stack writes by itself. -/
inductive Reply where
  | pubAck (pid : Pid)
  | pubRec (pid : Pid)
  | pubRel (pid : Pid)
  | pubComp (pid : Pid)
  | pingReq
deriving DecidableEq, Repr

/-- What becomes of the payload of a received PUBLISH. -/
inductive Payload where
  /-- It was copied into a grant of the RX channel and committed. -/
  | copied
  /-- There was no grant, so it was discarded. -/
  | discarded
  /-- Reading it failed. -/
  | failed (error : StateError)
deriving DecidableEq, Repr

/-- Whether the packet can be received with the selected features. -/
def receivable (config : CrateConfig) : ReceivedPacket → Bool
  | .pubRec _ | .pubRel _ | .pubComp _ | .partialPublish (.exactlyOnce _) _ _ => config.qos2
  | _ => true

/-- What handling a packet comes to. -/
inductive Handled (config : CrateConfig) where
  | done (shared : Shared config) (reply : Option Reply)
  /-- `select` returns the error. -/
  | failed (error : StateError)
  | panicked (place : Panic)

namespace Shared

variable {config : CrateConfig} (shared : Shared config)

/-- `MqttStack::handle_pub_ack`. -/
def handlePubAck (pid : Pid) : Shared config :=
  { shared with inflightPub := shared.inflightPub.remove pid.val }

/-- `MqttStack::handle_pub_rel`. -/
def handlePubRel (pid : Pid) : Handled config :=
  if shared.incomingPub.contains pid.val then
    .done { shared with incomingPub := shared.incomingPub.remove pid.val } (some (.pubComp pid))
  else .failed (.unsolicited pid.val)

/-- `MqttStack::handle_pub_rec`. -/
def handlePubRec (pid : Pid) : Handled config :=
  if shared.inflightPub.contains pid.val then
    match shared.outgoingRel.insert pid.val with
    | some outgoingRel =>
        .done { shared with
          inflightPub := shared.inflightPub.remove pid.val
          outgoingRel := outgoingRel } (some (.pubRel pid))
    | none => .panicked .outgoingRel
  else .failed (.unsolicited pid.val)

/-- `MqttStack::handle_pub_comp`. -/
def handlePubComp (pid : Pid) : Shared config :=
  { shared with outgoingRel := shared.outgoingRel.remove pid.val }

/-- `MqttStack::handle_sub_ack`. -/
def handleSubAck (pid : Pid) (codes : List UInt8) : Shared config :=
  match shared.ackStatus.get? pid.val with
  | some .awaitingSubAck =>
      { shared with ackStatus := shared.ackStatus.replace pid.val (.acked codes) }
  | _ => shared

/-- `MqttStack::handle_unsub_ack`. -/
def handleUnsubAck (pid : Pid) (codes : List UInt8) : Shared config :=
  match shared.ackStatus.get? pid.val with
  | some (.awaitingUnsubAck true) =>
      { shared with ackStatus := shared.ackStatus.replace pid.val (.acked codes) }
  | some (.awaitingUnsubAck false) =>
      { shared with ackStatus := shared.ackStatus.remove pid.val }
  | _ => shared

/-- The part of `select` that handles a PUBLISH. Without a grant it is not acknowledged. -/
def handlePublish (qosPid : QosPid) : Payload → Handled config
  | .failed error => .failed error
  | .discarded => .done shared none
  | .copied =>
      match qosPid with
      | .atMostOnce => .done shared none
      | .atLeastOnce pid => .done shared (some (.pubAck pid))
      | .exactlyOnce pid =>
          match shared.incomingPub.insert pid.val with
          | some incomingPub => .done { shared with incomingPub := incomingPub } (some (.pubRec pid))
          | none => .panicked .incomingPub

/-- The part of `select` that handles a received packet. -/
def handle (payload : Payload) : ReceivedPacket → Handled config
  | .pingResp | .connAck _ | .disconnect _ => .done shared none
  | .partialPublish qosPid _ _ => shared.handlePublish qosPid payload
  | .pubAck packet => .done (shared.handlePubAck packet.pid) none
  | .pubRec packet => shared.handlePubRec packet.pid
  | .pubRel packet => shared.handlePubRel packet.pid
  | .pubComp packet => .done (shared.handlePubComp packet.pid) none
  | .subAck packet => .done (shared.handleSubAck packet.pid packet.codes) none
  | .unsubAck packet => .done (shared.handleUnsubAck packet.pid packet.codes) none

variable {shared} {next : Shared config} {reply : Option Reply} {pid : Pid}

/-- A PUBLISH changes something only when it is one of QoS 2 and copied. -/
theorem cases_of_handlePublish {qosPid : QosPid} {payload : Payload}
    (handled : shared.handlePublish qosPid payload = .done next reply) :
    next = shared ∧ (payload = .copied → ∀ pid, qosPid ≠ .exactlyOnce pid) ∨
      ∃ pid incomingPub, payload = .copied ∧ qosPid = .exactlyOnce pid ∧
        shared.incomingPub.insert pid.val = some incomingPub ∧
        next = { shared with incomingPub := incomingPub } := by
  unfold handlePublish at handled
  split at handled
  · simp at handled
  · rcases Handled.done.inj handled with ⟨rfl, _⟩
    exact .inl ⟨rfl, by simp⟩
  · split at handled
    · rcases Handled.done.inj handled with ⟨rfl, _⟩
      exact .inl ⟨rfl, by simp⟩
    · rcases Handled.done.inj handled with ⟨rfl, _⟩
      exact .inl ⟨rfl, by simp⟩
    · split at handled
      · rename_i inserted
        rcases Handled.done.inj handled with ⟨rfl, _⟩
        exact .inr ⟨_, _, rfl, rfl, inserted, rfl⟩
      · simp at handled

theorem eq_of_handlePubRel (handled : shared.handlePubRel pid = .done next reply) :
    next = { shared with incomingPub := shared.incomingPub.remove pid.val } := by
  unfold handlePubRel at handled
  split at handled
  · exact (Handled.done.inj handled).1.symm
  · simp at handled

/-- A PUBREC moves its identifier from `inflight_pub` to `outgoing_rel`. -/
theorem exists_of_handlePubRec (handled : shared.handlePubRec pid = .done next reply) :
    pid.val ∈ shared.inflightPub.elements ∧
      ∃ outgoingRel, shared.outgoingRel.insert pid.val = some outgoingRel ∧
        next = { shared with
          inflightPub := shared.inflightPub.remove pid.val
          outgoingRel := outgoingRel } := by
  unfold handlePubRec at handled
  split at handled
  · rename_i inflight
    refine ⟨IndexSet.contains_iff.mp inflight, ?_⟩
    split at handled
    · rename_i outgoingRel inserted
      exact ⟨outgoingRel, inserted, (Handled.done.inj handled).1.symm⟩
    · simp at handled
  · simp at handled

end Shared

end Mqttrust.System
