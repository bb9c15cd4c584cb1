import Mqttrust.System.Shared

/-!
# The client's calls

A call of `publish`, `subscribe` or `unsubscribe` sends its packet and waits for
the transmission and the acknowledgements. Between two points at which it may be
suspended, a call acts on the shared state alone; the phases are these points.

One call is one attempt: a call that times out is dropped, and the next attempt
is a call of its own.
-/

namespace Mqttrust.System

/-- The packets that `MqttClient::send` is called with. -/
inductive SendPacket where
  | publish (qos : QoS)
  | subscribe
  | unsubscribe
deriving DecidableEq, Repr

namespace SendPacket

/-- `MqttEncode::get_qos`. -/
def getQos : SendPacket → Option QoS
  | .publish qos => some qos
  | .subscribe | .unsubscribe => none

/-- Whether the packet is a publish of QoS 1 or 2. -/
def needsAck : SendPacket → Bool
  | .publish .atMostOnce | .subscribe | .unsubscribe => false
  | .publish _ => true

/-- Whether the packet exists with the selected features. -/
def supported (config : CrateConfig) : SendPacket → Bool
  | .publish .exactlyOnce => config.qos2
  | _ => true

end SendPacket

/-- The errors of the client's calls. -/
inductive Error where
  | badTopicFilter
  | maxInflight
  | overflow
  | encoding
deriving DecidableEq, Repr

/-- The assertions that the client and the stack rely on. -/
inductive Panic where
  /-- `unwrap!(shared.inflight_pub.insert(pid.get()))` in `MqttClient::send`. -/
  | inflightPub
  /-- `unwrap!(shared.outgoing_rel.insert(p.pid.get()))` in `MqttStack::handle_pub_rec`. -/
  | outgoingRel
  /-- `incoming_pub.insert(pid.get()).unwrap()` in `MqttStack::select`. -/
  | incomingPub
deriving DecidableEq, Repr

/-- Where a call is suspended. -/
inductive Phase where
  /-- In `send`, waiting for the lock `tx_publisher`. -/
  | checked
  /-- In `send`, waiting for a grant of the TX channel. -/
  | publishing
  /-- In `send`, waiting for the shared state with the packet encoded. -/
  | granted
  /-- In `wait_tx`. -/
  | sent
  /-- Waiting for the first acknowledgement. -/
  | transmitted
  /-- Waiting for PUBCOMP. -/
  | acked
  | finished (result : Except Error Unit)
  /-- The future was dropped. -/
  | dropped
deriving DecidableEq

/-- One attempt of `publish` or `subscribe`, or a call of `unsubscribe`. -/
structure Call where
  packet : SendPacket
  pid : Pid
  phase : Phase
deriving DecidableEq

namespace Call

/-- The call is past the capacity check of `send` and before its insertions. -/
def isSending (call : Call) : Bool :=
  match call.phase with
  | .checked | .publishing | .granted => true
  | _ => false

/-- The call waits for the transmission or an acknowledgement. -/
def isWaiting (call : Call) : Bool :=
  match call.phase with
  | .sent | .transmitted | .acked => true
  | _ => false

/-- The attempt is over without success: `send` failed, or it timed out. -/
def failed (call : Call) : Bool :=
  match call.phase with
  | .finished (.error _) | .dropped => true
  | _ => false

end Call

/-- What the insertions of `send` come to. -/
inductive Registered (config : CrateConfig) where
  | done (shared : Shared config)
  /-- `Error::MaxInflight`. -/
  | full (shared : Shared config)
  | panicked (place : Panic)

namespace Shared

variable {config : CrateConfig} (shared : Shared config)

/-- The capacity check of `send`. -/
def hasRoom (packet : SendPacket) : Bool :=
  match packet.getQos with
  | none | some .atMostOnce => true
  | some _ => shared.inflightPub.len != config.maxInflight

/-- The insertions of `send`. -/
def register (packet : SendPacket) (pid : Pid) : Registered config :=
  match shared.outgoingPid.insert pid.val with
  | none => .full shared
  | some outgoingPid =>
      let shared := { shared with outgoingPid := outgoingPid }
      match packet with
      | .publish .atMostOnce => .done shared
      | .publish _ =>
          match shared.inflightPub.insert pid.val with
          | some inflightPub => .done { shared with inflightPub := inflightPub }
          | none => .panicked .inflightPub
      | .subscribe =>
          match shared.ackStatus.insert pid.val .awaitingSubAck with
          | some ackStatus => .done { shared with ackStatus := ackStatus }
          | none => .full shared
      | .unsubscribe =>
          match shared.ackStatus.insert pid.val (.awaitingUnsubAck true) with
          | some ackStatus => .done { shared with ackStatus := ackStatus }
          | none => .full shared

/-- The cleanup of `wait_publish_tx`: `outgoing_pid` is left alone when the identifier was in
`inflight_pub`. -/
def cleanPublish (pid : Pid) : Shared config :=
  let removed :=
    if shared.inflightPub.contains pid.val then
      { shared with inflightPub := shared.inflightPub.remove pid.val }
    else { shared with outgoingPid := shared.outgoingPid.remove pid.val }
  if config.qos2 then { removed with outgoingRel := removed.outgoingRel.remove pid.val }
  else removed

/-- The cleanup of `wait_subscribe_tx`. -/
def cleanSubscribe (pid : Pid) : Shared config :=
  { shared with
    ackStatus := shared.ackStatus.remove pid.val
    outgoingPid := shared.outgoingPid.remove pid.val }

/-- The cleanup of a call that waits; `unsubscribe` has none. It is skipped when the shared state
is locked. -/
def clean (packet : SendPacket) (pid : Pid) (contended : Bool) : Shared config :=
  if contended then shared
  else
    match packet with
    | .publish _ => shared.cleanPublish pid
    | .subscribe => shared.cleanSubscribe pid
    | .unsubscribe => shared

/-- The phase after `wait_tx`, unless the packet has not been transmitted. -/
def waitTx (packet : SendPacket) (pid : Pid) : Option Phase :=
  if shared.outgoingPid.contains pid.val then none
  else if packet = .publish .atMostOnce then some (.finished (.ok ()))
  else some .transmitted

/-- The phase after `wait_publish_tx` has waited for `inflight_pub`. -/
def waitAck (qos : QoS) (pid : Pid) : Option Phase :=
  if shared.inflightPub.contains pid.val then none
  else if qos = .exactlyOnce then some .acked
  else some (.finished (.ok ()))

/-- The phase after `wait_publish_tx` has waited for `outgoing_rel`. -/
def waitRel (pid : Pid) : Option Phase :=
  if shared.outgoingRel.contains pid.val then none else some (.finished (.ok ()))

/-- The reason codes of the acknowledgement that a call waits for, which are taken out of
`ack_status`. -/
def waitStatus (pid : Pid) : Option (Shared config × List UInt8) :=
  match shared.ackStatus.get? pid.val with
  | some (.acked codes) => some ({ shared with ackStatus := shared.ackStatus.remove pid.val }, codes)
  | _ => none

variable {shared} {next : Shared config} {packet : SendPacket} {pid : Pid} {later : Phase}

theorem cases_of_waitTx (ready : shared.waitTx packet pid = some later) :
    pid.val ∉ shared.outgoingPid.elements ∧
      (packet = .publish .atMostOnce ∧ later = .finished (.ok ()) ∨
        packet ≠ .publish .atMostOnce ∧ later = .transmitted) := by
  unfold waitTx at ready
  split at ready
  · simp at ready
  · rename_i absent
    refine ⟨by simpa using absent, ?_⟩
    split at ready
    · rename_i atMostOnce
      exact .inl ⟨atMostOnce, (Option.some.inj ready).symm⟩
    · rename_i other
      exact .inr ⟨other, (Option.some.inj ready).symm⟩

theorem cases_of_waitAck {qos : QoS} (ready : shared.waitAck qos pid = some later) :
    pid.val ∉ shared.inflightPub.elements ∧
      (qos = .exactlyOnce ∧ later = .acked ∨
        qos ≠ .exactlyOnce ∧ later = .finished (.ok ())) := by
  unfold waitAck at ready
  split at ready
  · simp at ready
  · rename_i absent
    refine ⟨by simpa using absent, ?_⟩
    split at ready
    · rename_i exactlyOnce
      exact .inl ⟨exactlyOnce, (Option.some.inj ready).symm⟩
    · rename_i other
      exact .inr ⟨other, (Option.some.inj ready).symm⟩

theorem eq_of_waitRel (ready : shared.waitRel pid = some later) :
    pid.val ∉ shared.outgoingRel.elements ∧ later = .finished (.ok ()) := by
  unfold waitRel at ready
  split at ready
  · simp at ready
  · rename_i absent
    exact ⟨by simpa using absent, (Option.some.inj ready).symm⟩

theorem waitStatus_eq_some {codes : List UInt8} (ready : shared.waitStatus pid = some (next, codes)) :
    shared.ackStatus.get? pid.val = some (.acked codes) ∧
      next = { shared with ackStatus := shared.ackStatus.remove pid.val } := by
  unfold waitStatus at ready
  split at ready
  · rename_i found
    rcases Prod.mk.inj (Option.some.inj ready) with ⟨rfl, rfl⟩
    exact ⟨found, rfl⟩
  · simp at ready

/-- What `send` inserts before it commits its frame. -/
structure Registers (shared next : Shared config) (packet : SendPacket) (pid : Pid) : Prop where
  outgoingPid : next.outgoingPid.elements = insert pid.val shared.outgoingPid.elements
  inflightPub : next.inflightPub.elements =
    if packet.needsAck then insert pid.val shared.inflightPub.elements
    else shared.inflightPub.elements
  outgoingRel : next.outgoingRel = shared.outgoingRel
  incomingPub : next.incomingPub = shared.incomingPub

/-- What `register` has done when it succeeds. -/
theorem cases_of_done (registered : shared.register packet pid = .done next) :
    ∃ outgoingPid, shared.outgoingPid.insert pid.val = some outgoingPid ∧
      (packet = .publish .atMostOnce ∧ next = { shared with outgoingPid := outgoingPid } ∨
      (∃ inflightPub, packet.needsAck = true ∧
        shared.inflightPub.insert pid.val = some inflightPub ∧
        next = { shared with outgoingPid := outgoingPid, inflightPub := inflightPub }) ∨
      ∃ status ackStatus, (packet = .subscribe ∧ status = .awaitingSubAck ∨
          packet = .unsubscribe ∧ status = .awaitingUnsubAck true) ∧
        shared.ackStatus.insert pid.val status = some ackStatus ∧
        next = { shared with outgoingPid := outgoingPid, ackStatus := ackStatus }) := by
  unfold register at registered
  split at registered
  · simp at registered
  · rename_i outgoingPid inserted
    refine ⟨outgoingPid, inserted, ?_⟩
    dsimp only at registered
    split at registered
    · rcases Registered.done.inj registered with rfl
      exact .inl ⟨rfl, rfl⟩
    · rename_i qos notZero
      have needed : (SendPacket.publish qos).needsAck = true := by
        cases qos <;> simp_all [SendPacket.needsAck]
      split at registered
      · rename_i inflightPub inserted
        rcases Registered.done.inj registered with rfl
        exact .inr (.inl ⟨inflightPub, needed, inserted, rfl⟩)
      · simp at registered
    · split at registered
      · rename_i ackStatus inserted
        rcases Registered.done.inj registered with rfl
        exact .inr (.inr ⟨_, ackStatus, .inl ⟨rfl, rfl⟩, inserted, rfl⟩)
      · simp at registered
    · split at registered
      · rename_i ackStatus inserted
        rcases Registered.done.inj registered with rfl
        exact .inr (.inr ⟨_, ackStatus, .inr ⟨rfl, rfl⟩, inserted, rfl⟩)
      · simp at registered

/-- What it has done when a set is full: at most the first insertion. -/
theorem cases_of_full (registered : shared.register packet pid = .full next) :
    (shared.outgoingPid.insert pid.val = none ∧ next = shared) ∨
      ∃ outgoingPid, shared.outgoingPid.insert pid.val = some outgoingPid ∧
        next = { shared with outgoingPid := outgoingPid } := by
  unfold register at registered
  split at registered
  · rename_i full
    rcases Registered.full.inj registered with rfl
    exact .inl ⟨full, rfl⟩
  · rename_i outgoingPid inserted
    refine .inr ⟨outgoingPid, inserted, ?_⟩
    dsimp only at registered
    split at registered
    · simp at registered
    · split at registered <;> simp at registered
    all_goals
      split at registered
      · simp at registered
      · exact (Registered.full.inj registered).symm

theorem registers_of_done (registered : shared.register packet pid = .done next) :
    shared.Registers next packet pid := by
  rcases cases_of_done registered with ⟨outgoingPid, inserted, stored⟩
  have outgoing := IndexSet.elements_of_insert inserted
  rcases stored with ⟨rfl, rfl⟩ | ⟨inflightPub, needed, inserted, rfl⟩ |
    ⟨status, ackStatus, awaited, _, rfl⟩
  · exact ⟨outgoing, rfl, rfl, rfl⟩
  · refine ⟨outgoing, ?_, rfl, rfl⟩
    rw [if_pos needed]
    exact IndexSet.elements_of_insert inserted
  · rcases awaited with ⟨rfl, _⟩ | ⟨rfl, _⟩
    · exact ⟨outgoing, rfl, rfl, rfl⟩
    · exact ⟨outgoing, rfl, rfl, rfl⟩

/-- Without the commit, only `outgoing_pid` may have grown, and by the identifier alone. -/
theorem eq_of_full (registered : shared.register packet pid = .full next) :
    next = { shared with outgoingPid := next.outgoingPid } ∧
      shared.outgoingPid.elements ⊆ next.outgoingPid.elements ∧
      next.outgoingPid.elements ⊆ insert pid.val shared.outgoingPid.elements := by
  rcases cases_of_full registered with ⟨_, rfl⟩ | ⟨outgoingPid, inserted, rfl⟩
  · exact ⟨rfl, subset_rfl, Finset.subset_insert _ _⟩
  · have outgoing := IndexSet.elements_of_insert inserted
    refine ⟨rfl, ?_, outgoing.subset⟩
    rw [outgoing]
    exact Finset.subset_insert _ _

theorem insert_eq_none_of_panicked {place : Panic}
    (registered : shared.register packet pid = .panicked place) :
    place = .inflightPub ∧ packet.needsAck = true ∧ shared.inflightPub.insert pid.val = none := by
  unfold register at registered
  split at registered
  · simp at registered
  · dsimp only at registered
    split at registered
    · simp at registered
    · rename_i qos notZero
      have needed : (SendPacket.publish qos).needsAck = true := by
        cases qos <;> simp_all [SendPacket.needsAck]
      split at registered
      · simp at registered
      · rename_i full
        rcases Registered.panicked.inj registered with rfl
        exact ⟨rfl, needed, full⟩
    all_goals
      split at registered <;> simp at registered

end Shared

end Mqttrust.System
