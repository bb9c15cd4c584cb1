import Mqttrust.System.ExactlyOnce

/-!
# Tracking a publish

A publish learns that it was transmitted and acknowledged from the absence of its
identifier in the sets of the shared state. Each call is tracked through its
phases: for every set that the call looks at, either its identifier is there or
the event that took it out is in the history.
-/

namespace Mqttrust.System

variable {config : CrateConfig}

/-- The frame that a call commits. -/
def Call.frame (call : Call) (handle : ℕ) : Frame := .send handle call.packet call.pid

section Commit

variable {world : World config} {call : Call} {shared : Shared config}

theorem World.commit_of_done (handle : ℕ)
    (registered : world.shared.register call.packet call.pid = .done shared) :
    world.commit handle call =
      { world.setPhase handle call .sent with
        shared := shared
        txPublisher := none
        frames := world.frames ++ [call.frame handle] } := by
  simp only [World.commit, registered, Call.frame]

theorem World.commit_of_full (handle : ℕ)
    (registered : world.shared.register call.packet call.pid = .full shared) :
    world.commit handle call =
      { world.setPhase handle call (.finished (.error .maxInflight)) with
        shared := shared
        txPublisher := none } := by
  simp only [World.commit, registered]

theorem World.commit_of_panicked {place : Panic} (handle : ℕ)
    (registered : world.shared.register call.packet call.pid = .panicked place) :
    world.commit handle call = { world with panicked := some place } := by
  simp only [World.commit, registered]

end Commit

/-- The events of a publish that was delivered, most recent first. -/
def Call.milestones (call : Call) (handle : ℕ) : QoS → List Event
  | .atMostOnce => [.written (call.frame handle)]
  | .atLeastOnce => [.pubAck call.pid, .written (call.frame handle)]
  | .exactlyOnce => [.pubComp call.pid, .pubRec call.pid, .written (call.frame handle)]

/-- The call is a publish whose identifier is in a set that it looks at. -/
def Call.awaits (call : Call) (shared : Shared config) : Bool :=
  match call.packet, call.phase with
  | .publish qos, .sent =>
      shared.outgoingPid.contains call.pid.val ||
        qos != .atMostOnce && shared.inflightPub.contains call.pid.val ||
        qos == .exactlyOnce && shared.outgoingRel.contains call.pid.val
  | .publish qos, .transmitted =>
      qos != .atMostOnce && shared.inflightPub.contains call.pid.val ||
        qos == .exactlyOnce && shared.outgoingRel.contains call.pid.val
  | .publish _, .acked => shared.outgoingRel.contains call.pid.val
  | _, _ => false

/-- An identifier is taken out of no set. -/
structure Shared.Keeps (shared next : Shared config) (key : ℕ) : Prop where
  outgoingPid : key ∈ shared.outgoingPid.elements → key ∈ next.outgoingPid.elements
  inflightPub : key ∈ shared.inflightPub.elements → key ∈ next.inflightPub.elements
  outgoingRel : key ∈ shared.outgoingRel.elements → key ∈ next.outgoingRel.elements

namespace Shared.Keeps

variable {shared next last : Shared config} {key : ℕ}

theorem of_eq (outgoingPid : next.outgoingPid = shared.outgoingPid)
    (inflightPub : next.inflightPub = shared.inflightPub)
    (outgoingRel : next.outgoingRel = shared.outgoingRel) : shared.Keeps next key :=
  ⟨fun present => outgoingPid ▸ present, fun present => inflightPub ▸ present,
    fun present => outgoingRel ▸ present⟩

theorem trans (first : shared.Keeps next key) (second : next.Keeps last key) :
    shared.Keeps last key :=
  ⟨second.outgoingPid ∘ first.outgoingPid, second.inflightPub ∘ first.inflightPub,
    second.outgoingRel ∘ first.outgoingRel⟩

/-- The cleanup of a call takes out its own identifier only. -/
theorem clean {pid : Pid} (different : key ≠ pid.val) (packet : SendPacket) (contended : Bool) :
    shared.Keeps (shared.clean packet pid contended) key := by
  have erased : ∀ set : Finset ℕ, key ∈ set → key ∈ set.erase pid.val :=
    fun set present => Finset.mem_erase.mpr ⟨different, present⟩
  unfold Shared.clean
  split
  · exact of_eq rfl rfl rfl
  · cases packet with
    | publish qos =>
        simp only [Shared.cleanPublish]
        split <;> split <;> exact ⟨by simp_all, by simp_all, by simp_all⟩
    | subscribe => exact ⟨erased _, id, id⟩
    | unsubscribe => exact of_eq rfl rfl rfl

theorem waitStatus {pid : Pid} {codes : List UInt8}
    (ready : shared.waitStatus pid = some (next, codes)) : shared.Keeps next key := by
  rcases Shared.waitStatus_eq_some ready with ⟨_, rfl⟩
  exact of_eq rfl rfl rfl

theorem registers {packet : SendPacket} {pid : Pid}
    (registers : shared.Registers next packet pid) : shared.Keeps next key := by
  refine ⟨fun present => ?_, fun present => ?_, fun present => registers.outgoingRel ▸ present⟩
  · rw [registers.outgoingPid]
    exact Finset.mem_insert_of_mem present
  · rw [registers.inflightPub]
    split
    · exact Finset.mem_insert_of_mem present
    · exact present

end Shared.Keeps

theorem Shared.keeps_of_handle {shared next : Shared config} {payload : Payload}
    {packet : ReceivedPacket} {reply : Option Reply} {key : ℕ} (noAnswer : answers? packet = none)
    (notPubComp : ∀ ack, packet ≠ .pubComp ack)
    (handled : shared.handle payload packet = .done next reply) : shared.Keeps next key := by
  cases packet with
  | pubAck | pubRec => simp [answers?] at noAnswer
  | pubComp ack => exact absurd rfl (notPubComp ack)
  | partialPublish qosPid topicName publish =>
      rcases cases_of_handlePublish handled with ⟨rfl, _⟩ | ⟨pid, incomingPub, _, _, _, rfl⟩
      · exact .of_eq rfl rfl rfl
      · exact .of_eq rfl rfl rfl
  | pubRel ack =>
      rcases eq_of_handlePubRel handled with rfl
      exact .of_eq rfl rfl rfl
  | subAck ack =>
      rcases Handled.done.inj handled with ⟨rfl, rfl⟩
      unfold handleSubAck
      split <;> exact .of_eq rfl rfl rfl
  | unsubAck ack =>
      rcases Handled.done.inj handled with ⟨rfl, rfl⟩
      unfold handleUnsubAck
      split <;> exact .of_eq rfl rfl rfl
  | pingResp | connAck | disconnect =>
      rcases Handled.done.inj handled with ⟨rfl, rfl⟩
      exact .of_eq rfl rfl rfl

namespace Call

variable {call : Call} {handle : ℕ} {qos : QoS} {shared next : Shared config}
  {history later : List Event}

/-- PUBCOMP is outstanding for a publish of QoS 2 whose PUBREC was received, or it was received. -/
def Released (call : Call) (handle : ℕ) (shared : Shared config) (history : List Event) : Prop :=
  call.pid.val ∈ shared.outgoingRel.elements ∧
      [.pubRec call.pid, .written (call.frame handle)].Sublist history ∨
    (call.milestones handle .exactlyOnce).Sublist history

/-- The acknowledgements of a publish are outstanding, or they were received. -/
def Acknowledged (call : Call) (handle : ℕ) (shared : Shared config) (history : List Event) :
    QoS → Prop
  | .atMostOnce => True
  | .atLeastOnce =>
      call.pid.val ∈ shared.inflightPub.elements ∨
        (call.milestones handle .atLeastOnce).Sublist history
  | .exactlyOnce =>
      call.pid.val ∈ shared.inflightPub.elements ∨ call.Released handle shared history

/-- A publish knows of its transmission and acknowledgements what its phase says. -/
def Tracked (call : Call) (handle : ℕ) (qos : QoS) (shared : Shared config)
    (history : List Event) : Prop :=
  match call.phase with
  | .sent =>
      (call.pid.val ∈ shared.outgoingPid.elements ∨ .written (call.frame handle) ∈ history) ∧
        call.Acknowledged handle shared history qos
  | .transmitted =>
      .written (call.frame handle) ∈ history ∧ call.Acknowledged handle shared history qos
  | .acked => qos = .exactlyOnce ∧ call.Released handle shared history
  | .finished (.ok ()) => (call.milestones handle qos).Sublist history
  | .checked | .publishing | .granted | .finished (.error _) | .dropped => True

theorem Released.mono (released : call.Released handle shared history)
    (grown : history.Sublist later)
    (kept : call.pid.val ∈ shared.outgoingRel.elements →
      call.pid.val ∈ next.outgoingRel.elements) :
    call.Released handle next later := by
  rcases released with ⟨waiting, received⟩ | received
  · exact .inl ⟨kept waiting, received.trans grown⟩
  · exact .inr (received.trans grown)

theorem Acknowledged.of_parts (acknowledged : call.Acknowledged handle shared history qos)
    (grown : history.Sublist later)
    (inflight : call.pid.val ∈ shared.inflightPub.elements →
      call.Acknowledged handle next later qos)
    (release : call.Released handle shared history → call.Released handle next later) :
    call.Acknowledged handle next later qos := by
  cases qos with
  | atMostOnce => trivial
  | atLeastOnce =>
      rcases acknowledged with waiting | received
      · exact inflight waiting
      · exact .inr (received.trans grown)
  | exactlyOnce =>
      rcases acknowledged with waiting | released
      · exact inflight waiting
      · exact .inr (release released)

theorem acknowledged_of_mem (inflight : call.pid.val ∈ shared.inflightPub.elements) :
    call.Acknowledged handle shared history qos := by
  cases qos with
  | atMostOnce => trivial
  | atLeastOnce | exactlyOnce => exact .inl inflight

/-- A call stays tracked when every event that it waits for stays outstanding or is recorded. -/
theorem Tracked.of_parts (tracked : call.Tracked handle qos shared history)
    (grown : history.Sublist later)
    (transmission : call.isWaiting = true → call.pid.val ∈ shared.outgoingPid.elements →
      call.pid.val ∈ next.outgoingPid.elements ∨ .written (call.frame handle) ∈ later)
    (inflight : call.isWaiting = true → call.pid.val ∈ shared.inflightPub.elements →
      call.Acknowledged handle next later qos)
    (release : call.isWaiting = true → call.Released handle shared history →
      call.Released handle next later) :
    call.Tracked handle qos next later := by
  unfold Tracked at *
  cases phase : call.phase with
  | sent =>
      have waiting : call.isWaiting = true := by simp [isWaiting, phase]
      simp only [phase] at tracked ⊢
      refine ⟨?_, tracked.2.of_parts grown (inflight waiting) (release waiting)⟩
      rcases tracked.1 with present | written
      · exact transmission waiting present
      · exact .inr (grown.subset written)
  | transmitted =>
      have waiting : call.isWaiting = true := by simp [isWaiting, phase]
      simp only [phase] at tracked ⊢
      exact ⟨grown.subset tracked.1,
        tracked.2.of_parts grown (inflight waiting) (release waiting)⟩
  | acked =>
      have waiting : call.isWaiting = true := by simp [isWaiting, phase]
      simp only [phase] at tracked ⊢
      exact ⟨tracked.1, release waiting tracked.2⟩
  | finished result =>
      simp only [phase] at tracked ⊢
      rcases result with error | success
      · trivial
      · exact tracked.trans grown
  | checked | publishing | granted | dropped => trivial

theorem Tracked.mono (tracked : call.Tracked handle qos shared history)
    (grown : history.Sublist later)
    (keeps : call.isWaiting = true → shared.Keeps next call.pid.val) :
    call.Tracked handle qos next later := by
  refine tracked.of_parts grown ?_ ?_ ?_
  · exact fun waiting present => .inl ((keeps waiting).outgoingPid present)
  · exact fun waiting present => acknowledged_of_mem ((keeps waiting).inflightPub present)
  · exact fun waiting released => released.mono grown (keeps waiting).outgoingRel

/-- The TX branch of `select` takes out the identifier of a frame that was written. -/
theorem Tracked.removeOutgoing (tracked : call.Tracked handle qos shared history) (key : ℕ)
    (written : call.isWaiting = true → call.pid.val = key →
      .written (call.frame handle) ∈ history) :
    call.Tracked handle qos { shared with outgoingPid := shared.outgoingPid.remove key }
      history := by
  refine tracked.of_parts (List.Sublist.refl _) ?_ ?_ ?_
  · intro waiting present
    by_cases same : call.pid.val = key
    · exact .inr (written waiting same)
    · exact .inl (Finset.mem_erase.mpr ⟨same, present⟩)
  · exact fun _ present => acknowledged_of_mem present
  · exact fun _ released => released.mono (List.Sublist.refl _) id

/-- A PUBACK acknowledges the publish of QoS 1 that it answers. -/
theorem Tracked.pubAck (tracked : call.Tracked handle qos shared history) (pid : Pid)
    (answers : call.isWaiting = true → call.pid = pid →
      qos = .atLeastOnce ∧ .written (call.frame handle) ∈ history) :
    call.Tracked handle qos (shared.handlePubAck pid) (.pubAck pid :: history) := by
  refine tracked.of_parts (List.sublist_cons_self _ _) ?_ ?_ ?_
  · exact fun _ present => .inl present
  · intro waiting present
    by_cases same : call.pid = pid
    · rcases answers waiting same with ⟨rfl, written⟩
      subst same
      exact .inr ((List.singleton_sublist.mpr written).cons_cons _)
    · exact acknowledged_of_mem
        (Finset.mem_erase.mpr ⟨fun equal => same (Pid.ext equal), present⟩)
  · exact fun _ released => released.mono (List.sublist_cons_self _ _) id

/-- A PUBREC moves the publish of QoS 2 that it answers to `outgoing_rel`. -/
theorem Tracked.pubRec (tracked : call.Tracked handle qos shared history) {pid : Pid}
    {reply : Option Reply} (handled : shared.handlePubRec pid = .done next reply)
    (answers : call.isWaiting = true → call.pid = pid →
      qos = .exactlyOnce ∧ .written (call.frame handle) ∈ history) :
    call.Tracked handle qos next (.pubRec pid :: history) := by
  rcases Shared.exists_of_handlePubRec handled with ⟨_, outgoingRel, inserted, rfl⟩
  have added := IndexSet.elements_of_insert inserted
  refine tracked.of_parts (List.sublist_cons_self _ _) ?_ ?_ ?_
  · exact fun _ present => .inl present
  · intro waiting present
    by_cases same : call.pid = pid
    · rcases answers waiting same with ⟨rfl, written⟩
      subst same
      refine .inr (.inl ⟨?_, (List.singleton_sublist.mpr written).cons_cons _⟩)
      rw [added]
      exact Finset.mem_insert_self _ _
    · exact acknowledged_of_mem
        (Finset.mem_erase.mpr ⟨fun equal => same (Pid.ext equal), present⟩)
  · intro _ released
    refine released.mono (List.sublist_cons_self _ _) fun present => ?_
    rw [added]
    exact Finset.mem_insert_of_mem present

/-- A PUBCOMP completes a publish of QoS 2. -/
theorem Tracked.pubComp (tracked : call.Tracked handle qos shared history) (pid : Pid) :
    call.Tracked handle qos (shared.handlePubComp pid) (.pubComp pid :: history) := by
  refine tracked.of_parts (List.sublist_cons_self _ _) ?_ ?_ ?_
  · exact fun _ present => .inl present
  · exact fun _ present => acknowledged_of_mem present
  · intro _ released
    rcases released with ⟨present, received⟩ | received
    · by_cases same : call.pid = pid
      · subst same
        exact .inr (received.cons_cons _)
      · refine .inl ⟨?_, received.trans (List.sublist_cons_self _ _)⟩
        exact Finset.mem_erase.mpr ⟨fun equal => same (Pid.ext equal), present⟩
    · exact .inr (received.trans (List.sublist_cons_self _ _))

theorem Released.of_absent (released : call.Released handle shared history)
    (grown : history.Sublist later) (absent : call.pid.val ∉ shared.outgoingRel.elements) :
    call.Released handle next later :=
  .inr ((released.resolve_left fun waiting => absent waiting.1).trans grown)

theorem Acknowledged.of_absent (acknowledged : call.Acknowledged handle shared history qos)
    (grown : history.Sublist later)
    (inflight : (qos != .atMostOnce && shared.inflightPub.contains call.pid.val) = false)
    (released : (qos == .exactlyOnce && shared.outgoingRel.contains call.pid.val) = false) :
    call.Acknowledged handle next later qos := by
  cases qos with
  | atMostOnce => trivial
  | atLeastOnce =>
      have absent : call.pid.val ∉ shared.inflightPub.elements := by simpa using inflight
      exact .inr ((acknowledged.resolve_left absent).trans grown)
  | exactlyOnce =>
      have absent : call.pid.val ∉ shared.inflightPub.elements := by simpa using inflight
      have absentRel : call.pid.val ∉ shared.outgoingRel.elements := by simpa using released
      exact .inr ((acknowledged.resolve_left absent).of_absent grown absentRel)

/-- A reset does no harm to a publish whose identifier is in no set that it looks at. -/
theorem Tracked.reset (tracked : call.Tracked handle qos shared history)
    (publish : call.packet = .publish qos) (idle : call.awaits shared = false) :
    call.Tracked handle qos shared.reset (.reset :: history) := by
  have grown := List.sublist_cons_self Event.reset history
  unfold Tracked at *
  unfold awaits at idle
  cases phase : call.phase with
  | sent =>
      simp only [publish, phase, Bool.or_eq_false_iff] at tracked idle ⊢
      rcases idle with ⟨⟨outgoing, inflight⟩, released⟩
      refine ⟨.inr (grown.subset ?_), tracked.2.of_absent grown inflight released⟩
      exact tracked.1.resolve_left (IndexSet.contains_eq_false_iff.mp outgoing)
  | transmitted =>
      simp only [publish, phase, Bool.or_eq_false_iff] at tracked idle ⊢
      exact ⟨grown.subset tracked.1, tracked.2.of_absent grown idle.1 idle.2⟩
  | acked =>
      simp only [publish, phase] at tracked idle ⊢
      exact ⟨tracked.1, tracked.2.of_absent grown (IndexSet.contains_eq_false_iff.mp idle)⟩
  | finished result =>
      simp only [phase] at tracked ⊢
      rcases result with error | success
      · trivial
      · exact tracked.trans grown
  | checked | publishing | granted | dropped => trivial

theorem Tracked.waitTx (tracked : call.Tracked handle qos shared history)
    (publish : call.packet = .publish qos) (phase : call.phase = .sent) {later : Phase}
    (ready : shared.waitTx call.packet call.pid = some later) :
    ({ call with phase := later } : Call).Tracked handle qos shared history := by
  unfold Tracked at tracked
  simp only [phase] at tracked
  rcases Shared.cases_of_waitTx ready with ⟨absent, decided⟩
  have written := tracked.1.resolve_left absent
  rcases decided with ⟨atMostOnce, rfl⟩ | ⟨_, rfl⟩
  · rcases SendPacket.publish.inj (publish.symm.trans atMostOnce) with rfl
    exact List.singleton_sublist.mpr written
  · exact ⟨written, tracked.2⟩

theorem Tracked.waitAck (tracked : call.Tracked handle qos shared history)
    (phase : call.phase = .transmitted) {later : Phase}
    (ready : shared.waitAck qos call.pid = some later) :
    ({ call with phase := later } : Call).Tracked handle qos shared history := by
  unfold Tracked at tracked
  simp only [phase] at tracked
  rcases tracked with ⟨written, acknowledged⟩
  rcases Shared.cases_of_waitAck ready with ⟨absent, ⟨rfl, rfl⟩ | ⟨other, rfl⟩⟩
  · exact ⟨rfl, acknowledged.resolve_left absent⟩
  · cases qos with
    | atMostOnce => exact List.singleton_sublist.mpr written
    | atLeastOnce => exact acknowledged.resolve_left absent
    | exactlyOnce => exact absurd rfl other

theorem Tracked.waitRel (tracked : call.Tracked handle qos shared history)
    (phase : call.phase = .acked) {later : Phase}
    (ready : shared.waitRel call.pid = some later) :
    ({ call with phase := later } : Call).Tracked handle qos shared history := by
  unfold Tracked at tracked
  simp only [phase] at tracked
  rcases tracked with ⟨rfl, released⟩
  rcases Shared.eq_of_waitRel ready with ⟨absent, rfl⟩
  exact released.resolve_left fun waiting => absent waiting.1

/-- A call that ends without success, or has not been inserted, is tracked trivially. -/
theorem tracked_of_phase (phase : Phase) (quiet : ({ call with phase := phase } : Call).isWaiting = false)
    (unsuccessful : phase ≠ .finished (.ok ())) :
    ({ call with phase := phase } : Call).Tracked handle qos shared history := by
  cases phase with
  | sent | transmitted | acked => simp [isWaiting] at quiet
  | finished result =>
      rcases result with error | ⟨⟩
      · trivial
      · exact absurd rfl unsuccessful
  | checked | publishing | granted | dropped => trivial

end Call

end Mqttrust.System
