import Mqttrust.System.Advance

/-!
# Routing acknowledgements to the calls

The acknowledgements of a SUBSCRIBE and of an UNSUBSCRIBE are passed on through
`ack_status`. A call inserts its entry when it commits its frame, the stack replaces
the status of an entry that waits for an acknowledgement of that kind, and the call
takes it out. As long as no identifier is issued that a pending call holds, the entry
of a call that waits is its own: it holds the reason codes of the first
acknowledgement since the commit, or a reset has removed it.
-/

namespace Mqttrust.System

variable {config : CrateConfig}

/-- Whether a call with the packet waits for reason codes. -/
def SendPacket.needsStatus : SendPacket → Bool
  | .subscribe | .unsubscribe => true
  | .publish _ => false

/-- The status that is inserted for a packet. -/
def SendPacket.awaited : SendPacket → Option AckStatus
  | .subscribe => some .awaitingSubAck
  | .unsubscribe => some (.awaitingUnsubAck true)
  | .publish _ => none

/-- The reason codes of a received packet that acknowledges a packet with an identifier. -/
def SendPacket.acknowledgedBy? (packet : SendPacket) (pid : Pid) :
    ReceivedPacket → Option (List UInt8)
  | .subAck ack => if packet = .subscribe ∧ ack.pid = pid then some ack.codes else none
  | .unsubAck ack => if packet = .unsubscribe ∧ ack.pid = pid then some ack.codes else none
  | _ => none

/-- The reason codes of the acknowledgements of a packet that are received during some actions. -/
def SendPacket.acknowledgements (packet : SendPacket) (pid : Pid) (actions : List Action) :
    List (List UInt8) :=
  actions.filterMap fun action => action.receives?.bind (packet.acknowledgedBy? pid)

/-- The identifier that an action issues. -/
def Action.issued? (world : World config) : Action → Option Pid
  | .send packet => if world.shared.hasRoom packet then some world.shared.nextPid else none
  | .dropSubscription locks => some (if locks.pidLocked then world.shared.nextPid else Pid.new)
  | _ => none

/-- A pending call holds the identifier. -/
def World.holds (world : World config) (pid : Pid) : Bool :=
  world.calls.count (fun call => call.isPending && call.pid == pid) != 0

/-- The condition on a step: an identifier that is issued is not held by a pending call. -/
def IssuesUnheld (world : World config) (action : Action) : Prop :=
  ∀ pid ∈ action.issued? world, world.holds pid = false

instance (world : World config) (action : Action) : Decidable (IssuesUnheld world action) :=
  inferInstanceAs (Decidable (∀ pid ∈ _, _))

/-- The packet acknowledges an entry of `ack_status` that waits for an acknowledgement of its
kind. -/
def Shared.Expects (shared : Shared config) : ReceivedPacket → Prop
  | .subAck ack => shared.ackStatus.get? ack.pid.val = some .awaitingSubAck
  | .unsubAck ack =>
      ∃ waits, shared.ackStatus.get? ack.pid.val = some (.awaitingUnsubAck waits)
  | _ => False

/-- What the entry of a call can be after the acknowledgements that have arrived since its
insertion. -/
inductive SendPacket.EntryAfter (packet : SendPacket) : List (List UInt8) → Option AckStatus → Prop
  | removed (arrived : List (List UInt8)) : EntryAfter packet arrived none
  | awaiting : EntryAfter packet [] packet.awaited
  | acked (first : List UInt8) (later : List (List UInt8)) :
      EntryAfter packet (first :: later) (some (.acked first))

/-- The call has committed its frame, and the acknowledgements since then satisfy a property. -/
def Call.Since (call : Call) (past : List Action) (handle : ℕ)
    (property : List (List UInt8) → Prop) : Prop :=
  ∃ before after, past = before ++ .commit handle :: after ∧
    property (call.packet.acknowledgements call.pid after)

/-- A call that waits for PUBCOMP is a publish. -/
def World.Released (world : World config) : Prop :=
  ∀ handle call, world.calls.get? handle = some call → call.phase = .acked →
    call.packet.needsStatus = false

/-- What a run keeps: the identifiers of pending calls are distinct, a call that waits finds its own
entry, and one that was successful has found the codes of the first acknowledgement. -/
structure World.Routed (past : List Action) (world : World config) : Prop where
  distinct : ∀ handle other call call', world.calls.get? handle = some call →
    world.calls.get? other = some call' → call.isPending = true → call'.isPending = true →
      call.pid = call'.pid → handle = other
  released : world.Released
  waiting : ∀ handle call, world.calls.get? handle = some call → call.isWaiting = true →
    call.packet.needsStatus = true → call.Since past handle fun arrived =>
      call.packet.EntryAfter arrived (world.shared.ackStatus.get? call.pid.val)
  succeeded : ∀ handle call, world.calls.get? handle = some call →
    call.phase = .finished (.ok ()) → call.packet.needsStatus = true →
      call.Since past handle fun arrived =>
        ∃ codes later, arrived = codes :: later ∧ ∀ code ∈ codes, code < 0x80

namespace Shared

variable {shared next : Shared config} {packet : SendPacket} {pid : Pid} {key : ℕ}

theorem ackStatus_of_publish (registered : shared.register packet pid = .done next)
    (publish : packet.needsStatus = false) : next.ackStatus = shared.ackStatus := by
  rcases cases_of_done registered with
    ⟨outgoingPid, _, ⟨_, rfl⟩ | ⟨inflightPub, _, _, rfl⟩ | ⟨status, ackStatus, awaited, _⟩⟩
  · rfl
  · rfl
  · rcases awaited with ⟨rfl, _⟩ | ⟨rfl, _⟩ <;> simp [SendPacket.needsStatus] at publish

/-- A SUBSCRIBE or an UNSUBSCRIBE has its slot inserted. -/
theorem exists_insert_of_needsStatus (registered : shared.register packet pid = .done next)
    (needsStatus : packet.needsStatus = true) :
    ∃ status, packet.awaited = some status ∧
      shared.ackStatus.insert pid.val status = some next.ackStatus := by
  rcases cases_of_done registered with
    ⟨outgoingPid, _, ⟨rfl, _⟩ | ⟨inflightPub, needed, _⟩ | ⟨status, ackStatus, awaited, inserted, rfl⟩⟩
  · simp [SendPacket.needsStatus] at needsStatus
  · cases packet <;> simp [SendPacket.needsStatus, SendPacket.needsAck] at needsStatus needed
  · refine ⟨status, ?_, inserted⟩
    rcases awaited with ⟨rfl, rfl⟩ | ⟨rfl, rfl⟩ <;> rfl

theorem status_of_registered (registered : shared.register packet pid = .done next)
    (different : key ≠ pid.val) : next.ackStatus.get? key = shared.ackStatus.get? key := by
  cases needsStatus : packet.needsStatus with
  | false => rw [ackStatus_of_publish registered needsStatus]
  | true =>
      rcases exists_insert_of_needsStatus registered needsStatus with ⟨status, _, inserted⟩
      exact (IndexMap.get?_insert inserted key).trans (if_neg different)

theorem status_of_committed (registered : shared.register packet pid = .done next)
    (needsStatus : packet.needsStatus = true) :
    next.ackStatus.get? pid.val = packet.awaited := by
  rcases exists_insert_of_needsStatus registered needsStatus with ⟨status, awaited, inserted⟩
  rw [awaited]
  exact (IndexMap.get?_insert inserted pid.val).trans (if_pos rfl)

theorem status_clean (shared : Shared config) (packet : SendPacket) (pid : Pid) (contended : Bool)
    (key : ℕ) :
    (shared.clean packet pid contended).ackStatus.get? key = none ∨
      (shared.clean packet pid contended).ackStatus.get? key = shared.ackStatus.get? key := by
  unfold clean
  split
  · exact Or.inr rfl
  · cases packet with
    | publish qos =>
        right
        unfold cleanPublish
        dsimp only
        split <;> split <;> rfl
    | subscribe =>
        have removed := IndexMap.get?_remove shared.ackStatus pid.val key
        by_cases own : key = pid.val
        · exact Or.inl (removed.trans (if_pos own))
        · exact Or.inr (removed.trans (if_neg own))
    | unsubscribe => exact Or.inr rfl

theorem status_waitStatus {codes : List UInt8} (ready : shared.waitStatus pid = some (next, codes))
    (key : ℕ) :
    next.ackStatus.get? key = none ∨ next.ackStatus.get? key = shared.ackStatus.get? key := by
  rcases waitStatus_eq_some ready with ⟨_, rfl⟩
  have removed := IndexMap.get?_remove shared.ackStatus pid.val key
  by_cases own : key = pid.val
  · exact Or.inl (removed.trans (if_pos own))
  · exact Or.inr (removed.trans (if_neg own))

theorem ackStatus_of_handle {payload : Payload} {received : ReceivedPacket} {reply : Option Reply}
    (handled : shared.handle payload received = .done next reply)
    (unexpected : ¬shared.Expects received) : next.ackStatus = shared.ackStatus := by
  cases received with
  | subAck ack =>
      rcases Handled.done.inj handled with ⟨rfl, _⟩
      unfold handleSubAck
      split
      · rename_i found
        exact absurd found unexpected
      · rfl
  | unsubAck ack =>
      rcases Handled.done.inj handled with ⟨rfl, _⟩
      unfold handleUnsubAck
      split
      · rename_i found
        exact absurd ⟨true, found⟩ unexpected
      · rename_i found
        exact absurd ⟨false, found⟩ unexpected
      · rfl
  | partialPublish qosPid topicName publish =>
      rcases cases_of_handlePublish handled with ⟨rfl, _⟩ | ⟨pid, incomingPub, _, _, _, rfl⟩
      · rfl
      · rfl
  | pubRec ack =>
      rcases exists_of_handlePubRec handled with ⟨_, outgoingRel, _, rfl⟩
      rfl
  | pubRel ack =>
      rcases eq_of_handlePubRel handled with rfl
      rfl
  | pingResp | connAck | disconnect | pubAck | pubComp =>
      rcases Handled.done.inj handled with ⟨rfl, _⟩
      rfl

theorem status_handleSubAck {codes : List UInt8} (different : key ≠ pid.val) :
    (shared.handleSubAck pid codes).ackStatus.get? key = shared.ackStatus.get? key := by
  unfold handleSubAck
  split
  · rename_i found
    exact (IndexMap.get?_replace (by rw [found]; rfl) key).trans (if_neg different)
  · rfl

theorem status_handleUnsubAck {codes : List UInt8} (different : key ≠ pid.val) :
    (shared.handleUnsubAck pid codes).ackStatus.get? key = shared.ackStatus.get? key := by
  unfold handleUnsubAck
  split
  · rename_i found
    exact (IndexMap.get?_replace (by rw [found]; rfl) key).trans (if_neg different)
  · exact (IndexMap.get?_remove _ _ _).trans (if_neg different)
  · rfl

theorem status_handleSubAck_of_awaiting {codes : List UInt8}
    (found : shared.ackStatus.get? pid.val = some .awaitingSubAck) :
    (shared.handleSubAck pid codes).ackStatus.get? pid.val = some (.acked codes) := by
  unfold handleSubAck
  rw [found]
  exact (IndexMap.get?_replace (by rw [found]; rfl) pid.val).trans (if_pos rfl)

theorem status_handleUnsubAck_of_awaiting {codes : List UInt8}
    (found : shared.ackStatus.get? pid.val = some (.awaitingUnsubAck true)) :
    (shared.handleUnsubAck pid codes).ackStatus.get? pid.val = some (.acked codes) := by
  unfold handleUnsubAck
  rw [found]
  exact (IndexMap.get?_replace (by rw [found]; rfl) pid.val).trans (if_pos rfl)

end Shared

namespace SendPacket

variable {packet : SendPacket} {arrived : List (List UInt8)} {pid : Pid}

/-- An acknowledgement that leaves an entry as it is was not the first one. -/
theorem EntryAfter.kept {status : Option AckStatus} (entry : packet.EntryAfter arrived status)
    {more : Option (List UInt8)} (notFirst : more.isSome → status ≠ packet.awaited) :
    packet.EntryAfter (arrived ++ more.toList) status := by
  cases entry with
  | removed => exact .removed _
  | awaiting =>
      cases more with
      | none => exact .awaiting
      | some codes => exact absurd rfl (notFirst rfl)
  | acked first later => exact .acked first (later ++ more.toList)

theorem EntryAfter.eq_nil_of_awaited {status : AckStatus} (entry : packet.EntryAfter arrived status)
    (notAcked : ∀ codes, status ≠ .acked codes) :
    packet.awaited = some status ∧ arrived = [] := by
  generalize found : some status = entryStatus at entry
  cases entry with
  | removed => simp at found
  | awaiting => exact ⟨rfl, rfl⟩
  | acked first later => exact absurd (Option.some.inj found) (notAcked first)

theorem EntryAfter.exists_of_acked {codes : List UInt8}
    (entry : packet.EntryAfter arrived (some (.acked codes))) :
    ∃ later, arrived = codes :: later := by
  generalize found : some (AckStatus.acked codes) = status at entry
  cases entry with
  | removed => simp at found
  | awaiting =>
      unfold SendPacket.awaited at found
      split at found <;> simp at found
  | acked first later =>
      simp only [Option.some.injEq, AckStatus.acked.injEq] at found
      exact ⟨later, by rw [found]⟩

theorem EntryAfter.handle {shared next : Shared config} {payload : Payload}
    {received : ReceivedPacket} {reply : Option Reply}
    (handled : shared.handle payload received = .done next reply)
    (entry : packet.EntryAfter arrived (shared.ackStatus.get? pid.val)) :
    packet.EntryAfter (arrived ++ (packet.acknowledgedBy? pid received).toList)
      (next.ackStatus.get? pid.val) := by
  by_cases expected : shared.Expects received
  · cases received with
    | subAck ack =>
        rcases Handled.done.inj handled with ⟨rfl, _⟩
        by_cases own : ack.pid = pid
        · subst own
          have found : shared.ackStatus.get? ack.pid.val = some .awaitingSubAck := expected
          rw [found] at entry
          rcases entry.eq_nil_of_awaited (by simp) with ⟨awaited, rfl⟩
          have subscribe : packet = .subscribe := by
            cases packet <;> simp [SendPacket.awaited] at awaited ⊢
          rw [Shared.status_handleSubAck_of_awaiting found, acknowledgedBy?, if_pos ⟨subscribe, rfl⟩]
          exact .acked ack.codes []
        · have other : pid.val ≠ ack.pid.val := fun same => own (Pid.ext same.symm)
          rw [Shared.status_handleSubAck other, acknowledgedBy?, if_neg fun both => own both.2,
            Option.toList_none, List.append_nil]
          exact entry
    | unsubAck ack =>
        rcases Handled.done.inj handled with ⟨rfl, _⟩
        by_cases own : ack.pid = pid
        · subst own
          rcases expected with ⟨waits, found⟩
          rw [found] at entry
          rcases entry.eq_nil_of_awaited (by simp) with ⟨awaited, rfl⟩
          have unsubscribe : packet = .unsubscribe ∧ waits = true := by
            cases packet <;> simp [SendPacket.awaited] at awaited ⊢
            exact awaited
          rw [unsubscribe.2] at found
          rw [Shared.status_handleUnsubAck_of_awaiting found, acknowledgedBy?,
            if_pos ⟨unsubscribe.1, rfl⟩]
          exact .acked ack.codes []
        · have other : pid.val ≠ ack.pid.val := fun same => own (Pid.ext same.symm)
          rw [Shared.status_handleUnsubAck other, acknowledgedBy?, if_neg fun both => own both.2,
            Option.toList_none, List.append_nil]
          exact entry
    | _ => exact expected.elim
  · rw [Shared.ackStatus_of_handle handled expected]
    apply entry.kept
    intro acknowledged
    unfold acknowledgedBy? at acknowledged
    cases received with
    | subAck ack =>
        simp only [Option.isSome_ite] at acknowledged
        rcases acknowledged with ⟨rfl, rfl⟩
        exact expected
    | unsubAck ack =>
        simp only [Option.isSome_ite] at acknowledged
        rcases acknowledged with ⟨rfl, rfl⟩
        exact fun awaiting => expected ⟨true, awaiting⟩
    | _ => simp at acknowledged

end SendPacket

theorem World.status_dropSubscription {world : World config} {key : ℕ} (locks : SubscriptionDrop)
    (different : key ≠ (if locks.pidLocked then world.shared.nextPid else Pid.new).val) :
    (world.dropSubscription locks).shared.ackStatus.get? key =
      world.shared.ackStatus.get? key := by
  have taken : (if locks.pidLocked then world.shared.takePid else world.shared).ackStatus =
      world.shared.ackStatus := by
    split <;> rfl
  unfold dropSubscription
  dsimp only
  split
  · dsimp only
    split
    · dsimp only
      rw [taken]
      rcases inserted : world.shared.ackStatus.insert _ _ with _ | ackStatus
      · rfl
      · exact (IndexMap.get?_insert inserted key).trans (if_neg different)
    · rw [taken]
  · rw [taken]

namespace Call.Since

variable {call : Call} {past : List Action} {handle : ℕ} {property later : List (List UInt8) → Prop}

/-- One more action may bring one more acknowledgement. -/
theorem step (since : call.Since past handle property) (action : Action)
    (next : ∀ arrived, property arrived → later (arrived ++
      (action.receives?.bind (call.packet.acknowledgedBy? call.pid)).toList)) :
    call.Since (past ++ [action]) handle later := by
  rcases since with ⟨before, after, rfl, holds⟩
  refine ⟨before, after ++ [action], by rw [List.append_assoc, List.cons_append], ?_⟩
  have newest : call.packet.acknowledgements call.pid [action] =
      (action.receives?.bind (call.packet.acknowledgedBy? call.pid)).toList := by
    unfold SendPacket.acknowledgements
    cases found : action.receives?.bind (call.packet.acknowledgedBy? call.pid) with
    | none => simp [found]
    | some codes => simp [found]
  have split : call.packet.acknowledgements call.pid (after ++ [action]) =
      call.packet.acknowledgements call.pid after ++
        call.packet.acknowledgements call.pid [action] := List.filterMap_append
  rw [split, newest]
  exact next _ holds

end Call.Since

namespace Transition

variable {world next : World config} {action : Action} {handle key : ℕ} {call : Call}

/-- Besides received packets, only the commits and the dropped subscriptions with its identifier
change an entry that they do not remove. -/
theorem status_cases (transition : Transition world action next) (notReceive : action.receives? = none)
    (unissued : ∀ pid ∈ action.issued? world, key ≠ pid.val)
    (uncommitted : ∀ other caller, world.calls.get? other = some caller →
      caller.phase = .granted → key ≠ caller.pid.val) :
    next.shared.ackStatus.get? key = none ∨
      next.shared.ackStatus.get? key = world.shared.ackStatus.get? key := by
  cases transition with
  | send packet =>
      right
      unfold World.send
      split <;> rfl
  | grant result => cases result <;> exact Or.inr rfl
  | @commit other caller live phase =>
      right
      unfold World.commit
      split
      · rename_i registered
        exact Shared.status_of_registered registered (uncommitted other caller live phase)
      · rename_i registered
        rw [(Shared.eq_of_full registered).1]
      · rfl
  | @waitStatus other caller shared codes contended live phase notPublish ready =>
      have taken := Shared.status_waitStatus ready key
      unfold World.finishStatus
      split
      · rcases Shared.status_clean shared caller.packet caller.pid contended key with
          removed | kept
        · exact Or.inl removed
        · rw [← kept] at taken
          exact taken
      · exact taken
  | drop contended =>
      unfold World.drop
      split
      all_goals first | exact Or.inr rfl | exact Shared.status_clean _ _ _ contended key
  | dropSubscription locks =>
      exact Or.inr (World.status_dropSubscription locks (unissued _ rfl))
  | transmitted =>
      right
      unfold World.transmitted
      split <;> rfl
  | receive => simp [Action.receives?] at notReceive
  | receiveFails error => cases error <;> exact Or.inr rfl
  | keepAlive =>
      right
      unfold World.keepAlive
      split <;> rfl
  | reset | disconnect => exact Or.inl rfl
  | lock | waitTx | waitAck | waitRel | connect | connectFails | connected | lost | read | written
  | flushed | writeFails | replied | dropRun => exact Or.inr rfl

end Transition

theorem Shared.acknowledgedBy?_eq_none {shared : Shared config} {payload : Payload}
    {received : ReceivedPacket} (undone : ∀ next reply, shared.handle payload received ≠ .done next reply)
    (packet : SendPacket) (pid : Pid) : packet.acknowledgedBy? pid received = none := by
  cases received with
  | subAck ack => exact absurd rfl (undone _ _)
  | unsubAck ack => exact absurd rfl (undone _ _)
  | _ => rfl

theorem World.entryAfter_receive {world : World config} {packet : SendPacket} {pid : Pid}
    {arrived : List (List UInt8)} (received : ReceivedPacket) (payload : Payload)
    (entry : packet.EntryAfter arrived (world.shared.ackStatus.get? pid.val)) :
    packet.EntryAfter (arrived ++ (packet.acknowledgedBy? pid received).toList)
      ((world.receive received payload).shared.ackStatus.get? pid.val) := by
  unfold receive
  dsimp only
  split
  · rename_i handled
    exact entry.handle handled
  · rename_i handled
    have undone : ∀ next reply, world.shared.handle payload received ≠ .done next reply := by
      simp [handled]
    rw [Shared.acknowledgedBy?_eq_none undone, Option.toList_none, List.append_nil]
    exact entry
  · rename_i handled
    have undone : ∀ next reply, world.shared.handle payload received ≠ .done next reply := by
      simp [handled]
    rw [Shared.acknowledgedBy?_eq_none undone, Option.toList_none, List.append_nil]
    exact entry

theorem World.ne_of_holds_eq_false {world : World config} {pid : Pid}
    (unheld : world.holds pid = false) {handle : ℕ} {call : Call}
    (live : world.calls.get? handle = some call) (pending : call.isPending = true) :
    call.pid ≠ pid := by
  unfold holds at unheld
  rw [bne_eq_false_iff_eq] at unheld
  have absent := Table.get?_eq_none_of_count_eq_zero unheld live
  simpa [pending] using absent

theorem World.Released.step {world next : World config} {action : Action}
    (released : world.Released) (transition : Transition world action next) : next.Released := by
  intro handle call live acked
  cases transition.origin live with
  | same before => exact released handle call before acked
  | begun packet => simp at acked
  | @advanced old phase before advances =>
      change phase = .acked at acked
      subst acked
      generalize later : Phase.acked = phase at advances
      cases advances with
      | waitAck _ publish => simp [publish, SendPacket.needsStatus]
      | waitTx _ ready =>
          subst later
          rcases (Shared.cases_of_waitTx ready).2 with ⟨_, impossible⟩ | ⟨_, impossible⟩
          · simp at impossible
          · simp at impossible
      | waitRel phase => exact released handle old before phase
      | _ => simp at later

namespace World.Routed

variable {world next : World config} {past : List Action} {action : Action} {handle : ℕ}
  {call : Call}

theorem new (config : CrateConfig) : (World.new config).Routed [] where
  distinct := by simp [World.new]
  released := by simp [Released, World.new]
  waiting := by simp [World.new]
  succeeded := by simp [World.new]

theorem pending_before (origin : Call.Origin world action handle call)
    (pending : call.isPending = true) :
    (∃ old, world.calls.get? handle = some old ∧ old.isPending = true ∧ old.pid = call.pid) ∨
      handle = world.calls.next ∧ call.pid ∈ action.issued? world := by
  cases origin with
  | same live => exact Or.inl ⟨call, live, pending, rfl⟩
  | begun packet send room fresh =>
      subst send
      refine Or.inr ⟨fresh, ?_⟩
      rw [Action.issued?, if_pos room]
      rfl
  | @advanced old phase live advances =>
      refine Or.inl ⟨old, live, ?_, rfl⟩
      unfold Call.isPending Call.isSending Call.isWaiting
      cases advances with
      | dropped contended before => exact before
      | lock phase | granted phase | refused _ phase | committed phase | full phase
      | waitTx phase | waitAck phase | waitRel phase | waitStatus _ phase => rw [phase]; rfl

theorem distinct_step (routed : world.Routed past) (unheld : IssuesUnheld world action)
    (transition : Transition world action next) :
    ∀ handle other call call', next.calls.get? handle = some call →
      next.calls.get? other = some call' → call.isPending = true → call'.isPending = true →
        call.pid = call'.pid → handle = other := by
  intro handle other call call' live live' pending pending' same
  rcases pending_before (transition.origin live) pending with
    ⟨old, before, oldPending, oldPid⟩ | ⟨fresh, issued⟩
  · rcases pending_before (transition.origin live') pending' with
      ⟨old', before', oldPending', oldPid'⟩ | ⟨_, issued'⟩
    · exact routed.distinct handle other old old' before before' oldPending oldPending'
        (by rw [oldPid, oldPid', same])
    · exact absurd (oldPid.trans same) (ne_of_holds_eq_false (unheld _ issued') before oldPending)
  · rcases pending_before (transition.origin live') pending' with
      ⟨old', before', oldPending', oldPid'⟩ | ⟨fresh', _⟩
    · exact absurd (oldPid'.trans same.symm)
        (ne_of_holds_eq_false (unheld _ issued) before' oldPending')
    · rw [fresh, fresh']

theorem entry_step (routed : world.Routed past) (unheld : IssuesUnheld world action)
    (transition : Transition world action next) (live : world.calls.get? handle = some call)
    (waiting : call.isWaiting = true) {arrived : List (List UInt8)}
    (entry : call.packet.EntryAfter arrived (world.shared.ackStatus.get? call.pid.val)) :
    call.packet.EntryAfter (arrived ++
        (action.receives?.bind (call.packet.acknowledgedBy? call.pid)).toList)
      (next.shared.ackStatus.get? call.pid.val) := by
  have pending : call.isPending = true := by simp [Call.isPending, waiting]
  cases received : action.receives? with
  | some packet =>
      cases transition with
      | receive payload =>
          rcases Option.some.inj received with rfl
          exact World.entryAfter_receive _ payload entry
      | _ => simp [Action.receives?] at received
  | none =>
      rw [Option.bind_none, Option.toList_none, List.append_nil]
      have unissued : ∀ pid ∈ action.issued? world, call.pid.val ≠ pid.val := by
        intro pid issued same
        exact ne_of_holds_eq_false (unheld pid issued) live pending (Pid.ext same)
      have uncommitted : ∀ other caller, world.calls.get? other = some caller →
          caller.phase = .granted → call.pid.val ≠ caller.pid.val := by
        intro other caller before phase same
        have callerPending : caller.isPending = true := by
          simp [Call.isPending, Call.isSending, phase]
        have own := routed.distinct handle other call caller live before pending callerPending
          (Pid.ext same)
        subst own
        rcases Option.some.inj (live.symm.trans before) with rfl
        simp [Call.isWaiting, phase] at waiting
      rcases transition.status_cases received unissued uncommitted with removed | kept
      · rw [removed]
        exact .removed _
      · rw [kept]
        exact entry

theorem since_step (routed : world.Routed past) (unheld : IssuesUnheld world action)
    (transition : Transition world action next) (live : world.calls.get? handle = some call)
    (waiting : call.isWaiting = true) (needsStatus : call.packet.needsStatus = true) :
    call.Since (past ++ [action]) handle fun arrived =>
      call.packet.EntryAfter arrived (next.shared.ackStatus.get? call.pid.val) := by
  apply (routed.waiting handle call live waiting needsStatus).step action
  intro arrived entry
  exact routed.entry_step unheld transition live waiting entry

theorem waiting_step (routed : world.Routed past) (unheld : IssuesUnheld world action)
    (transition : Transition world action next) :
    ∀ handle call, next.calls.get? handle = some call → call.isWaiting = true →
      call.packet.needsStatus = true → call.Since (past ++ [action]) handle fun arrived =>
        call.packet.EntryAfter arrived (next.shared.ackStatus.get? call.pid.val) := by
  intro handle call live waiting needsStatus
  cases transition.origin live with
  | same before => exact routed.since_step unheld transition before waiting needsStatus
  | begun packet => simp [Call.isWaiting] at waiting
  | @advanced old phase before advances =>
      change old.packet.needsStatus = true at needsStatus
      change old.Since (past ++ [action]) handle fun arrived =>
        old.packet.EntryAfter arrived (next.shared.ackStatus.get? old.pid.val)
      cases advances with
      | committed granted registered =>
          refine ⟨past, [], rfl, ?_⟩
          have entry : next.shared.ackStatus.get? old.pid.val = old.packet.awaited := by
            cases transition with
            | commit live' =>
                rcases Option.some.inj (before.symm.trans live') with rfl
                simp only [World.commit, registered]
                exact Shared.status_of_committed registered needsStatus
          change old.packet.EntryAfter [] (next.shared.ackStatus.get? old.pid.val)
          rw [entry]
          exact .awaiting
      | waitTx sent =>
          have wasWaiting : old.isWaiting = true := by simp [Call.isWaiting, sent]
          exact routed.since_step unheld transition before wasWaiting needsStatus
      | waitAck _ publish => simp [publish, SendPacket.needsStatus] at needsStatus
      | waitRel acked =>
          rw [routed.released handle old before acked] at needsStatus
          simp at needsStatus
      | lock | granted | refused | full | waitStatus | dropped =>
          simp [Call.isWaiting] at waiting

theorem succeeded_step (routed : world.Routed past) (transition : Transition world action next) :
    ∀ handle call, next.calls.get? handle = some call → call.phase = .finished (.ok ()) →
      call.packet.needsStatus = true → call.Since (past ++ [action]) handle fun arrived =>
        ∃ codes later, arrived = codes :: later ∧ ∀ code ∈ codes, code < 0x80 := by
  intro handle call live finished needsStatus
  cases transition.origin live with
  | same before =>
      apply (routed.succeeded handle call before finished needsStatus).step action
      rintro arrived ⟨codes, later, rfl, small⟩
      exact ⟨codes, _, List.cons_append, small⟩
  | begun packet => simp at finished
  | @advanced old phase before advances =>
      change phase = .finished (.ok ()) at finished
      change old.packet.needsStatus = true at needsStatus
      change old.Since (past ++ [action]) handle fun arrived =>
        ∃ codes later, arrived = codes :: later ∧ ∀ code ∈ codes, code < 0x80
      cases advances with
      | waitTx _ ready =>
          rcases (Shared.cases_of_waitTx ready).2 with ⟨publish, _⟩ | ⟨_, rfl⟩
          · simp [publish, SendPacket.needsStatus] at needsStatus
          · simp at finished
      | waitAck _ publish => simp [publish, SendPacket.needsStatus] at needsStatus
      | waitRel acked =>
          rw [routed.released handle old before acked] at needsStatus
          simp at needsStatus
      | @waitStatus _ codes contended transmitted _ ready =>
          have wasWaiting : old.isWaiting = true := by simp [Call.isWaiting, transmitted]
          have small : ∀ code ∈ codes, code < 0x80 := by
            split at finished
            · simp at finished
            · rename_i none_large
              simpa using none_large
          apply (routed.waiting handle old before wasWaiting needsStatus).step _
          intro arrived entry
          rw [(Shared.waitStatus_eq_some ready).1] at entry
          rcases entry.exists_of_acked with ⟨later, rfl⟩
          exact ⟨codes, _, List.cons_append, small⟩
      | lock | granted | refused | committed | full | dropped => simp at finished

theorem step (routed : world.Routed past) (unheld : IssuesUnheld world action)
    (transition : Transition world action next) : next.Routed (past ++ [action]) where
  distinct := routed.distinct_step unheld transition
  released := routed.released.step transition
  waiting := routed.waiting_step unheld transition
  succeeded := routed.succeeded_step transition

end World.Routed

/-- What a finished wait has returned: the codes of the first acknowledgement decide. -/
theorem exists_waitStatus_result {world next : World config} {past : List Action} {handle : ℕ}
    {call : Call} {contended : Bool} (routed : world.Routed past)
    (live : world.calls.get? handle = some call)
    (stepped : step world (.waitStatus handle contended) = some next) :
    call.Since past handle fun arrived =>
      ∃ codes later, arrived = codes :: later ∧
        next.calls.get? handle = some { call with
          phase := .finished
            (if codes.any fun code => 0x80 ≤ code then .error .badTopicFilter else .ok ()) } := by
  cases (transition_of_step stepped).2 with
  | @waitStatus _ own shared codes contended live' transmitted notPublish ready =>
      rcases Option.some.inj (live.symm.trans live') with rfl
      have wasWaiting : call.isWaiting = true := by simp [Call.isWaiting, transmitted]
      have needsStatus : call.packet.needsStatus = true := by
        cases packet : call.packet with
        | publish qos => exact absurd packet (notPublish qos)
        | subscribe | unsubscribe => rfl
      have after : (world.finishStatus handle call shared codes contended).calls.get? handle =
          some { call with
            phase := .finished
              (if codes.any fun code => 0x80 ≤ code then .error .badTopicFilter else .ok ()) } := by
        unfold World.finishStatus
        split
        · exact (Table.get?_replace live _ _).trans (if_pos rfl)
        · exact (Table.get?_replace live _ _).trans (if_pos rfl)
      rcases routed.waiting handle call live wasWaiting needsStatus with
        ⟨before, later, split, entry⟩
      refine ⟨before, later, split, ?_⟩
      rw [(Shared.waitStatus_eq_some ready).1] at entry
      rcases entry.exists_of_acked with ⟨rest, arrived⟩
      exact ⟨codes, rest, arrived, after⟩

/-- An acknowledgement of the wrong kind, or with an unknown identifier, changes no entry. -/
theorem ackStatus_of_unexpected {world next : World config} {packet : ReceivedPacket}
    {payload : Payload} (stepped : step world (.receive packet payload) = some next)
    (unexpected : ¬world.shared.Expects packet) :
    next.shared.ackStatus = world.shared.ackStatus := by
  cases (transition_of_step stepped).2 with
  | receive =>
      unfold World.receive
      dsimp only
      split
      · rename_i handled
        exact Shared.ackStatus_of_handle handled unexpected
      · rfl
      · rfl

/-- In every run in which no identifier is issued that a pending call holds, a SUBSCRIBE or an
UNSUBSCRIBE is successful only if the first acknowledgement of its kind with its identifier since
its commit has codes below 0x80, a wait returns what these codes say, and other acknowledgements
change no entry. -/
theorem acknowledgements_routed {actions : List Action} {world : World config}
    (unheld : Execution.Guarded step IssuesUnheld (World.new config) actions)
    (reached : runFrom config actions = some world) :
    (∀ handle call, world.calls.get? handle = some call → call.packet.needsStatus = true →
      call.phase = .finished (.ok ()) →
        ∃ before after codes later, actions = before ++ .commit handle :: after ∧
          call.packet.acknowledgements call.pid after = codes :: later ∧
          ∀ code ∈ codes, code < 0x80) ∧
    (∀ handle contended call next, world.calls.get? handle = some call →
      step world (.waitStatus handle contended) = some next →
        ∃ before after codes later, actions = before ++ .commit handle :: after ∧
          call.packet.acknowledgements call.pid after = codes :: later ∧
          next.calls.get? handle = some { call with
            phase := .finished
              (if codes.any fun code => 0x80 ≤ code then .error .badTopicFilter else .ok ()) }) ∧
    ∀ packet payload next, step world (.receive packet payload) = some next →
      ¬world.shared.Expects packet → next.shared.ackStatus = world.shared.ackStatus := by
  have routed : world.Routed ([] ++ actions) :=
    Execution.invariant_of_past (fun past world => world.Routed past)
      (fun unheld routed stepped => routed.step unheld (transition_of_step stepped).2) unheld
      (World.Routed.new config) reached
  rw [List.nil_append] at routed
  refine ⟨?_, ?_, ?_⟩
  · intro handle call live needsStatus finished
    rcases routed.succeeded handle call live finished needsStatus with
      ⟨before, after, split, codes, later, arrived, small⟩
    exact ⟨before, after, codes, later, split, arrived, small⟩
  · intro handle contended call next live stepped
    rcases exists_waitStatus_result routed live stepped with
      ⟨before, after, split, codes, later, arrived, result⟩
    exact ⟨before, after, codes, later, split, arrived, result⟩
  · intro packet payload next stepped unexpected
    exact ackStatus_of_unexpected stepped unexpected

/-- A SUBSCRIBE is acknowledged after acknowledgements of the wrong kind and of another packet. -/
theorem acknowledgements_routed_example :
    ∃ before after codes later,
      [.connect, .connected false, .send .subscribe, .lock 0, .grant 0 (.ok ()), .commit 0, .read,
        .written, .flushed, .transmitted, .waitTx 0,
        .receive (.unsubAck ⟨⟨2, by decide, by decide⟩, none, [0x00]⟩) .copied,
        .receive (.subAck ⟨⟨9, by decide, by decide⟩, none, [0x80]⟩) .copied,
        .receive (.subAck ⟨⟨2, by decide, by decide⟩, none, [0x01]⟩) .copied,
        .waitStatus 0 false] = before ++ .commit 0 :: after ∧
      SendPacket.subscribe.acknowledgements ⟨2, by decide, by decide⟩ after = codes :: later ∧
      ∀ code ∈ codes, code < 0x80 := by
  rcases reached : runFrom (.default .mqttv5 true) [.connect, .connected false, .send .subscribe,
    .lock 0, .grant 0 (.ok ()), .commit 0, .read, .written, .flushed, .transmitted, .waitTx 0,
    .receive (.unsubAck ⟨⟨2, by decide, by decide⟩, none, [0x00]⟩) .copied,
    .receive (.subAck ⟨⟨9, by decide, by decide⟩, none, [0x80]⟩) .copied,
    .receive (.subAck ⟨⟨2, by decide, by decide⟩, none, [0x01]⟩) .copied,
    .waitStatus 0 false] with _ | world
  · exact absurd reached (by decide)
  · have live : world.calls.get? 0 =
        some ⟨.subscribe, ⟨2, by decide, by decide⟩, .finished (.ok ())⟩ := by
      cases reached
      decide
    exact (acknowledgements_routed (by decide) reached).1 0 _ live rfl rfl

end Mqttrust.System
