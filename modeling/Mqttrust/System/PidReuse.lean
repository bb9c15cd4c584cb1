import Mqttrust.System.AckRouting

/-!
# Identifiers in use

The counter of packet identifiers goes through all 65535 of them and begins again; it
does not look at the identifiers that are in use. So an identifier is issued again
while it is in use exactly if it stays in use for a whole round of the counter. A
dropped subscription that cannot lock the shared state uses the first identifier,
which is the value that the counter has at the beginning.
-/

namespace Mqttrust

namespace Pid

/-- The value that the counter had a number of allocations ago. -/
def back (pid : Pid) (count : ℕ) : ℕ := (pid.val - 1 + 65534 * count) % 65535 + 1

/-- The identifier behind another one. -/
def IsNext (newer older : Pid) : Prop := newer.val = older.val % 65535 + 1

theorem isNext_add (pid : Pid) : (pid.add 1 (Nat.le_of_ble_eq_true rfl)).IsNext pid := by
  have bound := pid.lt
  unfold IsNext add
  split
  · dsimp only
    omega
  · dsimp only
    omega

theorem val_of_chain {newest : Pid} {older : List Pid}
    (chain : (newest :: older).IsChain IsNext) {count : ℕ} {pid : Pid}
    (found : (newest :: older)[count]? = some pid) : pid.val = newest.back count := by
  induction older generalizing newest count with
  | nil =>
      have positive := newest.pos
      have bound := newest.lt
      cases count with
      | zero =>
          rcases Option.some.inj found with rfl
          unfold back
          omega
      | succ count => simp at found
  | cons second older ih =>
      have positive := newest.pos
      have bound := newest.lt
      cases count with
      | zero =>
          rcases Option.some.inj found with rfl
          unfold back
          omega
      | succ count =>
          rw [List.isChain_cons_cons] at chain
          have same := ih chain.2 found
          have isNext : newest.val = second.val % 65535 + 1 := chain.1
          have positive' := second.pos
          unfold back at same ⊢
          omega

/-- In a series of successive values, the next one is missing exactly if all are among the last
65534. -/
theorem next_absent_iff {newest next : Pid} {older : List Pid} (isNext : next.IsNext newest)
    (chain : (newest :: older).IsChain IsNext) {used : ℕ → Prop}
    (issued : ∀ key, used key → ∃ pid ∈ newest :: older, pid.val = key) :
    ¬used next.val ↔ ∀ key, used key → ∃ pid ∈ (newest :: older).take 65534, pid.val = key := by
  have nextVal : next.val = newest.val % 65535 + 1 := isNext
  have positive := newest.pos
  constructor
  · intro unused key isUsed
    rcases issued key isUsed with ⟨pid, listed, rfl⟩
    rcases List.getElem?_of_mem listed with ⟨count, found⟩
    -- the same value is found within the last round of the counter
    have value := val_of_chain chain found
    have inside : count % 65535 < (newest :: older).length := by
      have := (List.getElem?_eq_some_iff.mp found).1
      omega
    have recent := val_of_chain chain (List.getElem?_eq_getElem inside)
    have same : (newest :: older)[count % 65535].val = pid.val := by
      rw [recent, value]
      unfold back
      omega
    have notLast : count % 65535 ≠ 65534 := by
      intro last
      apply unused
      have wrapped : next.val = pid.val := by
        rw [value, nextVal]
        unfold back
        omega
      rw [wrapped]
      exact isUsed
    refine ⟨(newest :: older)[count % 65535], ?_, same⟩
    rw [List.mem_iff_getElem?]
    refine ⟨count % 65535, ?_⟩
    rw [List.getElem?_take_of_lt (by omega)]
    exact List.getElem?_eq_getElem inside
  · intro recent isUsed
    rcases recent next.val isUsed with ⟨pid, listed, same⟩
    rcases List.mem_iff_getElem?.mp listed with ⟨count, found⟩
    have inside : count < 65534 := by
      have := (List.getElem?_eq_some_iff.mp found).1
      rw [List.length_take] at this
      omega
    rw [List.getElem?_take_of_lt inside] at found
    have value := val_of_chain chain found
    unfold back at value
    omega

end Pid

namespace System

variable {config : CrateConfig}

/-- The identifier is in `inflight_pub`, `outgoing_pid` or `outgoing_rel`, or a key of
`ack_status`. -/
def Shared.Uses (shared : Shared config) (key : ℕ) : Prop :=
  key ∈ shared.inflightPub.elements ∨ key ∈ shared.outgoingPid.elements ∨
    key ∈ shared.outgoingRel.elements ∨ (shared.ackStatus.get? key).isSome

/-- The identifier that `next_pid` returns during an action. -/
def Action.allocated? (world : World config) : Action → Option Pid
  | .send packet => if world.shared.hasRoom packet then some world.shared.nextPid else none
  | .dropSubscription locks => if locks.pidLocked then some world.shared.nextPid else none
  | _ => none

/-- What is recorded of the allocations. -/
def allocations (world : World config) (action : Action) (_next : World config) : List Pid :=
  (action.allocated? world).toList

namespace Shared

variable {shared next : Shared config} {packet : SendPacket} {pid : Pid} {key : ℕ}

theorem Uses.of_subset (uses : next.Uses key)
    (inflightPub : next.inflightPub.elements ⊆ shared.inflightPub.elements)
    (outgoingPid : next.outgoingPid.elements ⊆ shared.outgoingPid.elements)
    (outgoingRel : next.outgoingRel.elements ⊆ shared.outgoingRel.elements)
    (ackStatus : next.ackStatus.get? key = none ∨
      (next.ackStatus.get? key).isSome = (shared.ackStatus.get? key).isSome) :
    shared.Uses key := by
  rcases uses with inflight | outgoing | released | status
  · exact Or.inl (inflightPub inflight)
  · exact Or.inr (Or.inl (outgoingPid outgoing))
  · exact Or.inr (Or.inr (Or.inl (outgoingRel released)))
  · rcases ackStatus with removed | kept
    · simp [removed] at status
    · exact Or.inr (Or.inr (Or.inr (kept ▸ status)))

/-- The sets of identifiers are the same. -/
def SameSets (shared next : Shared config) : Prop :=
  next.inflightPub = shared.inflightPub ∧ next.outgoingPid = shared.outgoingPid ∧
    next.outgoingRel = shared.outgoingRel

theorem Uses.of_status (uses : next.Uses key) (sets : shared.SameSets next)
    (ackStatus : next.ackStatus.get? key = none ∨
      (next.ackStatus.get? key).isSome = (shared.ackStatus.get? key).isSome) :
    shared.Uses key := by
  rcases sets with ⟨inflightPub, outgoingPid, outgoingRel⟩
  exact uses.of_subset (by rw [inflightPub]) (by rw [outgoingPid]) (by rw [outgoingRel]) ackStatus

theorem uses_of_registered (registered : shared.register packet pid = .done next)
    (uses : next.Uses key) : key = pid.val ∨ shared.Uses key := by
  by_cases own : key = pid.val
  · exact Or.inl own
  · have registers := registers_of_done registered
    have kept : ∀ set : Finset ℕ, key ∈ insert pid.val set → key ∈ set := by
      intro set listed
      exact (Finset.mem_insert.mp listed).resolve_left own
    right
    rcases uses with inflight | outgoing | released | status
    · rw [registers.inflightPub] at inflight
      split at inflight
      · exact Or.inl (kept _ inflight)
      · exact Or.inl inflight
    · rw [registers.outgoingPid] at outgoing
      exact Or.inr (Or.inl (kept _ outgoing))
    · rw [registers.outgoingRel] at released
      exact Or.inr (Or.inr (Or.inl released))
    · rw [status_of_registered registered own] at status
      exact Or.inr (Or.inr (Or.inr status))

theorem uses_of_full (registered : shared.register packet pid = .full next)
    (uses : next.Uses key) : key = pid.val ∨ shared.Uses key := by
  rcases eq_of_full registered with ⟨same, _, grown⟩
  rw [same] at uses
  rcases uses with inflight | outgoing | rest
  · exact Or.inr (Or.inl inflight)
  · rcases Finset.mem_insert.mp (grown outgoing) with own | before
    · exact Or.inl own
    · exact Or.inr (Or.inr (Or.inl before))
  · exact Or.inr (Or.inr (Or.inr rest))

/-- The cleanup of a publish only removes. -/
theorem Uses.of_cleanPublish (uses : (shared.cleanPublish pid).Uses key) : shared.Uses key := by
  have settles := shared.settles_cleanPublish pid
  unfold cleanPublish at uses settles
  rcases uses with inflight | outgoing | released | status
  · exact Or.inl (settles.inflightPub inflight)
  · right
    left
    split at outgoing <;> split at outgoing <;> simp_all
  · right
    right
    left
    split at released <;> split at released <;> simp_all
  · right
    right
    right
    split at status <;> split at status <;> exact status

theorem uses_of_clean {contended : Bool} (uses : (shared.clean packet pid contended).Uses key) :
    shared.Uses key := by
  have status := shared.status_clean packet pid contended key
  unfold clean at uses status
  split at uses
  · exact uses
  · rename_i free
    cases packet with
    | publish qos => exact uses.of_cleanPublish
    | subscribe =>
        rw [if_neg free] at status
        have isSome := status.imp id (congrArg Option.isSome)
        exact uses.of_subset subset_rfl (Finset.erase_subset _ _) subset_rfl isSome
    | unsubscribe => exact uses

theorem isSome_replace {capacity : ℕ} {map : IndexMap capacity ℕ AckStatus} {own : ℕ}
    {status found : AckStatus} (present : map.get? own = some found) (key : ℕ) :
    ((map.replace own status).get? key).isSome = (map.get? key).isSome := by
  rw [IndexMap.get?_replace (by rw [present]; rfl)]
  split
  · rename_i same
    rw [same, present]
    rfl
  · rfl

/-- No handler adds an entry to `ack_status`. -/
theorem isSome_handleSubAck (codes : List UInt8) :
    ((shared.handleSubAck pid codes).ackStatus.get? key).isSome =
      (shared.ackStatus.get? key).isSome := by
  unfold handleSubAck
  split
  · rename_i found
    exact isSome_replace found key
  · rfl

theorem isSome_handleUnsubAck (codes : List UInt8) :
    (shared.handleUnsubAck pid codes).ackStatus.get? key = none ∨
      ((shared.handleUnsubAck pid codes).ackStatus.get? key).isSome =
        (shared.ackStatus.get? key).isSome := by
  unfold handleUnsubAck
  split
  · rename_i found
    exact Or.inr (isSome_replace found key)
  · have removed := IndexMap.get?_remove shared.ackStatus pid.val key
    by_cases own : key = pid.val
    · exact Or.inl (removed.trans (if_pos own))
    · exact Or.inr (congrArg Option.isSome (removed.trans (if_neg own)))
  · exact Or.inr rfl

theorem sets_handleSubAck (codes : List UInt8) :
    shared.SameSets (shared.handleSubAck pid codes) := by
  unfold handleSubAck
  split <;> exact ⟨rfl, rfl, rfl⟩

theorem sets_handleUnsubAck (codes : List UInt8) :
    shared.SameSets (shared.handleUnsubAck pid codes) := by
  unfold handleUnsubAck
  split <;> exact ⟨rfl, rfl, rfl⟩

theorem uses_of_waitStatus {codes : List UInt8} (ready : shared.waitStatus pid = some (next, codes))
    (uses : next.Uses key) : shared.Uses key := by
  have status := status_waitStatus ready key
  have sets : shared.SameSets next := by
    rcases waitStatus_eq_some ready with ⟨_, rfl⟩
    exact ⟨rfl, rfl, rfl⟩
  exact uses.of_status sets (status.imp id (congrArg Option.isSome))

theorem uses_of_handle {payload : Payload} {received : ReceivedPacket} {reply : Option Reply}
    (handled : shared.handle payload received = .done next reply) (uses : next.Uses key) :
    shared.Uses key := by
  cases received with
  | subAck ack =>
      rcases Handled.done.inj handled with ⟨rfl, _⟩
      exact uses.of_status (sets_handleSubAck ack.codes) (Or.inr (isSome_handleSubAck ack.codes))
  | unsubAck ack =>
      rcases Handled.done.inj handled with ⟨rfl, _⟩
      exact uses.of_status (sets_handleUnsubAck ack.codes) (isSome_handleUnsubAck ack.codes)
  | pubAck ack =>
      rcases Handled.done.inj handled with ⟨rfl, _⟩
      exact uses.of_subset (Finset.erase_subset _ _) subset_rfl subset_rfl (Or.inr rfl)
  | pubComp ack =>
      rcases Handled.done.inj handled with ⟨rfl, _⟩
      exact uses.of_subset subset_rfl subset_rfl (Finset.erase_subset _ _) (Or.inr rfl)
  | pubRel ack =>
      rcases eq_of_handlePubRel handled with rfl
      exact uses
  | pubRec ack =>
      rcases exists_of_handlePubRec handled with ⟨inflight, outgoingRel, inserted, rfl⟩
      -- the identifier was in use as that of a publish in flight
      rcases uses with kept | outgoing | released | status
      · exact Or.inl (Finset.mem_of_mem_erase kept)
      · exact Or.inr (Or.inl outgoing)
      · change key ∈ outgoingRel.elements at released
        rw [IndexSet.elements_of_insert inserted] at released
        rcases Finset.mem_insert.mp released with rfl | before
        · exact Or.inl inflight
        · exact Or.inr (Or.inr (Or.inl before))
      · exact Or.inr (Or.inr (Or.inr status))
  | partialPublish qosPid topicName publish =>
      rcases cases_of_handlePublish handled with ⟨rfl, _⟩ | ⟨pid, incomingPub, _, _, _, rfl⟩
      · exact uses
      · exact uses
  | pingResp | connAck | disconnect =>
      rcases Handled.done.inj handled with ⟨rfl, _⟩
      exact uses

end Shared

/-- Where an identifier that is in use after a step comes from. -/
theorem Transition.uses_cases {world next : World config} {action : Action} {key : ℕ}
    (transition : Transition world action next) (uses : next.shared.Uses key) :
    world.shared.Uses key ∨
      (∃ handle call, world.calls.get? handle = some call ∧ call.pid.val = key) ∨
      Pid.new.val = key ∨ ∃ pid ∈ action.allocated? world, pid.val = key := by
  cases transition with
  | send packet =>
      unfold World.send at uses
      split at uses <;> exact Or.inl uses
  | grant result => cases result <;> exact Or.inl uses
  | @commit handle call live phase =>
      have own : key = call.pid.val ∨ world.shared.Uses key := by
        unfold World.commit at uses
        split at uses
        · rename_i registered
          exact Shared.uses_of_registered registered uses
        · rename_i registered
          exact Shared.uses_of_full registered uses
        · exact Or.inr uses
      rcases own with rfl | before
      · exact Or.inr (Or.inl ⟨handle, call, live, rfl⟩)
      · exact Or.inl before
  | waitStatus contended live phase notPublish ready =>
      left
      apply Shared.uses_of_waitStatus ready
      unfold World.finishStatus at uses
      split at uses
      · exact Shared.uses_of_clean uses
      · exact uses
  | drop contended =>
      left
      unfold World.drop at uses
      split at uses
      all_goals first | exact uses | exact Shared.uses_of_clean uses
  | dropSubscription locks =>
      by_cases own : key = (if locks.pidLocked then world.shared.nextPid else Pid.new).val
      · subst own
        right
        right
        cases locked : locks.pidLocked with
        | true =>
            right
            refine ⟨world.shared.nextPid, ?_, rfl⟩
            rw [Action.allocated?, locked]
            rfl
        | false => exact Or.inl rfl
      · left
        have sets : world.shared.SameSets (world.dropSubscription locks).shared := by
          unfold Shared.SameSets World.dropSubscription
          grind [Shared.takePid]
        have status := World.status_dropSubscription locks own
        exact uses.of_status sets (Or.inr (congrArg Option.isSome status))
  | transmitted =>
      left
      unfold World.transmitted at uses
      split at uses
      · exact uses.of_subset subset_rfl (Finset.erase_subset _ _) subset_rfl (Or.inr rfl)
      · exact uses
  | receive payload =>
      left
      unfold World.receive at uses
      dsimp only at uses
      split at uses
      · rename_i handled
        exact Shared.uses_of_handle handled uses
      · exact uses
      · exact uses
  | receiveFails error => cases error <;> exact Or.inl uses
  | keepAlive =>
      left
      unfold World.keepAlive at uses
      split at uses <;> exact uses
  | reset | disconnect =>
      exfalso
      rcases uses with impossible | impossible | impossible | impossible
      · exact Finset.notMem_empty key impossible
      · exact Finset.notMem_empty key impossible
      · exact Finset.notMem_empty key impossible
      · simp [World.reset, World.resetShared, Shared.reset] at impossible
  | lock | waitTx | waitAck | waitRel | connect | connectFails | connected | lost | read | written
  | flushed | writeFails | replied | dropRun => exact Or.inl uses

theorem Action.eq_nextPid_of_allocated {world : World config} {action : Action} {pid : Pid}
    (allocated : action.allocated? world = some pid) : pid = world.shared.nextPid := by
  unfold Action.allocated? at allocated
  split at allocated <;> grind

theorem Transition.lastPid {world next : World config} {action : Action}
    (transition : Transition world action next) :
    next.shared.lastPid = (action.allocated? world).getD world.shared.lastPid := by
  cases transition with
  | send packet =>
      unfold World.send
      by_cases room : world.shared.hasRoom packet = true
      · simp [Action.allocated?, room, Shared.takePid]
      · simp [Action.allocated?, room]
  | grant result => cases result <;> rfl
  | commit =>
      unfold World.commit
      split
      · rename_i registered
        exact (Shared.steady_of_done registered).lastPid
      · rename_i registered
        exact (Shared.steady_of_full registered).lastPid
      · rfl
  | waitStatus contended live phase notPublish ready =>
      rcases Shared.waitStatus_eq_some ready with ⟨_, rfl⟩
      unfold World.finishStatus
      split
      · exact (Shared.steady_clean _ _ _ _).lastPid
      · rfl
  | drop contended =>
      unfold World.drop
      split
      all_goals first | rfl | exact (Shared.steady_clean _ _ _ _).lastPid
  | dropSubscription locks =>
      unfold World.dropSubscription Action.allocated?
      grind [Shared.takePid]
  | transmitted =>
      unfold World.transmitted
      split <;> rfl
  | receive payload =>
      unfold World.receive
      dsimp only
      split
      · rename_i handled
        exact (Shared.steady_handle handled).lastPid
      · rfl
      · rfl
  | receiveFails error => cases error <;> rfl
  | keepAlive =>
      unfold World.keepAlive
      split <;> rfl
  | reset | disconnect | lock | waitTx | waitAck | waitRel | connect | connectFails | connected
  | lost | read | written | flushed | writeFails | replied | dropRun => rfl

/-- The values of the counter, most recent first, and what they are used for. -/
structure World.Issued (world : World config) (issued : List Pid) : Prop where
  newest : issued.head? = some world.shared.lastPid
  chain : issued.IsChain Pid.IsNext
  initial : Pid.new ∈ issued
  calls : ∀ handle call, world.calls.get? handle = some call → call.pid ∈ issued
  used : ∀ key, world.shared.Uses key → ∃ pid ∈ issued, pid.val = key

namespace World.Issued

variable {world next : World config} {issued : List Pid} {action : Action}

theorem new (config : CrateConfig) : (World.new config).Issued [Pid.new] where
  newest := rfl
  chain := .singleton _
  initial := List.mem_singleton_self _
  calls := by
    intro handle call live
    simp [World.new] at live
  used := by
    intro key uses
    rcases uses with impossible | impossible | impossible | impossible
    · exact absurd impossible (Finset.notMem_empty key)
    · exact absurd impossible (Finset.notMem_empty key)
    · exact absurd impossible (Finset.notMem_empty key)
    · simp [World.new, Shared.new] at impossible

theorem chain_cons (before : world.Issued issued) :
    (world.shared.nextPid :: issued).IsChain Pid.IsNext := by
  have first := before.newest
  cases issued with
  | nil => simp at first
  | cons newest older =>
      have same : newest = world.shared.lastPid := Option.some.inj first
      rw [List.isChain_cons_cons]
      refine ⟨?_, before.chain⟩
      rw [same]
      exact Pid.isNext_add world.shared.lastPid

theorem step (before : world.Issued issued) (transition : Transition world action next) :
    next.Issued (allocations world action next ++ issued) where
  newest := by
    rw [transition.lastPid]
    unfold allocations
    cases action.allocated? world with
    | none => exact before.newest
    | some pid => rfl
  chain := by
    unfold allocations
    cases allocated : action.allocated? world with
    | none => exact before.chain
    | some pid =>
        rw [Action.eq_nextPid_of_allocated allocated]
        exact before.chain_cons
  initial := List.mem_append_right _ before.initial
  calls := by
    intro handle call live
    cases transition.origin live with
    | same old => exact List.mem_append_right _ (before.calls handle call old)
    | begun packet send room =>
        apply List.mem_append_left
        simp [allocations, Action.allocated?, send, room]
    | @advanced call _ old => exact List.mem_append_right _ (before.calls handle call old)
  used := by
    intro key uses
    rcases transition.uses_cases uses with old | ⟨handle, call, live, same⟩ | same |
      ⟨pid, allocated, same⟩
    · rcases before.used key old with ⟨pid, listed, same⟩
      exact ⟨pid, List.mem_append_right _ listed, same⟩
    · exact ⟨call.pid, List.mem_append_right _ (before.calls handle call live), same⟩
    · exact ⟨Pid.new, List.mem_append_right _ before.initial, same⟩
    · refine ⟨pid, List.mem_append_left _ ?_, same⟩
      exact Option.mem_toList.mpr allocated

end World.Issued

/-- A run of a new client with the values of its counter, most recent first. -/
abbrev runWithPids (config : CrateConfig) (actions : List Action) :
    Option (World config × List Pid) :=
  Execution.run (Execution.record step allocations) (World.new config, [Pid.new]) actions

theorem World.issued_of_run {actions : List Action} {recorded : World config × List Pid}
    (reached : runWithPids config actions = some recorded) : recorded.1.Issued recorded.2 := by
  refine Execution.invariant_of_run (fun recorded => recorded.1.Issued recorded.2) ?_
    (World.Issued.new config) reached
  intro recorded next action before stepped
  rcases Execution.record_eq_some.mp stepped with ⟨stepped, log⟩
  rw [log]
  exact before.step (transition_of_step stepped).2

/-- In every run, the identifier that `next_pid` returns is not in use exactly if every identifier
that is in use was a value of the counter among its last 65534. -/
theorem nextPid_unused_iff {actions : List Action} {recorded : World config × List Pid}
    (reached : runWithPids config actions = some recorded) :
    ¬recorded.1.shared.Uses recorded.1.shared.nextPid.val ↔
      ∀ key, recorded.1.shared.Uses key → ∃ pid ∈ recorded.2.take 65534, pid.val = key := by
  have issued := World.issued_of_run reached
  rcases log : recorded.2 with _ | ⟨newest, older⟩
  · rw [log] at issued
    have impossible := issued.newest
    simp at impossible
  · rw [log] at issued
    have same : newest = recorded.1.shared.lastPid := Option.some.inj issued.newest
    refine Pid.next_absent_iff ?_ issued.chain issued.used
    rw [same]
    exact Pid.isNext_add recorded.1.shared.lastPid

/-- A subscribe is acknowledged. The UNSUBSCRIBE of its subscription is written, and not answered. -/
def unanswered (subscribed : Pid) : List Action :=
  [.connect, .connected false, .send .subscribe, .lock 0, .grant 0 (.ok ()), .commit 0, .read,
    .written, .flushed, .transmitted, .waitTx 0,
    .receive (.subAck ⟨subscribed, none, [0x01]⟩) .copied, .waitStatus 0 false,
    .send .unsubscribe, .lock 1, .grant 1 (.ok ()), .commit 1, .read, .written, .flushed,
    .transmitted, .waitTx 1]

/-- The UNSUBSCRIBE has the identifier 3, and the next one is 4. -/
theorem nextPid_unused_iff_example :
    ∃ recorded : World (.default .mqttv5 true) × List Pid,
      runWithPids _ (unanswered ⟨2, by decide, by decide⟩) = some recorded ∧
        recorded.1.shared.ackStatus.entries.keys = [3] ∧ recorded.1.shared.nextPid.val = 4 ∧
        ¬recorded.1.shared.Uses recorded.1.shared.nextPid.val := by
  have observed : (runWithPids (.default .mqttv5 true)
      (unanswered ⟨2, by decide, by decide⟩)).map (fun recorded =>
      (recorded.2.map Pid.val, recorded.1.shared.nextPid.val,
        recorded.1.shared.inflightPub.elements ∪
          (recorded.1.shared.outgoingPid.elements ∪ recorded.1.shared.outgoingRel.elements),
        recorded.1.shared.ackStatus.entries.keys)) = some ([3, 2, 1], 4, ∅, [3]) := by decide
  rcases Option.map_eq_some_iff.mp observed with ⟨recorded, reached, same⟩
  simp only [Prod.mk.injEq, Finset.union_eq_empty] at same
  rcases same with ⟨pids, next, ⟨inflightPub, outgoingPid, outgoingRel⟩, ackStatus⟩
  refine ⟨recorded, reached, ackStatus, next, (nextPid_unused_iff reached).mpr ?_⟩
  intro key uses
  have isKey : key ∈ recorded.1.shared.ackStatus.entries.keys := by
    simpa only [Shared.Uses, inflightPub, outgoingPid, outgoingRel, Finset.notMem_empty, false_or,
      IndexMap.get?, AList.lookup_isSome, AList.mem_keys] using uses
  rw [ackStatus, List.mem_singleton] at isKey
  have length := congrArg List.length pids
  rw [List.length_map] at length
  rw [List.take_of_length_le (by simp [length]), ← List.mem_map, pids, isKey]
  exact List.mem_cons_self

/-- Publishes of QoS 0 that are dropped while they wait for the TX channel; the first one is the
call with this handle. -/
def droppedPublishes : ℕ → ℕ → List Action
  | _, 0 => []
  | handle, count + 1 =>
      .send (.publish .atMostOnce) :: .drop handle false :: droppedPublishes (handle + 1) count

theorem exists_run_droppedPublishes {world : World config} {handle : ℕ} (count : ℕ)
    (running : world.panicked = none) (fresh : world.calls.next = handle) :
    ∃ final, Execution.run step world (droppedPublishes handle count) = some final ∧
      final.shared.ackStatus = world.shared.ackStatus ∧
      final.shared.lastPid.val = (world.shared.lastPid.val - 1 + count) % 65535 + 1 := by
  induction count generalizing world handle with
  | zero =>
      have positive := world.shared.lastPid.pos
      have bound := world.shared.lastPid.lt
      refine ⟨world, rfl, rfl, ?_⟩
      omega
  | succ count ih =>
      let sent : World config :=
        { world with
          shared := world.shared.takePid
          calls := world.calls.insert
            ⟨.publish .atMostOnce, world.shared.nextPid, .checked⟩ }
      let dropped := sent.setPhase handle ⟨.publish .atMostOnce, world.shared.nextPid, .checked⟩
        .dropped
      have sends : step world (.send (.publish .atMostOnce)) = some sent := by
        simp [step, running, SendPacket.supported, World.send, Shared.hasRoom, SendPacket.getQos,
          sent]
      have live : sent.calls.get? handle =
          some ⟨.publish .atMostOnce, world.shared.nextPid, .checked⟩ := by
        rw [← fresh]
        exact Table.get?_insert_next _ _
      have drops : step sent (.drop handle false) = some dropped := by
        simp [step, running, sent, dropped, World.drop, ← fresh]
      have next : dropped.calls.next = handle + 1 := by
        rw [← fresh]
        simp [dropped, sent, World.setPhase]
      rcases @ih dropped (handle + 1) running next with ⟨final, reached, ackStatus, lastPid⟩
      refine ⟨final, ?_, ackStatus, ?_⟩
      · exact Execution.run_cons_eq_some.mpr
          ⟨sent, sends, Execution.run_cons_eq_some.mpr ⟨dropped, drops, reached⟩⟩
      · have after : dropped.shared.lastPid.val = world.shared.lastPid.val % 65535 + 1 :=
          Pid.isNext_add world.shared.lastPid
        have positive := world.shared.lastPid.pos
        rw [lastPid, after]
        omega

theorem exists_run_awaitingUnsubAck (count : ℕ) :
    ∃ world : World (.default .mqttv5 true),
      runFrom _ (unanswered ⟨2, by decide, by decide⟩ ++ droppedPublishes 2 count) = some world ∧
        world.shared.Uses 3 ∧ world.shared.nextPid.val = (3 + count) % 65535 + 1 := by
  rcases reached : runFrom (.default .mqttv5 true)
    (unanswered ⟨2, by decide, by decide⟩) with _ | waiting
  · exact absurd reached (by decide)
  · have running : waiting.panicked = none := by
      cases reached
      rfl
    have fresh : waiting.calls.next = 2 := by
      cases reached
      rfl
    have used : (waiting.shared.ackStatus.get? 3).isSome ∧ waiting.shared.lastPid.val = 3 := by
      cases reached
      decide
    rcases exists_run_droppedPublishes count running fresh with ⟨final, continued, status, lastPid⟩
    refine ⟨final, ?_, Or.inr (Or.inr (Or.inr ?_)), ?_⟩
    · rw [runFrom, Execution.run_append]
      rw [runFrom] at reached
      rw [reached]
      exact continued
    · rw [status]
      exact used.1
    · have isNext : final.shared.nextPid.val = final.shared.lastPid.val % 65535 + 1 :=
        Pid.isNext_add final.shared.lastPid
      omega

/-- After a whole round, the identifier is issued again. -/
theorem not_nextPid_unused_after_round :
    ∃ world : World (.default .mqttv5 true),
      runFrom _ (unanswered ⟨2, by decide, by decide⟩ ++ droppedPublishes 2 65534) = some world ∧
        world.shared.Uses world.shared.nextPid.val := by
  rcases exists_run_awaitingUnsubAck 65534 with ⟨world, reached, uses, next⟩
  refine ⟨world, reached, ?_⟩
  rw [next]
  exact uses

end System

end Mqttrust
