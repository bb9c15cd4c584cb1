import Mqttrust.System.AckRouting
import Mqttrust.System.Cancellation

/-!
# The slots of the acknowledgements

`ack_status` has few slots, and nothing expires. A slot that waits for an
acknowledgement, or holds one, is to belong to a call that waits for it. A SUBSCRIBE
whose future is dropped removes its slot; an UNSUBSCRIBE does not, so its slot stays
until the next reset, and a late UNSUBACK turns it into one that nobody takes.
-/

namespace Mqttrust.System

variable {config : CrateConfig}

/-- Some call is to take the slot: it waits for an acknowledgement or holds one. The slot of
`Subscription::drop`, for which no call waits, is removed by the acknowledgement. -/
def AckStatus.owed : AckStatus → Bool
  | .awaitingSubAck | .awaitingUnsubAck true | .acked _ => true
  | .awaitingUnsubAck false => false

namespace Shared

variable {shared next : Shared config} {key : ℕ} {status : AckStatus}

/-- An acknowledgement makes no slot that a call is to take. -/
theorem owed_of_handle {payload : Payload} {received : ReceivedPacket} {reply : Option Reply}
    (handled : shared.handle payload received = .done next reply)
    (found : next.ackStatus.get? key = some status) (owed : status.owed = true) :
    ∃ old, shared.ackStatus.get? key = some old ∧ old.owed = true := by
  by_cases expects : shared.Expects received
  · cases received with
    | subAck ack =>
        rcases Handled.done.inj handled with ⟨rfl, _⟩
        by_cases own : key = ack.pid.val
        · exact ⟨.awaitingSubAck, own ▸ expects, rfl⟩
        · rw [status_handleSubAck own] at found
          exact ⟨status, found, owed⟩
    | unsubAck ack =>
        rcases Handled.done.inj handled with ⟨rfl, _⟩
        by_cases own : key = ack.pid.val
        · rcases expects with ⟨waits, awaiting⟩
          rw [← own] at awaiting
          cases waits with
          | true => exact ⟨.awaitingUnsubAck true, awaiting, rfl⟩
          | false =>
              unfold handleUnsubAck at found
              rw [← own, awaiting] at found
              dsimp only at found
              rw [IndexMap.get?_remove, if_pos rfl] at found
              simp at found
        · rw [status_handleUnsubAck own] at found
          exact ⟨status, found, owed⟩
    | _ => exact absurd expects id
  · rw [ackStatus_of_handle handled expects] at found
    exact ⟨status, found, owed⟩

end Shared

namespace World

/-- A call of `subscribe` or `unsubscribe` waits for the slot. -/
def WaitsFor (world : World config) (handle key : ℕ) : Prop :=
  ∃ call, world.calls.get? handle = some call ∧ call.isWaiting = true ∧
    call.packet.needsStatus = true ∧ call.pid.val = key

/-- Every slot that some call is to take belongs to a call that waits. -/
def SlotsOwned (world : World config) : Prop :=
  ∀ key status, world.shared.ackStatus.get? key = some status → status.owed = true →
    ∃ handle, world.WaitsFor handle key

/-- The condition on a step: when the future of an UNSUBSCRIBE that waits is dropped, or that of a
SUBSCRIBE which finds the shared state locked, it has no slot that a call is to take, or another
call waits for this slot. -/
def DropsUnowed (world : World config) : Action → Prop
  | .drop handle contended =>
      world.panicked = none → ∀ call ∈ world.calls.get? handle, call.isWaiting = true →
        call.packet = .unsubscribe ∨ call.packet = .subscribe ∧ contended = true →
        ∀ status ∈ world.shared.ackStatus.get? call.pid.val, status.owed = true →
          ∃ other, other ≠ handle ∧ world.WaitsFor other call.pid.val
  | _ => True

variable {world next : World config} {action : Action} {handle key : ℕ} {call : Call}

/-- Nobody is to take the slot of a subscription that is dropped. -/
theorem status_dropSubscription_cases (world : World config) (locks : SubscriptionDrop) (key : ℕ) :
    (world.dropSubscription locks).shared.ackStatus.get? key = some (.awaitingUnsubAck false) ∨
      (world.dropSubscription locks).shared.ackStatus.get? key =
        world.shared.ackStatus.get? key := by
  by_cases own : key = (if locks.pidLocked then world.shared.nextPid else Pid.new).val
  · have taken : (if locks.pidLocked then world.shared.takePid else world.shared).ackStatus =
        world.shared.ackStatus := by
      split <;> rfl
    unfold dropSubscription
    dsimp only
    split
    · dsimp only
      split
      · dsimp only
        rw [taken]
        rcases inserted : world.shared.ackStatus.insert _ _ with _ | ackStatus
        · exact .inr rfl
        · exact .inl ((IndexMap.get?_insert inserted key).trans (if_pos own))
      · exact .inr (by rw [taken])
    · exact .inr (by rw [taken])
  · exact .inr (status_dropSubscription locks own)

theorem isSome_setPhase {other : ℕ} {old : Call} {phase : Phase}
    (live : world.calls.get? other = some old) (own : (world.calls.get? handle).isSome = true) :
    ((world.setPhase other old phase).calls.get? handle).isSome = true := by
  rw [setPhase, Table.get?_replace live]
  split
  · rfl
  · exact own

theorem WaitsFor.isWaiting (waits : world.WaitsFor handle key)
    (live : world.calls.get? handle = some call) :
    call.isWaiting = true ∧ call.packet.needsStatus = true ∧ call.pid.val = key := by
  rcases waits with ⟨own, own_live, waiting, needsStatus, pid⟩
  rcases Option.some.inj (live.symm.trans own_live) with rfl
  exact ⟨waiting, needsStatus, pid⟩

/-- A commit makes at most the slot of its own call, which waits for it. -/
theorem owed_of_commit {status : AckStatus}
    (live : world.calls.get? handle = some call)
    (found : (world.commit handle call).shared.ackStatus.get? key = some status)
    (owed : status.owed = true) :
    (∃ old, world.shared.ackStatus.get? key = some old ∧ old.owed = true) ∨
      ∃ handle', (world.commit handle call).WaitsFor handle' key := by
  unfold World.commit at found ⊢
  split at found
  · rename_i registered
    dsimp only at found
    by_cases own : key = call.pid.val
    · cases needsStatus : call.packet.needsStatus with
      | true =>
          right
          refine ⟨handle, { call with phase := .sent }, ?_, rfl, needsStatus, own.symm⟩
          simp only [World.setPhase, Table.get?_replace live, if_true]
      | false =>
          left
          rw [Shared.ackStatus_of_publish registered needsStatus] at found
          exact ⟨status, found, owed⟩
    · left
      rw [Shared.status_of_registered registered own] at found
      exact ⟨status, found, owed⟩
  · rename_i registered
    dsimp only at found
    rw [(Shared.eq_of_full registered).1] at found
    exact .inl ⟨status, found, owed⟩
  · exact .inl ⟨status, found, owed⟩

end World

namespace Transition

variable {world next : World config} {action : Action} {handle key : ℕ} {call : Call}

/-- A call keeps its handle. -/
theorem isSome_calls (transition : Transition world action next)
    (own : (world.calls.get? handle).isSome = true) :
    (next.calls.get? handle).isSome = true := by
  cases transition with
  | send packet =>
      unfold World.send
      split
      · dsimp only
        rw [Table.get?_insert]
        split
        · rfl
        · exact own
      · exact own
  | lock live => exact World.isSome_setPhase live own
  | grant result live => cases result <;> exact World.isSome_setPhase live own
  | commit live =>
      unfold World.commit
      split
      · exact World.isSome_setPhase live own
      · exact World.isSome_setPhase live own
      · exact own
  | waitTx live | waitAck live | waitRel live => exact World.isSome_setPhase live own
  | waitStatus contended live =>
      unfold World.finishStatus
      split <;> exact World.isSome_setPhase live own
  | drop contended live =>
      unfold World.drop
      split <;> first | exact World.isSome_setPhase live own | exact own
  | dropSubscription locks =>
      unfold World.dropSubscription
      dsimp only
      split <;> exact own
  | receive payload =>
      unfold World.receive
      dsimp only
      split <;> exact own
  | receiveFails error => cases error <;> exact own
  | keepAlive =>
      unfold World.keepAlive
      split <;> exact own
  | connect | connectFails | connected | lost | read | written | flushed | transmitted
  | writeFails | replied | reset | dropRun | disconnect => exact own

/-- The call that takes its slot leaves it empty. -/
theorem status_of_waitStatus {contended : Bool}
    (transition : Transition world (.waitStatus handle contended) next)
    (live : world.calls.get? handle = some call) :
    next.shared.ackStatus.get? call.pid.val = none := by
  cases transition with
  | @waitStatus _ old shared codes _ own phase notPublish ready =>
      rcases Option.some.inj (live.symm.trans own) with rfl
      have removed : shared.ackStatus.get? call.pid.val = none := by
        rw [(Shared.waitStatus_eq_some ready).2]
        exact (IndexMap.get?_remove _ _ _).trans (if_pos rfl)
      unfold World.finishStatus
      split
      · rcases Shared.status_clean shared call.packet call.pid contended call.pid.val with
          cleaned | kept
        · exact cleaned
        · exact kept.trans removed
      · exact removed

/-- A call that waits goes on waiting until it takes its slot or is dropped. -/
theorem waitsFor (transition : Transition world action next) (released : world.Released)
    (waits : world.WaitsFor handle key) (undropped : ∀ contended, action ≠ .drop handle contended) :
    next.WaitsFor handle key ∨ next.shared.ackStatus.get? key = none := by
  rcases waits with ⟨call, live, waiting, needsStatus, rfl⟩
  rcases Option.isSome_iff_exists.mp (transition.isSome_calls (by rw [live]; rfl)) with
    ⟨call', live'⟩
  cases transition.origin live' with
  | same same =>
      rcases Option.some.inj (live.symm.trans same) with rfl
      exact .inl ⟨call, live', waiting, needsStatus, rfl⟩
  | begun packet send room fresh =>
      rw [fresh, Table.get?_next] at live
      simp at live
  | @advanced old phase own advances =>
      rcases Option.some.inj (live.symm.trans own) with rfl
      unfold Call.isWaiting at waiting
      cases advances with
      | waitTx phase ready =>
          refine .inl ⟨_, live', ?_, needsStatus, rfl⟩
          rcases (Shared.cases_of_waitTx ready).2 with ⟨publish, _⟩ | ⟨_, rfl⟩
          · simp [publish, SendPacket.needsStatus] at needsStatus
          · rfl
      | waitAck phase publish => simp [publish, SendPacket.needsStatus] at needsStatus
      | waitRel phase =>
          have publish := released handle call live phase
          simp [needsStatus] at publish
      | waitStatus contended => exact .inr (transition.status_of_waitStatus live)
      | dropped contended => exact absurd rfl (undropped contended)
      | lock phase | granted phase | refused _ phase | committed phase | full phase =>
          simp [phase] at waiting

theorem next_of_drop {contended : Bool} (transition : Transition world (.drop handle contended) next)
    (live : world.calls.get? handle = some call) (waiting : call.isWaiting = true) :
    next = { world.setPhase handle call .dropped with
      shared := world.shared.clean call.packet call.pid contended } := by
  cases transition with
  | drop contended own =>
      rcases Option.some.inj (live.symm.trans own) with rfl
      exact World.drop_of_waiting waiting contended

/-- A slot that a call is to take was there before, or its call has just committed its frame. -/
theorem owed_before (transition : Transition world action next) {status : AckStatus}
    (found : next.shared.ackStatus.get? key = some status) (owed : status.owed = true) :
    (∃ old, world.shared.ackStatus.get? key = some old ∧ old.owed = true) ∨
      ∃ handle, next.WaitsFor handle key := by
  have same : next.shared.ackStatus.get? key = world.shared.ackStatus.get? key →
      ∃ old, world.shared.ackStatus.get? key = some old ∧ old.owed = true := by
    intro kept
    exact ⟨status, kept ▸ found, owed⟩
  have kept : next.shared.ackStatus.get? key = none ∨
      next.shared.ackStatus.get? key = world.shared.ackStatus.get? key →
        ∃ old, world.shared.ackStatus.get? key = some old ∧ old.owed = true := by
    rintro (removed | kept)
    · simp [removed] at found
    · exact same kept
  cases transition with
  | commit live phase => exact World.owed_of_commit live found owed
  | dropSubscription locks =>
      left
      rcases World.status_dropSubscription_cases world locks key with unowed | unchanged
      · rw [unowed] at found
        rcases Option.some.inj found with rfl
        simp [AckStatus.owed] at owed
      · exact same unchanged
  | receive payload =>
      left
      unfold World.receive at found
      dsimp only at found
      split at found
      · rename_i handled
        exact Shared.owed_of_handle handled found owed
      · exact ⟨status, found, owed⟩
      · exact ⟨status, found, owed⟩
  | @waitStatus other caller shared codes contended live phase notPublish ready =>
      left
      apply kept
      have taken := Shared.status_waitStatus ready key
      unfold World.finishStatus
      split
      · rcases Shared.status_clean shared caller.packet caller.pid contended key with
          removed | same
        · exact .inl removed
        · exact same ▸ taken
      · exact taken
  | drop contended live =>
      left
      apply kept
      unfold World.drop
      split
      all_goals first | exact .inr rfl | exact Shared.status_clean _ _ _ contended key
  | send packet =>
      left
      apply same
      unfold World.send
      split <;> rfl
  | grant result => cases result <;> exact .inl (same rfl)
  | transmitted =>
      left
      apply same
      unfold World.transmitted
      split <;> rfl
  | receiveFails error => cases error <;> exact .inl (same rfl)
  | keepAlive =>
      left
      apply same
      unfold World.keepAlive
      split <;> rfl
  | reset | disconnect => exact .inl (kept (.inl rfl))
  | lock | waitTx | waitAck | waitRel | connect | connectFails | connected | lost | read | written
  | flushed | writeFails | replied | dropRun => exact .inl (same rfl)

end Transition

namespace World

variable {world next : World config} {action : Action}

theorem SlotsOwned.step (owned : world.SlotsOwned) (released : world.Released)
    (unowed : world.DropsUnowed action) (running : world.panicked = none)
    (transition : Transition world action next) : next.SlotsOwned := by
  intro key status found owed
  rcases transition.owed_before found owed with ⟨old, before, old_owed⟩ | waits
  · rcases owned key old before old_owed with ⟨handle, waits⟩
    by_cases dropped : ∃ contended, action = .drop handle contended
    · rcases dropped with ⟨contended, rfl⟩
      rcases waits with ⟨call, live, waiting, needsStatus, rfl⟩
      by_cases cleaned : call.packet = .subscribe ∧ contended = false
      · rw [transition.next_of_drop live waiting] at found
        dsimp only at found
        rw [cleaned.1, cleaned.2] at found
        have removed : (world.shared.clean .subscribe call.pid false).ackStatus.get? call.pid.val =
            none := (IndexMap.get?_remove _ _ _).trans (if_pos rfl)
        simp [removed] at found
      · have kind : call.packet = .unsubscribe ∨ call.packet = .subscribe ∧ contended = true := by
          cases packet : call.packet with
          | publish qos => simp [packet, SendPacket.needsStatus] at needsStatus
          | subscribe => simpa [packet] using cleaned
          | unsubscribe => exact .inl rfl
        rcases unowed running call live waiting kind old before old_owed with
          ⟨other, different, waits⟩
        have undropped : ∀ contended', Action.drop handle contended ≠ .drop other contended' := by
          intro contended' same
          rw [Action.drop.injEq] at same
          exact different same.1.symm
        rcases transition.waitsFor released waits undropped with waits | taken
        · exact ⟨other, waits⟩
        · simp [taken] at found
    · rcases transition.waitsFor released waits (fun contended same => dropped ⟨contended, same⟩)
        with waits | taken
      · exact ⟨handle, waits⟩
      · simp [taken] at found
  · exact waits

theorem SlotsOwned.unowed (owned : next.SlotsOwned)
    (stepped : System.step world action = some next) : world.DropsUnowed action := by
  cases action with
  | drop handle contended =>
      intro _ call live waiting kind status found owed
      have transition := (transition_of_step stepped).2
      have kept : next.shared = world.shared := by
        rw [transition.next_of_drop live waiting]
        dsimp only
        rcases kind with unsubscribe | ⟨_, locked⟩
        · rw [unsubscribe, Shared.clean]
          split <;> rfl
        · rw [locked]
          rfl
      rw [← kept] at found
      rcases owned _ status found owed with ⟨other, waits⟩
      have calls : next.calls = (world.setPhase handle call .dropped).calls := by
        rw [transition.next_of_drop live waiting]
      rcases waits with ⟨caller, live', waiting', needsStatus, pid⟩
      rw [calls, setPhase, Table.get?_replace live] at live'
      split at live'
      · rcases Option.some.inj live' with rfl
        simp [Call.isWaiting] at waiting'
      · rename_i different
        exact ⟨other, different, caller, live', waiting', needsStatus, pid⟩
  | _ => trivial

end World

/-- Every slot that some call is to take belongs to a call that waits, in every state of a run,
exactly when no future of an UNSUBSCRIBE that waits is dropped with such a slot of its own. -/
theorem always_slotsOwned_iff (config : CrateConfig) (actions : List Action) :
    Execution.Always step World.SlotsOwned (World.new config) actions ↔
      Execution.Guarded step World.DropsUnowed (World.new config) actions := by
  apply Execution.always_iff_guarded (fun _ _ => True) World.Released World.SlotsOwned
  · intro world next action _ released stepped
    exact released.step (transition_of_step stepped).2
  · intro world next action _ released owned unowed stepped
    rcases transition_of_step stepped with ⟨running, transition⟩
    exact owned.step released unowed running transition
  · intro world next action _ _ stepped owned
    exact owned.unowed stepped
  · intro world action impossible
    cases action with
    | drop handle contended =>
        intro running call live
        simp [step, running, Option.mem_def.mp live] at impossible
    | _ => trivial
  · exact Execution.guarded_of_forall fun _ _ _ => trivial
  · simp [World.Released, World.new]
  · simp [World.SlotsOwned, World.new, Shared.new]

/-- The future of an UNSUBSCRIBE is dropped after its transmission; `Subscription::drop` then sends
another one. The slot of the first one waits for an acknowledgement that nobody will take. -/
theorem not_slotsOwned_after_drop :
    ¬∀ (config : CrateConfig) (actions : List Action) (world : World config),
      runFrom config actions = some world → world.SlotsOwned := by
  intro claimed
  have owned := claimed (.default .mqttv5 true) [.connect, .connected false, .send .subscribe,
    .lock 0, .grant 0 (.ok ()), .commit 0, .read, .written, .flushed, .transmitted, .waitTx 0,
    .receive (.subAck ⟨⟨2, by decide, by decide⟩, none, [0x01]⟩) .copied, .waitStatus 0 false,
    .send .unsubscribe, .lock 1, .grant 1 (.ok ()), .commit 1, .read, .written, .flushed,
    .transmitted, .waitTx 1, .drop 1 false, .dropSubscription ⟨true, true, true, true⟩] _ rfl
  rcases owned 3 (.awaitingUnsubAck true) (by decide) rfl with ⟨handle, call, live, waiting, _⟩
  have counted := Table.count_pos_of_get? Call.isWaiting live waiting
  exact absurd counted (by decide)

end Mqttrust.System
