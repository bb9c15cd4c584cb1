import Mqttrust.Foundation.Wakers
import Mqttrust.System.AckSlots
import Mqttrust.System.Attribution
import Mqttrust.System.CleanSessions

/-!
# Who sleeps, and who is woken

A future of the client that cannot go on registers the waker of its task and sleeps: a call
that waits for its packet in `tx_waker`, `wait_connected` in `connection_waker` and
`wait_connection_change` in `connection_state_change_waker`, which a subscription registers
as well. A future that finds the shared state locked wakes itself and stays awake.

The system is the world together with the registrations. Who sleeps is woken when its waker
is, and may be polled without that.
-/

namespace Mqttrust.System

variable {config : CrateConfig}

/-- Whether the poll of a call that waits is ready. -/
def Call.isReady (call : Call) (shared : Shared config) : Bool :=
  match call.phase, call.packet with
  | .sent, packet => (shared.waitTx packet call.pid).isSome
  | .transmitted, .publish qos => (shared.waitAck qos call.pid).isSome
  | .transmitted, .subscribe | .transmitted, .unsubscribe => (shared.waitStatus call.pid).isSome
  | .acked, _ => (shared.waitRel call.pid).isSome
  | .checked, _ | .publishing, _ | .granted, _ | .finished _, _ | .dropped, _ => true

/-- The call waits for the reason codes of a SUBACK or an UNSUBACK. -/
def Call.awaitsStatus (call : Call) : Bool :=
  match call.phase, call.packet with
  | .transmitted, .subscribe | .transmitted, .unsubscribe => true
  | _, _ => false

/-- Whether handling a received packet wakes `tx_waker`. -/
def Shared.wakesTx (shared : Shared config) : ReceivedPacket → Bool
  | .pubAck _ => true
  | .pubRec packet =>
      shared.inflightPub.contains packet.pid.val &&
        (shared.outgoingRel.insert packet.pid.val).isSome
  | .pubRel packet => shared.incomingPub.contains packet.pid.val
  | .pubComp packet => shared.outgoingRel.contains packet.pid.val
  | .subAck packet => shared.ackStatus.get? packet.pid.val == some .awaitingSubAck
  | .unsubAck packet =>
      match shared.ackStatus.get? packet.pid.val with
      | some (.awaitingUnsubAck _) => true
      | _ => false
  | .pingResp | .connAck _ | .disconnect _ | .partialPublish _ _ _ => false

namespace Action

/-- Whether the action wakes `tx_waker`. -/
def wakesTx (shared : Shared config) : Action → Bool
  | .transmitted => true
  | .receive packet _ => shared.wakesTx packet
  | _ => false

/-- Whether the action calls `Shared::set_connected`. -/
def setsConnected : Action → Bool
  | .connect | .connected _ | .reset _ | .disconnect => true
  | _ => false

/-- The call whose future performs the action, or is dropped by it. -/
def caller? : Action → Option ℕ
  | .lock handle | .grant handle _ | .commit handle | .waitTx handle | .waitAck handle
  | .waitRel handle | .waitStatus handle _ | .drop handle _ => some handle
  | _ => none

end Action

/-- A future that waits for the connection. -/
inductive ConnectionWait where
  /-- `wait_connected`. -/
  | connected
  /-- `wait_connection_change`, with `prev_state`. -/
  | change (previous : Option Bool)
deriving DecidableEq, Repr

/-- Whether the poll of the future is ready. -/
def ConnectionWait.isReady (connected : Option Bool) : ConnectionWait → Bool
  | .connected => connected.isSome
  | .change previous => previous != connected

/-- The futures that sleep. -/
inductive Waiter where
  | call (handle : ℕ)
  | wait (id : ℕ)
deriving DecidableEq, Repr

/-- The world, the wakers that the shared state holds, and the futures that sleep. -/
structure Tasks (Task : Type) (config : CrateConfig) where
  world : World config
  txWaker : MultiWakerRegistration config.maxInflight Task
  connectionWaker : WakerRegistration Task
  connectionStateChangeWaker : WakerRegistration Task
  waits : Table ConnectionWait
  asleep : Sleepers Waiter Task

/-- What a task does. -/
inductive TasksAction (Task : Type) where
  | act (action : Action)
  /-- A call that waits is polled. -/
  | pollCall (handle : ℕ) (task : Task) (contended : Bool)
  | waitConnected
  | waitConnectionChange
  | pollWait (id : ℕ) (task : Task) (contended : Bool)
  | dropWait (id : ℕ)
  /-- A subscription is polled. -/
  | pollNext (task : Task)

namespace Tasks

variable {Task : Type}

/-- Nobody sleeps in a new client. -/
def new (Task : Type) (config : CrateConfig) : Tasks Task config where
  world := .new config
  txWaker := .new
  connectionWaker := .new
  connectionStateChangeWaker := .new
  waits := .empty
  asleep := .none

variable [DecidableEq Task] (tasks : Tasks Task config)

/-- Whether a task is registered where a future registers its waker. -/
def registered (waiter : Waiter) (task : Task) : Bool :=
  match waiter with
  | .call _ => decide (task ∈ tasks.txWaker.tasks)
  | .wait id =>
      match tasks.waits.get? id with
      | some .connected => decide (tasks.connectionWaker.task = some task)
      | some (.change _) => decide (tasks.connectionStateChangeWaker.task = some task)
      | none => false

omit [DecidableEq Task] in
/-- Whether the poll of a future would be ready. -/
def isReady : Waiter → Bool
  | .call handle =>
      (tasks.world.calls.get? handle).all fun call => call.isReady tasks.world.shared
  | .wait id =>
      (tasks.waits.get? id).all fun wait => wait.isReady tasks.world.shared.connected

/-- A future wakes up when its waker is not registered any more. -/
def settle : Tasks Task config := { tasks with asleep := tasks.asleep.stay tasks.registered }

/-- What an action of the world does to the wakers. -/
def act (action : Action) (next : World config) : Tasks Task config :=
  let changed := tasks.world.shared.connected != next.shared.connected
  settle { tasks with
    world := next
    txWaker := tasks.txWaker.wakeIf (action.wakesTx tasks.world.shared)
    connectionWaker := tasks.connectionWaker.wakeIf action.setsConnected
    connectionStateChangeWaker :=
      tasks.connectionStateChangeWaker.wakeIf (action.setsConnected && changed)
    asleep := tasks.asleep.rouse (action.caller?.map .call) }

/-- A call that is not ready registers the waker of its task. -/
def pollCall (handle : ℕ) (task : Task) (contended : Bool) : Tasks Task config :=
  if contended then { tasks with asleep := tasks.asleep.rouse (some (.call handle)) }
  else
    settle { tasks with
      txWaker := tasks.txWaker.register task
      asleep := tasks.asleep.sleep (.call handle) task }

/-- `wait_connected` and `wait_connection_change`. -/
def pollWait (id : ℕ) (wait : ConnectionWait) (task : Task) (contended : Bool) :
    Tasks Task config :=
  if contended then { tasks with asleep := tasks.asleep.rouse (some (.wait id)) }
  else if wait.isReady tasks.world.shared.connected then
    { tasks with waits := tasks.waits.remove id, asleep := tasks.asleep.rouse (some (.wait id)) }
  else
    match wait with
    | .connected =>
        settle { tasks with
          connectionWaker := tasks.connectionWaker.register task
          asleep := tasks.asleep.sleep (.wait id) task }
    | .change _ =>
        settle { tasks with
          connectionStateChangeWaker := tasks.connectionStateChangeWaker.register task
          asleep := tasks.asleep.sleep (.wait id) task }

end Tasks

/-- The action of the world. -/
def TasksAction.acts? {Task : Type} : TasksAction Task → Option Action
  | .act action => some action
  | _ => none

/-- One action. A call that is ready goes on by an action of the world. -/
def tasksStep {Task : Type} [DecidableEq Task] (tasks : Tasks Task config) :
    TasksAction Task → Option (Tasks Task config)
  | .act action => (step tasks.world action).map (tasks.act action)
  | .pollCall handle task contended => do
      let call ← tasks.world.calls.get? handle
      if call.isWaiting ∧ (contended ∨ call.isReady tasks.world.shared = false) then
        some (tasks.pollCall handle task contended)
      else none
  | .waitConnected =>
      some (if tasks.world.shared.connected.isSome then tasks
        else { tasks with waits := tasks.waits.insert .connected })
  | .waitConnectionChange =>
      some { tasks with waits := tasks.waits.insert (.change tasks.world.shared.connected) }
  | .pollWait id task contended => do
      let wait ← tasks.waits.get? id
      some (tasks.pollWait id wait task contended)
  | .dropWait id =>
      some { tasks with
        waits := tasks.waits.remove id, asleep := tasks.asleep.rouse (some (.wait id)) }
  | .pollNext task =>
      some (Tasks.settle { tasks with
        connectionStateChangeWaker := tasks.connectionStateChangeWaker.register task })

section Ready

variable {shared next last : Shared config} {call : Call} {key : ℕ}

/-- Nothing happens that a call with the identifier waits for. -/
structure Shared.Leaves (shared next : Shared config) (key : ℕ) : Prop where
  keeps : shared.Keeps next key
  acked : ∀ codes, next.ackStatus.get? key = some (.acked codes) →
    shared.ackStatus.get? key = some (.acked codes)

namespace Shared.Leaves

theorem of_eq (outgoingPid : next.outgoingPid = shared.outgoingPid)
    (inflightPub : next.inflightPub = shared.inflightPub)
    (outgoingRel : next.outgoingRel = shared.outgoingRel)
    (ackStatus : next.ackStatus = shared.ackStatus) : shared.Leaves next key :=
  ⟨.of_eq outgoingPid inflightPub outgoingRel, fun _ acked => ackStatus ▸ acked⟩

theorem trans (first : shared.Leaves next key) (second : next.Leaves last key) :
    shared.Leaves last key :=
  ⟨first.keeps.trans second.keeps, fun codes => first.acked codes ∘ second.acked codes⟩

theorem clean {pid : Pid} (different : key ≠ pid.val) (packet : SendPacket) (contended : Bool) :
    shared.Leaves (shared.clean packet pid contended) key := by
  refine ⟨.clean different packet contended, ?_⟩
  intro codes acked
  unfold Shared.clean at acked
  split at acked
  · exact acked
  · cases packet with
    | publish qos =>
        simp only [Shared.cleanPublish] at acked
        split at acked <;> split at acked <;> exact acked
    | subscribe =>
        simp only [Shared.cleanSubscribe, IndexMap.get?_remove, if_neg different] at acked
        exact acked
    | unsubscribe => exact acked

theorem waitStatus {pid : Pid} {codes : List UInt8} (different : key ≠ pid.val)
    (ready : shared.waitStatus pid = some (next, codes)) : shared.Leaves next key := by
  refine ⟨.waitStatus ready, ?_⟩
  rcases Shared.waitStatus_eq_some ready with ⟨_, rfl⟩
  intro codes acked
  simpa only [IndexMap.get?_remove, if_neg different] using acked

theorem of_done {packet : SendPacket} {pid : Pid}
    (registered : shared.register packet pid = .done next) : shared.Leaves next key := by
  refine ⟨.registers (Shared.registers_of_done registered), ?_⟩
  intro codes acked
  rcases Shared.cases_of_done registered with
    ⟨_, _, ⟨_, rfl⟩ | ⟨_, _, _, rfl⟩ | ⟨status, ackStatus, awaited, inserted, rfl⟩⟩
  · exact acked
  · exact acked
  · rw [IndexMap.get?_insert inserted] at acked
    split at acked
    · rcases awaited with ⟨_, rfl⟩ | ⟨_, rfl⟩ <;> simp at acked
    · exact acked

theorem of_full {packet : SendPacket} {pid : Pid}
    (registered : shared.register packet pid = .full next) : shared.Leaves next key := by
  rcases Shared.eq_of_full registered with ⟨same, grown, _⟩
  rw [same]
  exact ⟨⟨fun present => grown present, id, id⟩, fun _ => id⟩

/-- A packet that wakes nobody changes nothing that a call waits for. -/
theorem of_handle {payload : Payload} {packet : ReceivedPacket} {reply : Option Reply}
    (quiet : shared.wakesTx packet = false)
    (handled : shared.handle payload packet = .done next reply) : shared.Leaves next key := by
  cases packet with
  | pubAck packet => simp [Shared.wakesTx] at quiet
  | pubRec packet =>
      rcases Shared.exists_of_handlePubRec handled with ⟨present, outgoingRel, inserted, _⟩
      simp [Shared.wakesTx, present, inserted] at quiet
  | pubComp packet =>
      rcases Handled.done.inj handled with ⟨rfl, _⟩
      have absent : packet.pid.val ∉ shared.outgoingRel.elements := by
        simpa [Shared.wakesTx] using quiet
      refine ⟨⟨id, id, fun present => ?_⟩, fun _ => id⟩
      exact Finset.mem_erase.mpr ⟨fun same => absent (same ▸ present), present⟩
  | subAck packet =>
      rcases Handled.done.inj handled with ⟨rfl, _⟩
      unfold Shared.handleSubAck
      split
      · rename_i awaiting
        simp [Shared.wakesTx, awaiting] at quiet
      · exact .of_eq rfl rfl rfl rfl
  | unsubAck packet =>
      rcases Handled.done.inj handled with ⟨rfl, _⟩
      unfold Shared.handleUnsubAck
      split
      · rename_i awaiting
        simp [Shared.wakesTx, awaiting] at quiet
      · rename_i awaiting
        simp [Shared.wakesTx, awaiting] at quiet
      · exact .of_eq rfl rfl rfl rfl
  | pubRel packet =>
      rw [Shared.eq_of_handlePubRel handled]
      exact .of_eq rfl rfl rfl rfl
  | partialPublish qosPid topicName publish =>
      rcases Shared.cases_of_handlePublish handled with ⟨rfl, _⟩ | ⟨_, _, _, _, _, rfl⟩
      · exact .of_eq rfl rfl rfl rfl
      · exact .of_eq rfl rfl rfl rfl
  | pingResp | connAck | disconnect =>
      rcases Handled.done.inj handled with ⟨rfl, _⟩
      exact .of_eq rfl rfl rfl rfl

end Shared.Leaves

theorem Shared.isSome_waitTx (packet : SendPacket) (pid : Pid) :
    (shared.waitTx packet pid).isSome = !shared.outgoingPid.contains pid.val := by
  unfold Shared.waitTx
  split
  · simp_all
  · split <;> simp_all

theorem Shared.isSome_waitAck (qos : QoS) (pid : Pid) :
    (shared.waitAck qos pid).isSome = !shared.inflightPub.contains pid.val := by
  unfold Shared.waitAck
  split
  · simp_all
  · split <;> simp_all

theorem Shared.isSome_waitRel (pid : Pid) :
    (shared.waitRel pid).isSome = !shared.outgoingRel.contains pid.val := by
  unfold Shared.waitRel
  split <;> simp_all

theorem Shared.isSome_waitStatus {pid : Pid} :
    (shared.waitStatus pid).isSome = true ↔
      ∃ codes, shared.ackStatus.get? pid.val = some (.acked codes) := by
  unfold Shared.waitStatus
  split
  · rename_i codes acked
    simp [acked]
  · rename_i notAcked
    simpa using notAcked

/-- A call that is not ready stays so until something happens that it waits for. -/
theorem Call.isReady_of_leaves (leaves : shared.Leaves next call.pid.val)
    (waits : call.isReady shared = false) : call.isReady next = false := by
  have status : (shared.waitStatus call.pid).isSome = false →
      (next.waitStatus call.pid).isSome = false := by
    simp only [← Bool.not_eq_true, Shared.isSome_waitStatus]
    rintro notAcked ⟨codes, acked⟩
    exact notAcked ⟨codes, leaves.acked codes acked⟩
  unfold Call.isReady at *
  split at waits
  · simp only [Shared.isSome_waitTx, Bool.not_eq_false', IndexSet.contains_iff] at waits ⊢
    exact leaves.keeps.outgoingPid waits
  · simp only [Shared.isSome_waitAck, Bool.not_eq_false', IndexSet.contains_iff] at waits ⊢
    exact leaves.keeps.inflightPub waits
  · exact status waits
  · exact status waits
  · simp only [Shared.isSome_waitRel, Bool.not_eq_false', IndexSet.contains_iff] at waits ⊢
    exact leaves.keeps.outgoingRel waits
  all_goals simp at waits

/-- After a reset, a call that waits is ready unless it waits for reason codes. -/
theorem Call.isReady_reset (waiting : call.isWaiting = true) :
    call.isReady shared.reset = !call.awaitsStatus := by
  unfold Call.isWaiting at waiting
  unfold Call.isReady Call.awaitsStatus
  split at waiting
  · rename_i phase
    simp [phase, Shared.isSome_waitTx, Shared.reset, IndexSet.contains]
  · rename_i phase
    cases packet : call.packet with
    | publish qos => simp [phase, Shared.isSome_waitAck, Shared.reset, IndexSet.contains]
    | subscribe | unsubscribe => simp [phase, Shared.waitStatus, Shared.reset]
  · rename_i phase
    simp [phase, Shared.isSome_waitRel, Shared.reset, IndexSet.contains]
  · simp at waiting

theorem Call.isWaiting_of_isReady (waits : call.isReady shared = false) :
    call.isWaiting = true := by
  unfold Call.isReady at waits
  unfold Call.isWaiting
  split at waits <;> simp_all

end Ready

namespace Transition

variable {world next : World config} {action : Action} {handle : ℕ} {call : Call}

/-- Only the future of a call makes it go on. -/
theorem get?_calls (transition : Transition world action next)
    (other : action.caller? ≠ some handle) (live : world.calls.get? handle = some call) :
    next.calls.get? handle = some call := by
  rcases Option.isSome_iff_exists.mp (transition.isSome_calls (by rw [live]; rfl)) with
    ⟨call', live'⟩
  cases transition.origin live' with
  | same same => rw [live', ← same, live]
  | begun packet send room fresh =>
      rw [fresh, Table.get?_next] at live
      simp at live
  | advanced own advances => cases advances <;> exact absurd rfl other

/-- Unless it wakes `tx_waker` or resets the shared state, an action does nothing that another
call waits for. -/
theorem leaves (transition : Transition world action next)
    (quiet : action.wakesTx world.shared = false) (noReset : action.resets = false)
    (apart : ∀ caller old, action.caller? = some caller → world.calls.get? caller = some old →
      old.isWaiting = true → call.pid ≠ old.pid) :
    world.shared.Leaves next.shared call.pid.val := by
  have different : ∀ {caller : ℕ} {old : Call}, action.caller? = some caller →
      world.calls.get? caller = some old → old.isWaiting = true →
      call.pid.val ≠ old.pid.val :=
    fun own live waiting same => apart _ _ own live waiting (Pid.ext same)
  cases transition with
  | send packet =>
      unfold World.send
      split <;> exact .of_eq rfl rfl rfl rfl
  | grant result => cases result <;> exact .of_eq rfl rfl rfl rfl
  | commit =>
      unfold World.commit
      split
      · rename_i registered
        exact .of_done registered
      · rename_i registered
        exact .of_full registered
      · exact .of_eq rfl rfl rfl rfl
  | waitStatus contended live phase notPublish ready =>
      have apart := different rfl live (by simp [Call.isWaiting, phase])
      unfold World.finishStatus
      split
      · exact .trans (.waitStatus apart ready) (.clean apart _ contended)
      · exact .waitStatus apart ready
  | drop contended live =>
      unfold World.drop
      split
      all_goals
        rename_i phase
        first
        | exact .of_eq rfl rfl rfl rfl
        | exact .clean (different rfl live (by simp [Call.isWaiting, phase])) _ contended
  | dropSubscription drop =>
      refine ⟨?_, ?_⟩
      · unfold World.dropSubscription
        dsimp only
        split
        · dsimp only
          split <;> split <;> exact .of_eq rfl rfl rfl
        · dsimp only
          split <;> exact .of_eq rfl rfl rfl
      · intro codes acked
        rcases World.status_dropSubscription_cases world drop call.pid.val with unowed | unchanged
        · simp [unowed] at acked
        · exact unchanged ▸ acked
  | transmitted => simp [Action.wakesTx] at quiet
  | receive payload =>
      unfold World.receive
      dsimp only
      split
      · rename_i handled
        exact .of_handle quiet handled
      · exact .of_eq rfl rfl rfl rfl
      · exact .of_eq rfl rfl rfl rfl
  | receiveFails error => cases error <;> exact .of_eq rfl rfl rfl rfl
  | keepAlive =>
      unfold World.keepAlive
      split <;> exact .of_eq rfl rfl rfl rfl
  | reset | disconnect => simp [Action.resets] at noReset
  | lock | waitTx | waitAck | waitRel | connect | connectFails | connected | lost | read | written
  | flushed | writeFails | replied | dropRun => exact .of_eq rfl rfl rfl rfl

/-- Only `set_connected` changes the connection status. -/
theorem sameSession (transition : Transition world action next)
    (kept : action.setsConnected = false) : world.shared.SameSession next.shared := by
  cases transition with
  | send packet =>
      unfold World.send
      split <;> exact ⟨rfl, rfl⟩
  | grant result => cases result <;> exact ⟨rfl, rfl⟩
  | commit =>
      unfold World.commit
      split
      · rename_i registered
        exact (Shared.steady_of_done registered).sameSession
      · rename_i registered
        exact (Shared.steady_of_full registered).sameSession
      · exact ⟨rfl, rfl⟩
  | waitStatus contended live phase notPublish ready =>
      have taken := (Shared.steady_waitStatus ready).sameSession
      unfold World.finishStatus
      split
      · exact taken.trans (Shared.steady_clean _ _ _ contended).sameSession
      · exact taken
  | drop contended =>
      unfold World.drop
      split
      all_goals first | exact ⟨rfl, rfl⟩ | exact (Shared.steady_clean _ _ _ contended).sameSession
  | dropSubscription drop =>
      unfold World.dropSubscription
      dsimp only
      split
      · dsimp only
        split <;> split <;> exact ⟨rfl, rfl⟩
      · dsimp only
        split <;> exact ⟨rfl, rfl⟩
  | transmitted =>
      unfold World.transmitted
      dsimp only
      split <;> exact ⟨rfl, rfl⟩
  | receive payload =>
      unfold World.receive
      dsimp only
      split
      · rename_i handled
        exact (Shared.steady_handle handled).sameSession
      · exact ⟨rfl, rfl⟩
      · exact ⟨rfl, rfl⟩
  | receiveFails error => cases error <;> exact ⟨rfl, rfl⟩
  | keepAlive =>
      unfold World.keepAlive
      split <;> exact ⟨rfl, rfl⟩
  | connect | connected | reset | disconnect => simp [Action.setsConnected] at kept
  | lock | waitTx | waitAck | waitRel | connectFails | lost | read | written | flushed
  | writeFails | replied | dropRun => exact ⟨rfl, rfl⟩

/-- A clean session is counted when the connection status changes. -/
theorem count_of_connected (transition : Transition world action next)
    (unchanged : next.shared.connected = world.shared.connected) :
    next.shared.cleanSessionCount = world.shared.cleanSessionCount := by
  have set : ∀ {connected : Option Bool},
      (world.shared.setConnected connected).connected = world.shared.connected →
      (world.shared.setConnected connected).cleanSessionCount =
        world.shared.cleanSessionCount := by
    intro connected same
    exact if_neg fun changes => changes.1 same.symm
  by_cases sets : action.setsConnected = true
  · cases transition with
    | connect | connected | reset | disconnect => exact set unchanged
    | _ => simp [Action.setsConnected] at sets
  · exact (transition.sameSession (Bool.eq_false_iff.mpr sets)).count

end Transition

theorem Transition.shared_of_resets {world next : World config} {action : Action}
    (transition : Transition world action next) (resets : action.resets = true) :
    next.shared = world.shared.reset := by
  cases transition with
  | reset | disconnect => rfl
  | _ => simp [Action.resets] at resets

/-- No two calls that wait have the same identifier. -/
def World.WaitsApart (world : World config) : Prop :=
  ∀ handle other call call', world.calls.get? handle = some call →
    world.calls.get? other = some call' → call.isWaiting = true → call'.isWaiting = true →
      call.pid = call'.pid → handle = other

/-- The condition on a step: no call that waits has the identifier that is committed. -/
def CommitsUnused (world : World config) (action : Action) : Prop :=
  ∀ handle ∈ action.commits?, ∀ call ∈ world.calls.get? handle,
    world.calls.count (fun other => other.isWaiting && other.pid == call.pid) = 0

instance (world : World config) (action : Action) : Decidable (CommitsUnused world action) :=
  inferInstanceAs (Decidable (∀ _ ∈ _, _))

theorem World.WaitsApart.step {world next : World config} {action : Action}
    (apart : world.WaitsApart) (unused : CommitsUnused world action)
    (transition : Transition world action next) : next.WaitsApart := by
  -- a call that waits has just committed its frame, or it waited before
  have before : ∀ handle call, next.calls.get? handle = some call → call.isWaiting = true →
      ∃ old, world.calls.get? handle = some old ∧ old.pid = call.pid ∧
        (old.isWaiting = true ∨ action = .commit handle) := by
    intro handle call live waiting
    by_cases commits : ∃ other, action = .commit other
    · rcases commits with ⟨other, rfl⟩
      cases transition.origin live with
      | same same => exact ⟨call, same, rfl, .inl waiting⟩
      | begun packet send => exact absurd send (by simp)
      | advanced own advances => cases advances <;> exact ⟨_, own, rfl, .inr rfl⟩
    · rcases transition.waitedBefore (fun other same => commits ⟨other, same⟩) handle call live
        waiting with ⟨old, own, waited, _, pid⟩
      exact ⟨old, own, pid, .inl waited⟩
  have fresh : ∀ {handle other : ℕ} {call call' : Call}, action = .commit handle →
      world.calls.get? handle = some call → world.calls.get? other = some call' →
      call'.isWaiting = true → call.pid ≠ call'.pid := by
    intro handle other call call' commits live live' waiting same
    have absent := Table.get?_eq_none_of_count_eq_zero
      (unused handle (by simp [commits, Action.commits?]) call live) live'
    simp [waiting, same] at absent
  intro handle other call call' live live' waiting waiting' same
  rcases before handle call live waiting with ⟨old, own, pid, waited⟩
  rcases before other call' live' waiting' with ⟨old', own', pid', waited'⟩
  have samePid : old.pid = old'.pid := pid.trans (same.trans pid'.symm)
  rcases waited with waited | commits
  · rcases waited' with waited' | commits
    · exact apart handle other old old' own own' waited waited' samePid
    · exact absurd samePid.symm (fresh commits own' own waited)
  · rcases waited' with waited' | commits'
    · exact absurd samePid (fresh commits own own' waited')
    · exact Action.commit.inj (commits.symm.trans commits')

namespace Tasks

variable {Task : Type} [DecidableEq Task] {tasks next : Tasks Task config}
  {action : TasksAction Task}

omit [DecidableEq Task] in
/-- No call sleeps that is ready. -/
def CallsUnready (tasks : Tasks Task config) : Prop :=
  ∀ handle task, tasks.asleep (.call handle) = some task → tasks.isReady (.call handle) = false

omit [DecidableEq Task] in
/-- No future sleeps that waits for the connection and is ready. -/
def WaitsUnready (tasks : Tasks Task config) : Prop :=
  ∀ id task, tasks.asleep (.wait id) = some task → tasks.isReady (.wait id) = false

/-- The condition on a step: the shared state is reset only when the calls that sleep wait for
reason codes. -/
def ResetsUnawaited (tasks : Tasks Task config) (action : TasksAction Task) : Prop :=
  (tasksStep tasks action).isSome = true → ∀ performed ∈ action.acts?, performed.resets = true →
    ∀ handle task, tasks.asleep (.call handle) = some task →
      ∀ call ∈ tasks.world.calls.get? handle, call.awaitsStatus = true

theorem asleep_settle {waiter : Waiter} {task : Task} :
    tasks.settle.asleep waiter = some task ↔
      tasks.asleep waiter = some task ∧ tasks.registered waiter task = true :=
  Sleepers.stay_eq_some

omit [DecidableEq Task] in
theorem isReady_call_eq_false {handle : ℕ} :
    tasks.isReady (.call handle) = false ↔ ∃ call, tasks.world.calls.get? handle = some call ∧
      call.isReady tasks.world.shared = false := by
  rw [isReady, Option.all_eq_false]

omit [DecidableEq Task] in
theorem isReady_wait_eq_false {id : ℕ} :
    tasks.isReady (.wait id) = false ↔ ∃ wait, tasks.waits.get? id = some wait ∧
      wait.isReady tasks.world.shared.connected = false := by
  rw [isReady, Option.all_eq_false]

/-- A call that sleeps after an action of the world slept before, and nobody woke it. -/
theorem asleep_call_act {performed : Action} {world : World config} {handle : ℕ} {task : Task}
    (asleep : (tasks.act performed world).asleep (.call handle) = some task) :
    tasks.asleep (.call handle) = some task ∧ performed.caller? ≠ some handle ∧
      performed.wakesTx tasks.world.shared = false := by
  rcases asleep_settle.mp asleep with ⟨slept, registered⟩
  rcases Sleepers.rouse_eq_some.mp slept with ⟨other, slept⟩
  refine ⟨slept, fun own => other (by rw [own]; rfl), ?_⟩
  simp only [Tasks.registered, decide_eq_true_eq, MultiWakerRegistration.mem_wakeIf] at registered
  exact registered.1

/-- Who sleeps while the connection status is set waits for a change, and there is none. -/
theorem asleep_wait_act {performed : Action} {world : World config} {id : ℕ} {task : Task}
    (asleep : (tasks.act performed world).asleep (.wait id) = some task) :
    tasks.asleep (.wait id) = some task ∧
      (performed.setsConnected = true →
        world.shared.connected = tasks.world.shared.connected) := by
  rcases asleep_settle.mp asleep with ⟨slept, registered⟩
  refine ⟨(Sleepers.rouse_eq_some.mp slept).2, fun sets => ?_⟩
  unfold Tasks.registered at registered
  dsimp only at registered
  split at registered
  · simp [sets] at registered
  · by_contra changed
    simp [sets, Ne.symm changed] at registered
  · simp at registered

omit [DecidableEq Task] in
theorem CallsUnready.of_asleep (unready : tasks.CallsUnready) (world : next.world = tasks.world)
    (slept : ∀ handle task, next.asleep (.call handle) = some task →
      tasks.asleep (.call handle) = some task ∨ tasks.isReady (.call handle) = false) :
    next.CallsUnready := by
  intro handle task asleep
  have same : next.isReady (.call handle) = tasks.isReady (.call handle) := by
    simp only [isReady, world]
  rw [same]
  rcases slept handle task asleep with asleep | waits
  · exact unready handle task asleep
  · exact waits

theorem CallsUnready.act (unready : tasks.CallsUnready) (apart : tasks.world.WaitsApart)
    {performed : Action} {world : World config} (stepped : step tasks.world performed = some world)
    (unawaited : tasks.ResetsUnawaited (.act performed)) :
    (tasks.act performed world).CallsUnready := by
  intro handle task asleep
  have transition := (transition_of_step stepped).2
  rcases asleep_call_act asleep with ⟨slept, other, quiet⟩
  rcases isReady_call_eq_false.mp (unready handle task slept) with ⟨call, live, waits⟩
  have waiting := Call.isWaiting_of_isReady waits
  refine isReady_call_eq_false.mpr ⟨call, transition.get?_calls other live, ?_⟩
  by_cases resets : performed.resets = true
  · have possible : (tasksStep tasks (.act performed)).isSome = true := by
      rw [tasksStep, stepped]
      rfl
    have awaitsStatus := unawaited possible performed rfl resets handle task slept call live
    change call.isReady world.shared = false
    rw [transition.shared_of_resets resets, Call.isReady_reset waiting, awaitsStatus]
    rfl
  · refine Call.isReady_of_leaves (transition.leaves quiet (by simpa using resets) ?_) waits
    intro caller old own live' waiting' same
    exact other (apart handle caller call old live live' waiting waiting' same ▸ own)

theorem CallsUnready.pollCall {handle : ℕ} {task : Task} {contended : Bool}
    (unready : tasks.CallsUnready)
    (waits : contended = true ∨ tasks.isReady (.call handle) = false) :
    (tasks.pollCall handle task contended).CallsUnready := by
  unfold Tasks.pollCall
  split
  · refine unready.of_asleep rfl fun other task' asleep => ?_
    exact .inl (Sleepers.rouse_eq_some.mp asleep).2
  · rename_i uncontended
    refine unready.of_asleep rfl fun other task' asleep => ?_
    rcases Sleepers.sleep_eq_some.mp (asleep_settle.mp asleep).1 with ⟨same, _⟩ | ⟨_, slept⟩
    · rcases Waiter.call.inj same with rfl
      exact .inr (waits.resolve_left uncontended)
    · exact .inl slept

theorem CallsUnready.pollWait {id : ℕ} {wait : ConnectionWait} {task : Task} {contended : Bool}
    (unready : tasks.CallsUnready) : (tasks.pollWait id wait task contended).CallsUnready := by
  have slept : ∀ {waker : MultiWakerRegistration config.maxInflight Task}
      {connection change : WakerRegistration Task} {handle : ℕ} {task' : Task},
      (settle { tasks with
        txWaker := waker
        connectionWaker := connection
        connectionStateChangeWaker := change
        asleep := tasks.asleep.sleep (.wait id) task }).asleep (.call handle) = some task' →
      tasks.asleep (.call handle) = some task' := by
    intro waker connection change handle task' asleep
    have asleep := (asleep_settle.mp asleep).1
    simpa using asleep
  unfold Tasks.pollWait
  split
  · exact unready.of_asleep rfl fun _ _ asleep => .inl (by simpa using asleep)
  · split
    · exact unready.of_asleep rfl fun _ _ asleep => .inl (by simpa using asleep)
    · split
      · exact unready.of_asleep rfl fun _ _ asleep => .inl (slept asleep)
      · exact unready.of_asleep rfl fun _ _ asleep => .inl (slept asleep)

theorem CallsUnready.step (unready : tasks.CallsUnready) (apart : tasks.world.WaitsApart)
    (unawaited : tasks.ResetsUnawaited action) (stepped : tasksStep tasks action = some next) :
    next.CallsUnready := by
  cases action with
  | act performed =>
      rcases Option.map_eq_some_iff.mp stepped with ⟨world, performs, rfl⟩
      exact unready.act apart performs unawaited
  | pollCall handle task contended =>
      simp only [tasksStep, Option.bind_eq_bind, Option.bind_eq_some_iff,
        Option.ite_none_right_eq_some, Option.some.injEq] at stepped
      rcases stepped with ⟨call, live, ⟨_, waits⟩, rfl⟩
      refine unready.pollCall (waits.imp_right fun waits => ?_)
      exact isReady_call_eq_false.mpr ⟨call, live, waits⟩
  | waitConnected =>
      rcases Option.some.inj stepped with rfl
      split
      · exact unready
      · exact unready.of_asleep rfl fun _ _ asleep => .inl asleep
  | waitConnectionChange =>
      rcases Option.some.inj stepped with rfl
      exact unready.of_asleep rfl fun _ _ asleep => .inl asleep
  | pollWait id task contended =>
      simp only [tasksStep, Option.bind_eq_bind, Option.bind_eq_some_iff,
        Option.some.injEq] at stepped
      rcases stepped with ⟨wait, _, rfl⟩
      exact unready.pollWait
  | dropWait id =>
      rcases Option.some.inj stepped with rfl
      exact unready.of_asleep rfl fun _ _ asleep => .inl (by simpa using asleep)
  | pollNext task =>
      rcases Option.some.inj stepped with rfl
      exact unready.of_asleep rfl fun _ _ asleep => .inl (asleep_settle.mp asleep).1

theorem waitsApart_step (apart : tasks.world.WaitsApart)
    (unused : ∀ performed ∈ action.acts?, CommitsUnused tasks.world performed)
    (stepped : tasksStep tasks action = some next) : next.world.WaitsApart := by
  cases action with
  | act performed =>
      rcases Option.map_eq_some_iff.mp stepped with ⟨world, performs, rfl⟩
      exact apart.step (unused performed rfl) (transition_of_step performs).2
  | pollCall handle task contended =>
      simp only [tasksStep, Option.bind_eq_bind, Option.bind_eq_some_iff,
        Option.ite_none_right_eq_some, Option.some.injEq] at stepped
      rcases stepped with ⟨call, live, _, rfl⟩
      unfold Tasks.pollCall
      split <;> exact apart
  | waitConnected =>
      rcases Option.some.inj stepped with rfl
      split <;> exact apart
  | pollWait id task contended =>
      simp only [tasksStep, Option.bind_eq_bind, Option.bind_eq_some_iff,
        Option.some.injEq] at stepped
      rcases stepped with ⟨wait, _, rfl⟩
      unfold Tasks.pollWait
      split
      · exact apart
      · split
        · exact apart
        · split <;> exact apart
  | waitConnectionChange | dropWait | pollNext =>
      rcases Option.some.inj stepped with rfl
      exact apart

/-- Everybody who sleeps is registered. -/
def Settled (tasks : Tasks Task config) : Prop :=
  ∀ waiter task, tasks.asleep waiter = some task → tasks.registered waiter task = true

theorem settled_settle (tasks : Tasks Task config) : tasks.settle.Settled :=
  fun _ _ asleep => (asleep_settle.mp asleep).2

/-- Futures that are roused and waits that begin or end leave the others registered. -/
theorem Settled.of_waits (settled : tasks.Settled) {waits : Table ConnectionWait}
    {asleep : Sleepers Waiter Task}
    (kept : ∀ waiter task, asleep waiter = some task → tasks.asleep waiter = some task ∧
      ∀ id, waiter = .wait id → ∀ wait, tasks.waits.get? id = some wait →
        waits.get? id = some wait) :
    Settled { tasks with waits := waits, asleep := asleep } := by
  intro waiter task sleeps
  rcases kept waiter task sleeps with ⟨slept, same⟩
  have registered := settled waiter task slept
  cases waiter with
  | call handle => exact registered
  | wait id =>
      unfold Tasks.registered at registered ⊢
      dsimp only at registered ⊢
      rcases found : tasks.waits.get? id with _ | wait
      · simp [found] at registered
      · rw [same id rfl wait found]
        rw [found] at registered
        exact registered

theorem Settled.step (settled : tasks.Settled) (stepped : tasksStep tasks action = some next) :
    next.Settled := by
  have roused : ∀ waiter, Settled { tasks with asleep := tasks.asleep.rouse (some waiter) } := by
    intro waiter
    refine settled.of_waits fun other task asleep => ?_
    exact ⟨(Sleepers.rouse_eq_some.mp asleep).2, fun _ _ _ found => found⟩
  have removed : ∀ id, Settled { tasks with
      waits := tasks.waits.remove id, asleep := tasks.asleep.rouse (some (.wait id)) } := by
    intro id
    refine settled.of_waits fun other task asleep => ?_
    rcases Sleepers.rouse_eq_some.mp asleep with ⟨different, slept⟩
    refine ⟨slept, fun id' same wait found => ?_⟩
    rw [Table.get?_remove, if_neg ?_, found]
    rintro rfl
    exact different (congrArg some same.symm)
  have inserted : ∀ wait, Settled { tasks with waits := tasks.waits.insert wait } := by
    intro wait
    refine settled.of_waits fun other task asleep => ⟨asleep, fun id same old found => ?_⟩
    exact Table.get?_insert_of_get? found wait
  cases action with
  | act performed =>
      rcases Option.map_eq_some_iff.mp stepped with ⟨world, performs, rfl⟩
      exact settled_settle _
  | pollCall handle task contended =>
      simp only [tasksStep, Option.bind_eq_bind, Option.bind_eq_some_iff,
        Option.ite_none_right_eq_some, Option.some.injEq] at stepped
      rcases stepped with ⟨call, live, _, rfl⟩
      unfold Tasks.pollCall
      split
      · exact roused (.call handle)
      · exact settled_settle _
  | waitConnected =>
      rcases Option.some.inj stepped with rfl
      split
      · exact settled
      · exact inserted .connected
  | waitConnectionChange =>
      rcases Option.some.inj stepped with rfl
      exact inserted _
  | pollWait id task contended =>
      simp only [tasksStep, Option.bind_eq_bind, Option.bind_eq_some_iff,
        Option.some.injEq] at stepped
      rcases stepped with ⟨wait, _, rfl⟩
      unfold Tasks.pollWait
      split
      · exact roused (.wait id)
      · split
        · exact removed id
        · split <;> exact settled_settle _
  | dropWait id =>
      rcases Option.some.inj stepped with rfl
      exact removed id
  | pollNext task =>
      rcases Option.some.inj stepped with rfl
      exact settled_settle _

/-- A reset wakes no call, so one that sleeps and is ready afterwards sleeps on. -/
theorem resetsUnawaited_of_callsUnready (settled : tasks.Settled) (unready : tasks.CallsUnready)
    (stepped : tasksStep tasks action = some next) (later : next.CallsUnready) :
    tasks.ResetsUnawaited action := by
  intro _ performed acts resets handle task asleep call live
  cases action with
  | act action =>
      rcases Option.some.inj acts with rfl
      rcases Option.map_eq_some_iff.mp stepped with ⟨world, performs, rfl⟩
      have transition := (transition_of_step performs).2
      rcases isReady_call_eq_false.mp (unready handle task asleep) with ⟨_, own, waits⟩
      rcases Option.some.inj (own.symm.trans live) with rfl
      have quiet : action.caller? = none ∧ action.wakesTx tasks.world.shared = false := by
        unfold Action.resets at resets
        split at resets
        · exact ⟨rfl, rfl⟩
        · exact ⟨rfl, rfl⟩
        · simp at resets
      have sleeps : (tasks.act action world).asleep (.call handle) = some task := by
        refine asleep_settle.mpr ⟨?_, ?_⟩
        · simpa [quiet.1] using asleep
        · simpa [Tasks.registered, quiet.2] using settled (.call handle) task asleep
      rcases isReady_call_eq_false.mp (later handle task sleeps) with ⟨_, after, unready'⟩
      have kept := transition.get?_calls (by simp [quiet.1]) own
      rcases Option.some.inj (kept.symm.trans after) with rfl
      have shared : (tasks.act action world).world.shared = tasks.world.shared.reset :=
        transition.shared_of_resets resets
      rw [shared, Call.isReady_reset (Call.isWaiting_of_isReady waits)] at unready'
      simpa using unready'
  | _ => simp [TasksAction.acts?] at acts

omit [DecidableEq Task] in
theorem WaitsUnready.of_waits (unready : tasks.WaitsUnready)
    (connected : next.world.shared.connected = tasks.world.shared.connected)
    (slept : ∀ id task, next.asleep (.wait id) = some task →
      (tasks.asleep (.wait id) = some task ∨ tasks.isReady (.wait id) = false) ∧
        ∀ wait, tasks.waits.get? id = some wait → next.waits.get? id = some wait) :
    next.WaitsUnready := by
  intro id task asleep
  rcases slept id task asleep with ⟨before, kept⟩
  have waits : tasks.isReady (.wait id) = false := by
    rcases before with asleep | waits
    · exact unready id task asleep
    · exact waits
  rcases isReady_wait_eq_false.mp waits with ⟨wait, found, waits⟩
  exact isReady_wait_eq_false.mpr ⟨wait, kept wait found, connected ▸ waits⟩

theorem WaitsUnready.pollWait {id : ℕ} {wait : ConnectionWait} {task : Task} {contended : Bool}
    (unready : tasks.WaitsUnready) (found : tasks.waits.get? id = some wait) :
    (tasks.pollWait id wait task contended).WaitsUnready := by
  have slept : ∀ {change connection : WakerRegistration Task} {other : ℕ} {task' : Task},
      wait.isReady tasks.world.shared.connected = false →
      (settle { tasks with
        connectionWaker := connection
        connectionStateChangeWaker := change
        asleep := tasks.asleep.sleep (.wait id) task }).asleep (.wait other) = some task' →
      tasks.asleep (.wait other) = some task' ∨ tasks.isReady (.wait other) = false := by
    intro change connection other task' waits asleep
    have asleep := (asleep_settle.mp asleep).1
    simp only [Sleepers.sleep_eq_some, Waiter.wait.injEq] at asleep
    rcases asleep with ⟨rfl, _⟩ | ⟨_, slept⟩
    · exact .inr (isReady_wait_eq_false.mpr ⟨wait, found, waits⟩)
    · exact .inl slept
  unfold Tasks.pollWait
  split
  · refine unready.of_waits rfl fun other task' asleep => ⟨.inl ?_, fun _ found => found⟩
    exact (Sleepers.rouse_eq_some.mp asleep).2
  · split
    · refine unready.of_waits rfl fun other task' asleep => ?_
      rcases Sleepers.rouse_eq_some.mp asleep with ⟨different, asleep⟩
      refine ⟨.inl asleep, fun wait' found' => ?_⟩
      rw [Table.get?_remove, if_neg ?_, found']
      rintro rfl
      exact different rfl
    · rename_i waits
      have waits := Bool.eq_false_iff.mpr waits
      split
      · exact unready.of_waits rfl fun _ _ asleep => ⟨slept waits asleep, fun _ found => found⟩
      · exact unready.of_waits rfl fun _ _ asleep => ⟨slept waits asleep, fun _ found => found⟩

theorem WaitsUnready.step (unready : tasks.WaitsUnready)
    (stepped : tasksStep tasks action = some next) : next.WaitsUnready := by
  have inserted : ∀ wait, WaitsUnready { tasks with waits := tasks.waits.insert wait } := by
    intro wait
    refine unready.of_waits rfl fun id task asleep => ⟨.inl asleep, fun old found => ?_⟩
    exact Table.get?_insert_of_get? found wait
  cases action with
  | act performed =>
      rcases Option.map_eq_some_iff.mp stepped with ⟨world, performs, rfl⟩
      have transition := (transition_of_step performs).2
      intro id task asleep
      rcases asleep_wait_act asleep with ⟨slept, unchanged⟩
      have connected : world.shared.connected = tasks.world.shared.connected := by
        by_cases sets : performed.setsConnected = true
        · exact unchanged sets
        · exact (transition.sameSession (Bool.eq_false_iff.mpr sets)).connected
      rcases isReady_wait_eq_false.mp (unready id task slept) with ⟨wait, found, waits⟩
      exact isReady_wait_eq_false.mpr ⟨wait, found, connected ▸ waits⟩
  | pollCall handle task contended =>
      simp only [tasksStep, Option.bind_eq_bind, Option.bind_eq_some_iff,
        Option.ite_none_right_eq_some, Option.some.injEq] at stepped
      rcases stepped with ⟨call, live, _, rfl⟩
      unfold Tasks.pollCall
      split
      · refine unready.of_waits rfl fun id task asleep => ⟨.inl ?_, fun _ found => found⟩
        simpa using asleep
      · refine unready.of_waits rfl fun id task asleep => ⟨.inl ?_, fun _ found => found⟩
        have asleep := (asleep_settle.mp asleep).1
        simpa using asleep
  | waitConnected =>
      rcases Option.some.inj stepped with rfl
      split
      · exact unready
      · exact inserted .connected
  | waitConnectionChange =>
      rcases Option.some.inj stepped with rfl
      exact inserted _
  | pollWait id task contended =>
      simp only [tasksStep, Option.bind_eq_bind, Option.bind_eq_some_iff,
        Option.some.injEq] at stepped
      rcases stepped with ⟨wait, found, rfl⟩
      exact unready.pollWait found
  | dropWait id =>
      rcases Option.some.inj stepped with rfl
      refine unready.of_waits rfl fun other task asleep => ?_
      rcases Sleepers.rouse_eq_some.mp asleep with ⟨different, asleep⟩
      refine ⟨.inl asleep, fun wait found => ?_⟩
      rw [Table.get?_remove, if_neg ?_, found]
      rintro rfl
      exact different rfl
  | pollNext task =>
      rcases Option.some.inj stepped with rfl
      refine unready.of_waits rfl fun id task asleep => ⟨.inl ?_, fun _ found => found⟩
      exact (asleep_settle.mp asleep).1

end Tasks

variable {Task : Type} [DecidableEq Task] {actions : List (TasksAction Task)}

/-- In every run, no future sleeps that waits for the connection and would be ready: whoever
changes what it waits for wakes it, and so does whoever takes its place in a registration. -/
theorem waitsUnready_of_run {final : Tasks Task config}
    (reached : Execution.run tasksStep (.new Task config) actions = some final) :
    final.WaitsUnready := by
  refine Execution.invariant_of_run Tasks.WaitsUnready
    (fun unready stepped => unready.step stepped) ?_ reached
  intro id task asleep
  simp [Tasks.new, Sleepers.none] at asleep

theorem waitsUnready_of_run_example :
    ∃ final : Tasks ℕ (.default .mqttv5 true),
      Execution.run tasksStep (.new ℕ _)
        [.waitConnected, .pollWait 0 1 false, .act .connect, .pollWait 0 1 false, .pollNext 2,
          .waitConnectionChange, .pollWait 1 3 false] = some final ∧
        final.asleep (.wait 0) = some 1 ∧ final.asleep (.wait 1) = some 3 ∧
        final.WaitsUnready := by
  have asleep : (Execution.run tasksStep (Tasks.new ℕ (.default .mqttv5 true))
      [.waitConnected, .pollWait 0 1 false, .act .connect, .pollWait 0 1 false, .pollNext 2,
        .waitConnectionChange, .pollWait 1 3 false]).map
      (fun final => (final.asleep (.wait 0), final.asleep (.wait 1))) = some (some 1, some 3) := by
    decide
  rcases Option.map_eq_some_iff.mp asleep with ⟨final, reached, asleep⟩
  rcases Prod.mk.inj asleep with ⟨first, second⟩
  exact ⟨final, reached, first, second, waitsUnready_of_run reached⟩

/-- As long as identifiers are not committed that a waiting call has, calls never sleep that would
be ready exactly in those runs that reset the shared state only when the calls that sleep wait for
reason codes: every other way of going on wakes them. -/
theorem always_callsUnready_iff
    (unused : Execution.Guarded tasksStep
      (fun tasks action => ∀ performed ∈ action.acts?, CommitsUnused tasks.world performed)
      (.new Task config) actions) :
    Execution.Always tasksStep Tasks.CallsUnready (.new Task config) actions ↔
      Execution.Guarded tasksStep Tasks.ResetsUnawaited (.new Task config) actions := by
  refine Execution.always_iff_guarded _
    (fun tasks => tasks.world.WaitsApart ∧ tasks.Settled) _ ?_ ?_ ?_ ?_ unused ?_ ?_
  · rintro tasks next action unused ⟨apart, settled⟩ stepped
    exact ⟨Tasks.waitsApart_step apart unused stepped, settled.step stepped⟩
  · rintro tasks next action unused ⟨apart, _⟩ unready unawaited stepped
    exact unready.step apart unawaited stepped
  · rintro tasks next action ⟨_, settled⟩ unready stepped later
    exact Tasks.resetsUnawaited_of_callsUnready settled unready stepped later
  · intro tasks action impossible possible
    simp [impossible] at possible
  · constructor
    · intro handle other call call' live
      simp [Tasks.new, World.new] at live
    · intro waiter task asleep
      simp [Tasks.new, Sleepers.none] at asleep
  · intro handle task asleep
    simp [Tasks.new, Sleepers.none] at asleep

/-- A run in which the connection is lost while a publish waits for its PUBACK. -/
def lostWhileWaiting : List (TasksAction ℕ) :=
  [.act .connect, .act (.connected false), .act (.send (.publish .atLeastOnce)), .act (.lock 0),
    .act (.grant 0 (.ok ())), .act (.commit 0), .act .read, .act .written, .act .flushed,
    .act .transmitted, .act (.waitTx 0), .pollCall 0 1 false, .act (.receiveFails (.io .other)),
    .act (.reset false)]

theorem always_callsUnready_iff_example :
    (Execution.Always tasksStep Tasks.CallsUnready (.new ℕ (.default .mqttv5 true))
        lostWhileWaiting ↔
      Execution.Guarded tasksStep Tasks.ResetsUnawaited (.new ℕ (.default .mqttv5 true))
        lostWhileWaiting) ∧
      (Execution.run tasksStep (.new ℕ (.default .mqttv5 true)) lostWhileWaiting).map
        (fun final => (final.asleep (.call 0), final.isReady (.call 0))) = some (some 1, true) :=
  ⟨always_callsUnready_iff (by decide), by decide⟩

end Mqttrust.System
