import Mqttrust.Pubsub.Room
import Mqttrust.System.Pipeline

/-!
# Sends that fail

A call of `send` checks the capacity and takes an identifier, waits for a write
grant and encodes its packet into it, and makes its insertions and commits. Between
these parts the shared state and the TX channel may change in any way that does not
touch the call's own grant.

A send that fails at its check leaves no trace. One that fails later drops its grant,
and a grant that is dropped queues an empty frame as long as the channel has a
subscriber. When there is no slot in `ack_status`, the identifier that was inserted
into `outgoing_pid` before stays there.
-/

namespace Mqttrust

/-- The write grant that a call uses. -/
def Pubsub.Action.writer? : Pubsub.Action → Option ℕ
  | .write writer _ _ | .setPid writer _ | .toCommit writer _ | .commit writer _
  | .dropWriter writer => some writer
  | _ => none

namespace Pubsub.World

variable {config : ChannelConfig} {capacity writer : ℕ} {world next : World}

/-- The queue and the number of subscribers are the same. -/
structure SameQueue (world next : World) : Prop where
  messages : next.inner.messages = world.inner.messages
  subscriberCount : next.inner.subscriberCount = world.inner.subscriberCount

theorem SameQueue.of_grant {maxSz : ℕ} {cx : Option Waker}
    (stepped : step config world (.grant maxSz cx) = some next) : world.SameQueue next := by
  simp only [step, Option.ite_none_right_eq_some, Option.some.injEq] at stepped
  rcases stepped with ⟨_, rfl⟩
  unfold World.grant
  by_cases grants : world.inner.Grants config maxSz
  · rw [State.grantWithContext_of_grants grants]
    exact ⟨rfl, rfl⟩
  · rcases State.grantWithContext_of_not_grants grants cx with ⟨error, called⟩
    rw [called]
    exact ⟨rfl, rfl⟩

theorem inner_of_stores {offset : ℕ} {bytes : List UInt8}
    (stored : Execution.run (step config) world (stores writer offset bytes) = some next) :
    next.inner = world.inner := by
  induction bytes generalizing world offset with
  | nil =>
      simp only [stores, Execution.run_nil, Option.some.injEq] at stored
      rw [stored]
  | cons byte rest ih =>
      rcases Execution.run_cons_eq_some.mp stored with ⟨middle, stepped, continued⟩
      rcases Option.bind_eq_some_iff.mp stepped with ⟨grant, _, stepped⟩
      simp only [Option.ite_none_right_eq_some, Option.some.injEq] at stepped
      rcases stepped with ⟨_, rfl⟩
      rw [ih continued]

/-- A write grant that is dropped leaves the queue alone only without a subscriber. -/
theorem messages_dropWriter_iff (invariant : world.Invariant config capacity)
    (stepped : step config world (.dropWriter writer) = some next) :
    next.inner.messages = world.inner.messages ↔ world.inner.subscriberCount = 0 := by
  rcases Option.bind_eq_some_iff.mp stepped with ⟨grant, live, stepped⟩
  rcases Option.some.inj stepped with rfl
  have writing := invariant.writer_writes writer grant live
  rcases State.commitInner_cases grant grant.toCommit writing (invariant.room writing) with
    ⟨noneLeft, committed⟩ | ⟨someLeft, committed⟩
  · simp only [World.commit, committed, noneLeft]
  · simp [World.commit, committed, Nat.ne_of_gt someLeft]

end Pubsub.World

namespace System

section Acquire

variable {config : CrateConfig} {capacity : ℕ} {tx next : Pubsub.World}

theorem runs_of_encodeInto {Packet : Type} [MqttEncode Packet] {packet : Packet} {writer : ℕ}
    {grant : Pubsub.FrameGrantW} {acquired : Acquired}
    (encoded : encodeInto config tx writer grant packet = some (next, acquired)) :
    ∃ bytes, Execution.run (Pubsub.step (txConfig config)) tx (Pubsub.stores writer 0 bytes) =
      some next := by
  unfold encodeInto at encoded
  dsimp only at encoded
  split at encoded
  · rcases Option.map_eq_some_iff.mp encoded with ⟨after, stored, same⟩
    rcases Prod.mk.inj same with ⟨rfl, _⟩
    exact ⟨_, stored⟩
  · rcases Option.map_eq_some_iff.mp encoded with ⟨after, stored, same⟩
    rcases Prod.mk.inj same with ⟨rfl, _⟩
    exact ⟨_, stored⟩
  · simp at encoded

/-- Asking for a write grant and encoding a packet into it leaves the queue alone. -/
theorem sameQueue_of_acquire {Packet : Type} [MqttEncode Packet] {packet : Packet} {size : ℕ}
    {cx : Option Pubsub.Waker} {acquired : Acquired}
    (invariant : tx.Invariant (txConfig config) capacity)
    (answered : acquire config tx size cx packet = some (next, acquired)) :
    tx.SameQueue next ∧ next.Invariant (txConfig config) capacity := by
  rcases Option.bind_eq_some_iff.mp answered with ⟨asked, stepped, answered⟩
  have same := Pubsub.World.SameQueue.of_grant stepped
  have invariant := invariant.step stepped
  split at answered
  · rcases Prod.mk.inj (Option.some.inj answered) with ⟨rfl, _⟩
    exact ⟨same, invariant⟩
  · rcases runs_of_encodeInto answered with ⟨bytes, stored⟩
    have inner := Pubsub.World.inner_of_stores stored
    refine ⟨⟨by rw [inner, same.messages], by rw [inner, same.subscriberCount]⟩, ?_⟩
    exact Execution.invariant_of_run (Pubsub.World.Invariant (txConfig config) capacity)
      (fun invariant stepped => invariant.step stepped) invariant stored

end Acquire

/-- Where a call of `send` is suspended. -/
inductive SendStage where
  /-- It has not begun. -/
  | checking
  /-- In `grant_async`. -/
  | granting (pid : Pid)
  /-- Waiting for the shared state, with the packet encoded into its grant. -/
  | registering (pid : Pid) (writer used : ℕ)
  | returned (result : Except Error Pid)
deriving DecidableEq

/-- A call of `send` and what it acts on. -/
structure Sending (config : CrateConfig) where
  shared : Shared config
  tx : Pubsub.World
  stage : SendStage

/-- What happens while a call of `send` is under way. -/
inductive SendAction (config : CrateConfig) where
  /-- The call goes on. -/
  | own (waker : Pubsub.Waker)
  /-- Another task changes the shared state. -/
  | shared (next : Shared config)
  /-- Another task uses the TX channel. -/
  | tx (action : Pubsub.Action)

namespace Sending

variable {config : CrateConfig} (packet : ClientPacket) (sending : Sending config)

/-- The capacity check of `send`. -/
def check : Sending config :=
  if sending.shared.hasRoom packet.kind then
    { sending with
      shared := sending.shared.takePid
      stage := .granting sending.shared.nextPid }
  else { sending with stage := .returned (.error .maxInflight) }

/-- A poll of `grant_async`, which is never answered with an error, and the encoding. -/
def grant (pid : Pid) (waker : Pubsub.Waker) : Option (Sending config) := do
  let size ← packet.maxPacketSize config
  let (tx, acquired) ← acquire config sending.tx size (some waker) (packet.setPid pid)
  match acquired with
  | .refused => some { sending with tx := tx }
  | .encoded writer used =>
      some { sending with tx := tx, stage := .registering pid writer used }
  | .failed writer => do
      let tx ← Pubsub.step (txConfig config) tx (.dropWriter writer)
      some { sending with tx := tx, stage := .returned (.error .encoding) }

/-- The insertions of `send` and the commit; a grant that is not committed is dropped. -/
def register (pid : Pid) (writer used : ℕ) : Option (Sending config) :=
  match sending.shared.register packet.kind pid with
  | .done shared => do
      let tx ← Execution.run (Pubsub.step (txConfig config)) sending.tx
        [.setPid writer pid.val, .commit writer used]
      some ⟨shared, tx, .returned (.ok pid)⟩
  | .full shared => do
      let tx ← Pubsub.step (txConfig config) sending.tx (.dropWriter writer)
      some ⟨shared, tx, .returned (.error .maxInflight)⟩
  | .panicked _ => none

/-- The write grant of the call. -/
def writer? : Option ℕ :=
  match sending.stage with
  | .registering _ writer _ => some writer
  | _ => none

/-- The publishes in flight, the untransmitted packets, the acknowledgements and the queue of the
TX channel are the same. -/
structure SameTrace (before after : Sending config) : Prop where
  inflightPub : after.shared.inflightPub = before.shared.inflightPub
  outgoingPid : after.shared.outgoingPid = before.shared.outgoingPid
  ackStatus : after.shared.ackStatus = before.shared.ackStatus
  messages : after.tx.inner.messages = before.tx.inner.messages

/-- The condition on the state in which the call fails: this is at its check, or there is no
subscriber of the TX channel, and the identifier is in `outgoing_pid` already or is not inserted. -/
def FailsCleanly : Prop :=
  match sending.stage with
  | .checking | .returned _ => True
  | .granting _ => sending.tx.inner.subscriberCount = 0
  | .registering pid _ _ =>
      sending.tx.inner.subscriberCount = 0 ∧
        (pid.val ∈ sending.shared.outgoingPid.elements ∨
          sending.shared.outgoingPid.insert pid.val = none)

end Sending

/-- `MqttClient::send`, from one suspension point to the next, among other tasks. -/
def sendStep {config : CrateConfig} (packet : ClientPacket) (sending : Sending config) :
    SendAction config → Option (Sending config)
  | .own waker =>
      match sending.stage with
      | .checking => some (sending.check packet)
      | .granting pid => sending.grant packet pid waker
      | .registering pid writer used => sending.register packet pid writer used
      | .returned _ => none
  | .shared next => some { sending with shared := next }
  | .tx action =>
      if action.writer?.isSome ∧ action.writer? = sending.writer? then none
      else (Pubsub.step (txConfig config) sending.tx action).map fun tx => { sending with tx := tx }

/-- The call leaves no trace with this step, if it is one of its own. -/
def LeavesNoTrace {config : CrateConfig} (packet : ClientPacket) (sending : Sending config) :
    SendAction config → Prop
  | .own waker => ∀ next, sendStep packet sending (.own waker) = some next → sending.SameTrace next
  | _ => True

namespace Sending

variable {config : CrateConfig} {capacity : ℕ} {packet : ClientPacket}
  {sending next last : Sending config} {action : SendAction config}

theorem check_cases (packet : ClientPacket) (sending : Sending config) :
    (sending.check packet).tx = sending.tx ∧ sending.SameTrace (sending.check packet) := by
  unfold check
  split <;> exact ⟨rfl, rfl, rfl, rfl, rfl⟩

theorem grant_cases {pid : Pid} {waker : Pubsub.Waker}
    (invariant : sending.tx.Invariant (txConfig config) capacity)
    (granted : sending.grant packet pid waker = some next) :
    next.shared = sending.shared ∧ ∃ tx, sending.tx.SameQueue tx ∧
      tx.Invariant (txConfig config) capacity ∧
      ((next.tx = tx ∧ ∀ error, next.stage = .returned (.error error) →
          sending.stage = .returned (.error error)) ∨
        ∃ writer, Pubsub.step (txConfig config) tx (.dropWriter writer) = some next.tx ∧
          next.stage = .returned (.error .encoding)) := by
  rcases Option.bind_eq_some_iff.mp granted with ⟨size, _, granted⟩
  rcases Option.bind_eq_some_iff.mp granted with ⟨⟨tx, acquired⟩, answered, granted⟩
  rcases sameQueue_of_acquire invariant answered with ⟨same, invariant⟩
  cases acquired with
  | refused =>
      rcases Option.some.inj granted with rfl
      exact ⟨rfl, tx, same, invariant, .inl ⟨rfl, fun _ failed => failed⟩⟩
  | encoded writer used =>
      rcases Option.some.inj granted with rfl
      exact ⟨rfl, tx, same, invariant, .inl ⟨rfl, by simp⟩⟩
  | failed writer =>
      rcases Option.bind_eq_some_iff.mp granted with ⟨dropped, stepped, granted⟩
      rcases Option.some.inj granted with rfl
      exact ⟨rfl, tx, same, invariant, .inr ⟨writer, stepped, rfl⟩⟩

theorem register_cases {pid : Pid} {writer used : ℕ}
    (registered : sending.register packet pid writer used = some next) :
    (Execution.run (Pubsub.step (txConfig config)) sending.tx
        [.setPid writer pid.val, .commit writer used] = some next.tx ∧
      next.stage = .returned (.ok pid)) ∨
    (sending.shared.register packet.kind pid = .full next.shared ∧
      Pubsub.step (txConfig config) sending.tx (.dropWriter writer) = some next.tx ∧
      next.stage = .returned (.error .maxInflight)) := by
  unfold register at registered
  split at registered
  · rcases Option.bind_eq_some_iff.mp registered with ⟨tx, run, registered⟩
    rcases Option.some.inj registered with rfl
    exact .inl ⟨run, rfl⟩
  · rename_i full
    rcases Option.bind_eq_some_iff.mp registered with ⟨tx, stepped, registered⟩
    rcases Option.some.inj registered with rfl
    exact .inr ⟨full, stepped, rfl⟩
  · simp at registered

theorem invariant_step (invariant : sending.tx.Invariant (txConfig config) capacity)
    (stepped : sendStep packet sending action = some next) :
    next.tx.Invariant (txConfig config) capacity := by
  cases action with
  | own waker =>
      unfold sendStep at stepped
      dsimp only at stepped
      split at stepped
      · rcases Option.some.inj stepped with rfl
        rw [(check_cases packet sending).1]
        exact invariant
      · rcases grant_cases invariant stepped with
          ⟨_, tx, _, invariant, ⟨rfl, _⟩ | ⟨writer, dropped, _⟩⟩
        · exact invariant
        · exact invariant.step dropped
      · rcases register_cases stepped with ⟨run, _⟩ | ⟨_, dropped, _⟩
        · exact Execution.invariant_of_run (Pubsub.World.Invariant (txConfig config) capacity)
            (fun invariant stepped => invariant.step stepped) invariant run
        · exact invariant.step dropped
      · simp at stepped
  | shared shared =>
      rcases Option.some.inj stepped with rfl
      exact invariant
  | tx action =>
      simp only [sendStep, Option.ite_none_left_eq_some, Option.map_eq_some_iff] at stepped
      rcases stepped with ⟨_, tx, stepped, rfl⟩
      exact invariant.step stepped

/-- A call that has returned does not go on. -/
theorem returned_step {result : Except Error Pid} (returned : sending.stage = .returned result)
    (stepped : sendStep packet sending action = some next) : next.stage = .returned result := by
  cases action with
  | own waker => simp [sendStep, returned] at stepped
  | shared shared =>
      rcases Option.some.inj stepped with rfl
      exact returned
  | tx action =>
      simp only [sendStep, Option.ite_none_left_eq_some, Option.map_eq_some_iff] at stepped
      rcases stepped with ⟨_, tx, _, rfl⟩
      exact returned

/-- As long as the call has not returned it leaves no trace. -/
theorem sameTrace_of_pending {waker : Pubsub.Waker}
    (invariant : sending.tx.Invariant (txConfig config) capacity)
    (stepped : sendStep packet sending (.own waker) = some next)
    (pending : ∀ result, next.stage ≠ .returned result) : sending.SameTrace next := by
  unfold sendStep at stepped
  dsimp only at stepped
  split at stepped
  · rcases Option.some.inj stepped with rfl
    exact (check_cases packet sending).2
  · rcases grant_cases invariant stepped with
      ⟨shared, tx, same, _, ⟨rfl, _⟩ | ⟨_, _, returned⟩⟩
    · exact ⟨by rw [shared], by rw [shared], by rw [shared], same.messages⟩
    · exact absurd returned (pending _)
  · rcases register_cases stepped with ⟨_, returned⟩ | ⟨_, _, returned⟩
    · exact absurd returned (pending _)
    · exact absurd returned (pending _)
  · simp at stepped

/-- The insertions that fail leave no identifier behind when it was there before, or when it is not
inserted. -/
theorem outgoingPid_of_full {shared next : Shared config} {kind : SendPacket} {pid : Pid}
    (full : shared.register kind pid = .full next) :
    next.outgoingPid = shared.outgoingPid ↔
      pid.val ∈ shared.outgoingPid.elements ∨ shared.outgoingPid.insert pid.val = none := by
  rcases Shared.cases_of_full full with ⟨none_left, rfl⟩ | ⟨outgoingPid, inserted, rfl⟩
  · simp [none_left]
  · have elements := IndexSet.elements_of_insert inserted
    constructor
    · intro same
      left
      change outgoingPid = shared.outgoingPid at same
      rw [same] at elements
      rw [elements]
      exact Finset.mem_insert_self _ _
    · rintro (known | none_left)
      · rw [IndexSet.insert, if_pos known] at inserted
        exact (Option.some.inj inserted).symm
      · simp [inserted] at none_left

/-- A call that fails leaves no trace exactly under the condition. -/
theorem sameTrace_iff_of_failed {waker : Pubsub.Waker} {error : Error}
    (invariant : sending.tx.Invariant (txConfig config) capacity)
    (stepped : sendStep packet sending (.own waker) = some next)
    (failed : next.stage = .returned (.error error)) :
    sending.SameTrace next ↔ sending.FailsCleanly := by
  unfold sendStep at stepped
  dsimp only at stepped
  split at stepped
  · rename_i stage
    rcases Option.some.inj stepped with rfl
    simp only [FailsCleanly, stage, iff_true]
    exact (check_cases packet sending).2
  · rename_i pid stage
    simp only [FailsCleanly, stage]
    rcases grant_cases invariant stepped with
      ⟨shared, tx, same, invariant, ⟨_, already⟩ | ⟨writer, dropped, _⟩⟩
    · have impossible := already error failed
      simp [stage] at impossible
    · have queue := Pubsub.World.messages_dropWriter_iff invariant dropped
      rw [same.messages, same.subscriberCount] at queue
      rw [← queue]
      constructor
      · intro trace
        exact trace.messages
      · intro messages
        exact ⟨by rw [shared], by rw [shared], by rw [shared], messages⟩
  · rename_i pid writer used stage
    simp only [FailsCleanly, stage]
    rcases register_cases stepped with ⟨_, returned⟩ | ⟨full, dropped, _⟩
    · simp [returned] at failed
    · have queue := Pubsub.World.messages_dropWriter_iff invariant dropped
      have outgoing := outgoingPid_of_full full
      have rest := (Shared.eq_of_full full).1
      rw [← queue, ← outgoing]
      constructor
      · intro trace
        exact ⟨trace.messages, trace.outgoingPid⟩
      · rintro ⟨messages, outgoingPid⟩
        exact ⟨by rw [rest], outgoingPid, by rw [rest], messages⟩
  · simp at stepped

/-- A call that has not returned has left no trace. -/
theorem guarded_of_pending {actions : List (SendAction config)}
    (invariant : sending.tx.Invariant (txConfig config) capacity)
    (run : Execution.run (sendStep packet) sending actions = some last)
    (pending : ∀ result, last.stage ≠ .returned result) :
    Execution.Guarded (sendStep packet) (LeavesNoTrace packet) sending actions := by
  induction actions generalizing sending with
  | nil => trivial
  | cons action rest ih =>
      rcases Execution.run_cons_eq_some.mp run with ⟨next, stepped, continued⟩
      have next_pending : ∀ result, next.stage ≠ .returned result := by
        intro result returned
        exact pending result (Execution.invariant_of_run
          (fun sending : Sending config => sending.stage = .returned result)
          (fun returned stepped => returned_step returned stepped) returned continued)
      constructor
      · cases action with
        | own waker =>
            intro other also
            rcases Option.some.inj (stepped.symm.trans also) with rfl
            exact sameTrace_of_pending invariant stepped next_pending
        | shared shared => trivial
        | tx action => trivial
      · intro other also
        rcases Option.some.inj (stepped.symm.trans also) with rfl
        exact ih (invariant_step invariant stepped) continued

end Sending

/-- A call of `send` that returns an error leaves no trace with any of its steps, whatever other
tasks do in between, exactly when it fails at its check, or there is no subscriber of the TX channel
when it fails and its identifier is in `outgoing_pid` already or is not inserted. -/
theorem failed_send_leavesNoTrace_iff {config : CrateConfig} {capacity : ℕ} {packet : ClientPacket}
    {channel : List Pubsub.Action} {actions : List (SendAction config)}
    {start last final : Sending config} {waker : Pubsub.Waker} {error : Error}
    (reached : Pubsub.runFrom (txConfig config) capacity channel = some start.tx)
    (run : Execution.run (sendStep packet) start actions = some last)
    (stepped : sendStep packet last (.own waker) = some final)
    (failed : final.stage = .returned (.error error)) :
    Execution.Guarded (sendStep packet) (LeavesNoTrace packet) start (actions ++ [.own waker]) ↔
      last.FailsCleanly := by
  have invariant : start.tx.Invariant (txConfig config) capacity := .of_runFrom reached
  have pending : ∀ result, last.stage ≠ .returned result := by
    intro result returned
    simp [sendStep, returned] at stepped
  have last_invariant := Execution.invariant_of_run
    (fun sending : Sending config => sending.tx.Invariant (txConfig config) capacity)
    (fun invariant stepped => Sending.invariant_step invariant stepped) invariant run
  rw [Execution.guarded_append]
  constructor
  · rintro ⟨_, ending⟩
    exact (Sending.sameTrace_iff_of_failed last_invariant stepped failed).mp
      ((ending last run).1 final stepped)
  · intro cleanly
    refine ⟨Sending.guarded_of_pending invariant run pending, ?_⟩
    intro middle same
    rcases Option.some.inj (run.symm.trans same) with rfl
    refine ⟨?_, fun _ _ => trivial⟩
    intro next also
    rcases Option.some.inj (stepped.symm.trans also) with rfl
    exact (Sending.sameTrace_iff_of_failed last_invariant stepped failed).mpr cleanly

/-- Two publishes may be in flight, and two acknowledgements awaited. -/
def narrow : CrateConfig :=
  { CrateConfig.default .mqttv5 true with maxInflight := 2, maxSubscribers := 2 }

/-- A call on a new TX channel that has not begun. -/
def newSending (shared : Shared narrow) : Sending narrow where
  shared := shared
  tx := Pubsub.World.newPipe (txConfig narrow) 32
  stage := .checking

/-- A publish of QoS 1. -/
def publishOnce (topic : Utf8) : ClientPacket :=
  .publish ⟨false, .atLeastOnce, false, none, topic, .ofSlice [1, 2], .slice []⟩

/-- An UNSUBSCRIBE of one topic filter. -/
def unsubscribe (topic : Utf8) : ClientPacket := .unsubscribe ⟨none, .slice [], [topic]⟩

/-- The two identifiers that were assigned are of publishes in flight. -/
def twoPublishes : Shared narrow :=
  { Shared.new.takePid.takePid with
    inflightPub := (((IndexSet.empty.insert 2).bind (·.insert 3))).getD .empty }

/-- The two identifiers that were assigned are of transmitted subscribes. -/
def twoSubscribes : Shared narrow :=
  { Shared.new.takePid.takePid with
    ackStatus := ((IndexMap.empty.insert 2 .awaitingSubAck).bind
      (·.insert 3 .awaitingSubAck)).getD .empty }

theorem failed_send_leavesNoTrace_iff_example :
    ∃ (topic : Utf8) (final : Sending narrow),
      sendStep (publishOnce topic) (newSending twoPublishes) (.own 0) = some final ∧
      final.stage = .returned (.error .maxInflight) ∧
      Execution.Guarded (sendStep (publishOnce topic)) (LeavesNoTrace (publishOnce topic))
        (newSending Shared.new) [.shared twoPublishes, .own 0] := by
  have reached : Pubsub.runFrom (txConfig narrow) 32 [.subscriber, .publisher] =
      some (newSending Shared.new).tx := rfl
  have run : Execution.run (sendStep (publishOnce ⟨[0x61], by decide⟩)) (newSending Shared.new)
      [.shared twoPublishes] = some (newSending twoPublishes) := rfl
  have stepped : sendStep (publishOnce ⟨[0x61], by decide⟩) (newSending twoPublishes) (.own 0) =
      some { newSending twoPublishes with stage := .returned (.error .maxInflight) } := rfl
  refine ⟨_, _, stepped, rfl, ?_⟩
  apply (failed_send_leavesNoTrace_iff reached run stepped rfl).mpr
  trivial

/-- An UNSUBSCRIBE without a slot in `ack_status` queues an empty frame, and its identifier stays
in `outgoing_pid`. -/
theorem not_failed_send_leavesNoTrace :
    ¬∀ (config : CrateConfig) (capacity : ℕ) (packet : ClientPacket)
      (channel : List Pubsub.Action) (actions : List (SendAction config))
      (start last final : Sending config) (waker : Pubsub.Waker) (error : Error),
      Pubsub.runFrom (txConfig config) capacity channel = some start.tx →
      Execution.run (sendStep packet) start actions = some last →
      sendStep packet last (.own waker) = some final → final.stage = .returned (.error error) →
      Execution.Guarded (sendStep packet) (LeavesNoTrace packet) start (actions ++ [.own waker]) := by
  intro claimed
  obtain ⟨topic, leaks⟩ : ∃ topic : Utf8,
      ((Execution.run (sendStep (unsubscribe topic)) (newSending twoSubscribes)
        [.own 0, .own 0]).bind fun last =>
          (sendStep (unsubscribe topic) last (.own 0)).map fun final =>
            (final.stage, last.shared.outgoingPid.contains 4,
              final.shared.outgoingPid.contains 4)) =
        some (.returned (.error .maxInflight), false, true) :=
    ⟨⟨[0x61], by decide⟩, by decide +kernel⟩
  rcases Option.bind_eq_some_iff.mp leaks with ⟨last, run, leaks⟩
  rcases Option.map_eq_some_iff.mp leaks with ⟨final, stepped, leaks⟩
  simp only [Prod.mk.injEq] at leaks
  rcases leaks with ⟨failed, absent, present⟩
  have guarded := claimed narrow 32 (unsubscribe topic) [.subscriber, .publisher]
    [.own 0, .own 0] (newSending twoSubscribes) last final 0 .maxInflight rfl run stepped failed
  have trace := ((Execution.guarded_append.mp guarded).2 last run).1 final stepped
  rw [trace.outgoingPid, absent] at present
  simp at present

end System

end Mqttrust
