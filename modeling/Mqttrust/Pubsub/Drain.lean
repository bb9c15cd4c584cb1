import Mqttrust.Pubsub.Accounting
import Mqttrust.Pubsub.Effect

/-!
# Whether a pending grant can ever be given

The future of `grant_async` waits for every size, also for one that the buffer
cannot hold: the check that would answer such a size with an error is commented
out in the source. For every other size the queue can be drained. Each subscriber
reads, which lets it catch up, and is dropped, which counts it off in the frames
it has not read; the last one takes all frames along. The outstanding write grant
is then committed for nobody, and the whole buffer is free.

This needs exact counts: a frame that waits for a subscriber that is gone stays in
the queue. So no subscriber may have been dropped while it lagged behind a queued
frame.
-/

namespace Mqttrust.Pubsub

/-- The calls that bring the users of a channel to an end: a read, the release of a read grant, the
commit of a write grant, and the drop of a subscriber. -/
def Action.drains : Action → Bool
  | .read _ _ | .release _ | .commit _ _ | .dropSubscriber _ => true
  | _ => false

namespace World

/-- Some calls that drain the channel lead to a state in which `grant` succeeds. -/
def Satisfiable (config : ChannelConfig) (world : World) (sz : ℕ) : Prop :=
  ∃ actions final, (∀ action ∈ actions, action.drains = true) ∧
    Execution.run (step config) world actions = some final ∧
    ∃ grant, (final.inner.grantWithContext config sz none).2 = .ok grant

/-- Without subscribers nothing is queued, and somebody holds the write grant that is out. -/
structure Tidy (world : World) : Prop where
  emptied : world.inner.subscriberCount = 0 → world.inner.messages = []
  held : world.inner.writeInProgress = true →
    ∃ writer grant, world.writers.get? writer = some grant

variable {config : ChannelConfig} {capacity : ℕ} {world next : World}

namespace Tidy

theorem new (capacity : ℕ) : (World.new capacity).Tidy where
  emptied _ := rfl
  held := by simp [World.new, State.new]

theorem of_same (tidy : world.Tidy)
    (subscriberCount : next.inner.subscriberCount = world.inner.subscriberCount)
    (emptied : world.inner.messages = [] → next.inner.messages = [])
    (writing : next.inner.writeInProgress = world.inner.writeInProgress)
    (writers : world.SameWriters next) : next.Tidy := by
  constructor
  · intro noneLeft
    exact emptied (tidy.emptied (subscriberCount ▸ noneLeft))
  · intro held
    rcases tidy.held (writing ▸ held) with ⟨writer, grant, live⟩
    have same := writers writer
    rw [live, Option.map_some] at same
    rcases Option.map_eq_some_iff.mp same with ⟨grant', live', _⟩
    exact ⟨writer, grant', live'⟩

theorem of_insert {grant : FrameGrantW} (tidy : world.Tidy)
    (subscriberCount : next.inner.subscriberCount = world.inner.subscriberCount)
    (emptied : world.inner.messages = [] → next.inner.messages = [])
    (writers : next.writers = world.writers.insert grant) : next.Tidy := by
  constructor
  · intro noneLeft
    exact emptied (tidy.emptied (subscriberCount ▸ noneLeft))
  · intro _
    exact ⟨world.writers.next, grant, by rw [writers, Table.get?_insert_next]⟩

/-- The last subscriber takes all frames along. -/
theorem messages_of_noneLeft {reader : FrameSubscriber} (accounted : next.Accounted)
    (invariant : next.Invariant config capacity)
    (inQueue : world.inner.startId ≤ reader.nextMessageId ∨ world.inner.messages = [])
    (inner : next.inner = world.inner.dropSubscriber reader)
    (noneLeft : next.inner.subscriberCount = 0) : next.inner.messages = [] := by
  have uncounted : ∀ header ∈ next.inner.messages, header.subscriberCount = 0 := by
    intro header header_mem
    rw [accounted header header_mem]
    have counted := invariant.counted
    rw [noneLeft] at counted
    apply Nat.eq_zero_of_le_zero
    rw [counted]
    exact Table.count_mono fun _ _ _ _ => rfl
  rcases State.dropSubscriber_cases world.inner reader with ⟨_, messages⟩ | ⟨lagging, messages⟩
  · rw [← inner] at messages
    rw [messages] at uncounted ⊢
    by_contra nonempty
    have kept := List.head_dropWhile_not (fun header : Header => header.subscriberCount == 0)
      nonempty
    exact beq_eq_false_iff_ne.mp kept (uncounted _ (List.head_mem nonempty))
  · rcases inQueue with current | empty
    · omega
    · rw [inner, messages, empty]

theorem step {action : Action} (tidy : world.Tidy) (invariant : world.Invariant config capacity)
    (accounted : world.Accounted) (current : world.DropsCurrent action)
    (stepped : Pubsub.step config world action = some next) : next.Tidy := by
  have after := invariant.step stepped
  have exact_after := accounted.transition invariant current (transition_of_step invariant stepped)
  cases effect_of_step invariant stepped with
  | quiet taken inner _ writers =>
      exact tidy.of_same (by rw [inner]) (by rw [inner]; exact id) (by rw [inner]) writers
  | subscribe inner _ writers =>
      constructor
      · intro noneLeft
        rw [inner] at noneLeft
        simp at noneLeft
      · rw [inner, writers]
        exact tidy.held
  | clear inner _ writers =>
      exact tidy.of_same (by rw [inner]; rfl) (by rw [inner]; exact fun _ => rfl)
        (by rw [inner]; rfl) (.of_eq writers)
  | refuse _ inner _ writers =>
      exact tidy.of_same (by rw [inner]) (by rw [inner]; exact id) (by rw [inner])
        (.of_eq writers)
  | grant _ inner _ writers =>
      exact tidy.of_insert (by rw [inner]) (by rw [inner]; exact id) writers
  | evict gone kept split _ _ _ inner _ writers =>
      apply tidy.of_same (by rw [inner]) ?_ (by rw [inner]) (.of_eq writers)
      intro empty
      rw [inner]
      exact (List.append_eq_nil_iff.mp (split.symm.trans empty)).2
  | evictAndGrant gone kept split _ _ inner _ writers =>
      apply tidy.of_insert (by rw [inner]) ?_ writers
      intro empty
      rw [inner]
      exact (List.append_eq_nil_iff.mp (split.symm.trans empty)).2
  | discard _ _ _ noneLeft inner _ _ =>
      constructor
      · intro _
        rw [inner]
        exact tidy.emptied noneLeft
      · rw [inner]
        simp
  | commit _ _ _ _ _ someLeft inner _ _ =>
      constructor
      · intro noneLeft
        rw [inner] at noneLeft
        exact absurd noneLeft (Nat.ne_of_gt someLeft)
      · rw [inner]
        simp
  | block _ _ _ _ inner _ writers =>
      exact tidy.of_same (by rw [inner]) (by rw [inner]; exact id) (by rw [inner])
        (.of_eq writers)
  | read _ index header _ found _ _ inner _ writers =>
      apply tidy.of_same (by rw [inner]) ?_ (by rw [inner]) (.of_eq writers)
      intro empty
      simp [empty] at found
  | pop front rest queue inner _ writers =>
      apply tidy.of_same (by rw [inner]) ?_ (by rw [inner]) (.of_eq writers)
      intro empty
      simp [empty] at queue
  | flag index header found inner _ writers =>
      apply tidy.of_same (by rw [inner]) ?_ (by rw [inner]) (.of_eq writers)
      intro empty
      simp [empty] at found
  | leave reader live inner _ writers =>
      have frame := State.dropSubscriber_frame world.inner reader
      constructor
      · exact messages_of_noneLeft exact_after after (current _ rfl reader live) inner
      · rw [inner, frame.2.1, writers]
        exact tidy.held

end Tidy

/-- A subscriber that has called `read` does not lag behind the queue. -/
theorem exists_current_of_read {subscriber : ℕ} {reader : FrameSubscriber}
    (live : world.subscribers.get? subscriber = some reader) (cx : Option Waker) :
    ∃ reader', (world.read config subscriber reader cx).subscribers.get? subscriber =
        some reader' ∧
      (world.read config subscriber reader cx).inner.startId ≤ reader'.nextMessageId := by
  have caughtUp := Invariant.startId_le_catchUp world.inner reader
  rcases called : world.inner.readWithContext config reader cx with ⟨inner, reader', result⟩
  simp only [World.read, called]
  cases result with
  | error error =>
      rcases State.readWithContext_eq_error called with ⟨rfl, rfl⟩
      exact ⟨_, by rw [Table.get?_replace live, if_pos rfl], caughtUp⟩
  | ok grant =>
      rcases State.readWithContext_eq_ok called with ⟨index, header, _, _, _, rfl, rfl, _⟩
      refine ⟨_, by rw [Table.get?_replace live, if_pos rfl], ?_⟩
      simp only [State.startId, List.length_set]
      exact Nat.le_succ_of_le caughtUp

theorem subscriberCount_read {subscriber : ℕ} {reader : FrameSubscriber} (cx : Option Waker) :
    (world.read config subscriber reader cx).inner.subscriberCount =
      world.inner.subscriberCount := by
  rcases called : world.inner.readWithContext config reader cx with ⟨inner, reader', result⟩
  simp only [World.read, called]
  cases result with
  | error error =>
      rw [(State.readWithContext_eq_error called).1]
  | ok grant =>
      rcases State.readWithContext_eq_ok called with ⟨_, _, _, _, _, rfl, _, _⟩
      rfl

/-- The states from which a channel can be drained. -/
structure Drainable (config : ChannelConfig) (capacity : ℕ) (world : World) : Prop where
  invariant : world.Invariant config capacity
  accounted : world.Accounted
  tidy : world.Tidy

namespace Drainable

theorem step {action : Action} (drainable : world.Drainable config capacity)
    (current : world.DropsCurrent action)
    (stepped : Pubsub.step config world action = some next) : next.Drainable config capacity where
  invariant := drainable.invariant.step stepped
  accounted := drainable.accounted.transition drainable.invariant current
    (transition_of_step drainable.invariant stepped)
  tidy := drainable.tidy.step drainable.invariant drainable.accounted current stepped

theorem of_run {actions : List Action}
    (current : Execution.Guarded (Pubsub.step config) World.DropsCurrent (World.new capacity)
      actions)
    (reached : runFrom config capacity actions = some world) :
    world.Drainable config capacity :=
  Execution.invariant_of_guarded (Drainable config capacity)
    (fun current drainable stepped => drainable.step current stepped) current
    ⟨.new config capacity, .new capacity, .new capacity⟩ reached

/-- A subscriber reads and is dropped. -/
theorem exists_left {subscriber : ℕ} {reader : FrameSubscriber}
    (drainable : world.Drainable config capacity)
    (live : world.subscribers.get? subscriber = some reader) :
    ∃ left, Execution.run (Pubsub.step config) world
        [.read subscriber none, .dropSubscriber subscriber] = some left ∧
      left.Drainable config capacity ∧
      left.inner.subscriberCount = world.inner.subscriberCount - 1 := by
  have read : Pubsub.step config world (.read subscriber none) =
      some (world.read config subscriber reader none) := by
    simp [Pubsub.step, live]
  have current : ∃ reader', (world.read config subscriber reader none).subscribers.get?
      subscriber = some reader' ∧
        (world.read config subscriber reader none).inner.startId ≤ reader'.nextMessageId :=
    exists_current_of_read live none
  rcases current with ⟨reader', live', caughtUp⟩
  have dropped : Pubsub.step config (world.read config subscriber reader none)
      (.dropSubscriber subscriber) =
        some ((world.read config subscriber reader none).dropSubscriber subscriber reader') := by
    simp [Pubsub.step, live']
  refine ⟨_, Execution.run_cons_eq_some.mpr ⟨_, read, Execution.run_cons_eq_some.mpr
    ⟨_, dropped, rfl⟩⟩, ?_, ?_⟩
  · have drainable' := drainable.step (by simp [DropsCurrent, Action.leaves?]) read
    apply drainable'.step _ dropped
    rintro other leaves reader live
    simp only [Action.leaves?, Option.mem_def, Option.some.injEq] at leaves
    subst leaves
    rcases Option.some.inj (live'.symm.trans live) with rfl
    exact Or.inl caughtUp
  · change ((world.read config subscriber reader none).inner.dropSubscriber
      reader').subscriberCount = _
    rw [(State.dropSubscriber_frame _ reader').2.2.2.2, subscriberCount_read]

/-- All subscribers are brought to an end. -/
theorem exists_noneLeft (drainable : world.Drainable config capacity) :
    ∃ actions left, (∀ action ∈ actions, action.drains = true) ∧
      Execution.run (Pubsub.step config) world actions = some left ∧
      left.Drainable config capacity ∧ left.inner.subscriberCount = 0 := by
  generalize remaining : world.inner.subscriberCount = count
  induction count generalizing world with
  | zero => exact ⟨[], world, by simp, rfl, drainable, remaining⟩
  | succ count ih =>
      have positive : 0 < world.subscribers.count fun _ => true := by
        rw [← drainable.invariant.counted, remaining]
        exact Nat.succ_pos count
      rcases Table.exists_of_count_pos positive with ⟨subscriber, reader, live, _⟩
      rcases drainable.exists_left live with ⟨next, first, drainable, fewer⟩
      rw [remaining, Nat.add_sub_cancel] at fewer
      rcases ih drainable fewer with ⟨actions, left, drains, continued, drainable, noneLeft⟩
      refine ⟨[.read subscriber none, .dropSubscriber subscriber] ++ actions, left, ?_, ?_,
        drainable, noneLeft⟩
      · intro action action_mem
        rcases List.mem_append.mp action_mem with mine | later
        · simp only [List.mem_cons, List.not_mem_nil, or_false] at mine
          rcases mine with rfl | rfl <;> rfl
        · exact drains action later
      · rw [Execution.run_append, first]
        exact continued

/-- The write grant that is out is committed for nobody. -/
theorem exists_drained (drainable : world.Drainable config capacity) :
    ∃ actions final, (∀ action ∈ actions, action.drains = true) ∧
      Execution.run (Pubsub.step config) world actions = some final ∧
      final.inner.capacity = capacity ∧ final.inner.messages = [] ∧
      final.inner.writeInProgress = false := by
  rcases drainable.exists_noneLeft with ⟨actions, left, drains, drained, drainable, noneLeft⟩
  have emptied := drainable.tidy.emptied noneLeft
  cases writing : left.inner.writeInProgress with
  | false => exact ⟨actions, left, drains, drained, drainable.invariant.fixed, emptied, writing⟩
  | true =>
      rcases drainable.tidy.held writing with ⟨writer, grant, live⟩
      have committed : Pubsub.step config left (.commit writer 0) =
          some (left.commit config writer grant 0) := by
        simp [Pubsub.step, live]
      have inner : (left.commit config writer grant 0).inner =
          { left.inner with writeInProgress := false } := by
        simp [World.commit, State.commitInner, writing, noneLeft]
      refine ⟨actions ++ [.commit writer 0], left.commit config writer grant 0, ?_, ?_, ?_, ?_, ?_⟩
      · intro action action_mem
        rcases List.mem_append.mp action_mem with earlier | last
        · exact drains action earlier
        · rw [List.mem_singleton] at last
          rw [last]
          rfl
      · rw [Execution.run_append, drained]
        exact Execution.run_cons_eq_some.mpr ⟨_, committed, rfl⟩
      · rw [inner]
        exact drainable.invariant.fixed
      · rw [inner]
        exact emptied
      · rw [inner]

end Drainable

theorem Satisfiable.le_capacity {sz : ℕ} (invariant : world.Invariant config capacity)
    (satisfiable : world.Satisfiable config sz) : sz ≤ capacity ∧ 0 < config.maxPubsubMessages := by
  rcases satisfiable with ⟨actions, final, _, continued, given⟩
  have invariant : final.Invariant config capacity :=
    Execution.invariant_of_run (World.Invariant config capacity)
      (fun invariant stepped => invariant.step stepped) invariant continued
  have possible := State.le_capacity_of_grants invariant.valid.layout
    ((State.exists_grant_iff none).mp given)
  rw [invariant.fixed] at possible
  exact possible

/-- In a run in which no subscriber is dropped while it lags behind a queued frame, the future of a
grant waits only for something that can happen exactly when the buffer can hold the frame and the
deque can hold a header. -/
theorem pending_satisfiable_iff {actions : List Action} {sz : ℕ} (cx : Waker)
    (current : Execution.Guarded (step config) World.DropsCurrent (World.new capacity) actions)
    (reached : runFrom config capacity actions = some world) :
    ((world.inner.pollGrant config sz cx).2 = none → world.Satisfiable config sz) ↔
      sz ≤ capacity ∧ 0 < config.maxPubsubMessages := by
  have drainable := Drainable.of_run current reached
  constructor
  · intro pending_satisfiable
    by_cases grants : world.inner.Grants config sz
    · have possible := State.le_capacity_of_grants drainable.invariant.valid.layout grants
      rw [drainable.invariant.fixed] at possible
      exact possible
    · have pending := (State.pollGrant_pending_iff cx).mpr grants
      exact (pending_satisfiable pending).le_capacity drainable.invariant
  · rintro ⟨fits, room⟩ _
    rcases drainable.exists_drained with
      ⟨continuation, final, drains, continued, fixed, emptied, idle⟩
    refine ⟨continuation, final, drains, continued, (State.exists_grant_iff none).mpr ⟨idle, ?_⟩⟩
    rw [State.hasRoom_of_empty emptied, fixed]
    exact ⟨fits, room⟩

end World

/-- A full buffer, and a second write grant that waits for the subscriber. -/
theorem pending_satisfiable_iff_example :
    ∃ world, runFrom ⟨2, 1⟩ 8 [.publisher, .subscriber, .grant 8 none, .commit 0 8] = some world ∧
      (world.inner.pollGrant ⟨2, 1⟩ 5 0).2 = none ∧ world.Satisfiable ⟨2, 1⟩ 5 := by
  obtain ⟨world, reached, pending⟩ : ∃ world, runFrom ⟨2, 1⟩ 8
      [.publisher, .subscriber, .grant 8 none, .commit 0 8] = some world ∧
      (world.inner.pollGrant ⟨2, 1⟩ 5 0).2 = none := ⟨_, rfl, rfl⟩
  refine ⟨world, reached, pending, ?_⟩
  exact (World.pending_satisfiable_iff 0 (by decide) reached).mpr (by decide) pending

/-- A grant of nine bytes from a new channel of eight is pending for ever. -/
theorem not_pending_satisfiable :
    ¬∀ (config : ChannelConfig) (capacity : ℕ) (actions : List Action) (world : World) (sz : ℕ)
      (cx : Waker), runFrom config capacity actions = some world →
      (world.inner.pollGrant config sz cx).2 = none → world.Satisfiable config sz := by
  intro claimed
  have satisfiable := claimed ⟨2, 1⟩ 8 [.publisher] _ 9 0 rfl rfl
  have invariant : World.Invariant ⟨2, 1⟩ 8 _ := World.Invariant.of_runFrom
    (show runFrom ⟨2, 1⟩ 8 [.publisher] = some _ from rfl)
  exact absurd (satisfiable.le_capacity invariant).1 (by decide)

end Mqttrust.Pubsub
