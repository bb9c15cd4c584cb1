import Mqttrust.Pubsub.Transition

/-!
# Reader accounting and reclaimed frames

The count in a header is meant to be the number of live subscribers that have
still to read the frame. Every call keeps it so, except one: `FrameSubscriber::drop`
does not count off a subscriber that lags behind a queue which is not empty. A
frame that counts such a subscriber waits for a reader that no longer exists.

A frame is exhausted once nobody has still to read it and nobody is reading it.
Where the counts are exact they grow along the queue, so that only the front can
be exhausted. Releasing its read grant removes it, but not the frame behind it:
when that one was released first, it stays at the front of the queue.
-/

namespace Mqttrust.Pubsub

/-- Nobody has still to read the frame, and nobody is reading it. -/
def Header.exhausted (header : Header) : Prop :=
  header.subscriberCount = 0 ∧ header.readInProgress = false

instance (header : Header) : Decidable header.exhausted :=
  inferInstanceAs (Decidable (_ ∧ _))

namespace State

theorem getElem?_countOff (state : State) (subscriber : FrameSubscriber) (index : ℕ) :
    (state.countOff subscriber)[index]? = (state.messages[index]?).map fun header =>
      if subscriber.nextMessageId - state.startId ≤ index then header.decrement else header := by
  simp only [countOff]
  generalize subscriber.nextMessageId - state.startId = current
  rcases Nat.lt_or_ge index current with read | unread
  · rcases Nat.lt_or_ge index state.messages.length with inside | outside
    · rw [List.getElem?_append_left (by rw [List.length_take]; omega),
        List.getElem?_take_of_lt read, List.getElem?_eq_getElem inside]
      simp [Nat.not_le_of_lt read]
    · rw [List.getElem?_eq_none (by simp; omega), List.getElem?_eq_none outside]
      rfl
  · simp only [unread, if_true]
    rw [List.getElem?_append, List.length_take]
    split
    · omega
    · rw [List.getElem?_map, List.getElem?_drop]
      rcases Nat.le_total current state.messages.length with within | beyond
      · rw [Nat.min_eq_left within, Nat.add_sub_cancel' unread]
      · rw [List.getElem?_eq_none (by omega), List.getElem?_eq_none (by omega)]

end State

/-- The subscriber that a call drops. -/
def Action.leaves? : Action → Option ℕ
  | .dropSubscriber id => some id
  | _ => none

namespace World

/-- The count in every queued header is the number of live subscribers that have still to read its
frame. -/
def Accounted (world : World) : Prop :=
  ∀ header ∈ world.inner.messages,
    header.subscriberCount = world.subscribers.count (FrameSubscriber.awaits header.messageId)

/-- The condition on a call: a subscriber that is dropped does not lag behind the queue, unless the
queue is empty. -/
def DropsCurrent (world : World) (action : Action) : Prop :=
  ∀ subscriber ∈ action.leaves?, ∀ reader ∈ world.subscribers.get? subscriber,
    world.inner.startId ≤ reader.nextMessageId ∨ world.inner.messages = []

instance (world : World) (action : Action) : Decidable (world.DropsCurrent action) :=
  inferInstanceAs (Decidable (∀ subscriber ∈ action.leaves?,
    ∀ reader ∈ world.subscribers.get? subscriber, _ ∨ _))

/-- The frame at the front of the queue is not exhausted. -/
def Reclaimed (world : World) : Prop :=
  ∀ front ∈ world.inner.messages.head?, ¬front.exhausted

/-- The condition on a call: when it releases the last read grant of the oldest frame, the frame
behind it is not exhausted. -/
def ReleasesInOrder (world : World) (action : Action) : Prop :=
  ∀ grant ∈ world.released? action, ∀ front ∈ world.inner.messages[0]?,
    front.messageId = grant.messageId → front.subscriberCount = 0 →
      ∀ second ∈ world.inner.messages[1]?, ¬second.exhausted

instance (world : World) (action : Action) : Decidable (world.ReleasesInOrder action) :=
  inferInstanceAs (Decidable (∀ grant ∈ world.released? action,
    ∀ front ∈ world.inner.messages[0]?, _ → _ → ∀ second ∈ world.inner.messages[1]?, _))

variable {config : ChannelConfig} {capacity : ℕ} {world next : World}

namespace Accounted

theorem new (capacity : ℕ) : (World.new capacity).Accounted := by
  simp [Accounted, World.new, State.new]

theorem of_queue (accounted : world.Accounted)
    (queue : next.inner.messages ⊆ world.inner.messages)
    (subscribers : next.subscribers = world.subscribers) : next.Accounted := by
  intro header header_mem
  rw [subscribers]
  exact accounted header (queue header_mem)

theorem subscribe (invariant : world.Invariant config capacity) (accounted : world.Accounted)
    (queue : next.inner.messages = world.inner.messages)
    (subscribers : next.subscribers = world.subscribers.insert ⟨world.inner.nextMessageId⟩) :
    next.Accounted := by
  intro header header_mem
  rw [queue] at header_mem
  have older := invariant.valid.messageId_lt header_mem
  have notAwaited :
      FrameSubscriber.awaits header.messageId ⟨world.inner.nextMessageId⟩ = false := by
    simp [FrameSubscriber.awaits, older]
  simp only [subscribers, Table.count_insert, notAwaited, Bool.false_eq_true, if_false]
  exact accounted header header_mem

theorem commit {grant : FrameGrantW} {used : ℕ} (invariant : world.Invariant config capacity)
    (accounted : world.Accounted)
    (queue : next.inner.messages =
      world.inner.messages ++ [world.inner.commitHeader grant used])
    (subscribers : next.subscribers = world.subscribers) : next.Accounted := by
  intro header header_mem
  rw [queue] at header_mem
  rw [subscribers]
  rcases List.mem_append.mp header_mem with old | newest
  · exact accounted header old
  · rw [List.mem_singleton] at newest
    subst newest
    simp only [State.commitHeader, invariant.counted]
    apply Table.count_congr
    intro subscriber reader live
    simp [FrameSubscriber.awaits, invariant.current subscriber reader live]

theorem catchUp {subscriber : ℕ} {reader : FrameSubscriber}
    (invariant : world.Invariant config capacity) (accounted : world.Accounted)
    (live : world.subscribers.get? subscriber = some reader)
    (queue : next.inner.messages = world.inner.messages)
    (subscribers : next.subscribers =
      world.subscribers.replace subscriber (world.inner.catchUp reader)) : next.Accounted := by
  intro header header_mem
  rw [queue] at header_mem
  rw [subscribers, Table.count_replace_of_eq _ live (invariant.awaits_catchUp reader header_mem)]
  exact accounted header header_mem

/-- A subscriber that reads a frame is counted off in its header, and in no other. -/
theorem read {subscriber index : ℕ} {reader : FrameSubscriber} {header : Header}
    (invariant : world.Invariant config capacity) (accounted : world.Accounted)
    (live : world.subscribers.get? subscriber = some reader)
    (found : world.inner.messages[index]? = some header)
    (awaits : header.messageId = (world.inner.catchUp reader).nextMessageId)
    (queue : next.inner.messages = world.inner.messages.set index header.startRead)
    (subscribers : next.subscribers =
      world.subscribers.replace subscriber ⟨header.messageId + 1⟩) : next.Accounted := by
  intro other other_mem
  rcases List.getElem?_of_mem other_mem with ⟨position, other_found⟩
  rw [queue, List.getElem?_set] at other_found
  rw [subscribers]
  split at other_found
  · split at other_found
    · simp only [Option.some.injEq] at other_found
      subst other_found
      have header_mem := List.mem_of_getElem? found
      have before := accounted header header_mem
      have awaited : FrameSubscriber.awaits header.messageId reader = true := by
        rw [← invariant.awaits_catchUp reader header_mem]
        simp [FrameSubscriber.awaits, awaits]
      have done : FrameSubscriber.awaits header.messageId ⟨header.messageId + 1⟩ = false := by
        simp [FrameSubscriber.awaits]
      simp only [Table.count_replace _ live, Header.startRead, Header.messageId_decrement,
        Header.subscriberCount_decrement, awaited, done, if_true, Bool.false_eq_true, if_false]
      omega
    · simp at other_found
  · rename_i elsewhere
    have old_mem := List.mem_of_getElem? other_found
    have other_id := invariant.valid.messageId_eq other_found
    have index_id := invariant.valid.messageId_eq found
    have same : FrameSubscriber.awaits other.messageId ⟨header.messageId + 1⟩ =
        FrameSubscriber.awaits other.messageId reader := by
      rw [← invariant.awaits_catchUp reader old_mem]
      simp only [FrameSubscriber.awaits, decide_eq_decide]
      omega
    rw [Table.count_replace_of_eq _ live same]
    exact accounted other old_mem

theorem flag {index : ℕ} {header : Header} (accounted : world.Accounted)
    (found : world.inner.messages[index]? = some header)
    (queue : next.inner.messages = world.inner.messages.set index header.endRead)
    (subscribers : next.subscribers = world.subscribers) : next.Accounted := by
  intro other other_mem
  rw [queue] at other_mem
  rw [subscribers]
  rcases List.mem_or_eq_of_mem_set other_mem with old | rfl
  · exact accounted other old
  · exact accounted header (List.mem_of_getElem? found)

/-- A subscriber that does not lag behind the queue is counted off in the frames it has not read. -/
theorem leave {subscriber : ℕ} {reader : FrameSubscriber}
    (invariant : world.Invariant config capacity) (accounted : world.Accounted)
    (live : world.subscribers.get? subscriber = some reader)
    (current : world.inner.startId ≤ reader.nextMessageId ∨ world.inner.messages = [])
    (queue : next.inner.messages = (world.inner.dropSubscriber reader).messages)
    (subscribers : next.subscribers = world.subscribers.remove subscriber) : next.Accounted := by
  intro header header_mem
  rw [queue] at header_mem
  rw [subscribers, Table.count_remove _ live]
  rcases world.inner.dropSubscriber_cases reader with ⟨inQueue, messages⟩ | ⟨lagging, messages⟩
  · rw [messages] at header_mem
    have counted_mem : header ∈ world.inner.countOff reader :=
      (List.dropWhile_sublist _).subset header_mem
    rcases List.getElem?_of_mem counted_mem with ⟨index, found⟩
    rw [State.getElem?_countOff, Option.map_eq_some_iff] at found
    rcases found with ⟨old, old_found, rfl⟩
    have before := accounted old (List.mem_of_getElem? old_found)
    have old_id := invariant.valid.messageId_eq old_found
    split
    · rename_i unread
      have awaited : FrameSubscriber.awaits old.messageId reader = true := by
        simp only [FrameSubscriber.awaits, decide_eq_true_eq]
        omega
      simp only [Header.messageId_decrement, Header.subscriberCount_decrement, awaited, if_true]
      omega
    · rename_i read
      have done : FrameSubscriber.awaits old.messageId reader = false := by
        simp only [FrameSubscriber.awaits, decide_eq_false_iff_not]
        omega
      simp only [done, Bool.false_eq_true, if_false]
      omega
  · rw [messages] at header_mem
    rcases current with inQueue | empty
    · omega
    · simp [empty] at header_mem

theorem transition {action : Action} (invariant : world.Invariant config capacity)
    (accounted : world.Accounted) (current : world.DropsCurrent action)
    (transition : world.Transition next action) : next.Accounted := by
  cases transition with
  | quiet queue subscribers => exact accounted.of_queue (queue ▸ List.Subset.refl _) subscribers
  | subscribe queue subscribers => exact accounted.subscribe invariant queue subscribers
  | clear queue subscribers => exact accounted.of_queue (by simp [queue]) subscribers
  | evict gone queue idle subscribers => exact accounted.of_queue (by simp [queue]) subscribers
  | commit grant used awaited queue subscribers =>
      exact accounted.commit invariant queue subscribers
  | catchUp reader live queue subscribers =>
      exact accounted.catchUp invariant live queue subscribers
  | read reader index header live found awaits queue subscribers =>
      exact accounted.read invariant live found awaits queue subscribers
  | pop grant front released queue sameId reading exhausted subscribers =>
      exact accounted.of_queue (by simp [queue]) subscribers
  | flag index header found remains queue subscribers =>
      exact accounted.flag found queue subscribers
  | leave reader live queue subscribers =>
      exact accounted.leave invariant live (current _ rfl reader live) queue subscribers

/-- Dropping a subscriber that lags behind a queued frame leaves a count that is too large. -/
theorem current_of_leave {action : Action} (accounted : world.Accounted)
    (invariant : world.Invariant config capacity) (after : next.Accounted)
    (stepped : Pubsub.step config world action = some next) : world.DropsCurrent action := by
  intro left left_mem reader live
  cases action with
  | dropSubscriber subscriber =>
      simp only [Action.leaves?, Option.mem_def, Option.some.injEq] at left_mem
      subst left_mem
      rcases world.inner.dropSubscriber_cases reader with
        ⟨inQueue, _⟩ | ⟨lagging, messages⟩
      · exact Or.inl inQueue
      · right
        change world.subscribers.get? subscriber = some reader at live
        simp only [Pubsub.step, live, Option.bind_eq_bind, Option.bind_some,
          Option.some.injEq] at stepped
        subst stepped
        apply List.eq_nil_iff_forall_not_mem.mpr
        intro header header_mem
        have before := accounted header header_mem
        have remains := after header (by simpa [World.dropSubscriber, messages] using header_mem)
        rcases List.getElem?_of_mem header_mem with ⟨index, found⟩
        have header_id := invariant.valid.messageId_eq found
        have awaited : FrameSubscriber.awaits header.messageId reader = true := by
          simp only [FrameSubscriber.awaits, decide_eq_true_eq]
          omega
        have counted := Table.count_pos_of_get? _ live awaited
        change _ = (world.subscribers.remove subscriber).count _ at remains
        simp only [Table.count_remove _ live, awaited, if_true] at remains
        omega
  | _ => simp [Action.leaves?] at left_mem

theorem subscriberCount_le (accounted : world.Accounted)
    {older newer : Header} (older_mem : older ∈ world.inner.messages)
    (newer_mem : newer ∈ world.inner.messages) (ordered : older.messageId ≤ newer.messageId) :
    older.subscriberCount ≤ newer.subscriberCount := by
  rw [accounted older older_mem, accounted newer newer_mem]
  apply Table.count_mono
  intro subscriber reader _ awaits
  simp only [FrameSubscriber.awaits, decide_eq_true_eq] at awaits ⊢
  omega

end Accounted

/-- The counts are exact in every state of a run exactly when no subscriber is dropped while it
lags behind a queued frame. -/
theorem always_accounted_iff (config : ChannelConfig) (capacity : ℕ) (actions : List Action) :
    Execution.Always (step config) World.Accounted (World.new capacity) actions ↔
      Execution.Guarded (step config) World.DropsCurrent (World.new capacity) actions := by
  apply Execution.always_iff_guarded (fun _ _ => True) (World.Invariant config capacity)
    World.Accounted
  · intro state after action _ invariant stepped
    exact invariant.step stepped
  · intro state after action _ invariant accounted current stepped
    exact accounted.transition invariant current (transition_of_step invariant stepped)
  · intro state after action invariant accounted stepped after_accounted
    exact accounted.current_of_leave invariant after_accounted stepped
  · intro state action impossible left left_mem reader live
    cases action with
    | dropSubscriber subscriber =>
        simp only [Action.leaves?, Option.mem_def, Option.some.injEq] at left_mem
        subst left_mem
        change state.subscribers.get? subscriber = some reader at live
        simp [Pubsub.step, live] at impossible
    | _ => simp [Action.leaves?] at left_mem
  · exact Execution.guarded_of_forall fun _ _ _ => trivial
  · exact World.Invariant.new config capacity
  · exact Accounted.new capacity

end World

/-- A subscriber whose next frame was evicted is dropped: the frames left in the queue are still
waiting for it. -/
theorem not_accounted_after_lagging_drop :
    ∃ world, runFrom ⟨2, 2⟩ 8 [.publisher, .subscriber, .subscriber, .grant 4 none, .commit 0 4,
        .grant 4 none, .commit 1 4, .grantImmediate 4, .dropSubscriber 0] = some world ∧
      ¬world.Accounted := by
  refine ⟨_, rfl, ?_⟩
  intro accounted
  have counted := accounted ⟨4, 4, 1, 2, false, 0⟩ (by decide)
  exact absurd counted (by decide)

namespace World

variable {config : ChannelConfig} {capacity : ℕ} {world next : World}

namespace Reclaimed

theorem new (capacity : ℕ) : (World.new capacity).Reclaimed := by
  simp [Reclaimed, World.new, State.new]

theorem of_head (reclaimed : world.Reclaimed)
    (front : next.inner.messages.head? = world.inner.messages.head?) : next.Reclaimed := by
  intro header header_mem
  rw [front] at header_mem
  exact reclaimed header header_mem

theorem of_set {index : ℕ} {header changed : Header} (reclaimed : world.Reclaimed)
    (found : world.inner.messages[index]? = some header)
    (queue : next.inner.messages = world.inner.messages.set index changed)
    (front : index = 0 → ¬changed.exhausted) : next.Reclaimed := by
  intro other other_mem
  rw [queue, List.head?_eq_getElem?, List.getElem?_set] at other_mem
  split at other_mem
  · rename_i at_front
    rw [at_front] at found
    rcases List.getElem?_eq_some_iff.mp found with ⟨inside, _⟩
    simp only [at_front, inside, if_true, Option.mem_def, Option.some.injEq] at other_mem
    subst other_mem
    exact front at_front
  · rw [← List.head?_eq_getElem?] at other_mem
    exact reclaimed other other_mem

/-- The frames behind one that somebody has still to read are not exhausted either. -/
theorem evict {gone : List Header} (invariant : world.Invariant config capacity)
    (accounted : world.Accounted) (reclaimed : world.Reclaimed)
    (queue : world.inner.messages = gone ++ next.inner.messages)
    (idle : ∀ header ∈ gone, header.readInProgress = false) : next.Reclaimed := by
  cases gone with
  | nil => exact reclaimed.of_head (by simp [queue])
  | cons front gone =>
      intro header header_mem
      rintro ⟨exhausted, _⟩
      have kept_mem : header ∈ next.inner.messages := List.mem_of_mem_head? header_mem
      have front_mem : front ∈ world.inner.messages := by simp [queue]
      have header_mem : header ∈ world.inner.messages := by simp [queue, kept_mem]
      have ordered : front.messageId < header.messageId := by
        have increasing := invariant.valid.increasing
        rw [queue, List.cons_append] at increasing
        exact (List.pairwise_cons.mp increasing).1 header (by simp [kept_mem])
      have grows := accounted.subscriberCount_le front_mem header_mem (Nat.le_of_lt ordered)
      apply reclaimed front (by simp [queue])
      exact ⟨by omega, idle front (by simp)⟩

theorem leave {reader : FrameSubscriber} (reclaimed : world.Reclaimed)
    (current : world.inner.startId ≤ reader.nextMessageId ∨ world.inner.messages = [])
    (queue : next.inner.messages = (world.inner.dropSubscriber reader).messages) :
    next.Reclaimed := by
  rcases world.inner.dropSubscriber_cases reader with ⟨_, messages⟩ | ⟨lagging, messages⟩
  · intro header header_mem
    rw [queue, messages, State.popExhausted] at header_mem
    have waiting := List.head?_dropWhile_not (fun header : Header => header.subscriberCount == 0)
      (world.inner.countOff reader)
    rw [header_mem] at waiting
    rintro ⟨exhausted, _⟩
    simp [exhausted] at waiting
  · rcases current with inQueue | empty
    · omega
    · apply reclaimed.of_head
      rw [queue, messages]

theorem transition {action : Action} (invariant : world.Invariant config capacity)
    (accounted : world.Accounted) (reclaimed : world.Reclaimed)
    (current : world.DropsCurrent action) (inOrder : world.ReleasesInOrder action)
    (transition : world.Transition next action) : next.Reclaimed := by
  cases transition with
  | quiet queue subscribers => exact reclaimed.of_head (by rw [queue])
  | subscribe queue subscribers => exact reclaimed.of_head (by rw [queue])
  | clear queue subscribers =>
      intro header header_mem
      simp [queue] at header_mem
  | evict gone queue idle subscribers => exact reclaimed.evict invariant accounted queue idle
  | commit grant used awaited queue subscribers =>
      rcases empty : world.inner.messages with _ | ⟨front, rest⟩
      · intro header header_mem
        simp only [queue, empty, List.nil_append, List.head?_cons, Option.mem_def,
          Option.some.injEq] at header_mem
        subst header_mem
        rintro ⟨exhausted, _⟩
        simp only [State.commitHeader] at exhausted
        omega
      · exact reclaimed.of_head (by simp [queue, empty])
  | catchUp reader live queue subscribers => exact reclaimed.of_head (by rw [queue])
  | read reader index header live found awaits queue subscribers =>
      apply reclaimed.of_set found queue
      intro _ exhausted
      simp [Header.exhausted, Header.startRead] at exhausted
  | pop grant front released queue sameId reading exhausted subscribers =>
      intro second second_mem
      apply inOrder grant released front (by simp [queue]) sameId exhausted second
      rw [queue, List.getElem?_cons_succ, ← List.head?_eq_getElem?]
      exact second_mem
  | flag index header found remains queue subscribers =>
      apply reclaimed.of_set found queue
      intro at_front exhausted
      have waiting := remains at_front
      simp only [Header.exhausted, Header.endRead] at exhausted
      omega
  | leave reader live queue subscribers => exact reclaimed.leave (current _ rfl reader live) queue

/-- Releasing the oldest frame when the one behind it is exhausted leaves that one at the front. -/
theorem inOrder_of_release {action : Action} (reclaimed : world.Reclaimed)
    (after : next.Reclaimed) (stepped : Pubsub.step config world action = some next) :
    world.ReleasesInOrder action := by
  intro grant released front front_mem sameId exhausted second second_mem
  rcases queue : world.inner.messages with _ | ⟨first, rest⟩
  · simp [queue] at front_mem
  · simp only [queue, List.getElem?_cons_zero, Option.mem_def, Option.some.injEq] at front_mem
    subst front_mem
    have reading : first.readInProgress = true := by
      by_contra idle
      exact reclaimed first (by simp [queue]) ⟨exhausted, by simpa using idle⟩
    have popped := messages_of_released released stepped
    rw [State.messages_releaseInner_front queue sameId reading exhausted] at popped
    apply after second
    rw [popped, List.head?_eq_getElem?]
    simpa [queue] using second_mem

end Reclaimed

/-- In a run in which no subscriber is dropped while it lags behind a queued frame, the front of
the queue is never exhausted exactly when no call releases the last read grant of the oldest frame
while the frame behind it is exhausted. -/
theorem always_reclaimed_iff {config : ChannelConfig} {capacity : ℕ} {actions : List Action}
    (current : Execution.Guarded (step config) World.DropsCurrent (World.new capacity) actions) :
    Execution.Always (step config) World.Reclaimed (World.new capacity) actions ↔
      Execution.Guarded (step config) World.ReleasesInOrder (World.new capacity) actions := by
  apply Execution.always_iff_guarded World.DropsCurrent
    (fun world => world.Invariant config capacity ∧ world.Accounted) World.Reclaimed
  · rintro state after action current ⟨invariant, accounted⟩ stepped
    refine ⟨invariant.step stepped, ?_⟩
    exact accounted.transition invariant current (transition_of_step invariant stepped)
  · rintro state after action current ⟨invariant, accounted⟩ reclaimed inOrder stepped
    exact reclaimed.transition invariant accounted current inOrder
      (transition_of_step invariant stepped)
  · rintro state after action _ reclaimed stepped after_reclaimed
    exact reclaimed.inOrder_of_release after_reclaimed stepped
  · intro state action impossible grant released
    cases action with
    | release reader =>
        change state.reader? reader = some grant at released
        simp [Pubsub.step, released] at impossible
    | dropReader reader =>
        rcases Option.filter_eq_some_iff.mp released with ⟨live, _⟩
        simp [Pubsub.step, live] at impossible
    | _ => simp [released?] at released
  · exact current
  · exact ⟨World.Invariant.new config capacity, Accounted.new capacity⟩
  · exact Reclaimed.new capacity

end World

/-- A subscriber holds the read grants of two frames and releases the older one first. -/
theorem always_reclaimed_iff_example :
    Execution.Always (step ⟨2, 1⟩) World.Reclaimed (World.new 8)
      [.publisher, .subscriber, .grant 4 none, .commit 0 4, .grant 4 none, .commit 1 4,
        .read 0 none, .read 0 none, .release 0, .release 1] :=
  (World.always_reclaimed_iff (by decide)).mpr (by decide)

/-- A subscriber holds the read grants of two frames and releases the newer one first: that frame
is left at the front of the queue, and the buffer stays full. -/
theorem not_reclaimed_after_release_out_of_order :
    ∃ world, runFrom ⟨2, 1⟩ 8 [.publisher, .subscriber, .grant 4 none, .commit 0 4,
        .grant 4 none, .commit 1 4, .read 0 none, .read 0 none, .release 1, .release 0] =
          some world ∧
      ¬world.Reclaimed := by
  refine ⟨_, rfl, ?_⟩
  intro reclaimed
  have exhausted := reclaimed ⟨4, 4, 1, 0, false, 0⟩ (by decide)
  exact absurd exhausted (by decide)

end Mqttrust.Pubsub
