import Mqttrust.Pubsub.Channel

/-!
# The representation invariant of a channel

In every state that a channel can reach, the queued frames form a ring layout,
also together with the region of the outstanding write grant; the identifiers in
the queue are consecutive; at most one write grant is out; and the count in each
header is at least the number of live subscribers that have still to read the
frame. The count can be larger: a subscriber that lags behind the queue is not
counted off when it is dropped.

The queue only ever loses its oldest frames, keeps the identifier and the region
of each header, or grows by one frame, so preservation is stated for these three.
-/

namespace Mqttrust.Pubsub

/-- The part of a header that no operation changes. -/
def Header.key (header : Header) : ℕ × Region := (header.messageId, header.region)

@[simp]
theorem Header.key_decrement (header : Header) : header.decrement.key = header.key := rfl

@[simp]
theorem Header.key_startRead (header : Header) : header.startRead.key = header.key := rfl

@[simp]
theorem Header.key_endRead (header : Header) : header.endRead.key = header.key := rfl

namespace State

/-- The queue is laid out in the ring buffer and its identifiers are consecutive. -/
structure Valid (state : State) : Prop where
  layout : RingLayout state.capacity state.regions
  contiguous : ∀ index header, state.messages[index]? = some header →
    header.messageId + state.messages.length = state.nextMessageId + index

theorem regions_eq_map_key (state : State) :
    state.regions = (state.messages.map Header.key).map Prod.snd := by
  simp [regions, Header.key, Function.comp_def]

theorem map_key_set {messages : List Header} {index : ℕ} {old header : Header}
    (found : messages[index]? = some old) (same : header.key = old.key) :
    (messages.set index header).map Header.key = messages.map Header.key := by
  rw [List.map_set, same]
  rcases List.getElem?_eq_some_iff.mp found with ⟨inside, rfl⟩
  apply List.ext_getElem (by simp)
  intro position _ _
  by_cases here : index = position <;> simp [here]

/-- A queue that only lost some oldest headers has its regions among the old ones. -/
theorem regions_sublist {state next : State} {gone : List (ℕ × Region)}
    (keys : state.messages.map Header.key = gone ++ next.messages.map Header.key) :
    next.regions.Sublist state.regions := by
  rw [regions_eq_map_key, regions_eq_map_key, keys, List.map_append]
  exact List.sublist_append_right _ _

@[simp]
theorem map_key_countOff (state : State) (subscriber : FrameSubscriber) :
    (state.countOff subscriber).map Header.key = state.messages.map Header.key := by
  have unchanged : Header.key ∘ Header.decrement = Header.key := rfl
  simp only [countOff, List.map_append, List.map_map, unchanged]
  rw [← List.map_append, List.take_append_drop]

/-- A header of the queue after a subscriber was counted off is an old one, or an old one that the
subscriber had not read with the subscriber counted off. -/
theorem mem_countOff {state : State} {subscriber : FrameSubscriber} {header : Header} :
    header ∈ state.countOff subscriber →
      header ∈ state.messages ∨ ∃ index old, state.messages[index]? = some old ∧
        subscriber.nextMessageId - state.startId ≤ index ∧ header = old.decrement := by
  intro header_mem
  rcases List.mem_append.mp header_mem with read | unread
  · exact Or.inl (List.mem_of_mem_take read)
  · rcases List.mem_map.mp unread with ⟨old, old_mem, rfl⟩
    rcases List.getElem?_of_mem old_mem with ⟨offset, found⟩
    rw [List.getElem?_drop] at found
    exact Or.inr ⟨_, old, found, Nat.le_add_right _ _, rfl⟩

namespace Valid

variable {state next : State}

theorem of_keys (gone : List (ℕ × Region)) (valid : state.Valid)
    (capacity : next.capacity = state.capacity)
    (nextId : next.nextMessageId = state.nextMessageId)
    (keys : state.messages.map Header.key = gone ++ next.messages.map Header.key) :
    next.Valid := by
  refine ⟨capacity ▸ valid.layout.sublist (regions_sublist keys), ?_⟩
  intro index header found
  have lengths := congrArg List.length keys
  simp only [List.length_map, List.length_append] at lengths
  have key_found : (state.messages.map Header.key)[gone.length + index]? = some header.key := by
    rw [keys, List.getElem?_append_right (Nat.le_add_right _ _), Nat.add_sub_cancel_left,
      List.getElem?_map, found, Option.map_some]
  rw [List.getElem?_map, Option.map_eq_some_iff] at key_found
  rcases key_found with ⟨old, old_found, sameKey⟩
  have sameId : old.messageId = header.messageId := congrArg Prod.fst sameKey
  have := valid.contiguous _ old old_found
  omega

theorem length_le (valid : state.Valid) : state.messages.length ≤ state.nextMessageId := by
  rcases Nat.eq_zero_or_pos state.messages.length with empty | nonempty
  · omega
  · have := valid.contiguous 0 _ (List.getElem?_eq_getElem nonempty)
    omega

theorem messageId_eq (valid : state.Valid) {index : ℕ} {header : Header}
    (found : state.messages[index]? = some header) :
    header.messageId = state.startId + index := by
  have := valid.contiguous index header found
  have := valid.length_le
  simp only [startId]
  omega

theorem messageId_lt (valid : state.Valid) {header : Header}
    (header_mem : header ∈ state.messages) : header.messageId < state.nextMessageId := by
  rcases List.getElem?_of_mem header_mem with ⟨index, found⟩
  have := valid.contiguous index header found
  have := (List.getElem?_eq_some_iff.mp found).1
  omega

theorem eq_of_messageId_eq (valid : state.Valid) {index other : ℕ} {left right : Header}
    (left_found : state.messages[index]? = some left)
    (right_found : state.messages[other]? = some right) (same : left.messageId = right.messageId) :
    index = other := by
  have := valid.messageId_eq left_found
  have := valid.messageId_eq right_found
  omega

theorem increasing (valid : state.Valid) :
    state.messages.Pairwise (·.messageId < ·.messageId) := by
  rw [List.pairwise_iff_getElem]
  intro index other inside inside' before
  have := valid.messageId_eq (List.getElem?_eq_getElem inside)
  have := valid.messageId_eq (List.getElem?_eq_getElem inside')
  omega

theorem push (valid : state.Valid) {grant : FrameGrantW} {used : ℕ}
    (layout : RingLayout state.capacity (state.regions ++ [grant.region]))
    (capacity : next.capacity = state.capacity)
    (nextId : next.nextMessageId = state.nextMessageId + 1)
    (messages : next.messages = state.messages ++ [state.commitHeader grant used]) :
    next.Valid := by
  constructor
  · rw [capacity, regions, messages, List.map_append]
    refine layout.shorten_last ?_
    exact Nat.le_trans (Nat.mod_le _ _) (Nat.min_le_left _ _)
  · intro index header found
    rw [messages] at found
    rw [messages, nextId, List.length_append, List.length_singleton]
    rcases Nat.lt_or_ge index state.messages.length with old | new
    · rw [List.getElem?_append_left old] at found
      have := valid.contiguous index header found
      omega
    · rw [List.getElem?_append_right new, List.getElem?_singleton] at found
      split at found
      · rename_i at_end
        simp only [Option.some.injEq] at found
        subst found
        simp only [commitHeader]
        omega
      · simp at found

end Valid

end State

/-- The subscriber has still to read the message. -/
def FrameSubscriber.awaits (id : ℕ) (subscriber : FrameSubscriber) : Bool :=
  subscriber.nextMessageId ≤ id

/-- The invariant of a channel and its users. -/
structure World.Invariant (config : ChannelConfig) (capacity : ℕ) (world : World) : Prop where
  /-- The capacity is that of the buffer. -/
  fixed : world.inner.capacity = capacity
  /-- The queue is valid. -/
  valid : world.inner.Valid
  /-- The outstanding write grant lies in the layout behind the queue. -/
  writer_layout : ∀ writer grant, world.writers.get? writer = some grant →
    RingLayout world.inner.capacity (world.inner.regions ++ [grant.region])
  /-- A write grant is out only while a write is in progress. -/
  writer_writes : ∀ writer grant, world.writers.get? writer = some grant →
    world.inner.writeInProgress = true
  /-- At most one write grant is out. -/
  writer_unique : ∀ writer other grant grant', world.writers.get? writer = some grant →
    world.writers.get? other = some grant' → writer = other
  /-- While a write is in progress, its header fits into the deque. -/
  room : world.inner.writeInProgress = true →
    world.inner.messages.length < config.maxPubsubMessages
  /-- No subscriber is ahead of the channel. -/
  current : ∀ subscriber reader, world.subscribers.get? subscriber = some reader →
    reader.nextMessageId ≤ world.inner.nextMessageId
  /-- The channel counts its live subscribers. -/
  counted : world.inner.subscriberCount = world.subscribers.count fun _ => true
  /-- A header counts every live subscriber that has still to read its frame. -/
  awaited : ∀ header ∈ world.inner.messages,
    world.subscribers.count (FrameSubscriber.awaits header.messageId) ≤ header.subscriberCount

namespace World.Invariant

variable {config : ChannelConfig} {capacity : ℕ} {world next : World}

theorem new (config : ChannelConfig) (capacity : ℕ) :
    (World.new capacity).Invariant config capacity where
  fixed := rfl
  valid := ⟨RingLayout.nil capacity, by simp [World.new, State.new]⟩
  writer_layout := by simp [World.new]
  writer_writes := by simp [World.new]
  writer_unique := by simp [World.new]
  room := by simp [World.new, State.new]
  current := by simp [World.new]
  counted := rfl
  awaited := by simp [World.new, State.new]

/-- The invariant survives when the queue loses oldest headers and keeps the keys of the others,
as long as the subscribers are still accounted for. -/
theorem of_queue (gone : List (ℕ × Region)) (invariant : world.Invariant config capacity)
    (sameCapacity : next.inner.capacity = world.inner.capacity)
    (nextId : next.inner.nextMessageId = world.inner.nextMessageId)
    (writing : next.inner.writeInProgress = world.inner.writeInProgress)
    (writers : next.writers = world.writers)
    (keys : world.inner.messages.map Header.key = gone ++ next.inner.messages.map Header.key)
    (current : ∀ subscriber reader, next.subscribers.get? subscriber = some reader →
      reader.nextMessageId ≤ world.inner.nextMessageId)
    (counted : next.inner.subscriberCount = next.subscribers.count fun _ => true)
    (awaited : ∀ header ∈ next.inner.messages,
      next.subscribers.count (FrameSubscriber.awaits header.messageId) ≤
        header.subscriberCount) :
    next.Invariant config capacity where
  fixed := sameCapacity.trans invariant.fixed
  valid := invariant.valid.of_keys gone sameCapacity nextId keys
  writer_layout := by
    intro writer grant live
    rw [sameCapacity]
    refine (invariant.writer_layout writer grant (writers ▸ live)).sublist ?_
    exact (State.regions_sublist keys).append (List.Sublist.refl _)
  writer_writes := by
    intro writer grant live
    rw [writing]
    exact invariant.writer_writes writer grant (writers ▸ live)
  writer_unique := writers ▸ invariant.writer_unique
  room := by
    intro inProgress
    have lengths := congrArg List.length keys
    simp only [List.length_map, List.length_append] at lengths
    have := invariant.room (writing ▸ inProgress)
    omega
  current := nextId ▸ current
  counted := counted
  awaited := awaited

theorem removeOldest (gone : List Header) {kept : List Header} {inner : State}
    (invariant : world.Invariant config capacity) (split : world.inner.messages = gone ++ kept)
    (sameCapacity : inner.capacity = world.inner.capacity)
    (nextId : inner.nextMessageId = world.inner.nextMessageId)
    (writing : inner.writeInProgress = world.inner.writeInProgress)
    (subscribers : inner.subscriberCount = world.inner.subscriberCount)
    (messages : inner.messages = kept) :
    World.Invariant config capacity { world with inner := inner } := by
  refine invariant.of_queue (gone.map Header.key) sameCapacity nextId writing rfl ?_
    invariant.current (subscribers.trans invariant.counted) ?_
  · simp [messages, split]
  · intro header header_mem
    exact invariant.awaited header (by simp [split, ← messages, header_mem])

theorem addWriter {maxSz : ℕ} {cx : Option Waker} {inner : State}
    {result : Except Error FrameGrantW} (invariant : world.Invariant config capacity)
    (called : world.inner.grantWithContext config maxSz cx = (inner, result)) :
    (world.addWriter inner result).Invariant config capacity := by
  cases result with
  | error error =>
      have inner_eq := State.grantWithContext_eq_error called
      subst inner_eq
      exact invariant.of_queue [] rfl rfl rfl rfl rfl invariant.current
        invariant.counted invariant.awaited
  | ok grant =>
      rcases State.grantWithContext_eq_ok called with ⟨idle, fits, room, rfl, rfl⟩
      have none_out : ∀ writer grant, world.writers.get? writer ≠ some grant := by
        intro writer grant live
        have := invariant.writer_writes writer grant live
        simp [idle] at this
      have only_new : ∀ {writer : ℕ} {grant newest : FrameGrantW},
          (world.writers.insert newest).get? writer = some grant →
            writer = world.writers.next ∧ newest = grant := by
        intro writer grant newest live
        rw [Table.get?_insert] at live
        split at live
        · rename_i at_next
          exact ⟨at_next, by simpa using live⟩
        · exact absurd live (none_out writer grant)
      refine
        { fixed := invariant.fixed
          valid := invariant.valid.of_keys [] rfl rfl rfl
          writer_layout := ?_
          writer_writes := fun _ _ _ => rfl
          writer_unique := ?_
          room := fun _ => room
          current := invariant.current
          counted := invariant.counted
          awaited := invariant.awaited }
      · intro writer grant live
        rcases only_new live with ⟨_, rfl⟩
        exact State.ringLayout_newStart invariant.valid.layout fits
      · intro writer other grant grant' live live'
        rw [(only_new live).1, (only_new live').1]

theorem grant (invariant : world.Invariant config capacity) (maxSz : ℕ) (cx : Option Waker) :
    (world.grant config maxSz cx).Invariant config capacity :=
  invariant.addWriter rfl

theorem grantImmediate (invariant : world.Invariant config capacity) (maxSz : ℕ) :
    (world.grantImmediate config maxSz).Invariant config capacity := by
  rcases called : world.inner.grantImmediate config maxSz with ⟨inner, result⟩
  rcases State.grantImmediate_eq called with ⟨gone, kept, split, _, outcome⟩
  have evicted : World.Invariant config capacity
      { world with inner := { world.inner with messages := kept } } :=
    invariant.removeOldest gone split rfl rfl rfl rfl rfl
  have after : (world.addWriter inner result).Invariant config capacity := by
    rcases outcome with ⟨rfl, error, rfl⟩ | granted
    · exact evicted
    · exact evicted.addWriter granted
  have history : ∀ events, World.Invariant config capacity
      { world.addWriter inner result with history := events } := fun _ =>
    ⟨after.fixed, after.valid, after.writer_layout, after.writer_writes, after.writer_unique, after.room,
      after.current, after.counted, after.awaited⟩
  simp only [World.grantImmediate, called]
  exact history _

theorem commit {writer : ℕ} {grant : FrameGrantW} (invariant : world.Invariant config capacity)
    (live : world.writers.get? writer = some grant) (used : ℕ) :
    (world.commit config writer grant used).Invariant config capacity := by
  have none_left : ∀ {other : ℕ} {grant' : FrameGrantW},
      (world.writers.remove writer).get? other ≠ some grant' := by
    intro other grant' still
    rw [Table.get?_remove] at still
    split at still
    · simp at still
    · rename_i different
      exact different (invariant.writer_unique other writer grant' grant still live)
  have writing := invariant.writer_writes writer grant live
  rcases State.commitInner_cases grant used writing (invariant.room writing) with
    ⟨_, committed⟩ | ⟨_, committed⟩
  all_goals
    simp only [World.commit, committed]
    refine
      { fixed := invariant.fixed
        valid := ?_
        writer_layout := fun _ _ still => absurd still none_left
        writer_writes := fun _ _ still => absurd still none_left
        writer_unique := fun _ _ _ _ still => absurd still none_left
        room := by simp
        current := ?_
        counted := invariant.counted
        awaited := ?_ }
  · exact invariant.valid.of_keys [] rfl rfl rfl
  · exact invariant.current
  · exact invariant.awaited
  · exact invariant.valid.push (invariant.writer_layout writer grant live) rfl rfl rfl
  · intro subscriber reader reader_live
    exact Nat.le_succ_of_le (invariant.current subscriber reader reader_live)
  · intro header header_mem
    rcases List.mem_append.mp header_mem with old | newest
    · exact invariant.awaited header old
    · rw [List.mem_singleton] at newest
      subst newest
      simp only [State.commitHeader, invariant.counted]
      exact List.countP_mono_left fun slot _ _ => by cases slot <;> simp_all

theorem subscriber (invariant : world.Invariant config capacity) :
    (world.subscriber config).Invariant config capacity := by
  unfold World.subscriber
  split
  · exact invariant
  · refine invariant.of_queue [] rfl rfl rfl rfl rfl ?_ ?_ ?_
    · intro subscriber reader live
      rw [Table.get?_insert] at live
      split at live
      · simp only [Option.some.injEq] at live
        exact live ▸ Nat.le_refl _
      · exact invariant.current subscriber reader live
    · simp [Table.count_insert, invariant.counted]
    · intro header header_mem
      have := invariant.valid.messageId_lt header_mem
      have notAwaited :
          FrameSubscriber.awaits header.messageId ⟨world.inner.nextMessageId⟩ = false := by
        simp [FrameSubscriber.awaits, this]
      simpa [Table.count_insert, notAwaited] using invariant.awaited header header_mem

theorem startId_le_catchUp (state : State) (reader : FrameSubscriber) :
    state.startId ≤ (state.catchUp reader).nextMessageId := by
  unfold State.catchUp
  split
  · exact Nat.le_refl _
  · omega

theorem catchUp_le (invariant : world.Invariant config capacity) {subscriber : ℕ}
    {reader : FrameSubscriber} (live : world.subscribers.get? subscriber = some reader) :
    (world.inner.catchUp reader).nextMessageId ≤ world.inner.nextMessageId := by
  have := invariant.current subscriber reader live
  unfold State.catchUp
  split
  · exact Nat.sub_le _ _
  · exact this

/-- Catching up changes nothing about the queued frames that the subscriber has still to read. -/
theorem awaits_catchUp (invariant : world.Invariant config capacity) (reader : FrameSubscriber)
    {header : Header} (header_mem : header ∈ world.inner.messages) :
    FrameSubscriber.awaits header.messageId (world.inner.catchUp reader) =
      FrameSubscriber.awaits header.messageId reader := by
  rcases List.getElem?_of_mem header_mem with ⟨index, found⟩
  have := invariant.valid.messageId_eq found
  unfold State.catchUp
  split
  · simp only [FrameSubscriber.awaits, decide_eq_decide]
    omega
  · rfl

/-- The frame that a subscriber reads is the oldest queued one that it has still to read. -/
theorem messageId_of_read (invariant : world.Invariant config capacity) (reader : FrameSubscriber)
    {header : Header} (found : world.inner.messages[(world.inner.catchUp reader).nextMessageId -
      world.inner.startId]? = some header) :
    header.messageId = (world.inner.catchUp reader).nextMessageId := by
  have := invariant.valid.messageId_eq found
  have := startId_le_catchUp world.inner reader
  omega

/-- Reading keeps the invariant: the subscriber is counted off in the one header it reads. -/
theorem read {subscriber : ℕ} {reader : FrameSubscriber} (invariant : world.Invariant config capacity)
    (live : world.subscribers.get? subscriber = some reader) (cx : Option Waker) :
    (world.read config subscriber reader cx).Invariant config capacity := by
  rcases called : world.inner.readWithContext config reader cx with ⟨inner, reader', result⟩
  simp only [World.read, called]
  have caught := invariant.catchUp_le live
  cases result with
  | error error =>
      rcases State.readWithContext_eq_error called with ⟨rfl, rfl⟩
      refine invariant.of_queue [] rfl rfl rfl rfl rfl ?_ ?_ ?_
      · intro other reader' live'
        rw [Table.get?_replace live] at live'
        split at live'
        · simp only [Option.some.injEq] at live'
          exact live' ▸ caught
        · exact invariant.current other reader' live'
      · rw [Table.count_replace _ live]
        have := Table.count_pos_of_get? (fun _ => true) live rfl
        simp only [if_true, invariant.counted]
        omega
      · intro header header_mem
        have := invariant.awaited header header_mem
        rw [Table.count_replace _ live, invariant.awaits_catchUp reader header_mem]
        by_cases awaits : FrameSubscriber.awaits header.messageId reader = true
        · have := Table.count_pos_of_get? _ live awaits
          simp only [awaits, if_true]
          omega
        · simpa [awaits] using this
  | ok grant =>
      rcases State.readWithContext_eq_ok called with
        ⟨index, header, found, _, index_eq, rfl, rfl, rfl⟩
      have read_id : header.messageId = (world.inner.catchUp reader).nextMessageId :=
        invariant.messageId_of_read reader (index_eq ▸ found)
      refine invariant.of_queue [] rfl rfl rfl rfl ?_ ?_ ?_ ?_
      · exact (State.map_key_set found header.key_startRead).symm
      · intro other reader' live'
        rw [Table.get?_replace live] at live'
        split at live'
        · simp only [Option.some.injEq] at live'
          have := invariant.valid.messageId_lt (List.mem_of_getElem? found)
          subst live'
          simp only
          omega
        · exact invariant.current other reader' live'
      · rw [Table.count_replace _ live]
        have := Table.count_pos_of_get? (fun _ => true) live rfl
        simp only [if_true, invariant.counted]
        omega
      · intro other other_mem
        rcases List.getElem?_of_mem other_mem with ⟨position, other_found⟩
        rw [Table.count_replace _ live]
        rw [List.getElem?_set] at other_found
        split at other_found
        · split at other_found
          · simp only [Option.some.injEq] at other_found
            subst other_found
            have header_mem := List.mem_of_getElem? found
            have := invariant.awaited header header_mem
            have awaits : FrameSubscriber.awaits header.messageId reader = true := by
              rw [← invariant.awaits_catchUp reader header_mem]
              simp [FrameSubscriber.awaits, read_id]
            have done : FrameSubscriber.awaits header.messageId
                ⟨(world.inner.catchUp reader).nextMessageId + 1⟩ = false := by
              simp [FrameSubscriber.awaits, read_id]
            simp only [Header.startRead, Header.messageId_decrement,
              Header.subscriberCount_decrement, awaits, done, if_true, Bool.false_eq_true, if_false]
            omega
          · simp at other_found
        · rename_i elsewhere
          have other_mem := List.mem_of_getElem? other_found
          have := invariant.awaited other other_mem
          have other_id := invariant.valid.messageId_eq other_found
          have index_id := invariant.valid.messageId_eq found
          have same : FrameSubscriber.awaits other.messageId
              ⟨(world.inner.catchUp reader).nextMessageId + 1⟩ =
                FrameSubscriber.awaits other.messageId reader := by
            rw [← invariant.awaits_catchUp reader other_mem]
            simp only [FrameSubscriber.awaits, decide_eq_decide]
            omega
          rw [same]
          by_cases awaits : FrameSubscriber.awaits other.messageId reader = true
          · have := Table.count_pos_of_get? _ live awaits
            simp only [awaits, if_true]
            omega
          · simpa [awaits] using this

theorem endRead {index : ℕ} {header : Header} {inner : State} (invariant : world.Invariant config capacity)
    (found : world.inner.messages[index]? = some header)
    (sameCapacity : inner.capacity = world.inner.capacity)
    (nextId : inner.nextMessageId = world.inner.nextMessageId)
    (writing : inner.writeInProgress = world.inner.writeInProgress)
    (subscribers : inner.subscriberCount = world.inner.subscriberCount)
    (messages : inner.messages = world.inner.messages.set index header.endRead) :
    World.Invariant config capacity { world with inner := inner } := by
  refine invariant.of_queue [] sameCapacity nextId writing rfl ?_ invariant.current
    (subscribers.trans invariant.counted) ?_
  · rw [messages, State.map_key_set found header.key_endRead, List.nil_append]
  · intro other other_mem
    rw [messages] at other_mem
    rcases List.mem_or_eq_of_mem_set other_mem with old | rfl
    · exact invariant.awaited other old
    · exact invariant.awaited header (List.mem_of_getElem? found)

theorem releaseInner (invariant : world.Invariant config capacity) (grant : FrameGrantR) :
    World.Invariant config capacity { world with inner := world.inner.releaseInner grant } := by
  rcases State.releaseInner_cases world.inner grant with
    same | ⟨header, rest, queue, _, _, _, popped⟩ | ⟨index, header, found, _, _, _, flagged⟩
  · rw [same]
    exact invariant
  · rw [popped]
    exact invariant.removeOldest [header] queue rfl rfl rfl rfl rfl
  · rw [flagged]
    exact invariant.endRead found rfl rfl rfl rfl rfl

theorem release (invariant : world.Invariant config capacity) (reader : ℕ) (grant : FrameGrantR) :
    (world.release reader grant).Invariant config capacity := by
  have released := invariant.releaseInner grant
  exact ⟨released.fixed, released.valid, released.writer_layout, released.writer_writes, released.writer_unique,
    released.room, released.current, released.counted, released.awaited⟩

theorem awaited_countOff {subscriber : ℕ} {reader : FrameSubscriber}
    (invariant : world.Invariant config capacity)
    (live : world.subscribers.get? subscriber = some reader)
    (inQueue : world.inner.startId ≤ reader.nextMessageId) :
    ∀ header ∈ world.inner.countOff reader,
      (world.subscribers.remove subscriber).count (FrameSubscriber.awaits header.messageId) ≤
        header.subscriberCount := by
  intro header header_mem
  rw [Table.count_remove _ live]
  rcases State.mem_countOff header_mem with old | ⟨index, old, found, behind, rfl⟩
  · have := invariant.awaited header old
    omega
  · have := invariant.awaited old (List.mem_of_getElem? found)
    have := invariant.valid.messageId_eq found
    have awaits : FrameSubscriber.awaits old.messageId reader = true := by
      simp only [FrameSubscriber.awaits, decide_eq_true_eq]
      omega
    simp only [Header.messageId_decrement, Header.subscriberCount_decrement, awaits, if_true]
    omega

theorem dropSubscriber {subscriber : ℕ} {reader : FrameSubscriber}
    (invariant : world.Invariant config capacity)
    (live : world.subscribers.get? subscriber = some reader) :
    (world.dropSubscriber subscriber reader).Invariant config capacity := by
  rcases State.dropSubscriber_frame world.inner reader with
    ⟨sameCapacity, writing, nextId, _, subscribers⟩
  have others : ∀ other reader', (world.subscribers.remove subscriber).get? other = some reader' →
      reader'.nextMessageId ≤ world.inner.nextMessageId := by
    intro other reader' live'
    rw [Table.get?_remove] at live'
    split at live'
    · simp at live'
    · exact invariant.current other reader' live'
  have counted : (world.inner.dropSubscriber reader).subscriberCount =
      (world.subscribers.remove subscriber).count fun _ => true := by
    rw [subscribers, Table.count_remove _ live, invariant.counted, if_pos rfl]
  rcases State.dropSubscriber_cases world.inner reader with
    ⟨inQueue, messages⟩ | ⟨_, messages⟩
  · rcases State.exists_popped (world.inner.countOff reader) with ⟨popped, split, _⟩
    refine invariant.of_queue (popped.map Header.key) sameCapacity nextId writing rfl ?_ others
      counted ?_
    · change world.inner.messages.map Header.key =
        popped.map Header.key ++ (world.inner.dropSubscriber reader).messages.map Header.key
      rw [messages, ← List.map_append, ← split, State.map_key_countOff]
    · intro header header_mem
      change header ∈ (world.inner.dropSubscriber reader).messages at header_mem
      rw [messages] at header_mem
      refine invariant.awaited_countOff live inQueue header ?_
      rw [split]
      exact List.mem_append_right _ header_mem
  · refine invariant.of_queue [] sameCapacity nextId writing rfl ?_ others counted ?_
    · exact congrArg (List.map Header.key) messages.symm
    · intro header header_mem
      change header ∈ (world.inner.dropSubscriber reader).messages at header_mem
      rw [messages] at header_mem
      have := invariant.awaited header header_mem
      change (world.subscribers.remove subscriber).count _ ≤ _
      rw [Table.count_remove _ live]
      omega

theorem replaceWriter {writer : ℕ} {grant grant' : FrameGrantW} (invariant : world.Invariant config capacity)
    (live : world.writers.get? writer = some grant) (region : grant'.region = grant.region) :
    World.Invariant config capacity { world with writers := world.writers.replace writer grant' } := by
  have same : ∀ other newest, (world.writers.replace writer grant').get? other = some newest →
      ∃ old, world.writers.get? other = some old ∧ newest.region = old.region := by
    intro other newest found
    rw [Table.get?_replace live] at found
    split at found
    · rename_i here
      simp only [Option.some.injEq] at found
      exact ⟨grant, here ▸ live, found ▸ region⟩
    · exact ⟨newest, found, rfl⟩
  refine
    { fixed := invariant.fixed
      valid := invariant.valid
      writer_layout := ?_
      writer_writes := ?_
      writer_unique := ?_
      room := invariant.room
      current := invariant.current
      counted := invariant.counted
      awaited := invariant.awaited }
  · intro other newest found
    rcases same other newest found with ⟨old, old_found, region⟩
    exact region ▸ invariant.writer_layout other old old_found
  · intro other newest found
    rcases same other newest found with ⟨old, old_found, _⟩
    exact invariant.writer_writes other old old_found
  · intro left right newest newest' found found'
    rcases same left newest found with ⟨old, old_found, _⟩
    rcases same right newest' found' with ⟨old', old_found', _⟩
    exact invariant.writer_unique left right old old' old_found old_found'

/-- The bytes of the buffer, the read grants, the history and whether the publisher is taken are
not part of the invariant. -/
theorem of_eq (invariant : world.Invariant config capacity)
    (sameCapacity : next.inner.capacity = world.inner.capacity)
    (messages : next.inner.messages = world.inner.messages)
    (nextId : next.inner.nextMessageId = world.inner.nextMessageId)
    (writing : next.inner.writeInProgress = world.inner.writeInProgress)
    (subscriberCount : next.inner.subscriberCount = world.inner.subscriberCount)
    (writers : next.writers = world.writers) (subscribers : next.subscribers = world.subscribers) :
    next.Invariant config capacity := by
  refine invariant.of_queue [] sameCapacity nextId writing writers ?_ ?_ ?_ ?_
  · exact congrArg (List.map Header.key) messages.symm
  · exact subscribers ▸ invariant.current
  · rw [subscriberCount, subscribers, invariant.counted]
  · rw [messages, subscribers]
    exact invariant.awaited

theorem step {action : Action} (invariant : world.Invariant config capacity)
    (stepped : Pubsub.step config world action = some next) : next.Invariant config capacity := by
  cases World.call_of_step stepped with
  | publisher =>
      unfold World.publisher
      split
      · exact invariant
      · exact invariant.of_eq rfl rfl rfl rfl rfl rfl rfl
  | dropPublisher =>
      exact invariant.of_eq rfl rfl rfl rfl rfl rfl rfl
  | subscriber =>
      exact invariant.subscriber
  | clear =>
      exact invariant.removeOldest world.inner.messages (List.append_nil _).symm
        rfl rfl rfl rfl rfl
  | grant maxSz cx =>
      exact invariant.grant maxSz cx
  | grantImmediate maxSz =>
      exact invariant.grantImmediate maxSz
  | write =>
      exact invariant.of_eq rfl rfl rfl rfl rfl rfl rfl
  | setPid _ _ _ live | toCommit _ _ _ live =>
      exact invariant.replaceWriter live rfl
  | commit _ used _ live =>
      exact invariant.commit live used
  | dropWriter _ grant live =>
      exact invariant.commit live grant.toCommit
  | read _ cx _ live =>
      exact invariant.read live cx
  | autoRelease | bufMut =>
      exact invariant.of_eq rfl rfl rfl rfl rfl rfl rfl
  | release reader grant | dropReader reader grant =>
      exact invariant.release reader grant
  | leakReader =>
      exact invariant.of_eq rfl rfl rfl rfl rfl rfl rfl
  | dropSubscriber _ _ live =>
      exact invariant.dropSubscriber live

/-- The invariant holds in every state that a channel can reach. -/
theorem of_runFrom {actions : List Action}
    (reached : runFrom config capacity actions = some world) : world.Invariant config capacity :=
  Execution.invariant_of_run (World.Invariant config capacity) (fun invariant stepped => invariant.step stepped)
    (World.Invariant.new config capacity) reached

end World.Invariant

/-- In every state that a channel can reach the queued frames lie in the buffer and are pairwise
disjoint, the outstanding write grant lies in the buffer and meets no queued frame, the identifiers
of the queue are the last ones given out, and committing the grant finds room for its header. -/
theorem representation_of_runFrom {config : ChannelConfig} {capacity : ℕ} {actions : List Action}
    {world : World} (reached : runFrom config capacity actions = some world) :
    (∀ header ∈ world.inner.messages, header.start + header.len ≤ capacity) ∧
    world.inner.messages.Pairwise (fun older newer => older.region.Disjoint newer.region) ∧
    (∀ writer grant, world.writers.get? writer = some grant →
      grant.start + grant.len ≤ capacity ∧
        ∀ header ∈ world.inner.messages, grant.region.Disjoint header.region) ∧
    world.inner.messages.length ≤ world.inner.nextMessageId ∧
    (∀ index header, world.inner.messages[index]? = some header →
      header.messageId = world.inner.nextMessageId - world.inner.messages.length + index) ∧
    ∀ writer grant used, world.writers.get? writer = some grant →
      (world.inner.commitInner config grant used).2 ≠ .noRoom := by
  have invariant := World.Invariant.of_runFrom reached
  have fixed := invariant.fixed
  refine ⟨?_, ?_, ?_, invariant.valid.length_le, ?_, ?_⟩
  · intro header header_mem
    rw [← fixed]
    exact invariant.valid.layout.inBounds header.region (List.mem_map_of_mem header_mem)
  · exact List.pairwise_map.mp invariant.valid.layout.pairwise_disjoint
  · intro writer grant live
    have layout := invariant.writer_layout writer grant live
    have disjoint := (List.pairwise_append.mp layout.pairwise_disjoint).2.2
    constructor
    · rw [← fixed]
      exact layout.inBounds grant.region (by simp)
    · intro header header_mem
      apply Region.Disjoint.symm
      exact disjoint header.region (List.mem_map_of_mem header_mem) grant.region (by simp)
  · intro index header found
    exact invariant.valid.messageId_eq found
  · intro writer grant used live
    have writing := invariant.writer_writes writer grant live
    rcases State.commitInner_cases grant used writing (invariant.room writing) with
      ⟨_, committed⟩ | ⟨_, committed⟩
    · simp [committed]
    · simp [committed]

/-- A frame is queued behind an evicted one while a second write grant, which wraps around to the
start of the buffer, is out. -/
theorem representation_of_runFrom_example :
    ∃ world, runFrom ⟨3, 1⟩ 8 [.publisher, .subscriber, .grant 5 none, .commit 0 5, .grant 3 none,
        .commit 1 2, .grantImmediate 4] = some world ∧
      world.inner.messages = [⟨5, 2, 1, 1, false, 0⟩] ∧
      world.writers.get? 2 = some ⟨0, 4, 0, 0⟩ ∧
      world.inner.messages.Pairwise fun older newer => older.region.Disjoint newer.region := by
  rcases reached : runFrom ⟨3, 1⟩ 8 [.publisher, .subscriber, .grant 5 none, .commit 0 5,
    .grant 3 none, .commit 1 2, .grantImmediate 4] with _ | world
  · exact absurd reached (by decide)
  · refine ⟨world, rfl, ?_, ?_, (representation_of_runFrom reached).2.1⟩
    · cases reached
      decide
    · cases reached
      decide

end Mqttrust.Pubsub
