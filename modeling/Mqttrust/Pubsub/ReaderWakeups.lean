import Mqttrust.Pubsub.Effect

/-!
# The wake-ups of the subscribers

A subscriber whose read is refused registers its waker, and waits until the waker
is woken. A watch keeps for each subscriber the waker of its last refused read, as
long as the waker has not been woken. The registration of the channel loses a
waker only by waking it, so a waker has been woken once it is no longer registered.

A refused read stays refused until then. The first queued frame that the subscriber
awaits is missing or being read by another one. Commits and releases wake everybody;
evictions remove frames that nobody reads; a subscriber that is dropped removes
frames that nobody awaits.
-/

namespace Mqttrust.Pubsub

/-- The first frame of the queue that the subscriber awaits, if any, is being read. -/
def FrameSubscriber.Blocked (messages : List Header) (reader : FrameSubscriber) : Prop :=
  ∀ header ∈ messages.find? fun header => FrameSubscriber.awaits header.messageId reader,
    header.readInProgress = true

/-- The subscriber calls `read_with_context` and is refused. -/
def World.refuses (config : ChannelConfig) (world : World) (subscriber : ℕ) (cx : Option Waker) :
    Bool :=
  (world.subscribers.get? subscriber).any fun reader =>
    !(world.inner.readWithContext config reader cx).2.2.isOk

/-- A channel together with the subscribers that wait for a wake-up. -/
structure Watch where
  world : World
  /-- The waker of the last refused read of a subscriber, unless it was woken since. -/
  parked : ℕ → Option Waker

namespace Watch

/-- A new channel. -/
def new (capacity : ℕ) : Watch := ⟨World.new capacity, fun _ => none⟩

/-- The waker of the last refused read of a subscriber, this call included. -/
def registered (config : ChannelConfig) (watch : Watch) (action : Action) (subscriber : ℕ) :
    Option Waker :=
  match action with
  | .read reading (some waker) =>
      if reading = subscriber then
        if watch.world.refuses config reading (some waker) then some waker else none
      else watch.parked subscriber
  | _ => watch.parked subscriber

end Watch

/-- One call of the interface; a waker that is no longer registered was woken. -/
def watchStep (config : ChannelConfig) (watch : Watch) (action : Action) : Option Watch :=
  (step config watch.world action).map fun next =>
    { world := next
      parked := fun subscriber => (watch.registered config action subscriber).filter fun waker =>
        waker ∈ next.inner.wakers.subscribers }

/-- A run of a channel with the subscribers that wait for a wake-up. -/
abbrev watchRun (config : ChannelConfig) (capacity : ℕ) (actions : List Action) : Option Watch :=
  Execution.run (watchStep config) (Watch.new capacity) actions

variable {config : ChannelConfig} {capacity : ℕ}

namespace FrameSubscriber

variable {messages gone kept : List Header} {reader : FrameSubscriber}

/-- Removing frames that the subscriber does not await, or that nobody reads, unblocks nobody. -/
theorem Blocked.suffix (blocked : reader.Blocked (gone ++ kept))
    (idle : ∀ header ∈ gone, FrameSubscriber.awaits header.messageId reader = true →
      header.readInProgress = false) : reader.Blocked kept := by
  intro header found
  apply blocked
  rcases first : gone.find? (fun header => FrameSubscriber.awaits header.messageId reader)
    with _ | front
  · rw [List.find?_append, first, Option.none_or]
    exact found
  · have awaits : FrameSubscriber.awaits front.messageId reader = true :=
      List.find?_some (p := fun header : Header => FrameSubscriber.awaits header.messageId reader)
        first
    have front_idle := idle front (List.mem_of_find?_eq_some first) awaits
    have reading := blocked front (by rw [List.find?_append, first]; rfl)
    simp [front_idle] at reading

theorem blocked_cons (front : Header) (rest : List Header) :
    reader.Blocked (front :: rest) ↔
      if FrameSubscriber.awaits front.messageId reader then front.readInProgress = true
      else reader.Blocked rest := by
  rw [Blocked, List.find?_cons]
  cases FrameSubscriber.awaits front.messageId reader with
  | true => simp
  | false => rfl

/-- Reading a frame unblocks nobody. -/
theorem Blocked.startRead {index : ℕ} {header : Header} (blocked : reader.Blocked messages)
    (found : messages[index]? = some header) :
    reader.Blocked (messages.set index header.startRead) := by
  induction messages generalizing index with
  | nil => exact blocked
  | cons front rest ih =>
      rw [blocked_cons] at blocked
      cases index with
      | zero =>
          rw [List.getElem?_cons_zero, Option.some.injEq] at found
          subst found
          rw [List.set_cons_zero, blocked_cons]
          split
          · rfl
          · rename_i read
            have read : ¬FrameSubscriber.awaits front.messageId reader = true := read
            rw [if_neg read] at blocked
            exact blocked
      | succ index =>
          rw [List.getElem?_cons_succ] at found
          rw [List.set_cons_succ, blocked_cons]
          split
          · rename_i awaits
            rw [if_pos awaits] at blocked
            exact blocked
          · rename_i read
            rw [if_neg read] at blocked
            exact ih blocked found

/-- Counting a subscriber off unblocks nobody. -/
theorem Blocked.decrement {changed : List Header} (blocked : reader.Blocked messages)
    (same : changed.map (fun header => (header.messageId, header.readInProgress)) =
      messages.map fun header => (header.messageId, header.readInProgress)) :
    reader.Blocked changed := by
  induction messages generalizing changed with
  | nil =>
      rw [List.map_nil, List.map_eq_nil_iff] at same
      rw [same]
      exact blocked
  | cons front rest ih =>
      cases changed with
      | nil => simp at same
      | cons front' rest' =>
          simp only [List.map_cons, List.cons.injEq, Prod.mk.injEq] at same
          rcases same with ⟨⟨sameId, sameFlag⟩, same⟩
          rw [blocked_cons] at blocked ⊢
          rw [sameId, sameFlag]
          split
          · rename_i awaits
            rw [if_pos awaits] at blocked
            exact blocked
          · rename_i read
            rw [if_neg read] at blocked
            exact ih blocked same

end FrameSubscriber

namespace World

variable {world next : World} {subscriber : ℕ} {reader : FrameSubscriber}

/-- The frame that `read_with_context` looks up is the first one that the subscriber awaits. -/
theorem find?_awaits (invariant : world.Invariant config capacity) (reader : FrameSubscriber) :
    world.inner.messages.find? (fun header => FrameSubscriber.awaits header.messageId reader) =
      world.inner.messages[(world.inner.catchUp reader).nextMessageId -
        world.inner.startId]? := by
  have ordered := Invariant.startId_le_catchUp world.inner reader
  have caughtUp : (world.inner.catchUp reader).nextMessageId =
      max world.inner.startId reader.nextMessageId := by
    unfold State.catchUp
    split
    · rename_i lagging
      exact (Nat.max_eq_left (Nat.le_of_lt lagging)).symm
    · omega
  rcases found : world.inner.messages[(world.inner.catchUp reader).nextMessageId -
    world.inner.startId]? with _ | header
  · rw [List.find?_eq_none]
    intro header header_mem
    rcases List.getElem?_of_mem header_mem with ⟨index, present⟩
    have inside := (List.getElem?_eq_some_iff.mp present).1
    have outside := List.getElem?_eq_none_iff.mp found
    have header_id := invariant.valid.messageId_eq present
    simp only [FrameSubscriber.awaits, decide_eq_true_eq]
    omega
  · rw [List.find?_eq_some_iff_getElem]
    have header_id := invariant.valid.messageId_eq found
    rcases List.getElem?_eq_some_iff.mp found with ⟨inside, at_index⟩
    refine ⟨?_, _, inside, at_index, ?_⟩
    · simp only [FrameSubscriber.awaits, decide_eq_true_eq]
      omega
    · intro earlier before
      have earlier_id := invariant.valid.messageId_eq
        (List.getElem?_eq_getElem (Nat.lt_trans before inside))
      simp only [FrameSubscriber.awaits, Bool.not_eq_true', decide_eq_false_iff_not]
      omega

theorem blocked_iff (invariant : world.Invariant config capacity) (reader : FrameSubscriber)
    (cx : Option Waker) :
    reader.Blocked world.inner.messages ↔
      ∃ error, (world.inner.readWithContext config reader cx).2.2 = .error error := by
  rw [FrameSubscriber.Blocked, find?_awaits invariant]
  unfold State.readWithContext
  simp only
  rcases world.inner.messages[(world.inner.catchUp reader).nextMessageId -
    world.inner.startId]? with _ | header
  · simp
  · cases reading : header.readInProgress <;> simp [reading]

theorem blocked_of_refuses {cx : Option Waker} (invariant : world.Invariant config capacity)
    (live : world.subscribers.get? subscriber = some reader)
    (refused : world.refuses config subscriber cx = true) :
    reader.Blocked world.inner.messages := by
  rw [refuses, live, Option.any_some] at refused
  apply (blocked_iff invariant reader cx).mpr
  cases result : (world.inner.readWithContext config reader cx).2.2 with
  | error error => exact ⟨error, rfl⟩
  | ok grant => simp [result, Except.isOk, Except.toBool] at refused

/-- Catching up unblocks nobody. -/
theorem blocked_catchUp (invariant : world.Invariant config capacity) :
    (world.inner.catchUp reader).Blocked world.inner.messages ↔
      reader.Blocked world.inner.messages := by
  have again : world.inner.catchUp (world.inner.catchUp reader) = world.inner.catchUp reader := by
    have ordered := Invariant.startId_le_catchUp world.inner reader
    exact if_neg (Nat.not_lt_of_le ordered)
  rw [FrameSubscriber.Blocked, FrameSubscriber.Blocked, find?_awaits invariant,
    find?_awaits invariant, again]

/-- A subscriber that is dropped unblocks nobody. -/
theorem blocked_dropSubscriber {leaving : ℕ} {leaver : FrameSubscriber}
    (invariant : world.Invariant config capacity)
    (leaver_live : world.subscribers.get? leaving = some leaver)
    (live : (world.subscribers.remove leaving).get? subscriber = some reader)
    (blocked : reader.Blocked world.inner.messages) :
    reader.Blocked (world.inner.dropSubscriber leaver).messages := by
  rcases State.dropSubscriber_cases world.inner leaver with ⟨inQueue, messages⟩ | ⟨_, messages⟩
  · rw [messages]
    rcases State.exists_popped (world.inner.countOff leaver) with ⟨popped, split, exhausted⟩
    have counted : reader.Blocked (world.inner.countOff leaver) := by
      apply blocked.decrement
      have unchanged : (fun header : Header => (header.messageId, header.readInProgress)) ∘
          Header.decrement = fun header => (header.messageId, header.readInProgress) := rfl
      rw [State.countOff, List.map_append, List.map_map, unchanged, ← List.map_append,
        List.take_append_drop]
    rw [split] at counted
    apply counted.suffix
    intro header header_mem awaits
    have fewer := invariant.awaited_countOff leaver_live inQueue header
      (split ▸ List.mem_append_left _ header_mem)
    have positive := Table.count_pos_of_get? (FrameSubscriber.awaits header.messageId) live awaits
    have := exhausted header header_mem
    omega
  · rw [messages]
    exact blocked

/-- Handles of subscribers are not taken back. -/
theorem next_subscribers_le {action : Action} (invariant : world.Invariant config capacity)
    (stepped : step config world action = some next) :
    world.subscribers.next ≤ next.subscribers.next := by
  cases effect_of_step invariant stepped with
  | subscribe _ subscribers _ => simp [subscribers]
  | block _ _ _ _ _ subscribers _ => simp [subscribers]
  | read _ _ _ _ _ _ _ _ subscribers _ => simp [subscribers]
  | leave _ _ _ subscribers _ => simp [subscribers]
  | quiet _ _ subscribers _ => exact Nat.le_of_eq (congrArg Table.next subscribers.symm)
  | clear _ subscribers _ => exact Nat.le_of_eq (congrArg Table.next subscribers.symm)
  | refuse _ _ subscribers _ => exact Nat.le_of_eq (congrArg Table.next subscribers.symm)
  | grant _ _ subscribers _ => exact Nat.le_of_eq (congrArg Table.next subscribers.symm)
  | evict _ _ _ _ _ _ _ subscribers _ =>
      exact Nat.le_of_eq (congrArg Table.next subscribers.symm)
  | evictAndGrant _ _ _ _ _ _ subscribers _ =>
      exact Nat.le_of_eq (congrArg Table.next subscribers.symm)
  | discard _ _ _ _ _ subscribers _ => exact Nat.le_of_eq (congrArg Table.next subscribers.symm)
  | commit _ _ _ _ _ _ _ subscribers _ =>
      exact Nat.le_of_eq (congrArg Table.next subscribers.symm)
  | pop _ _ _ _ subscribers _ => exact Nat.le_of_eq (congrArg Table.next subscribers.symm)
  | flag _ _ _ _ subscribers _ => exact Nat.le_of_eq (congrArg Table.next subscribers.symm)

end World

namespace Watch

variable {watch next : Watch}

/-- The subscribers that wait for a wake-up are blocked. -/
structure Sound (config : ChannelConfig) (capacity : ℕ) (watch : Watch) : Prop where
  invariant : watch.world.Invariant config capacity
  known : ∀ subscriber, watch.parked subscriber ≠ none → subscriber < watch.world.subscribers.next
  blocked : ∀ subscriber reader, watch.world.subscribers.get? subscriber = some reader →
    watch.parked subscriber ≠ none → reader.Blocked watch.world.inner.messages

namespace Sound

theorem new (config : ChannelConfig) (capacity : ℕ) : (Watch.new capacity).Sound config capacity where
  invariant := .new config capacity
  known := by simp [Watch.new]
  blocked := by simp [Watch.new]

theorem blocked_of_registered {action : Action} {subscriber : ℕ} {reader : FrameSubscriber}
    (sound : watch.Sound config capacity)
    (live : watch.world.subscribers.get? subscriber = some reader)
    (registered : watch.registered config action subscriber ≠ none) :
    reader.Blocked watch.world.inner.messages := by
  have parked : watch.parked subscriber ≠ none → reader.Blocked watch.world.inner.messages :=
    sound.blocked subscriber reader live
  unfold Watch.registered at registered
  split at registered
  · rename_i reading waker
    split at registered
    · rename_i same
      subst same
      split at registered
      · rename_i refused
        exact World.blocked_of_refuses sound.invariant live refused
      · exact absurd rfl registered
    · exact parked registered
  · exact parked registered

theorem known_of_registered {action : Action} {subscriber : ℕ} (sound : watch.Sound config capacity)
    (registered : watch.registered config action subscriber ≠ none) :
    subscriber < watch.world.subscribers.next := by
  unfold Watch.registered at registered
  split at registered
  · rename_i reading waker
    split at registered
    · rename_i same
      subst same
      split at registered
      · rename_i refused
        rcases live : watch.world.subscribers.get? reading with _ | reader
        · simp [World.refuses, live] at refused
        · exact Table.lt_next_of_get? live
      · exact absurd rfl registered
    · exact sound.known subscriber registered
  · exact sound.known subscriber registered

theorem step {action : Action} (sound : watch.Sound config capacity)
    (stepped : watchStep config watch action = some next) : next.Sound config capacity := by
  rcases Option.map_eq_some_iff.mp stepped with ⟨world, called, watched⟩
  have world_eq : next.world = world := by rw [← watched]
  subst world_eq
  have parked : ∀ subscriber, next.parked subscriber ≠ none →
      watch.registered config action subscriber ≠ none ∧
        next.world.inner.wakers.subscribers ≠ [] := by
    intro subscriber waits
    rw [← watched] at waits
    rcases Option.ne_none_iff_exists'.mp waits with ⟨waker, kept⟩
    rcases Option.filter_eq_some_iff.mp kept with ⟨registered, still⟩
    have still : waker ∈ next.world.inner.wakers.subscribers := by simpa using still
    exact ⟨by simp [registered], List.ne_nil_of_mem still⟩
  have handles := World.next_subscribers_le sound.invariant called
  refine ⟨sound.invariant.step called, ?_, ?_⟩
  · intro subscriber waits
    exact Nat.lt_of_lt_of_le (sound.known_of_registered (parked subscriber waits).1) handles
  intro subscriber reader live waits
  rcases parked subscriber waits with ⟨registered, asleep⟩
  have was_blocked : ∀ old, watch.world.subscribers.get? subscriber = some old →
      old.Blocked watch.world.inner.messages :=
    fun old old_live => sound.blocked_of_registered old_live registered
  have still_blocked : next.world.subscribers = watch.world.subscribers →
      reader.Blocked watch.world.inner.messages := by
    intro subscribers
    rw [subscribers] at live
    exact was_blocked reader live
  have evicted : ∀ gone kept, watch.world.inner.messages = gone ++ kept →
      (∀ header ∈ gone, header.readInProgress = false) →
      next.world.subscribers = watch.world.subscribers → reader.Blocked kept := by
    intro gone kept split idle subscribers
    have blocked := still_blocked subscribers
    rw [split] at blocked
    exact blocked.suffix fun header header_mem _ => idle header header_mem
  cases World.effect_of_step sound.invariant called with
  | quiet taken inner subscribers _ =>
      rw [inner]
      exact still_blocked subscribers
  | subscribe inner subscribers _ =>
      have old := Nat.ne_of_lt (sound.known_of_registered registered)
      rw [subscribers, Table.get?_insert, if_neg old] at live
      rw [inner]
      exact was_blocked reader live
  | clear inner _ _ =>
      rw [inner]
      exact fun _ none_left => by simp [State.clear] at none_left
  | refuse _ inner subscribers _ =>
      rw [inner]
      exact still_blocked subscribers
  | grant _ inner subscribers _ =>
      rw [inner]
      exact still_blocked subscribers
  | evict gone kept split idle _ _ inner subscribers _ =>
      rw [inner]
      exact evicted gone kept split idle subscribers
  | evictAndGrant gone kept split idle _ inner subscribers _ =>
      rw [inner]
      exact evicted gone kept split idle subscribers
  | discard _ _ _ _ inner subscribers _ =>
      rw [inner]
      exact still_blocked subscribers
  | commit _ _ _ _ _ _ inner _ _ =>
      rw [inner] at asleep
      exact absurd rfl asleep
  | block other error other_live refused inner subscribers _ =>
      rw [subscribers, Table.get?_replace other_live] at live
      rw [inner]
      split at live
      · rcases Option.some.inj live with rfl
        apply (World.blocked_catchUp sound.invariant).mpr
        exact (World.blocked_iff sound.invariant other _).mpr ⟨error, refused⟩
      · exact was_blocked reader live
  | read other index header other_live found idle awaits inner subscribers _ =>
      rw [subscribers, Table.get?_replace other_live] at live
      rw [inner]
      split at live
      · rename_i same
        subst same
        have first : header.readInProgress = true := by
          apply was_blocked other other_live
          have header_id := sound.invariant.valid.messageId_eq found
          rw [World.find?_awaits sound.invariant, ← awaits, header_id, Nat.add_sub_cancel_left]
          exact found
        simp [idle] at first
      · exact (was_blocked reader live).startRead found
  | pop _ _ _ inner _ _ =>
      rw [inner] at asleep
      exact absurd rfl asleep
  | flag _ _ _ inner _ _ =>
      rw [inner] at asleep
      exact absurd rfl asleep
  | leave leaver leaver_live inner subscribers _ =>
      rw [subscribers] at live
      rw [inner]
      have still : watch.world.subscribers.get? subscriber = some reader := by
        rw [Table.get?_remove] at live
        split at live
        · simp at live
        · exact live
      exact World.blocked_dropSubscriber sound.invariant leaver_live live
        (was_blocked reader still)

theorem of_run {actions : List Action} (reached : watchRun config capacity actions = some watch) :
    watch.Sound config capacity :=
  Execution.invariant_of_run (Sound config capacity) (fun sound stepped => sound.step stepped)
    (new config capacity) reached

end Sound

/-- The watch changes nothing: its runs are those of the channel. -/
theorem map_world_watchRun (config : ChannelConfig) (capacity : ℕ) (actions : List Action) :
    (watchRun config capacity actions).map Watch.world = runFrom config capacity actions := by
  apply Execution.run_map
  intro watch action
  simp [watchStep, Function.comp_def]

end Watch

/-- No lost wake-up for readers: while the waker of a refused read has not been woken, another read
of the subscriber is refused, too. -/
theorem read_refused_of_parked {actions : List Action} {watch : Watch} {subscriber : ℕ}
    {reader : FrameSubscriber} {waker : Waker} (cx : Option Waker)
    (reached : watchRun config capacity actions = some watch)
    (live : watch.world.subscribers.get? subscriber = some reader)
    (asleep : watch.parked subscriber = some waker) :
    ∃ error, (watch.world.inner.readWithContext config reader cx).2.2 = .error error := by
  have sound := Watch.Sound.of_run reached
  apply (World.blocked_iff sound.invariant reader cx).mp
  exact sound.blocked subscriber reader live (by simp [asleep])

/-- The second subscriber waits for the frame that the first one is reading. -/
theorem read_refused_of_parked_example :
    ∃ watch, watchRun ⟨2, 2⟩ 8 [.publisher, .subscriber, .subscriber, .grant 4 none, .commit 0 4,
        .read 0 none, .read 1 (some 7), .grantImmediate 4] = some watch ∧
      watch.parked 1 = some 7 ∧
      ∃ error, (watch.world.inner.readWithContext ⟨2, 2⟩ ⟨0⟩ (some 7)).2.2 = .error error := by
  obtain ⟨watch, reached, live, asleep⟩ : ∃ watch, watchRun ⟨2, 2⟩ 8
      [.publisher, .subscriber, .subscriber, .grant 4 none, .commit 0 4, .read 0 none,
        .read 1 (some 7), .grantImmediate 4] = some watch ∧
      watch.world.subscribers.get? 1 = some ⟨0⟩ ∧ watch.parked 1 = some 7 :=
    ⟨_, rfl, by decide, by decide⟩
  exact ⟨watch, reached, asleep, read_refused_of_parked (some 7) reached live asleep⟩

end Mqttrust.Pubsub
