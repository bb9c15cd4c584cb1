import Mqttrust.Pubsub.Effect
import Mqttrust.Pubsub.Pipe

/-!
# Reading a pipe one frame at a time

The subscriber of a pipe may hold at most one read grant. Then the frame that it
reads is the oldest one, nobody has read the frames behind it, and a release makes
room: a read of a pipe that is not empty takes its oldest frame, and the release
removes it. So a pipe that nobody fills is emptied by as many reads and releases as
it has frames.
-/

namespace Mqttrust.Pubsub

/-- The subscriber has not read the frame. -/
def Header.Unread (header : Header) : Prop :=
  header.subscriberCount = 1 ∧ header.readInProgress = false

/-- What the publisher's side of a pipe does. -/
def Action.isPublishing : Action → Bool
  | .grant _ _ | .write _ _ _ | .setPid _ _ | .commit _ _ | .dropWriter _ => true
  | _ => false

namespace World

variable {config : ChannelConfig} {capacity : ℕ} {world next : World}

/-- While a write is in progress, its grant is out. -/
def WriterHolds (world : World) : Prop :=
  world.inner.writeInProgress = true →
    ∃ writer grant, world.writers.get? writer = some grant

/-- What the queue is like between two frames, and while one is read. -/
def Turn (world : World) : Option ℕ → Prop
  | none =>
      world.subscribers.get? 0 = some ⟨world.inner.startId⟩ ∧
        ∀ header ∈ world.inner.messages, header.Unread
  | some reader => ∃ front rest,
      world.readers.get? reader = some front.readGrant ∧
        world.inner.messages = front :: rest ∧ front.readInProgress = true ∧
        front.subscriberCount = 0 ∧ world.subscribers.get? 0 = some ⟨front.messageId + 1⟩ ∧
        ∀ header ∈ rest, header.Unread

/-- The subscriber of a pipe holds at most one read grant. -/
structure Turns (world : World) (reader : Option ℕ) : Prop where
  alone : world.inner.subscriberCount = 1
  only : ∀ handle grant, world.readers.get? handle = some grant → reader = some handle
  turn : world.Turn reader
  writerHolds : world.WriterHolds

/-- The publisher's side goes on: what it commits is added behind the queue. -/
structure Appends (world next : World) : Prop where
  readers : next.readers = world.readers
  subscribers : next.subscribers = world.subscribers
  count : next.inner.subscriberCount = world.inner.subscriberCount
  startId : next.inner.startId = world.inner.startId
  queue : ∃ added, next.inner.messages = world.inner.messages ++ added ∧
    ∀ header ∈ added, header.subscriberCount = world.inner.subscriberCount ∧
      header.readInProgress = false
  commits : commitsAfter 0 world.history <+: commitsAfter 0 next.history
  writerHolds : world.WriterHolds → next.WriterHolds

namespace Appends

theorem refl (world : World) : Appends world world where
  readers := rfl
  subscribers := rfl
  count := rfl
  startId := rfl
  queue := ⟨[], by simp, by simp⟩
  commits := List.prefix_rfl
  writerHolds := id

theorem trans {last : World} (first : Appends world next) (second : Appends next last) :
    Appends world last where
  readers := second.readers.trans first.readers
  subscribers := second.subscribers.trans first.subscribers
  count := second.count.trans first.count
  startId := second.startId.trans first.startId
  queue := by
    rcases first.queue with ⟨earlier, queue, earlier_unread⟩
    rcases second.queue with ⟨later, queue', later_unread⟩
    refine ⟨earlier ++ later, by rw [queue', queue, List.append_assoc], ?_⟩
    intro header header_mem
    rcases List.mem_append.mp header_mem with old | new
    · exact earlier_unread header old
    · exact first.count ▸ later_unread header new
  commits := first.commits.trans second.commits
  writerHolds := second.writerHolds ∘ first.writerHolds

/-- A step that leaves the queue alone. -/
theorem of_queue (readers : next.readers = world.readers)
    (subscribers : next.subscribers = world.subscribers)
    (count : next.inner.subscriberCount = world.inner.subscriberCount)
    (nextMessageId : next.inner.nextMessageId = world.inner.nextMessageId)
    (messages : next.inner.messages = world.inner.messages)
    (history : next.history = world.history)
    (writerHolds : world.WriterHolds → next.WriterHolds) : Appends world next where
  readers := readers
  subscribers := subscribers
  count := count
  startId := by rw [State.startId, State.startId, nextMessageId, messages]
  queue := ⟨[], by rw [messages, List.append_nil], by simp⟩
  commits := history ▸ List.prefix_rfl
  writerHolds := writerHolds

theorem of_commit (pipe : world.Pipe config capacity) {writer : ℕ} {grant : FrameGrantW}
    (live : world.writers.get? writer = some grant) (used : ℕ) :
    Appends world (world.commit config writer grant used) := by
  have invariant := pipe.once.invariant
  have writing := invariant.writer_writes writer grant live
  rcases State.commitInner_cases grant used writing (invariant.room writing) with
    ⟨noneLeft, _⟩ | ⟨_, committed⟩
  · rcases pipe.subscriber with ⟨subscriber, subscribed⟩
    have counted := Table.count_pos_of_get? (fun _ => true) subscribed rfl
    rw [← invariant.counted] at counted
    omega
  · constructor
    case queue =>
      refine ⟨[world.inner.commitHeader grant used], by simp [World.commit, committed], ?_⟩
      intro header header_mem
      rw [List.mem_singleton.mp header_mem]
      exact ⟨rfl, rfl⟩
    case startId =>
      simp only [World.commit, committed, State.startId, List.length_append, List.length_singleton]
      omega
    case commits => simp [World.commit, committed, commitEvents, commitsAfter]
    case writerHolds =>
      intro _ stillWriting
      simp [World.commit, committed] at stillWriting
    all_goals simp [World.commit, committed]

theorem of_step {action : Action} (pipe : world.Pipe config capacity)
    (isPublishing : action.isPublishing = true)
    (stepped : Pubsub.step config world action = some next) : Appends world next := by
  cases World.call_of_step stepped with
  | grant maxSz cx =>
      by_cases grants : world.inner.Grants config maxSz
      · have called := State.grantWithContext_of_grants grants cx
        simp only [World.grant, called, addWriter]
        exact of_queue rfl rfl rfl rfl rfl rfl
          fun _ _ => ⟨_, _, Table.get?_insert_next _ _⟩
      · rcases State.grantWithContext_of_not_grants grants cx with ⟨error, called⟩
        simp only [World.grant, called, addWriter]
        exact of_queue rfl rfl rfl rfl rfl rfl id
  | write => exact of_queue rfl rfl rfl rfl rfl rfl id
  | setPid writer pid grant live =>
      refine of_queue rfl rfl rfl rfl rfl rfl ?_
      intro holds writing
      rcases holds writing with ⟨other, held, other_live⟩
      by_cases same : other = writer
      case pos => exact ⟨writer, _, by rw [Table.get?_replace live, if_pos rfl]⟩
      case neg => exact ⟨other, held, by rw [Table.get?_replace live, if_neg same, other_live]⟩
  | commit writer used grant live => exact of_commit pipe live used
  | dropWriter writer grant live => exact of_commit pipe live grant.toCommit
  | _ => simp [Action.isPublishing] at isPublishing

/-- The publisher's side goes on for a while. -/
theorem of_run (small : capacity ≤ 65535) {actions : List Action}
    (pipe : world.Pipe config capacity)
    (publishing : ∀ action ∈ actions, action.isPublishing = true)
    (ran : Execution.run (Pubsub.step config) world actions = some next) :
    Appends world next := by
  induction actions generalizing world with
  | nil =>
      rcases Option.some.inj ran with rfl
      exact .refl world
  | cons action rest ih =>
      rcases Execution.run_cons_eq_some.mp ran with ⟨middle, stepped, continued⟩
      have isPublishing := publishing action List.mem_cons_self
      have isFlow : action.isFlow = true := by
        cases action <;> first | rfl | simp [Action.isPublishing] at isPublishing
      have later := ih (pipe.step small isFlow stepped)
        (fun later later_mem => publishing later (List.mem_cons_of_mem _ later_mem)) continued
      exact (of_step pipe isPublishing stepped).trans later

end Appends

namespace Turns

variable {reader : Option ℕ}

theorem new (subs : 0 < config.subs % 256) : (newPipe config capacity).Turns none := by
  rw [Pipe.newPipe_eq subs]
  exact ⟨rfl, by simp [World.new], ⟨rfl, by simp [State.new]⟩,
    by simp [WriterHolds, State.new]⟩

theorem appends (turns : world.Turns reader) (appends : Appends world next) :
    next.Turns reader where
  alone := appends.count.trans turns.alone
  only := by
    rw [appends.readers]
    exact turns.only
  turn := by
    rcases appends.queue with ⟨added, queue, added_unread⟩
    have unread : ∀ header ∈ added, header.Unread := by
      intro header header_mem
      rcases added_unread header header_mem with ⟨count, idle⟩
      exact ⟨count.trans turns.alone, idle⟩
    have turn := turns.turn
    cases reader with
    | none =>
        rcases turn with ⟨position, queue_unread⟩
        refine ⟨by rw [appends.subscribers, position, appends.startId], ?_⟩
        intro header header_mem
        rw [queue] at header_mem
        rcases List.mem_append.mp header_mem with old | new
        · exact queue_unread header old
        · exact unread header new
    | some reader =>
        rcases turn with ⟨front, rest, held, messages, reading, read, position, rest_unread⟩
        refine ⟨front, rest ++ added, appends.readers ▸ held, ?_, reading, read,
          appends.subscribers ▸ position, ?_⟩
        · rw [queue, messages, List.cons_append]
        · intro header header_mem
          rcases List.mem_append.mp header_mem with old | new
          · exact rest_unread header old
          · exact unread header new
  writerHolds := appends.writerHolds turns.writerHolds

/-- A read of an empty pipe waits. -/
theorem read_nil (turns : world.Turns none) (empty : world.inner.messages = [])
    {cx : Option Waker} (stepped : Pubsub.step config world (.read 0 cx) = some next) :
    next.Turns none ∧ next.readers = world.readers ∧ next.inner.messages = [] ∧
      next.inner.startId = world.inner.startId := by
  rcases turns.turn with ⟨position, unread⟩
  simp only [Pubsub.step, position, Option.bind_eq_bind, Option.bind_some,
    Option.some.injEq] at stepped
  have nothing : world.inner.readWithContext config ⟨world.inner.startId⟩ cx =
      ({ world.inner with wakers := world.inner.wakers.registerSubscriber config cx },
        ⟨world.inner.startId⟩, .error .insufficientSize) := by
    simp [State.readWithContext, State.catchUp, empty]
  simp only [World.read, nothing] at stepped
  subst stepped
  refine ⟨⟨turns.alone, turns.only, ⟨?_, by simp [empty]⟩, turns.writerHolds⟩, rfl, empty, rfl⟩
  rw [Table.get?_replace position, if_pos rfl]
  rfl

/-- A read of a pipe that is not empty takes its oldest frame. -/
theorem read_cons (invariant : world.Invariant config capacity) (turns : world.Turns none)
    {front : Header} {rest : List Header} (queue : world.inner.messages = front :: rest)
    {cx : Option Waker} (stepped : Pubsub.step config world (.read 0 cx) = some next) :
    next.Turns (some world.readers.next) ∧
      next.readers.get? world.readers.next = some front.readGrant ∧
      next.inner.messages = front.startRead :: rest ∧
      next.inner.startId = world.inner.startId := by
  rcases turns.turn with ⟨position, unread⟩
  simp only [Pubsub.step, position, Option.bind_eq_bind, Option.bind_some,
    Option.some.injEq] at stepped
  have isUnread := unread front (by simp [queue])
  have found : world.inner.messages[0]? = some front := by simp [queue]
  have isFirst : front.messageId = world.inner.startId := invariant.valid.messageId_eq found
  have taken : world.inner.readWithContext config ⟨world.inner.startId⟩ cx =
      ({ world.inner with messages := front.startRead :: rest },
        ⟨world.inner.startId + 1⟩, .ok front.readGrant) := by
    simp [State.readWithContext, State.catchUp, queue, isUnread.2]
  simp only [World.read, taken] at stepped
  subst stepped
  have held : (world.readers.insert front.readGrant).get? world.readers.next =
      some front.readGrant := Table.get?_insert_next _ _
  refine ⟨⟨turns.alone, ?_, ?_, turns.writerHolds⟩, held, rfl,
    by simp [State.startId, queue]⟩
  · intro handle grant live
    rw [Table.get?_insert] at live
    split at live
    · rename_i same
      rw [same]
    · have nobody := turns.only handle grant live
      simp at nobody
  · refine ⟨front.startRead, rest, held, rfl, rfl, ?_, ?_, ?_⟩
    · simp [Header.startRead, isUnread.1]
    · rw [Table.get?_replace position, if_pos rfl, ← isFirst]
      rfl
    · intro header header_mem
      exact unread header (by simp [queue, header_mem])

/-- The frame that is read is removed when its grant is released or dropped. -/
theorem release (pipe : world.Pipe config capacity) {handle : ℕ}
    (turns : world.Turns (some handle)) {action : Action}
    (isRelease : action = .release handle ∨ action = .dropReader handle) :
    ∃ next, Pubsub.step config world action = some next ∧ next.Turns none ∧
      next.inner.messages = world.inner.messages.tail ∧
      next.inner.startId = world.inner.startId + 1 := by
  rcases turns.turn with ⟨front, rest, held, queue, reading, read, position, unread⟩
  have live : world.reader? handle = some front.readGrant := by
    simp [World.reader?, pipe.leaked, held]
  have released : Pubsub.step config world action =
      some (world.release handle front.readGrant) := by
    rcases isRelease with rfl | rfl
    · simp [Pubsub.step, live]
    · simp [Pubsub.step, live, World.dropReader, Header.readGrant]
  have valid := pipe.once.invariant.valid
  have found : world.inner.messages[0]? = some front := by simp [queue]
  have isFirst : front.messageId = world.inner.startId := valid.messageId_eq found
  have inner : world.inner.releaseInner front.readGrant =
      { world.inner with
        messages := rest
        wakers := world.inner.wakers.wakePublisher.wakeSubscribers } := by
    simp [State.releaseInner, queue, List.findIdx?_cons, reading, read]
  have length := valid.length_le
  rw [queue, List.length_cons] at length
  refine ⟨_, released, ⟨?_, ?_, ⟨?_, ?_⟩, ?_⟩, ?_, ?_⟩
  · simp only [World.release, inner, turns.alone]
  · intro other grant other_live
    simp only [World.release, Table.get?_remove] at other_live
    split at other_live
    · simp at other_live
    · rename_i others
      have same := turns.only other grant other_live
      exact absurd (Option.some.inj same).symm others
  · simp only [World.release, inner, position, isFirst, State.startId, queue, List.length_cons]
    congr 2
    omega
  · simpa [World.release, inner] using unread
  · simpa [World.WriterHolds, World.release, inner] using turns.writerHolds
  · simp [World.release, inner, queue]
  · simp only [World.release, inner, State.startId, queue, List.length_cons]
    omega

end Turns

end World

end Mqttrust.Pubsub
