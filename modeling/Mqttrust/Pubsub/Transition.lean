import Mqttrust.Pubsub.Invariant

/-!
# What a call does to the queue and the subscribers

Every call of the interface of a channel does one of a few things to the queue
of headers and to the live subscribers. They are listed here once, with the
conditions under which they happen, so that an invariant that relates the two is
proved by cases.
-/

namespace Mqttrust.Pubsub

namespace World

/-- The read grant that a call releases: dropping a grant releases it when it is set to do so. -/
def released? (world : World) : Action → Option FrameGrantR
  | .release reader => world.reader? reader
  | .dropReader reader => (world.reader? reader).filter FrameGrantR.autoRelease
  | _ => none

/-- What a call does to the queue and the subscribers. -/
inductive Transition (world next : World) : Action → Prop where
  | quiet {action : Action} (queue : next.inner.messages = world.inner.messages)
      (subscribers : next.subscribers = world.subscribers) : Transition world next action
  | subscribe (queue : next.inner.messages = world.inner.messages)
      (subscribers : next.subscribers =
        world.subscribers.insert ⟨world.inner.nextMessageId⟩) :
      Transition world next .subscriber
  | clear (queue : next.inner.messages = []) (subscribers : next.subscribers = world.subscribers) :
      Transition world next .clear
  | evict {maxSz : ℕ} (gone : List Header)
      (queue : world.inner.messages = gone ++ next.inner.messages)
      (idle : ∀ header ∈ gone, header.readInProgress = false)
      (subscribers : next.subscribers = world.subscribers) :
      Transition world next (.grantImmediate maxSz)
  | commit {action : Action} (grant : FrameGrantW) (used : ℕ)
      (awaited : 0 < world.inner.subscriberCount)
      (queue : next.inner.messages =
        world.inner.messages ++ [world.inner.commitHeader grant used])
      (subscribers : next.subscribers = world.subscribers) : Transition world next action
  | catchUp {subscriber : ℕ} {cx : Option Waker} (reader : FrameSubscriber)
      (live : world.subscribers.get? subscriber = some reader)
      (queue : next.inner.messages = world.inner.messages)
      (subscribers : next.subscribers =
        world.subscribers.replace subscriber (world.inner.catchUp reader)) :
      Transition world next (.read subscriber cx)
  | read {subscriber : ℕ} {cx : Option Waker} (reader : FrameSubscriber) (index : ℕ)
      (header : Header) (live : world.subscribers.get? subscriber = some reader)
      (found : world.inner.messages[index]? = some header)
      (awaits : header.messageId = (world.inner.catchUp reader).nextMessageId)
      (queue : next.inner.messages = world.inner.messages.set index header.startRead)
      (subscribers : next.subscribers =
        world.subscribers.replace subscriber ⟨header.messageId + 1⟩) :
      Transition world next (.read subscriber cx)
  | pop {action : Action} (grant : FrameGrantR) (front : Header)
      (released : world.released? action = some grant)
      (queue : world.inner.messages = front :: next.inner.messages)
      (sameId : front.messageId = grant.messageId) (reading : front.readInProgress = true)
      (exhausted : front.subscriberCount = 0)
      (subscribers : next.subscribers = world.subscribers) : Transition world next action
  | flag {action : Action} (index : ℕ) (header : Header)
      (found : world.inner.messages[index]? = some header)
      (remains : index = 0 → 0 < header.subscriberCount)
      (queue : next.inner.messages = world.inner.messages.set index header.endRead)
      (subscribers : next.subscribers = world.subscribers) : Transition world next action
  | leave {subscriber : ℕ} (reader : FrameSubscriber)
      (live : world.subscribers.get? subscriber = some reader)
      (queue : next.inner.messages = (world.inner.dropSubscriber reader).messages)
      (subscribers : next.subscribers = world.subscribers.remove subscriber) :
      Transition world next (.dropSubscriber subscriber)

variable {config : ChannelConfig} {capacity : ℕ} {world next : World}

@[simp]
theorem messages_addWriter (world : World) (inner : State) (result : Except Error FrameGrantW) :
    (world.addWriter inner result).inner.messages = inner.messages := by
  cases result <;> rfl

@[simp]
theorem subscribers_addWriter (world : World) (inner : State)
    (result : Except Error FrameGrantW) :
    (world.addWriter inner result).subscribers = world.subscribers := by
  cases result <;> rfl

theorem Transition.of_commit {action : Action} {writer : ℕ} {grant : FrameGrantW}
    (invariant : world.Invariant config capacity)
    (live : world.writers.get? writer = some grant) (used : ℕ) :
    Transition world (world.commit config writer grant used) action := by
  have writing := invariant.writer_writes writer grant live
  rcases State.commitInner_cases grant used writing (invariant.room writing) with
    ⟨_, committed⟩ | ⟨awaited, committed⟩
  · apply Transition.quiet
    · simp only [World.commit, committed]
    · simp only [World.commit]
  · apply Transition.commit grant used awaited
    · simp only [World.commit, committed]
    · simp only [World.commit]

theorem Transition.of_grantImmediate (world : World) (maxSz : ℕ) :
    Transition world (world.grantImmediate config maxSz) (.grantImmediate maxSz) := by
  rcases called : world.inner.grantImmediate config maxSz with ⟨inner, result⟩
  rcases State.grantImmediate_eq called with ⟨gone, kept, split, idle, outcome⟩
  have kept_eq : inner.messages = kept := by
    rcases outcome with ⟨rfl, _⟩ | granted
    · rfl
    · have same := State.messages_grantWithContext config
        { world.inner with messages := kept } maxSz none
      rw [granted] at same
      exact same
  apply Transition.evict gone
  · simp only [World.grantImmediate, called, messages_addWriter, kept_eq]
    exact split
  · exact idle
  · simp only [World.grantImmediate, called, subscribers_addWriter]

theorem Transition.of_read {subscriber : ℕ} {reader : FrameSubscriber}
    (invariant : world.Invariant config capacity)
    (live : world.subscribers.get? subscriber = some reader) (cx : Option Waker) :
    Transition world (world.read config subscriber reader cx) (.read subscriber cx) := by
  rcases called : world.inner.readWithContext config reader cx with ⟨inner, reader', result⟩
  simp only [World.read, called]
  cases result with
  | error error =>
      rcases State.readWithContext_eq_error called with ⟨rfl, rfl⟩
      exact Transition.catchUp reader live rfl rfl
  | ok grant =>
      rcases State.readWithContext_eq_ok called with
        ⟨index, header, found, _, index_eq, rfl, rfl, rfl⟩
      have awaits := invariant.messageId_of_read reader (index_eq ▸ found)
      refine Transition.read reader index header live found awaits rfl ?_
      simp only [awaits]

theorem Transition.of_release {action : Action} {reader : ℕ} {grant : FrameGrantR}
    (released : world.released? action = some grant) :
    Transition world (world.release reader grant) action := by
  rcases State.releaseInner_cases world.inner grant with
    same | ⟨front, rest, queue, sameId, reading, exhausted, popped⟩ |
      ⟨index, header, found, _, _, remains, flagged⟩
  · apply Transition.quiet
    · simp only [World.release, same]
    · rfl
  · refine Transition.pop grant front released ?_ sameId reading exhausted rfl
    simp only [World.release, popped, queue]
  · refine Transition.flag index header found remains ?_ rfl
    simp only [World.release, flagged]

theorem transition_of_step {action : Action} (invariant : world.Invariant config capacity)
    (stepped : Pubsub.step config world action = some next) : Transition world next action := by
  cases World.call_of_step stepped with
  | publisher =>
      unfold World.publisher
      split
      · exact Transition.quiet rfl rfl
      · exact Transition.quiet rfl rfl
  | dropPublisher =>
      exact Transition.quiet rfl rfl
  | subscriber =>
      unfold World.subscriber
      split
      · exact Transition.quiet rfl rfl
      · exact Transition.subscribe rfl rfl
  | clear =>
      exact Transition.clear rfl rfl
  | grant =>
      apply Transition.quiet
      · simp only [World.grant, messages_addWriter, State.messages_grantWithContext]
      · simp only [World.grant, subscribers_addWriter]
  | grantImmediate maxSz =>
      exact Transition.of_grantImmediate world maxSz
  | write | setPid | toCommit =>
      exact Transition.quiet rfl rfl
  | commit _ used _ live =>
      exact Transition.of_commit invariant live used
  | dropWriter _ grant live =>
      exact Transition.of_commit invariant live grant.toCommit
  | read _ cx _ live =>
      exact Transition.of_read invariant live cx
  | autoRelease | bufMut =>
      exact Transition.quiet rfl rfl
  | release _ _ live =>
      exact Transition.of_release live
  | dropReader _ _ live isAuto =>
      apply Transition.of_release
      simp only [released?, live, Option.filter_some, isAuto, if_true]
  | leakReader =>
      exact Transition.quiet rfl rfl
  | dropSubscriber _ reader live =>
      exact Transition.leave reader live rfl rfl

theorem messages_of_released {action : Action} {grant : FrameGrantR}
    (released : world.released? action = some grant)
    (stepped : Pubsub.step config world action = some next) :
    next.inner.messages = (world.inner.releaseInner grant).messages := by
  cases action with
  | release reader =>
      change world.reader? reader = some grant at released
      simp only [Pubsub.step, released, Option.bind_eq_bind, Option.bind_some,
        Option.some.injEq] at stepped
      subst stepped
      rfl
  | dropReader reader =>
      rcases Option.filter_eq_some_iff.mp released with ⟨live, isAuto⟩
      simp only [Pubsub.step, live, Option.bind_eq_bind, Option.bind_some,
        Option.some.injEq] at stepped
      subst stepped
      simp only [World.dropReader, isAuto, if_true]
      rfl
  | _ => simp [released?] at released

end World

end Mqttrust.Pubsub
