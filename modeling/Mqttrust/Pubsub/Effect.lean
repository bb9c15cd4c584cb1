import Mqttrust.Pubsub.Eviction

/-!
# The effects of the calls

What a call of the interface of a channel does to the state of the channel, to its
subscribers and to the outstanding write grants. Every call has one of these
effects; an invariant about wakers, room or write grants is proved by cases.
-/

namespace Mqttrust.Pubsub

namespace State

/-- A subscriber that is dropped removes some oldest frames. -/
theorem exists_dropped (state : State) (reader : FrameSubscriber) :
    ∃ gone, state.messages.map Header.key =
      gone ++ (state.dropSubscriber reader).messages.map Header.key := by
  rcases dropSubscriber_cases state reader with ⟨_, messages⟩ | ⟨_, messages⟩
  · rcases exists_popped (state.countOff reader) with ⟨popped, split, _⟩
    refine ⟨popped.map Header.key, ?_⟩
    rw [messages, ← List.map_append, ← split, map_key_countOff]
  · exact ⟨[], by rw [messages, List.nil_append]⟩

end State

namespace World

/-- The outstanding write grants are the same, and so are their regions. -/
def SameWriters (world next : World) : Prop :=
  ∀ writer, (next.writers.get? writer).map FrameGrantW.region =
    (world.writers.get? writer).map FrameGrantW.region

/-- A call that commits a part of a write grant. -/
def Commits (world : World) (writer used : ℕ) (action : Action) : Prop :=
  action = .commit writer used ∨
    action = .dropWriter writer ∧ ∀ grant ∈ world.writers.get? writer, used = grant.toCommit

/-- What a call does. -/
inductive Effect (config : ChannelConfig) (world next : World) : Action → Prop where
  | quiet {action : Action} (taken : Bool)
      (inner : next.inner = { world.inner with publisherTaken := taken })
      (subscribers : next.subscribers = world.subscribers) (writers : world.SameWriters next) :
      Effect config world next action
  | subscribe
      (inner : next.inner =
        { world.inner with subscriberCount := world.inner.subscriberCount + 1 })
      (subscribers : next.subscribers = world.subscribers.insert ⟨world.inner.nextMessageId⟩)
      (writers : next.writers = world.writers) : Effect config world next .subscriber
  | clear (inner : next.inner = world.inner.clear)
      (subscribers : next.subscribers = world.subscribers)
      (writers : next.writers = world.writers) : Effect config world next .clear
  | refuse {maxSz : ℕ} {cx : Option Waker} (refused : ¬world.inner.Grants config maxSz)
      (inner : next.inner =
        { world.inner with wakers := world.inner.wakers.registerPublisher cx })
      (subscribers : next.subscribers = world.subscribers)
      (writers : next.writers = world.writers) : Effect config world next (.grant maxSz cx)
  | grant {maxSz : ℕ} {cx : Option Waker} (grants : world.inner.Grants config maxSz)
      (inner : next.inner = { world.inner with writeInProgress := true })
      (subscribers : next.subscribers = world.subscribers)
      (writers : next.writers = world.writers.insert ⟨world.inner.newStart maxSz, maxSz, 0, 0⟩) :
      Effect config world next (.grant maxSz cx)
  | evict {maxSz : ℕ} (gone kept : List Header) (split : world.inner.messages = gone ++ kept)
      (idle : ∀ header ∈ gone, header.readInProgress = false)
      (evicted : kept = (world.inner.evict config maxSz world.inner.messages).1)
      (refused : ¬State.Grants config { world.inner with messages := kept } maxSz)
      (inner : next.inner = { world.inner with messages := kept })
      (subscribers : next.subscribers = world.subscribers)
      (writers : next.writers = world.writers) :
      Effect config world next (.grantImmediate maxSz)
  | evictAndGrant {maxSz : ℕ} (gone kept : List Header)
      (split : world.inner.messages = gone ++ kept)
      (idle : ∀ header ∈ gone, header.readInProgress = false)
      (grants : State.Grants config { world.inner with messages := kept } maxSz)
      (inner : next.inner = { world.inner with messages := kept, writeInProgress := true })
      (subscribers : next.subscribers = world.subscribers)
      (writers : next.writers = world.writers.insert
        ⟨State.newStart { world.inner with messages := kept } maxSz, maxSz, 0, 0⟩) :
      Effect config world next (.grantImmediate maxSz)
  | discard {action : Action} (writer used : ℕ) (commits : world.Commits writer used action)
      (noneLeft : world.inner.subscriberCount = 0)
      (inner : next.inner = { world.inner with writeInProgress := false })
      (subscribers : next.subscribers = world.subscribers)
      (writers : next.writers = world.writers.remove writer) : Effect config world next action
  | commit {action : Action} (writer used : ℕ) (grant : FrameGrantW)
      (commits : world.Commits writer used action)
      (live : world.writers.get? writer = some grant)
      (someLeft : 0 < world.inner.subscriberCount)
      (inner : next.inner =
        { world.inner with
          messages := world.inner.messages ++ [world.inner.commitHeader grant used]
          nextMessageId := world.inner.nextMessageId + 1
          writeInProgress := false
          wakers := world.inner.wakers.wakeSubscribers })
      (subscribers : next.subscribers = world.subscribers)
      (writers : next.writers = world.writers.remove writer) : Effect config world next action
  | block {subscriber : ℕ} {cx : Option Waker} (reader : FrameSubscriber) (error : Error)
      (live : world.subscribers.get? subscriber = some reader)
      (refused : (world.inner.readWithContext config reader cx).2.2 = .error error)
      (inner : next.inner =
        { world.inner with wakers := world.inner.wakers.registerSubscriber config cx })
      (subscribers : next.subscribers =
        world.subscribers.replace subscriber (world.inner.catchUp reader))
      (writers : next.writers = world.writers) : Effect config world next (.read subscriber cx)
  | read {subscriber : ℕ} {cx : Option Waker} (reader : FrameSubscriber) (index : ℕ)
      (header : Header) (live : world.subscribers.get? subscriber = some reader)
      (found : world.inner.messages[index]? = some header)
      (idle : header.readInProgress = false)
      (awaits : header.messageId = (world.inner.catchUp reader).nextMessageId)
      (inner : next.inner =
        { world.inner with messages := world.inner.messages.set index header.startRead })
      (subscribers : next.subscribers =
        world.subscribers.replace subscriber ⟨header.messageId + 1⟩)
      (writers : next.writers = world.writers) : Effect config world next (.read subscriber cx)
  | pop {action : Action} (front : Header) (rest : List Header)
      (queue : world.inner.messages = front :: rest)
      (inner : next.inner =
        { world.inner with
          messages := rest
          wakers := world.inner.wakers.wakePublisher.wakeSubscribers })
      (subscribers : next.subscribers = world.subscribers)
      (writers : next.writers = world.writers) : Effect config world next action
  | flag {action : Action} (index : ℕ) (header : Header)
      (found : world.inner.messages[index]? = some header)
      (inner : next.inner =
        { world.inner with
          messages := world.inner.messages.set index header.endRead
          wakers := world.inner.wakers.wakeSubscribers })
      (subscribers : next.subscribers = world.subscribers)
      (writers : next.writers = world.writers) : Effect config world next action
  | leave {subscriber : ℕ} (reader : FrameSubscriber)
      (live : world.subscribers.get? subscriber = some reader)
      (inner : next.inner = world.inner.dropSubscriber reader)
      (subscribers : next.subscribers = world.subscribers.remove subscriber)
      (writers : next.writers = world.writers) :
      Effect config world next (.dropSubscriber subscriber)

variable {config : ChannelConfig} {capacity : ℕ} {world next : World}

theorem SameWriters.of_eq (writers : next.writers = world.writers) : world.SameWriters next :=
  fun _ => by rw [writers]

theorem SameWriters.of_replace {writer : ℕ} {grant grant' : FrameGrantW}
    (live : world.writers.get? writer = some grant) (region : grant'.region = grant.region)
    (writers : next.writers = world.writers.replace writer grant') : world.SameWriters next := by
  intro other
  rw [writers, Table.get?_replace live]
  split
  · rename_i here
    rw [here, live, Option.map_some, Option.map_some, region]
  · rfl

theorem SameWriters.exists_old (same : world.SameWriters next) {writer : ℕ} {grant : FrameGrantW}
    (live : next.writers.get? writer = some grant) :
    ∃ old, world.writers.get? writer = some old ∧ old.region = grant.region := by
  have regions := same writer
  rw [live, Option.map_some] at regions
  exact Option.map_eq_some_iff.mp regions.symm

namespace Effect

theorem of_grant (world : World) (maxSz : ℕ) (cx : Option Waker) :
    Effect config world (world.grant config maxSz cx) (.grant maxSz cx) := by
  by_cases grants : world.inner.Grants config maxSz
  · have called := State.grantWithContext_of_grants grants cx
    apply Effect.grant grants
    all_goals simp only [World.grant, called, addWriter]
  · rcases State.grantWithContext_of_not_grants grants cx with ⟨error, called⟩
    apply Effect.refuse grants
    all_goals simp only [World.grant, called, addWriter]

theorem of_grantImmediate (world : World) (maxSz : ℕ) :
    Effect config world (world.grantImmediate config maxSz) (.grantImmediate maxSz) := by
  rcases State.exists_evicted config world.inner maxSz world.inner.messages with
    ⟨gone, split_eq, idle⟩
  by_cases grants : State.Grants config
      { world.inner with
        messages := (world.inner.evict config maxSz world.inner.messages).1 } maxSz
  · have called := State.grantImmediate_of_grants grants
    rw [State.grantWithContext_of_grants grants] at called
    apply Effect.evictAndGrant gone _ split_eq idle grants
    all_goals simp only [World.grantImmediate, called, addWriter]
  · rcases State.grantImmediate_of_not_grants grants with ⟨error, called⟩
    apply Effect.evict gone _ split_eq idle rfl grants
    all_goals simp only [World.grantImmediate, called, addWriter]

theorem of_commit {action : Action} {writer used : ℕ} {grant : FrameGrantW}
    (invariant : world.Invariant config capacity)
    (live : world.writers.get? writer = some grant) (commits : world.Commits writer used action) :
    Effect config world (world.commit config writer grant used) action := by
  have writing := invariant.writer_writes writer grant live
  rcases State.commitInner_cases grant used writing (invariant.room writing) with
    ⟨noneLeft, committed⟩ | ⟨someLeft, committed⟩
  · apply Effect.discard writer used commits noneLeft
    all_goals simp only [World.commit, committed]
  · apply Effect.commit writer used grant commits live someLeft
    all_goals simp only [World.commit, committed]

theorem of_read {subscriber : ℕ} {reader : FrameSubscriber}
    (invariant : world.Invariant config capacity)
    (live : world.subscribers.get? subscriber = some reader) (cx : Option Waker) :
    Effect config world (world.read config subscriber reader cx) (.read subscriber cx) := by
  rcases called : world.inner.readWithContext config reader cx with ⟨inner, reader', result⟩
  simp only [World.read, called]
  cases result with
  | error error =>
      rcases State.readWithContext_eq_error called with ⟨rfl, rfl⟩
      exact Effect.block reader error live (by rw [called]) rfl rfl rfl
  | ok grant =>
      rcases State.readWithContext_eq_ok called with
        ⟨index, header, found, idle, index_eq, rfl, rfl, rfl⟩
      have awaits := invariant.messageId_of_read reader (index_eq ▸ found)
      refine Effect.read reader index header live found idle awaits rfl ?_ rfl
      simp only [awaits]

theorem of_release {action : Action} (world : World) (reader : ℕ) (grant : FrameGrantR) :
    Effect config world (world.release reader grant) action := by
  rcases State.releaseInner_cases world.inner grant with
    same | ⟨front, rest, queue, _, _, _, popped⟩ | ⟨index, header, found, _, _, _, flagged⟩
  · refine Effect.quiet world.inner.publisherTaken ?_ rfl (.of_eq rfl)
    simp only [World.release, same]
  · refine Effect.pop front rest queue ?_ rfl rfl
    simp only [World.release, popped]
  · refine Effect.flag index header found ?_ rfl rfl
    simp only [World.release, flagged]

end Effect

theorem effect_of_step {action : Action} (invariant : world.Invariant config capacity)
    (stepped : Pubsub.step config world action = some next) : Effect config world next action := by
  cases World.call_of_step stepped with
  | publisher =>
      unfold World.publisher
      split
      · exact .quiet world.inner.publisherTaken rfl rfl (.of_eq rfl)
      · exact .quiet true rfl rfl (.of_eq rfl)
  | dropPublisher =>
      exact .quiet false rfl rfl (.of_eq rfl)
  | subscriber =>
      unfold World.subscriber
      split
      · exact .quiet world.inner.publisherTaken rfl rfl (.of_eq rfl)
      · exact .subscribe rfl rfl rfl
  | clear =>
      exact .clear rfl rfl rfl
  | grant maxSz cx =>
      exact .of_grant world maxSz cx
  | grantImmediate maxSz =>
      exact .of_grantImmediate world maxSz
  | write =>
      exact .quiet world.inner.publisherTaken rfl rfl (.of_eq rfl)
  | setPid _ pid grant live =>
      have region : ({ grant with pid := pid } : FrameGrantW).region = grant.region := rfl
      exact .quiet world.inner.publisherTaken rfl rfl (.of_replace live region rfl)
  | toCommit _ amt grant live =>
      have region : ({ grant with toCommit := amt } : FrameGrantW).region = grant.region := rfl
      exact .quiet world.inner.publisherTaken rfl rfl (.of_replace live region rfl)
  | commit _ _ _ live =>
      exact .of_commit invariant live (.inl rfl)
  | dropWriter _ _ live =>
      exact .of_commit invariant live (.inr ⟨rfl, by simp [live]⟩)
  | read _ cx _ live =>
      exact .of_read invariant live cx
  | autoRelease | bufMut =>
      exact .quiet world.inner.publisherTaken rfl rfl (.of_eq rfl)
  | release reader grant | dropReader reader grant =>
      exact .of_release world reader grant
  | leakReader =>
      exact .quiet world.inner.publisherTaken rfl rfl (.of_eq rfl)
  | dropSubscriber _ reader live =>
      exact .leave reader live rfl rfl rfl

end World

end Mqttrust.Pubsub
