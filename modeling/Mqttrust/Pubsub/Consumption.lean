import Mqttrust.Pubsub.Handover
import Mqttrust.Pubsub.ReaderWakeups

/-!
# What the subscribers of a channel consume

The stack publishes to a channel without reading from it, and a subscriber reads
from it without publishing. A read is refused, or it hands out the frame that it
delivers. Everything that was committed since a subscriber was created is at the
end of what was handed to the channel.
-/

namespace Mqttrust.Pubsub

/-- Whether a call of the interface of a channel is one that the publisher makes for a message. -/
def Action.isProducer : Action → Bool
  | .grantImmediate _ | .write _ _ _ | .commit _ _ | .dropWriter _ => true
  | _ => false

theorem isProducer_of_mem_stores {writer offset : ℕ} {bytes : List UInt8} {action : Action}
    (listed : action ∈ stores writer offset bytes) : action.isProducer = true := by
  induction bytes generalizing offset with
  | nil => simp [stores] at listed
  | cons byte rest ih =>
      rcases List.mem_cons.mp listed with rfl | listed
      · rfl
      · exact ih listed

theorem readsOf_append_commitEvents (id : ℕ) (bytes : List UInt8) (outcome : Commit)
    (history : List Event) :
    readsOf id (World.commitEvents bytes outcome ++ history) = readsOf id history := by
  cases outcome <;> rfl

/-- What was committed since the subscriber was created is the newest part of what was handed to
the channel. -/
theorem exists_handed {id : ℕ} {history : List Event} (nothing : discardsAfter id history = []) :
    ∃ earlier, handed history = ((commitsAfter id history).map Frame.bytes).reverse ++ earlier := by
  induction history with
  | nil => exact ⟨[], rfl⟩
  | cons event earlier ih =>
      cases event with
      | subscribed other =>
          simp only [discardsAfter] at nothing
          simp only [commitsAfter, handed, List.filterMap_cons, Event.handed?]
          by_cases same : other = id
          · exact ⟨handed earlier, by rw [if_pos same]; rfl⟩
          · rw [if_neg same] at nothing ⊢
            exact ih nothing
      | discarded bytes => simp [discardsAfter] at nothing
      | committed frame =>
          rcases ih nothing with ⟨before, split⟩
          refine ⟨before, ?_⟩
          change frame.bytes :: handed earlier = _
          rw [split, commitsAfter, List.map_append, List.reverse_append]
          rfl
      | published | evicted | delivered => exact ih nothing

namespace World

variable {config : ChannelConfig} {world next : World} {action : Action}

/-- What the publisher leaves to the subscribers. -/
structure Unread (world next : World) : Prop where
  subscribers : next.subscribers = world.subscribers
  readers : next.readers = world.readers
  leaked : next.leaked = world.leaked
  reads : ∀ id, readsOf id next.history = readsOf id world.history

theorem Unread.refl (world : World) : Unread world world := ⟨rfl, rfl, rfl, fun _ => rfl⟩

theorem Unread.trans {last : World} (first : Unread world next) (second : Unread next last) :
    Unread world last where
  subscribers := second.subscribers.trans first.subscribers
  readers := second.readers.trans first.readers
  leaked := second.leaked.trans first.leaked
  reads := fun id => (second.reads id).trans (first.reads id)

theorem unread_of_isProducer (isProducer : action.isProducer = true)
    (stepped : step config world action = some next) : Unread world next := by
  have committed : ∀ writer grant used, Unread world (world.commit config writer grant used) :=
    fun _ _ _ => ⟨rfl, rfl, rfl, fun id => readsOf_append_commitEvents id _ _ _⟩
  cases World.call_of_step stepped with
  | grantImmediate maxSz =>
      rcases called : world.inner.grantImmediate config maxSz with ⟨inner, result⟩
      simp only [World.grantImmediate, called]
      cases result <;> exact ⟨rfl, rfl, rfl, fun _ => rfl⟩
  | write => exact ⟨rfl, rfl, rfl, fun _ => rfl⟩
  | commit writer used grant => exact committed writer grant used
  | dropWriter writer grant => exact committed writer grant grant.toCommit
  | _ => simp [Action.isProducer] at isProducer

/-- A read is refused, or it hands out the frame that it delivers. -/
theorem cases_of_read {id : ℕ} {cx : Option Waker} (stepped : step config world (.read id cx) =
    some next) :
    (next.readers = world.readers ∧ next.history = world.history) ∨
      ∃ grant, next.readers = world.readers.insert grant ∧ next.buf = world.buf ∧
        grant.autoRelease = true ∧
        next.history =
          .delivered id ⟨grant.messageId, bytesAt world.buf grant.region⟩ :: world.history := by
  cases World.call_of_step stepped with
  | read _ _ reader live =>
      rcases called : world.inner.readWithContext config reader cx with ⟨inner, reader', result⟩
      simp only [World.read, called]
      cases result with
      | error => exact .inl ⟨rfl, rfl⟩
      | ok grant =>
          rcases State.readWithContext_eq_ok called with ⟨_, header, _, _, _, _, _, rfl⟩
          exact .inr ⟨_, rfl, rfl, rfl, rfl⟩

theorem subscribers_of_read {id other : ℕ} {cx : Option Waker} (stepped :
    step config world (.read id cx) = some next) :
    (next.subscribers.get? other).isSome = (world.subscribers.get? other).isSome := by
  have replaced : ∀ {reader reader' : FrameSubscriber}, world.subscribers.get? id = some reader →
      ((world.subscribers.replace id reader').get? other).isSome =
        (world.subscribers.get? other).isSome := by
    intro reader reader' live
    rw [Table.get?_replace live]
    split
    · rename_i same
      rw [same, live]
      rfl
    · rfl
  cases World.call_of_step stepped with
  | read _ _ reader live =>
      unfold World.read
      split <;> exact replaced live

/-- With a read grant, nobody is created, dropped or given a frame. -/
theorem quiet_of_readGrant {reader : ℕ} (onGrant : action = .dropReader reader ∨
      ∃ offset byte, action = .bufMut reader offset byte)
    (stepped : step config world action = some next) :
    next.subscribers = world.subscribers ∧ next.history = world.history := by
  rcases onGrant with rfl | ⟨offset, byte, rfl⟩
  · cases World.call_of_step stepped with
    | dropReader | leakReader => exact ⟨rfl, rfl⟩
  · cases World.call_of_step stepped with
    | bufMut => exact ⟨rfl, rfl⟩

theorem dropSubscriber_eq {id : ℕ} (stepped : step config world (.dropSubscriber id) = some next) :
    next.subscribers = world.subscribers.remove id ∧ next.history = world.history := by
  cases World.call_of_step stepped with
  | dropSubscriber => exact ⟨rfl, rfl⟩

/-- A subscriber is created, or there are too many. -/
theorem cases_of_subscriber (stepped : step config world .subscriber = some next) :
    next = world ∨
      (∃ reader, next.subscribers = world.subscribers.insert reader) ∧
        next.history = .subscribed world.subscribers.next :: world.history := by
  cases World.call_of_step stepped with
  | subscriber =>
      unfold World.subscriber
      split
      · exact .inl rfl
      · exact .inr ⟨⟨_, rfl⟩, rfl⟩

theorem count_published_of_step (notPublisher : action ≠ .publisher)
    (stepped : step config world action = some next) :
    next.history.count .published = world.history.count .published := by
  have committed : ∀ (bytes : List UInt8) (outcome : Commit),
      (commitEvents bytes outcome ++ world.history).count .published =
        world.history.count .published := by
    intro bytes outcome
    cases outcome <;> simp [commitEvents]
  cases World.call_of_step stepped with
  | publisher => exact absurd rfl notPublisher
  | subscriber =>
      unfold World.subscriber
      split
      · rfl
      · exact List.count_cons_of_ne (by simp)
  | grant maxSz cx => rw [World.grant, history_addWriter]
  | grantImmediate => exact List.count_cons_of_ne (by simp)
  | commit | dropWriter => exact committed _ _
  | read =>
      unfold World.read
      split
      · exact List.count_cons_of_ne (by simp)
      · rfl
  | dropPublisher | clear | write | setPid | toCommit | autoRelease | bufMut | release | dropReader
  | leakReader | dropSubscriber => rfl

/-- A channel whose publisher was created once. -/
structure OnePublisher (config : ChannelConfig) (capacity : ℕ) (world : World) : Prop where
  once : world.BroadcastsOnce config capacity
  publishedOnce : world.history.count .published ≤ 1

namespace OnePublisher

variable {capacity : ℕ}

theorem publisher (config : ChannelConfig) (small : capacity ≤ 65535) :
    (World.new capacity).publisher.OnePublisher config capacity where
  once := (BroadcastsOnce.new config capacity).step small (by simp) (by simp)
    (show step config (World.new capacity) .publisher = some _ from rfl)
  publishedOnce := by
    change [Event.published].count .published ≤ 1
    decide

theorem step (small : capacity ≤ 65535) (one : world.OnePublisher config capacity)
    (isCalled : action.isProducer = true ∨ action.isSubscriber = true)
    (noBufMut : ∀ reader offset byte, action ≠ .bufMut reader offset byte)
    (stepped : Pubsub.step config world action = some next) : next.OnePublisher config capacity where
  once := by
    refine one.once.step small ?_ noBufMut stepped
    rintro rfl
    simp [Action.isProducer, Action.isSubscriber] at isCalled
  publishedOnce := by
    rw [count_published_of_step ?_ stepped]
    · exact one.publishedOnce
    · rintro rfl
      simp [Action.isProducer, Action.isSubscriber] at isCalled

theorem delivers (one : world.OnePublisher config capacity) {id : ℕ} {reader : FrameSubscriber}
    (live : world.subscribers.get? id = some reader) : world.Delivers id reader :=
  one.once.broadcasts one.publishedOnce id reader live

end OnePublisher

section Parked

variable {capacity subscriber : ℕ} {waker : Waker}

/-- A read of the subscriber would be refused. -/
def Sleeps (world : World) (subscriber : ℕ) : Prop :=
  ∃ reader, world.subscribers.get? subscriber = some reader ∧
    reader.Blocked world.inner.messages

/-- A read of the subscriber would be refused, as long as the waker is not woken. -/
def Parked (world : World) (subscriber : ℕ) (waker : Waker) : Prop :=
  waker ∈ world.inner.wakers.subscribers → world.Sleeps subscriber

/-- Only reads register wakers of subscribers. -/
theorem mem_wakers_of_step (invariant : world.Invariant config capacity)
    (notRead : ∀ other cx, action ≠ .read other cx)
    (stepped : step config world action = some next)
    (registered : waker ∈ next.inner.wakers.subscribers) :
    waker ∈ world.inner.wakers.subscribers := by
  cases effect_of_step invariant stepped with
  | quiet _ inner | subscribe inner | grant _ inner | evict _ _ _ _ _ _ inner
  | evictAndGrant _ _ _ _ _ inner | discard _ _ _ _ inner =>
      rw [inner] at registered
      exact registered
  | clear inner =>
      rw [inner] at registered
      exact registered
  | @refuse _ cx _ inner =>
      rw [inner] at registered
      cases cx <;> exact registered
  | block | read => exact absurd rfl (notRead _ _)
  | commit _ _ _ _ _ _ inner =>
      rw [inner] at registered
      simp [Wakers.wakeSubscribers] at registered
  | pop _ _ _ inner =>
      rw [inner] at registered
      simp [Wakers.wakeSubscribers] at registered
  | flag _ _ _ inner =>
      rw [inner] at registered
      simp [Wakers.wakeSubscribers] at registered
  | leave reader _ inner =>
      rw [inner] at registered
      unfold State.dropSubscriber at registered
      dsimp only at registered
      split at registered
      · dsimp only at registered
        split at registered <;> exact registered
      · exact registered

/-- A subscriber stays until it is dropped. -/
theorem isSome_subscribers_of_step (invariant : world.Invariant config capacity)
    (undropped : action ≠ .dropSubscriber subscriber)
    (stepped : step config world action = some next)
    (live : (world.subscribers.get? subscriber).isSome = true) :
    (next.subscribers.get? subscriber).isSome = true := by
  cases effect_of_step invariant stepped with
  | quiet _ _ subscribers | clear _ subscribers | refuse _ _ subscribers | grant _ _ subscribers
  | evict _ _ _ _ _ _ _ subscribers | evictAndGrant _ _ _ _ _ _ subscribers
  | discard _ _ _ _ _ subscribers | commit _ _ _ _ _ _ _ subscribers | pop _ _ _ _ subscribers
  | flag _ _ _ _ subscribers =>
      rw [subscribers]
      exact live
  | subscribe _ subscribers =>
      rw [subscribers, Table.get?_insert]
      split
      · rfl
      · exact live
  | block _ _ own _ _ subscribers =>
      rw [subscribers, Table.get?_replace own]
      split
      · rfl
      · exact live
  | read _ _ _ own _ _ _ _ subscribers =>
      rw [subscribers, Table.get?_replace own]
      split
      · rfl
      · exact live
  | leave _ _ _ subscribers =>
      rw [subscribers, Table.get?_remove, if_neg ?_]
      · exact live
      · rintro rfl
        exact undropped rfl

/-- Whoever sleeps sleeps on until its waker is woken, or the subscriber is used. -/
theorem Sleeps.step (invariant : world.Invariant config capacity)
    (sleeps : world.Sleeps subscriber) (notOwn : ∀ cx, action ≠ .read subscriber cx)
    (undropped : action ≠ .dropSubscriber subscriber)
    (stepped : Pubsub.step config world action = some next) (waker : Waker) :
    next.Parked subscriber waker := by
  rcases sleeps with ⟨reader, live, blocked⟩
  intro registered
  -- the channel with the one subscriber that waits
  let watch : Watch := ⟨world, fun other => if other = subscriber then some waker else none⟩
  have sound : watch.Sound config capacity := by
    refine ⟨invariant, ?_, ?_⟩
    · intro other waits
      simp only [watch, ne_eq, ite_eq_right_iff, reduceCtorEq, imp_false, not_not] at waits
      rw [waits]
      exact Table.lt_next_of_get? live
    · intro other reader' live' waits
      simp only [watch, ne_eq, ite_eq_right_iff, reduceCtorEq, imp_false, not_not] at waits
      subst waits
      rcases Option.some.inj (live.symm.trans live') with rfl
      exact blocked
  have still : watch.registered config action subscriber = some waker := by
    unfold Watch.registered
    split
    · rename_i reading cx
      rw [if_neg fun same => notOwn (some cx) (congrArg (Action.read · (some cx)) same)]
      exact if_pos rfl
    · exact if_pos rfl
  rcases watched : watchStep config watch action with _ | after
  · simp [watchStep, watch, stepped] at watched
  · rcases Option.map_eq_some_iff.mp watched with ⟨same, called, rfl⟩
    rcases Option.some.inj (stepped.symm.trans called) with rfl
    rcases Option.isSome_iff_exists.mp (isSome_subscribers_of_step invariant undropped stepped
      (by rw [live]; rfl)) with ⟨reader', live'⟩
    refine ⟨reader', live', (sound.step watched).blocked subscriber reader' live' ?_⟩
    simp [still, registered]

theorem Parked.step (invariant : world.Invariant config capacity)
    (parked : world.Parked subscriber waker) (notRead : ∀ other cx, action ≠ .read other cx)
    (undropped : action ≠ .dropSubscriber subscriber)
    (stepped : Pubsub.step config world action = some next) : next.Parked subscriber waker := by
  intro registered
  have sleeps := parked (mem_wakers_of_step invariant notRead stepped registered)
  exact sleeps.step invariant (fun cx => notRead subscriber cx) undropped stepped waker registered

theorem sleeps_of_refuses {cx : Option Waker} (invariant : world.Invariant config capacity)
    (refused : world.refuses config subscriber cx = true) : world.Sleeps subscriber := by
  rcases live : world.subscribers.get? subscriber with _ | reader
  · simp [refuses, live] at refused
  · exact ⟨reader, live, blocked_of_refuses invariant live refused⟩

theorem Sleeps.refuses (sleeps : world.Sleeps subscriber)
    (invariant : world.Invariant config capacity) (cx : Option Waker) :
    world.refuses config subscriber cx = true := by
  rcases sleeps with ⟨reader, live, blocked⟩
  rcases (blocked_iff invariant reader cx).mp blocked with ⟨error, refused⟩
  simp [World.refuses, live, refused, Except.isOk, Except.toBool]

/-- A read that is refused leaves its subscriber asleep. -/
theorem sleeps_of_read {cx : Option Waker} (invariant : world.Invariant config capacity)
    (refused : world.refuses config subscriber cx = true)
    (stepped : Pubsub.step config world (.read subscriber cx) = some next) :
    next.Sleeps subscriber := by
  rcases sleeps_of_refuses invariant refused with ⟨reader, live, blocked⟩
  rcases (blocked_iff invariant reader cx).mp blocked with ⟨error, failed⟩
  cases call_of_step stepped with
  | read _ _ other live' =>
      rcases Option.some.inj (live.symm.trans live') with rfl
      rcases called : world.inner.readWithContext config reader cx with ⟨inner, reader', result⟩
      rw [called] at failed
      rcases failed
      rcases State.readWithContext_eq_error called with ⟨rfl, rfl⟩
      simp only [World.read, called]
      refine ⟨_, (Table.get?_replace live _ subscriber).trans (if_pos rfl), ?_⟩
      exact (blocked_catchUp invariant).mpr blocked

/-- Calls of which only the first may be a read leave whoever sleeps asleep until its waker is
woken, or the subscriber is used. -/
theorem Sleeps.run {actions : List Action} (invariant : world.Invariant config capacity)
    (sleeps : world.Sleeps subscriber)
    (unused : ∀ action ∈ actions, (∀ cx, action ≠ .read subscriber cx) ∧
      action ≠ .dropSubscriber subscriber)
    (oneRead : ∀ action ∈ actions.tail, ∀ other cx, action ≠ .read other cx)
    (reached : Execution.run (Pubsub.step config) world actions = some next) (waker : Waker) :
    next.Parked subscriber waker := by
  cases actions with
  | nil =>
      rcases Option.some.inj reached with rfl
      exact fun _ => sleeps
  | cons first rest =>
      rcases Execution.run_cons_eq_some.mp reached with ⟨middle, stepped, continued⟩
      rcases unused first List.mem_cons_self with ⟨notOwn, undropped⟩
      have guarded : Execution.Guarded (Pubsub.step config) (fun _ action =>
          (∀ other cx, action ≠ .read other cx) ∧ action ≠ .dropSubscriber subscriber)
          middle rest :=
        Execution.guarded_of_forall fun _ action listed =>
          ⟨oneRead action listed, (unused action (List.mem_cons_of_mem _ listed)).2⟩
      have kept := Execution.invariant_of_guarded
        (fun world => world.Invariant config capacity ∧ world.Parked subscriber waker)
        (fun allowed held stepped => ⟨held.1.step stepped,
          held.2.step held.1 allowed.1 allowed.2 stepped⟩) guarded
        ⟨invariant.step stepped, sleeps.step invariant notOwn undropped stepped waker⟩ continued
      exact kept.2

end Parked

end World

end Mqttrust.Pubsub
