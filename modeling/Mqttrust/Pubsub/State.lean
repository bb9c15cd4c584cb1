import Mqttrust.Foundation.Region

/-!
# The inner state of a publish/subscribe channel

The queue of a `PubSubChannel` holds one header for each committed frame, oldest
first. A header says where the bytes of the frame lie in the ring buffer, how
many subscribers have still to read it and whether a read grant for it is out.

The message identifiers are `u64` counters that grow by one for each commit; they
are natural numbers here. Subtractions of the source that could underflow are
natural subtractions; the invariants show that they are exact in every state a
channel can reach.
-/

namespace Mqttrust.Pubsub

/-- Error type used by the `PubSub` interfaces. -/
inductive Error where
  | insufficientSize
  | grantInProgress
  | publisherAlreadyTaken
  | maximumSubscribersReached
deriving DecidableEq, Repr

/-- The task that a registered waker wakes. -/
abbrev Waker := ℕ

/-- The const generics of a channel: `MAX_PUBSUB_MESSAGES` and `SUBS`. -/
structure ChannelConfig where
  maxPubsubMessages : ℕ
  subs : ℕ
deriving DecidableEq, Repr

/-- Header information for each message in the pubsub queue. -/
structure Header where
  start : ℕ
  len : ℕ
  messageId : ℕ
  subscriberCount : ℕ
  readInProgress : Bool
  pid : ℕ
deriving DecidableEq, Repr

namespace Header

/-- The bytes of the ring buffer that the frame occupies. -/
def region (header : Header) : Region := ⟨header.start, header.len⟩

/-- One subscriber fewer has still to read the frame. -/
def decrement (header : Header) : Header :=
  { header with subscriberCount := header.subscriberCount - 1 }

@[simp]
theorem region_start (header : Header) : header.region.start = header.start := rfl

@[simp]
theorem region_finish (header : Header) :
    header.region.finish = header.start + header.len := rfl

@[simp]
theorem region_decrement (header : Header) : header.decrement.region = header.region := rfl

@[simp]
theorem messageId_decrement (header : Header) :
    header.decrement.messageId = header.messageId := rfl

@[simp]
theorem readInProgress_decrement (header : Header) :
    header.decrement.readInProgress = header.readInProgress := rfl

@[simp]
theorem subscriberCount_decrement (header : Header) :
    header.decrement.subscriberCount = header.subscriberCount - 1 := rfl

end Header

/-- The wakers registered with the channel: a `MultiWakerRegistration` for the subscribers and a
`WakerRegistration` for the publisher. -/
structure Wakers where
  subscribers : List Waker
  publisher : Option Waker
deriving DecidableEq, Repr

namespace Wakers

/-- `WakerRegistration::register`: the last registered waker is kept. -/
def registerPublisher (wakers : Wakers) : Option Waker → Wakers
  | some waker => { wakers with publisher := some waker }
  | none => wakers

/-- `MultiWakerRegistration::register`: every registered waker is kept, and a full registration
wakes all of them first. -/
def registerSubscriber (config : ChannelConfig) (wakers : Wakers) : Option Waker → Wakers
  | some waker =>
      if waker ∈ wakers.subscribers then wakers
      else if wakers.subscribers.length < config.subs then
        { wakers with subscribers := wakers.subscribers ++ [waker] }
      else { wakers with subscribers := [waker] }
  | none => wakers

/-- Wakes the publisher. -/
def wakePublisher (wakers : Wakers) : Wakers := { wakers with publisher := none }

/-- Wakes every registered subscriber. -/
def wakeSubscribers (wakers : Wakers) : Wakers := { wakers with subscribers := [] }

end Wakers

/-- Internal state of the pubsub channel. -/
structure State where
  capacity : ℕ
  messages : List Header
  writeInProgress : Bool
  nextMessageId : ℕ
  subscriberCount : ℕ
  publisherTaken : Bool
  wakers : Wakers
deriving DecidableEq, Repr

namespace State

/-- The state that `PubSubChannel::new` builds for a buffer of `capacity` bytes. -/
def new (capacity : ℕ) : State where
  capacity := capacity
  messages := []
  writeInProgress := false
  nextMessageId := 0
  subscriberCount := 0
  publisherTaken := false
  wakers := ⟨[], none⟩

/-- Clears all messages in the channel. -/
def clear (state : State) : State := { state with messages := [] }

/-- Whether the deque of headers has reached its capacity. -/
def messagesFull (config : ChannelConfig) (state : State) : Bool :=
  config.maxPubsubMessages ≤ state.messages.length

/-- Returns the amount of free space available in the channel in bytes. -/
def freeSpace (state : State) : ℕ :=
  match state.messages.getLast?, state.messages.head? with
  | some back, some front =>
      let backEnd := back.start + back.len
      let inverted : Bool := backEnd ≤ front.start
      if inverted then front.start - backEnd
      else max front.start (state.capacity - backEnd)
  | _, _ => state.capacity

/-- Returns whether the channel is full. -/
def isFull (config : ChannelConfig) (state : State) : Bool :=
  state.messagesFull config || state.freeSpace == 0

/-- The identifier of the oldest message in the queue, or of the next one if it is empty. -/
def startId (state : State) : ℕ := state.nextMessageId - state.messages.length

/-- The regions of the queued frames, oldest first. -/
def regions (state : State) : List Region := state.messages.map Header.region

end State

end Mqttrust.Pubsub
