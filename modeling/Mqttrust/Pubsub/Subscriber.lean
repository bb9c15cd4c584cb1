import Mathlib.Data.List.TakeWhile
import Mqttrust.Pubsub.State

/-!
# Reading frames

The operations of `FrameSubscriber` and `FrameGrantR`. Reading a frame counts the
subscriber off in its header and takes the header's read flag; releasing the
grant gives the flag back, or removes the frame when it is the oldest one and
nobody has still to read it. Dropping a subscriber counts it off in every frame
it had not read and removes the exhausted frames at the front.
-/

namespace Mqttrust.Pubsub

/-- A subscriber of framed MQTT data. -/
structure FrameSubscriber where
  nextMessageId : ℕ
deriving DecidableEq, Repr

/-- A read grant for a single frame: `len` bytes of the buffer from `start`. -/
structure FrameGrantR where
  start : ℕ
  len : ℕ
  messageId : ℕ
  autoRelease : Bool
  pid : ℕ
deriving DecidableEq, Repr

/-- The bytes of the ring buffer that the grant gives access to. -/
def FrameGrantR.region (grant : FrameGrantR) : Region := ⟨grant.start, grant.len⟩

/-- The read grant that `read_with_context` builds for a header. -/
def Header.readGrant (header : Header) : FrameGrantR where
  start := header.start
  len := header.len
  messageId := header.messageId
  autoRelease := true
  pid := header.pid

@[simp]
theorem Header.region_readGrant (header : Header) : header.readGrant.region = header.region := rfl

@[simp]
theorem Header.messageId_readGrant (header : Header) :
    header.readGrant.messageId = header.messageId := rfl

/-- The header of a frame that a subscriber starts to read. -/
def Header.startRead (header : Header) : Header :=
  { header.decrement with readInProgress := true }

/-- The header of a frame whose read grant is released. -/
def Header.endRead (header : Header) : Header := { header with readInProgress := false }

namespace State

/-- A subscriber that lags behind the queue continues with its oldest frame. -/
def catchUp (state : State) (subscriber : FrameSubscriber) : FrameSubscriber :=
  if subscriber.nextMessageId < state.startId then ⟨state.startId⟩ else subscriber

/-- `FrameSubscriber::read_with_context`; `FrameSubscriber::read` passes no context. -/
def readWithContext (config : ChannelConfig) (state : State) (subscriber : FrameSubscriber)
    (cx : Option Waker) : State × FrameSubscriber × Except Error FrameGrantR :=
  let subscriber := state.catchUp subscriber
  let currentMessageIndex := subscriber.nextMessageId - state.startId
  match state.messages[currentMessageIndex]? with
  | none =>
      ({ state with wakers := state.wakers.registerSubscriber config cx }, subscriber,
        .error .insufficientSize)
  | some header =>
      if header.readInProgress then
        ({ state with wakers := state.wakers.registerSubscriber config cx }, subscriber,
          .error .grantInProgress)
      else
        ({ state with messages := state.messages.set currentMessageIndex header.startRead },
          ⟨subscriber.nextMessageId + 1⟩, .ok header.readGrant)

/-- The loop of `FrameSubscriber::drop` that removes exhausted frames from the front. -/
def popExhausted (messages : List Header) : List Header :=
  messages.dropWhile fun header => header.subscriberCount == 0

/-- The queue after `FrameSubscriber::drop` has counted the subscriber off in every frame it had
not read. A subscriber that lags behind the queue is not counted off. -/
def countOff (state : State) (subscriber : FrameSubscriber) : List Header :=
  let currentMessageIndex := subscriber.nextMessageId - state.startId
  state.messages.take currentMessageIndex ++
    (state.messages.drop currentMessageIndex).map Header.decrement

/-- `FrameSubscriber::drop`. -/
def dropSubscriber (state : State) (subscriber : FrameSubscriber) : State :=
  let state := { state with subscriberCount := state.subscriberCount - 1 }
  if state.startId ≤ subscriber.nextMessageId then
    let messages := state.countOff subscriber
    let kept := popExhausted messages
    let wakePublisher : Bool := kept.length < messages.length
    { state with
      messages := kept
      wakers := if wakePublisher then state.wakers.wakePublisher else state.wakers }
  else state

/-- `FrameGrantR::release_inner`. -/
def releaseInner (state : State) (grant : FrameGrantR) : State :=
  match state.messages.findIdx? fun message => message.messageId == grant.messageId with
  | none => state
  | some index =>
      match state.messages[index]? with
      | none => state
      | some header =>
          if !header.readInProgress then state
          else if index == 0 && header.subscriberCount == 0 then
            { state with
              messages := state.messages.tail
              wakers := state.wakers.wakePublisher.wakeSubscribers }
          else
            { state with
              messages := state.messages.set index header.endRead
              wakers := state.wakers.wakeSubscribers }

variable {config : ChannelConfig} {state next : State} {subscriber subscriber' : FrameSubscriber}

/-- A successful read takes the first queued frame that the subscriber has not read. -/
theorem readWithContext_eq_ok {cx : Option Waker} {grant : FrameGrantR}
    (read : state.readWithContext config subscriber cx = (next, subscriber', .ok grant)) :
    ∃ index header, state.messages[index]? = some header ∧ header.readInProgress = false ∧
      index = (state.catchUp subscriber).nextMessageId - state.startId ∧
      next = { state with messages := state.messages.set index header.startRead } ∧
      subscriber' = ⟨(state.catchUp subscriber).nextMessageId + 1⟩ ∧ grant = header.readGrant := by
  unfold readWithContext at read
  simp only at read
  split at read
  · simp at read
  · rename_i header found
    split at read
    · simp at read
    · rename_i notReading
      simp only [Prod.mk.injEq, Except.ok.injEq] at read
      exact ⟨_, header, found, by simpa using notReading, rfl, read.1.symm, read.2.1.symm,
        read.2.2.symm⟩

theorem readWithContext_eq_error {cx : Option Waker} {error : Error}
    (refused : state.readWithContext config subscriber cx = (next, subscriber', .error error)) :
    next = { state with wakers := state.wakers.registerSubscriber config cx } ∧
      subscriber' = state.catchUp subscriber := by
  unfold readWithContext at refused
  simp only at refused
  split at refused
  · simp only [Prod.mk.injEq] at refused
    exact ⟨refused.1.symm, refused.2.1.symm⟩
  · split at refused
    · simp only [Prod.mk.injEq] at refused
      exact ⟨refused.1.symm, refused.2.1.symm⟩
    · simp at refused

theorem dropSubscriber_cases (state : State) (subscriber : FrameSubscriber) :
    (state.startId ≤ subscriber.nextMessageId ∧
      (state.dropSubscriber subscriber).messages = popExhausted (state.countOff subscriber)) ∨
    (subscriber.nextMessageId < state.startId ∧
      (state.dropSubscriber subscriber).messages = state.messages) := by
  rcases Nat.lt_or_ge subscriber.nextMessageId state.startId with lagging | current
  · refine Or.inr ⟨lagging, ?_⟩
    have : ¬({ state with subscriberCount := state.subscriberCount - 1 } : State).startId ≤
        subscriber.nextMessageId := Nat.not_le_of_lt lagging
    simp [dropSubscriber, this]
  · refine Or.inl ⟨current, ?_⟩
    have : ({ state with subscriberCount := state.subscriberCount - 1 } : State).startId ≤
        subscriber.nextMessageId := current
    simp only [dropSubscriber, this, if_true]
    rfl

theorem dropSubscriber_frame (state : State) (subscriber : FrameSubscriber) :
    (state.dropSubscriber subscriber).capacity = state.capacity ∧
    (state.dropSubscriber subscriber).writeInProgress = state.writeInProgress ∧
    (state.dropSubscriber subscriber).nextMessageId = state.nextMessageId ∧
    (state.dropSubscriber subscriber).publisherTaken = state.publisherTaken ∧
    (state.dropSubscriber subscriber).subscriberCount = state.subscriberCount - 1 := by
  unfold dropSubscriber
  simp only
  split <;> exact ⟨rfl, rfl, rfl, rfl, rfl⟩

/-- The loop that removes exhausted frames removes some oldest frames, all of them exhausted. -/
theorem exists_popped (messages : List Header) :
    ∃ popped, messages = popped ++ popExhausted messages ∧
      ∀ header ∈ popped, header.subscriberCount = 0 := by
  refine ⟨messages.takeWhile fun header => header.subscriberCount == 0,
    (List.takeWhile_append_dropWhile).symm, ?_⟩
  intro header header_mem
  simpa using List.mem_takeWhile_imp header_mem

/-- Releasing a read grant leaves the queue alone, removes its oldest frame, which is then read
and exhausted, or gives a read flag back, that of the oldest frame only if it is not exhausted. -/
theorem releaseInner_cases (state : State) (grant : FrameGrantR) :
    state.releaseInner grant = state ∨
    (∃ header rest, state.messages = header :: rest ∧ header.messageId = grant.messageId ∧
      header.readInProgress = true ∧ header.subscriberCount = 0 ∧
      state.releaseInner grant =
        { state with
          messages := rest
          wakers := state.wakers.wakePublisher.wakeSubscribers }) ∨
    (∃ index header, state.messages[index]? = some header ∧
      header.messageId = grant.messageId ∧ header.readInProgress = true ∧
      (index = 0 → 0 < header.subscriberCount) ∧
      state.releaseInner grant =
        { state with
          messages := state.messages.set index header.endRead
          wakers := state.wakers.wakeSubscribers }) := by
  unfold releaseInner
  split
  · exact Or.inl rfl
  · rename_i index found
    rcases List.findIdx?_eq_some_iff_getElem.mp found with ⟨inside, sameId, _⟩
    rw [List.getElem?_eq_getElem inside]
    simp only
    have sameId : state.messages[index].messageId = grant.messageId := by simpa using sameId
    split
    · exact Or.inl rfl
    · rename_i reading
      have reading : state.messages[index].readInProgress = true := by simpa using reading
      split
      · rename_i exhausted
        simp only [Bool.and_eq_true, beq_iff_eq] at exhausted
        rcases exhausted with ⟨rfl, exhausted⟩
        right; left
        rcases List.exists_cons_of_length_pos inside with ⟨header, rest, queue⟩
        simp only [queue, List.getElem_cons_zero] at sameId reading exhausted
        exact ⟨header, rest, queue, sameId, reading, exhausted, by simp [queue]⟩
      · rename_i remains
        right; right
        refine ⟨index, state.messages[index], List.getElem?_eq_getElem inside, sameId, reading,
          ?_, rfl⟩
        rintro rfl
        simp only [beq_self_eq_true, Bool.true_and, beq_iff_eq] at remains
        exact Nat.pos_of_ne_zero remains

/-- Releasing the read grant of the oldest frame removes it when nobody has still to read it. -/
theorem messages_releaseInner_front {grant : FrameGrantR} {front : Header} {rest : List Header}
    (queue : state.messages = front :: rest) (sameId : front.messageId = grant.messageId)
    (reading : front.readInProgress = true) (exhausted : front.subscriberCount = 0) :
    (state.releaseInner grant).messages = rest := by
  simp [releaseInner, queue, List.findIdx?_cons, sameId, reading, exhausted]

end State

end Mqttrust.Pubsub
