import Mqttrust.Pubsub.State

/-!
# Publishing frames

The operations of `FramePublisher` and `FrameGrantW`. A write grant reserves a
contiguous region of the ring buffer; committing it queues a header for the part
that was used. `grantImmediate` makes room by removing the oldest frames, unless
one of them is being read.

Each operation returns the new state and its result. The lemmas say once what an
operation can do, and where a granted region lies in the layout of the queue.
-/

namespace Mqttrust.Pubsub

/-- A write grant for a single frame: `len` bytes of the buffer from `start`. -/
structure FrameGrantW where
  start : ℕ
  len : ℕ
  toCommit : ℕ
  pid : ℕ
deriving DecidableEq, Repr

/-- The bytes of the ring buffer that the grant reserves. -/
def FrameGrantW.region (grant : FrameGrantW) : Region := ⟨grant.start, grant.len⟩

@[simp]
theorem FrameGrantW.region_mk (start len toCommit pid : ℕ) :
    (FrameGrantW.mk start len toCommit pid).region = ⟨start, len⟩ := rfl

/-- What a call of `commit_inner` did. -/
inductive Commit where
  /-- No write was in progress. -/
  | idle
  /-- There was no subscriber, so the message was discarded. -/
  | discarded
  /-- The header was queued. -/
  | queued (header : Header)
  /-- The deque of headers was full. -/
  | noRoom
deriving DecidableEq, Repr

namespace State

variable (config : ChannelConfig)

/-- Where `grant_with_context` places a frame of at most `maxSz` bytes. -/
def newStart (state : State) (maxSz : ℕ) : ℕ :=
  match state.messages.getLast?, state.messages.head? with
  | some back, some front =>
      let backEnd := back.start + back.len
      let inverted : Bool := backEnd ≤ front.start
      if inverted || maxSz ≤ state.capacity - backEnd then backEnd else 0
  | _, _ => 0

/-- `FramePublisher::grant_with_context`; `FramePublisher::grant` passes no context. -/
def grantWithContext (state : State) (maxSz : ℕ) (cx : Option Waker) :
    State × Except Error FrameGrantW :=
  if state.writeInProgress then
    ({ state with wakers := state.wakers.registerPublisher cx }, .error .grantInProgress)
  else if maxSz > state.freeSpace || state.messagesFull config then
    ({ state with wakers := state.wakers.registerPublisher cx }, .error .insufficientSize)
  else
    ({ state with writeInProgress := true },
      .ok { start := state.newStart maxSz, len := maxSz, toCommit := 0, pid := 0 })

/-- The loop of `grant_immediate` over the queue, oldest header first: the headers it keeps, and
whether it made room. -/
def evict (state : State) (maxSz : ℕ) : List Header → List Header × Except Error Unit
  | [] => ([], .ok ())
  | front :: rest =>
      let current := { state with messages := front :: rest }
      if current.freeSpace < maxSz || current.messagesFull config then
        if front.readInProgress then (front :: rest, .error .insufficientSize)
        else evict state maxSz rest
      else (front :: rest, .ok ())

/-- `FramePublisher::grant_immediate`. -/
def grantImmediate (state : State) (maxSz : ℕ) : State × Except Error FrameGrantW :=
  let (kept, result) := state.evict config maxSz state.messages
  match result with
  | .error error => ({ state with messages := kept }, .error error)
  | .ok () => grantWithContext config { state with messages := kept } maxSz none

/-- The header that `commit_inner` builds for `used` bytes of a grant; `used as u16` keeps the low
sixteen bits of the length. -/
def commitHeader (state : State) (grant : FrameGrantW) (used : ℕ) : Header where
  start := grant.start
  len := min grant.len used % 65536
  messageId := state.nextMessageId
  subscriberCount := state.subscriberCount
  readInProgress := false
  pid := grant.pid

/-- `FrameGrantW::commit_inner`. -/
def commitInner (state : State) (grant : FrameGrantW) (used : ℕ) : State × Commit :=
  if !state.writeInProgress then (state, .idle)
  else if state.subscriberCount == 0 then ({ state with writeInProgress := false }, .discarded)
  else
    let header := state.commitHeader grant used
    let full := state.messagesFull config
    ({ state with
        messages := if full then state.messages else state.messages ++ [header]
        nextMessageId := state.nextMessageId + 1
        writeInProgress := false
        wakers := state.wakers.wakeSubscribers },
      if full then .noRoom else .queued header)

variable {config} {state next : State}

/-- A grant is given only when no other is out, when it fits and when a header can be queued. -/
theorem grantWithContext_eq_ok {maxSz : ℕ} {cx : Option Waker} {grant : FrameGrantW}
    (granted : state.grantWithContext config maxSz cx = (next, .ok grant)) :
    state.writeInProgress = false ∧ maxSz ≤ state.freeSpace ∧
      state.messages.length < config.maxPubsubMessages ∧
      next = { state with writeInProgress := true } ∧
      grant = { start := state.newStart maxSz, len := maxSz, toCommit := 0, pid := 0 } := by
  unfold grantWithContext at granted
  split at granted
  · simp at granted
  · split at granted
    · simp at granted
    · rename_i idle fits
      simp only [messagesFull, Bool.or_eq_true, decide_eq_true_eq, not_or] at fits
      simp only [Prod.mk.injEq, Except.ok.injEq] at granted
      exact ⟨by simpa using idle, by omega, by omega, granted.1.symm, granted.2.symm⟩

theorem grantWithContext_eq_error {maxSz : ℕ} {cx : Option Waker} {error : Error}
    (refused : state.grantWithContext config maxSz cx = (next, .error error)) :
    next = { state with wakers := state.wakers.registerPublisher cx } := by
  unfold grantWithContext at refused
  split at refused
  · simp only [Prod.mk.injEq] at refused
    exact refused.1.symm
  · split at refused
    · simp only [Prod.mk.injEq] at refused
      exact refused.1.symm
    · simp at refused

@[simp]
theorem messages_grantWithContext (config : ChannelConfig) (state : State) (maxSz : ℕ)
    (cx : Option Waker) :
    (state.grantWithContext config maxSz cx).1.messages = state.messages := by
  unfold grantWithContext
  split
  · rfl
  · split <;> rfl

@[simp]
theorem nextMessageId_grantWithContext (config : ChannelConfig) (state : State) (maxSz : ℕ)
    (cx : Option Waker) :
    (state.grantWithContext config maxSz cx).1.nextMessageId = state.nextMessageId := by
  unfold grantWithContext
  split
  · rfl
  · split <;> rfl

/-- The loop of `grant_immediate` removes the oldest headers, none of which is being read. -/
theorem exists_evicted (config : ChannelConfig) (state : State) (maxSz : ℕ) (messages : List Header) :
    ∃ gone, messages = gone ++ (state.evict config maxSz messages).1 ∧
      ∀ header ∈ gone, header.readInProgress = false := by
  induction messages with
  | nil => exact ⟨[], rfl, by simp⟩
  | cons front rest ih =>
      unfold evict
      simp only
      split
      · split
        · exact ⟨[], rfl, by simp⟩
        · rename_i notReading
          rcases ih with ⟨gone, split_eq, idle⟩
          refine ⟨front :: gone, congrArg (front :: ·) split_eq, ?_⟩
          intro header header_mem
          rcases List.mem_cons.mp header_mem with rfl | later
          · simpa using notReading
          · exact idle header later
      · exact ⟨[], rfl, by simp⟩

/-- `grant_immediate` removes the oldest frames and then asks for an ordinary grant. -/
theorem grantImmediate_eq {maxSz : ℕ} {result : Except Error FrameGrantW}
    (called : state.grantImmediate config maxSz = (next, result)) :
    ∃ gone kept, state.messages = gone ++ kept ∧
      (∀ header ∈ gone, header.readInProgress = false) ∧
      ((next = { state with messages := kept } ∧ ∃ error, result = .error error) ∨
        State.grantWithContext config { state with messages := kept } maxSz none =
          (next, result)) := by
  rcases exists_evicted config state maxSz state.messages with ⟨gone, split_eq, idle⟩
  refine ⟨gone, (state.evict config maxSz state.messages).1, split_eq, idle, ?_⟩
  unfold grantImmediate at called
  split at called
  rename_i kept outcome evicted
  rw [evicted]
  cases outcome with
  | error error =>
      left
      simp only [Prod.mk.injEq] at called
      exact ⟨called.1.symm, error, called.2.symm⟩
  | ok done => exact Or.inr called

theorem commitInner_cases (grant : FrameGrantW) (used : ℕ) (writing : state.writeInProgress = true)
    (room : state.messages.length < config.maxPubsubMessages) :
    (state.subscriberCount = 0 ∧
      state.commitInner config grant used = ({ state with writeInProgress := false }, .discarded)) ∨
    (0 < state.subscriberCount ∧
      state.commitInner config grant used =
        ({ state with
            messages := state.messages ++ [state.commitHeader grant used]
            nextMessageId := state.nextMessageId + 1
            writeInProgress := false
            wakers := state.wakers.wakeSubscribers },
          .queued (state.commitHeader grant used))) := by
  have notFull : state.messagesFull config = false := by
    simpa [messagesFull] using room
  rcases Nat.eq_zero_or_pos state.subscriberCount with none_left | some_left
  · left
    exact ⟨none_left, by simp [commitInner, writing, none_left]⟩
  · right
    refine ⟨some_left, ?_⟩
    simp [commitInner, writing, notFull, Nat.ne_of_gt some_left]

theorem ringLayout_newStart {maxSz : ℕ} (layout : RingLayout state.capacity state.regions)
    (fits : maxSz ≤ state.freeSpace) :
    RingLayout state.capacity (state.regions ++ [⟨state.newStart maxSz, maxSz⟩]) := by
  unfold freeSpace at fits
  unfold newStart
  rcases List.eq_nil_or_concat state.messages with empty | ⟨older, back, nonempty⟩
  · simp only [empty, List.getLast?_nil, List.head?_nil] at fits ⊢
    rw [regions, empty, List.map_nil, List.nil_append]
    exact RingLayout.place_empty fits
  · rw [List.concat_eq_append] at nonempty
    rcases List.exists_cons_of_ne_nil (show state.messages ≠ [] by simp [nonempty])
      with ⟨front, rest, queue⟩
    have last : state.messages.getLast? = some back := by simp [nonempty]
    have first : state.messages.head? = some front := by simp [queue]
    simp only [last, first, decide_eq_true_eq, Bool.or_eq_true] at fits ⊢
    have oldest : state.regions.head? = some front.region := by simp [regions, queue]
    have newest : state.regions.getLast? = some back.region := by simp [regions, nonempty]
    have back_le := layout.inBounds back.region (List.mem_of_getLast? newest)
    have front_le := layout.inBounds front.region (List.mem_of_head? oldest)
    simp only [Header.region_finish] at back_le front_le
    split at fits
    · rename_i inverted
      rw [if_pos (Or.inl inverted)]
      refine layout.place_behind oldest newest ?_ ?_
      · simp only [Header.region_finish]
        omega
      · intro _
        simp only [Header.region_finish, Header.region_start]
        omega
    · rename_i notInverted
      by_cases behind : maxSz ≤ state.capacity - (back.start + back.len)
      · rw [if_pos (Or.inr behind)]
        refine layout.place_behind oldest newest ?_ ?_
        · simp only [Header.region_finish]
          omega
        · intro inverted
          exact absurd inverted notInverted
      · rw [if_neg (by omega)]
        refine layout.place_zero oldest newest ?_ ?_
        · simp only [Header.region_finish, Header.region_start]
          omega
        · simp only [Header.region_start]
          omega

end State

end Mqttrust.Pubsub
