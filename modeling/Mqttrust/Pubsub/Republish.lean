import Mqttrust.Pubsub.FrameLength

/-!
# Creating the publisher again

A channel has one publisher at a time; when it is dropped, another one can be
created. Frames and grants outlive the publisher that made them, but `publisher`
zeroes the whole buffer, which they point into.
-/

namespace Mqttrust.Pubsub

namespace World

/-- The address lies in a queued frame or in an outstanding grant. -/
def Holds (world : World) (address : ℕ) : Prop :=
  (∃ header ∈ world.inner.messages, address ∈ header.region) ∨
    (∃ reader grant, world.reader? reader = some grant ∧ address ∈ grant.region) ∨
    ∃ writer grant, world.writers.get? writer = some grant ∧ address ∈ grant.region

/-- What is queued and what was handed out is still there, with the bytes it had. -/
structure KeepsContent (config : ChannelConfig) (world next : World) : Prop where
  queue : next.inner.messages = world.inner.messages
  frames : ∀ header ∈ world.inner.messages,
    bytesAt next.buf header.region = bytesAt world.buf header.region
  readGrants : ∀ reader grant, world.reader? reader = some grant →
    next.reader? reader = some grant ∧
      bytesAt next.buf grant.region = bytesAt world.buf grant.region
  writeGrants : ∀ writer grant, world.writers.get? writer = some grant →
    next.writers.get? writer = some grant ∧
      bytesAt next.buf grant.region = bytesAt world.buf grant.region
  /-- Whoever reads one of the frames later reads the bytes it had, unless they are overwritten
  after all. -/
  reads : ∀ (later : World) (after : List Action) (reader reader' : FrameSubscriber)
    (cx : Option Waker) (inner : State) (grant : FrameGrantR),
    Execution.run (step config) next after = some later →
    later.inner.readWithContext config reader cx = (inner, reader', .ok grant) →
    grant.messageId < world.inner.nextMessageId → next.Spares config grant.region after →
    bytesAt later.buf grant.region = bytesAt world.buf grant.region

variable {config : ChannelConfig} {capacity : ℕ} {actions : List Action} {world : World}

theorem publisher_eq (dropped : world.inner.publisherTaken = false) :
    world.publisher =
      { world with
        inner := { world.inner with publisherTaken := true }
        buf := fun _ => 0
        history := .published :: world.history } := by
  rw [World.publisher, dropped]
  rfl

/-- Where the queued frames are as they were, they are also read like that. -/
theorem reads_of_frames (reached : runFrom config capacity actions = some world)
    (dropped : world.inner.publisherTaken = false)
    (frames : ∀ header ∈ world.inner.messages,
      bytesAt world.publisher.buf header.region = bytesAt world.buf header.region)
    {later : World} {after : List Action} {reader reader' : FrameSubscriber} {cx : Option Waker}
    {inner : State} {grant : FrameGrantR}
    (ran : Execution.run (step config) world.publisher after = some later)
    (read : later.inner.readWithContext config reader cx = (inner, reader', .ok grant))
    (old : grant.messageId < world.inner.nextMessageId)
    (spared : world.publisher.Spares config grant.region after) :
    bytesAt later.buf grant.region = bytesAt world.buf grant.region := by
  have created := publisher_eq dropped
  have stepped : step config world .publisher = some world.publisher := rfl
  have invariant := (World.Invariant.of_runFrom reached).step stepped
  have queue : world.publisher.inner.messages = world.inner.messages := by rw [created]
  have nextId : world.publisher.inner.nextMessageId = world.inner.nextMessageId := by
    rw [created]
  rcases State.readWithContext_eq_ok read with ⟨index, header, found, _, _, _, _, rfl⟩
  have queued : header ∈ later.inner.messages := List.mem_of_getElem? found
  rcases World.buf_of_run invariant ran queued (nextId.symm ▸ old) with ⟨key_mem, last⟩
  rw [queue] at key_mem
  rcases List.mem_map.mp key_mem with ⟨header', queued', sameKey⟩
  have sameRegion : header'.region = header.region := congrArg Prod.snd sameKey
  rw [Header.region_readGrant, ← sameRegion, ← frames header' queued', bytesAt_eq_iff, sameRegion]
  intro address inside
  rw [last address inside]
  rcases overwritten : lastOverwrite config address world.publisher after with _ | byte
  · rfl
  · exact spared address inside byte overwritten

/-- A publisher that is created again leaves alone exactly what is all zero. -/
theorem publisher_keepsContent_iff (reached : runFrom config capacity actions = some world)
    (dropped : world.inner.publisherTaken = false) :
    world.KeepsContent config world.publisher ↔
      ∀ address, world.Holds address → world.buf address = 0 := by
  have created := publisher_eq dropped
  constructor
  · intro keeps address held
    -- The bytes there are the same in the zeroed buffer.
    have zeroed : ∀ region : Region, address ∈ region →
        bytesAt world.publisher.buf region = bytesAt world.buf region → world.buf address = 0 := by
      intro region inside same
      have here := bytesAt_eq_iff.mp same address inside
      rw [created] at here
      exact here.symm
    rcases held with ⟨header, queued, inside⟩ | ⟨reader, grant, live, inside⟩ |
      ⟨writer, grant, live, inside⟩
    · exact zeroed _ inside (keeps.frames header queued)
    · exact zeroed _ inside (keeps.readGrants reader grant live).2
    · exact zeroed _ inside (keeps.writeGrants writer grant live).2
  · intro zero
    have same : ∀ region : Region, (∀ address ∈ region, world.Holds address) →
        bytesAt world.publisher.buf region = bytesAt world.buf region := by
      intro region held
      rw [bytesAt_eq_iff, created]
      intro address inside
      exact (zero address (held address inside)).symm
    have queue : world.publisher.inner.messages = world.inner.messages := by rw [created]
    have frames : ∀ header ∈ world.inner.messages,
        bytesAt world.publisher.buf header.region = bytesAt world.buf header.region := by
      intro header queued
      exact same _ fun address inside => .inl ⟨header, queued, inside⟩
    refine ⟨queue, frames, ?_, ?_, ?_⟩
    · intro reader grant live
      refine ⟨by rw [created]; exact live, same _ ?_⟩
      exact fun address inside => .inr (.inl ⟨reader, grant, live, inside⟩)
    · intro writer grant live
      refine ⟨by rw [created]; exact live, same _ ?_⟩
      exact fun address inside => .inr (.inr ⟨writer, grant, live, inside⟩)
    · intro later after reader reader' cx inner grant ran read old spared
      exact reads_of_frames reached dropped frames ran read old spared

/-- A frame of zeros is queued when the publisher is created again. -/
theorem publisher_keepsContent_iff_example :
    ∃ world : World, runFrom ⟨2, 1⟩ 8 [.publisher, .subscriber, .grant 2 none, .commit 0 2,
        .dropPublisher] = some world ∧
      world.KeepsContent ⟨2, 1⟩ world.publisher := by
  obtain ⟨world, reached⟩ : ∃ world, runFrom ⟨2, 1⟩ 8
      [.publisher, .subscriber, .grant 2 none, .commit 0 2, .dropPublisher] = some world :=
    ⟨_, rfl⟩
  have dropped : world.inner.publisherTaken = false := by
    cases reached
    rfl
  have zero : ∀ address, world.buf address = 0 := by
    intro address
    cases reached
    rfl
  exact ⟨world, reached,
    (publisher_keepsContent_iff reached dropped).mpr fun address _ => zero address⟩

/-- A frame that is still queued is read as zeros after the publisher was created again. -/
theorem not_publisher_keepsContent :
    ∃ world : World,
      runFrom ⟨2, 1⟩ 8 [.publisher, .subscriber, .grant 2 none, .write 0 0 7, .commit 0 2,
        .dropPublisher] = some world ∧
      world.inner.publisherTaken = false ∧ world.inner.messages = [⟨0, 2, 0, 1, false, 0⟩] ∧
      bytesAt world.buf ⟨0, 2⟩ = [7, 0] ∧ bytesAt world.publisher.buf ⟨0, 2⟩ = [0, 0] ∧
      ¬world.KeepsContent ⟨2, 1⟩ world.publisher := by
  obtain ⟨world, reached⟩ : ∃ world, runFrom ⟨2, 1⟩ 8
      [.publisher, .subscriber, .grant 2 none, .write 0 0 7, .commit 0 2, .dropPublisher] =
        some world := ⟨_, rfl⟩
  have queue : world.inner.messages = [⟨0, 2, 0, 1, false, 0⟩] := by
    cases reached
    rfl
  have written : bytesAt world.buf ⟨0, 2⟩ = [7, 0] := by
    cases reached
    decide
  have zeroed : bytesAt world.publisher.buf ⟨0, 2⟩ = [0, 0] := by
    cases reached
    decide
  refine ⟨world, reached, ?_, queue, written, zeroed, ?_⟩
  · cases reached
    rfl
  · intro keeps
    have same : bytesAt world.publisher.buf ⟨0, 2⟩ = bytesAt world.buf ⟨0, 2⟩ :=
      keeps.frames ⟨0, 2, 0, 1, false, 0⟩ (by rw [queue]; exact List.mem_singleton_self _)
    rw [written, zeroed] at same
    exact absurd same (by decide)

end World

end Mqttrust.Pubsub
