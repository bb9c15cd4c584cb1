import Mqttrust.Pubsub.Invariant

/-!
# Read grants and the writer

A read grant that has not been released points into a frame that is still queued
and marked as being read. The eviction of `grant_immediate` and the release of a
frame respect the mark, but the loop of `FrameSubscriber::drop` does not: it
removes every exhausted frame from the front of the queue. The writer can then
be granted bytes that a subscriber is still reading.

As long as no subscriber is dropped in a state where that loop removes a frame
that is being read, the outstanding write grant never meets an unreleased read
grant.
-/

namespace Mqttrust.Pubsub

/-- The frames that are being read stay in the queue and keep their mark. -/
def Keeps (before after : List Header) : Prop :=
  ∀ header ∈ before, header.readInProgress = true →
    ∃ header' ∈ after, header'.key = header.key ∧ header'.readInProgress = true

namespace Keeps

variable {before after : List Header}

theorem refl (messages : List Header) : Keeps messages messages :=
  fun header header_mem reading => ⟨header, header_mem, rfl, reading⟩

theorem of_subset (subset : before ⊆ after) : Keeps before after :=
  fun header header_mem reading => ⟨header, subset header_mem, rfl, reading⟩

theorem drop_front {gone kept : List Header} (idle : ∀ header ∈ gone, header.readInProgress = false) :
    Keeps (gone ++ kept) kept := by
  intro header header_mem reading
  rcases List.mem_append.mp header_mem with removed | remains
  · rw [idle header removed] at reading
    simp at reading
  · exact ⟨header, remains, rfl, reading⟩

theorem trans {middle : List Header} (first : Keeps before middle) (second : Keeps middle after) :
    Keeps before after := by
  intro header header_mem reading
  rcases first header header_mem reading with ⟨header', header'_mem, sameKey, reading'⟩
  rcases second header' header'_mem reading' with ⟨header'', header''_mem, sameKey', reading''⟩
  exact ⟨header'', header''_mem, sameKey'.trans sameKey, reading''⟩

theorem set_idle {messages : List Header} {index : ℕ} {old : Header} (header : Header)
    (found : messages[index]? = some old) (idle : old.readInProgress = false) :
    Keeps messages (messages.set index header) := by
  intro other other_mem reading
  rcases List.getElem?_of_mem other_mem with ⟨position, other_found⟩
  have elsewhere : index ≠ position := by
    intro same
    rw [same, other_found, Option.some.injEq] at found
    subst found
    rw [idle] at reading
    simp at reading
  refine ⟨other, List.mem_of_getElem? (i := position) ?_, rfl, reading⟩
  rw [List.getElem?_set_ne elsewhere, other_found]

theorem countOff (state : State) (subscriber : FrameSubscriber) :
    Keeps state.messages (state.countOff subscriber) := by
  intro header header_mem reading
  rw [← List.take_append_drop (subscriber.nextMessageId - state.startId) state.messages]
    at header_mem
  rcases List.mem_append.mp header_mem with read | unread
  · exact ⟨header, List.mem_append_left _ read, rfl, reading⟩
  · exact ⟨header.decrement, List.mem_append_right _ (List.mem_map_of_mem unread), rfl, reading⟩

end Keeps

/-- When a subscriber is dropped, the loop that removes exhausted frames from the front of the
queue removes none that is being read. -/
def SparesReads (state : State) (subscriber : FrameSubscriber) : Prop :=
  state.startId ≤ subscriber.nextMessageId →
    ∀ header ∈ (state.countOff subscriber).takeWhile (·.subscriberCount == 0),
      header.readInProgress = false

instance (state : State) (subscriber : FrameSubscriber) :
    Decidable (SparesReads state subscriber) :=
  inferInstanceAs (Decidable (_ → _))

/-- The condition on a call: dropping a subscriber removes no frame that is being read. -/
def DropsSpareReads (world : World) : Action → Prop
  | .dropSubscriber subscriber =>
      ∀ reader ∈ world.subscribers.get? subscriber, SparesReads world.inner reader
  | _ => True

instance (world : World) (action : Action) : Decidable (DropsSpareReads world action) := by
  cases action <;> unfold DropsSpareReads <;> infer_instance

theorem keeps_dropSubscriber {state : State} {subscriber : FrameSubscriber}
    (spares : SparesReads state subscriber) :
    Keeps state.messages (state.dropSubscriber subscriber).messages := by
  rcases state.dropSubscriber_cases subscriber with ⟨inQueue, messages⟩ | ⟨_, messages⟩
  · rw [messages]
    refine (Keeps.countOff state subscriber).trans ?_
    have split := List.takeWhile_append_dropWhile (p := fun header : Header =>
      header.subscriberCount == 0) (l := state.countOff subscriber)
    conv_lhs => rw [← split]
    exact Keeps.drop_front (spares inQueue)
  · rw [messages]
    exact Keeps.refl _

/-- Every unreleased read grant points into a queued frame that is marked as being read, and no
two of them into the same frame. -/
structure World.ReadsHeld (world : World) : Prop where
  held : ∀ reader grant, world.readers.get? reader = some grant →
    ∃ header ∈ world.inner.messages,
      header.key = (grant.messageId, grant.region) ∧ header.readInProgress = true
  unique : ∀ reader other grant grant', world.readers.get? reader = some grant →
    world.readers.get? other = some grant' → grant.messageId = grant'.messageId → reader = other

namespace World.ReadsHeld

variable {config : ChannelConfig} {capacity : ℕ} {world next : World}

theorem new (capacity : ℕ) : (World.new capacity).ReadsHeld where
  held := by simp [World.new]
  unique := by simp [World.new]

/-- A call that hands out no read grant and keeps the frames that are being read. -/
theorem of_keeps (reads : world.ReadsHeld)
    (keeps : Keeps world.inner.messages next.inner.messages)
    (readers : next.readers = world.readers) : next.ReadsHeld := by
  refine ⟨?_, readers ▸ reads.unique⟩
  intro reader grant live
  rcases reads.held reader grant (readers ▸ live) with ⟨header, header_mem, key, reading⟩
  rcases keeps header header_mem reading with ⟨header', header'_mem, sameKey, reading'⟩
  exact ⟨header', header'_mem, sameKey.trans key, reading'⟩

theorem addWriter (reads : world.ReadsHeld) {inner : State} {result : Except Error FrameGrantW}
    (keeps : Keeps world.inner.messages inner.messages) :
    (world.addWriter inner result).ReadsHeld := by
  cases result with
  | ok grant => exact reads.of_keeps keeps rfl
  | error error => exact reads.of_keeps keeps rfl

theorem grant (reads : world.ReadsHeld) (maxSz : ℕ) (cx : Option Waker) :
    (world.grant config maxSz cx).ReadsHeld := by
  have keeps : Keeps world.inner.messages
      (world.inner.grantWithContext config maxSz cx).1.messages := by
    rw [State.messages_grantWithContext]
    exact Keeps.refl _
  exact reads.addWriter keeps

theorem grantImmediate (reads : world.ReadsHeld) (maxSz : ℕ) :
    (world.grantImmediate config maxSz).ReadsHeld := by
  rcases called : world.inner.grantImmediate config maxSz with ⟨inner, result⟩
  rcases State.grantImmediate_eq called with ⟨gone, kept, split, idle, outcome⟩
  have messages : inner.messages = kept := by
    rcases outcome with ⟨rfl, _⟩ | granted
    · rfl
    · have := State.messages_grantWithContext config { world.inner with messages := kept } maxSz none
      rwa [granted] at this
  have after : (world.addWriter inner result).ReadsHeld := by
    refine reads.addWriter ?_
    rw [split, messages]
    exact Keeps.drop_front idle
  simp only [World.grantImmediate, called]
  exact ⟨after.held, after.unique⟩

theorem commit (reads : world.ReadsHeld) (writer : ℕ) (grant : FrameGrantW) (used : ℕ) :
    (world.commit config writer grant used).ReadsHeld := by
  refine reads.of_keeps ?_ rfl
  apply Keeps.of_subset
  change world.inner.messages ⊆ (world.inner.commitInner config grant used).1.messages
  unfold State.commitInner
  split
  · simp
  · split
    · simp
    · simp only
      split <;> simp

theorem read {subscriber : ℕ} {reader : FrameSubscriber} (invariant : world.Invariant config capacity)
    (reads : world.ReadsHeld) (cx : Option Waker) :
    (world.read config subscriber reader cx).ReadsHeld := by
  rcases called : world.inner.readWithContext config reader cx with ⟨inner, reader', result⟩
  simp only [World.read, called]
  cases result with
  | error error =>
      rcases State.readWithContext_eq_error called with ⟨rfl, _⟩
      exact reads.of_keeps (Keeps.refl _) rfl
  | ok grant =>
      rcases State.readWithContext_eq_ok called with
        ⟨index, header, found, idle, _, rfl, rfl, rfl⟩
      have inside := (List.getElem?_eq_some_iff.mp found).1
      -- An unreleased grant for the same frame would have marked it as being read.
      have other_frame : ∀ other grant, world.readers.get? other = some grant →
          grant.messageId ≠ header.messageId := by
        intro other grant live same
        rcases reads.held other grant live with ⟨marked, marked_mem, key, reading⟩
        rcases List.getElem?_of_mem marked_mem with ⟨position, marked_found⟩
        have marked_id : marked.messageId = grant.messageId := congrArg Prod.fst key
        have := invariant.valid.eq_of_messageId_eq marked_found found (marked_id.trans same)
        subst this
        rw [found, Option.some.injEq] at marked_found
        subst marked_found
        rw [idle] at reading
        simp at reading
      constructor
      · intro other grant live
        change (world.readers.insert header.readGrant).get? other = some grant at live
        rw [Table.get?_insert] at live
        split at live
        · simp only [Option.some.injEq] at live
          subst live
          exact ⟨header.startRead, List.mem_set inside _, rfl, rfl⟩
        · rcases reads.held other grant live with ⟨marked, marked_mem, key, reading⟩
          rcases Keeps.set_idle header.startRead found idle marked marked_mem reading
            with ⟨marked', marked'_mem, sameKey, reading'⟩
          exact ⟨marked', marked'_mem, sameKey.trans key, reading'⟩
      · intro left right grant grant' live live' same
        change (world.readers.insert header.readGrant).get? left = some grant at live
        change (world.readers.insert header.readGrant).get? right = some grant' at live'
        rw [Table.get?_insert] at live live'
        split at live <;> split at live'
        · rename_i here here'
          exact here.trans here'.symm
        · simp only [Option.some.injEq] at live
          subst live
          exact absurd same.symm (other_frame right grant' live')
        · simp only [Option.some.injEq] at live'
          subst live'
          exact absurd same (other_frame left grant live)
        · exact reads.unique left right grant grant' live live' same

/-- Releasing a grant keeps the frames that the other grants point into. -/
theorem release {reader : ℕ} {grant : FrameGrantR} (reads : world.ReadsHeld) (live : world.readers.get? reader = some grant) :
    (world.release reader grant).ReadsHeld := by
  constructor
  · intro other grant' live'
    change (world.readers.remove reader).get? other = some grant' at live'
    rw [Table.get?_remove] at live'
    split at live'
    · simp at live'
    · rename_i different
      rcases reads.held other grant' live' with ⟨marked, marked_mem, key, reading⟩
      have marked_id : marked.messageId = grant'.messageId := congrArg Prod.fst key
      have other_frame : marked.messageId ≠ grant.messageId := fun same =>
        different (reads.unique other reader grant' grant live' live (marked_id.symm.trans same))
      refine ⟨marked, ?_, key, reading⟩
      change marked ∈ (world.inner.releaseInner grant).messages
      rcases State.releaseInner_cases world.inner grant with
        same | ⟨header, rest, queue, sameId, _, _, popped⟩ |
          ⟨index, header, found, sameId, _, _, flagged⟩
      · rw [same]
        exact marked_mem
      · rw [popped]
        rw [queue] at marked_mem
        rcases List.mem_cons.mp marked_mem with rfl | remains
        · exact absurd sameId other_frame
        · exact remains
      · rw [flagged]
        rcases List.getElem?_of_mem marked_mem with ⟨position, marked_found⟩
        have elsewhere : index ≠ position := by
          rintro rfl
          rw [found, Option.some.injEq] at marked_found
          exact other_frame (marked_found ▸ sameId)
        exact List.mem_of_getElem? ((List.getElem?_set_ne elsewhere).trans marked_found)
  · intro left right grant' grant'' live' live'' same
    change (world.readers.remove reader).get? left = some grant' at live'
    change (world.readers.remove reader).get? right = some grant'' at live''
    rw [Table.get?_remove] at live' live''
    split at live'
    · simp at live'
    · split at live''
      · simp at live''
      · exact reads.unique left right grant' grant'' live' live'' same

theorem autoRelease {reader : ℕ} {grant : FrameGrantR} (reads : world.ReadsHeld)
    (live : world.readers.get? reader = some grant) (isAuto : Bool) :
    ({ world with readers := world.readers.replace reader { grant with autoRelease := isAuto } } :
      World).ReadsHeld := by
  have same : ∀ other newest,
      (world.readers.replace reader { grant with autoRelease := isAuto }).get? other = some newest →
        ∃ old, world.readers.get? other = some old ∧ newest.messageId = old.messageId ∧
          newest.region = old.region := by
    intro other newest found
    rw [Table.get?_replace live] at found
    split at found
    · rename_i here
      simp only [Option.some.injEq] at found
      exact ⟨grant, here ▸ live, found ▸ rfl, found ▸ rfl⟩
    · exact ⟨newest, found, rfl, rfl⟩
  constructor
  · intro other newest found
    rcases same other newest found with ⟨old, old_found, sameId, sameRegion⟩
    rw [sameId, sameRegion]
    exact reads.held other old old_found
  · intro left right newest newest' found found' sameFrame
    rcases same left newest found with ⟨old, old_found, sameId, _⟩
    rcases same right newest' found' with ⟨old', old_found', sameId', _⟩
    exact reads.unique left right old old' old_found old_found'
      (sameId.symm.trans (sameFrame.trans sameId'))

theorem step {action : Action} (invariant : world.Invariant config capacity) (reads : world.ReadsHeld)
    (noClear : action ≠ .clear) (spares : DropsSpareReads world action)
    (stepped : Pubsub.step config world action = some next) : next.ReadsHeld := by
  cases World.call_of_step stepped with
  | publisher =>
      unfold World.publisher
      split
      · exact reads
      · exact reads.of_keeps (Keeps.refl _) rfl
  | dropPublisher =>
      exact reads.of_keeps (Keeps.refl _) rfl
  | subscriber =>
      unfold World.subscriber
      split
      · exact reads
      · exact reads.of_keeps (Keeps.refl _) rfl
  | clear => exact absurd rfl noClear
  | grant maxSz cx =>
      exact reads.grant maxSz cx
  | grantImmediate maxSz =>
      exact reads.grantImmediate maxSz
  | write | setPid | toCommit =>
      exact reads.of_keeps (Keeps.refl _) rfl
  | commit writer used grant =>
      exact reads.commit writer grant used
  | dropWriter writer grant =>
      exact reads.commit writer grant grant.toCommit
  | read _ cx =>
      exact reads.read invariant cx
  | autoRelease _ isAuto _ live =>
      exact reads.autoRelease (World.get?_of_reader? live) isAuto
  | bufMut =>
      exact reads.of_keeps (Keeps.refl _) rfl
  | release _ _ live | dropReader _ _ live =>
      exact reads.release (World.get?_of_reader? live)
  | leakReader =>
      exact reads.of_keeps (Keeps.refl _) rfl
  | dropSubscriber _ reader live =>
      exact reads.of_keeps
        (keeps_dropSubscriber (spares reader live)) rfl

end World.ReadsHeld

/-- The outstanding write grant meets no unreleased read grant. -/
def World.GrantsDisjoint (world : World) : Prop :=
  ∀ writer reader write read, world.writers.get? writer = some write →
    world.readers.get? reader = some read → write.region.Disjoint read.region

theorem World.ReadsHeld.grantsDisjoint {config : ChannelConfig} {capacity : ℕ} {world : World}
    (invariant : world.Invariant config capacity) (reads : world.ReadsHeld) : world.GrantsDisjoint := by
  intro writer reader write read writing reading
  rcases reads.held reader read reading with ⟨header, header_mem, key, _⟩
  have layout := invariant.writer_layout writer write writing
  have queued : read.region ∈ world.inner.regions := by
    have sameRegion : header.region = read.region := congrArg Prod.snd key
    exact sameRegion ▸ List.mem_map_of_mem header_mem
  have disjoint := (List.pairwise_append.mp layout.pairwise_disjoint).2.2
  exact (disjoint read.region queued write.region (by simp)).symm

/-- In every run without `clear` in which dropping a subscriber never removes a frame that is being
read, the bytes granted to the writer are never those of an unreleased read grant. -/
theorem grantsDisjoint_of_dropsSpareReads {config : ChannelConfig} {capacity : ℕ}
    {actions : List Action} {world : World} (noClear : Action.clear ∉ actions)
    (spares : Execution.Guarded (step config) DropsSpareReads (World.new capacity) actions)
    (reached : runFrom config capacity actions = some world) : world.GrantsDisjoint := by
  have notClear : Execution.Guarded (step config) (fun _ action => action ≠ .clear)
      (World.new capacity) actions :=
    Execution.guarded_of_forall fun _ action action_mem isClear => noClear (isClear ▸ action_mem)
  have both := Execution.invariant_of_guarded
    (fun world => world.Invariant config capacity ∧ world.ReadsHeld)
    (fun guard both stepped => ⟨both.1.step stepped, both.2.step both.1 guard.1 guard.2 stepped⟩)
    (notClear.and spares)
    ⟨World.Invariant.new config capacity, World.ReadsHeld.new capacity⟩ reached
  exact both.2.grantsDisjoint both.1

/-- Two subscribers, one of which is dropped while the other one is reading and the writer is
granted the rest of the buffer. -/
theorem grantsDisjoint_of_dropsSpareReads_example :
    ∃ world, runFrom ⟨2, 2⟩ 8 [.publisher, .subscriber, .subscriber, .grant 4 none, .commit 0 4,
        .read 0 none, .dropSubscriber 0, .grant 4 none] = some world ∧
      (∃ write, world.writers.get? 1 = some write) ∧ (∃ read, world.readers.get? 0 = some read) ∧
      world.GrantsDisjoint := by
  rcases reached : runFrom ⟨2, 2⟩ 8 [.publisher, .subscriber, .subscriber, .grant 4 none,
    .commit 0 4, .read 0 none, .dropSubscriber 0, .grant 4 none] with _ | world
  · exact absurd reached (by decide)
  · refine ⟨world, rfl, ?_, ?_, grantsDisjoint_of_dropsSpareReads (by decide) (by decide) reached⟩
    · cases reached
      exact ⟨⟨4, 4, 0, 0⟩, by decide⟩
    · cases reached
      exact ⟨⟨0, 4, 0, true, 0⟩, by decide⟩

/-- Dropping the only subscriber while its read grant is out hands the bytes that are being read to
the writer. -/
theorem not_grantsDisjoint_after_dropSubscriber :
    ∃ world, runFrom ⟨2, 1⟩ 8 [.publisher, .subscriber, .grant 4 none, .commit 0 4, .read 0 none,
        .dropSubscriber 0, .grant 4 none] = some world ∧ ¬world.GrantsDisjoint := by
  refine ⟨_, rfl, ?_⟩
  intro disjoint
  have := disjoint 1 0 ⟨0, 4, 0, 0⟩ ⟨0, 4, 0, true, 0⟩ (by decide) (by decide) 0
  exact absurd this (by decide)

end Mqttrust.Pubsub
