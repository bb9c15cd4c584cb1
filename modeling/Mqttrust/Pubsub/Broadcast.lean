import Mqttrust.Pubsub.Invariant

/-!
# Broadcast delivery

Seen from outside, a channel is a log of committed frames. A subscriber reads,
in commit order, the frames that were committed after its creation, except those
that `grant_immediate` removed before it read them. The functions at the start
of the file say this about the history of a channel; the rest shows that the
ring buffer with its counted headers keeps the promise.

The promise needs that lengths fit into the sixteen bits of a header, that the
publisher, whose creation zeroes the buffer, is created once, and that no
subscriber writes through its read grant.
-/

namespace Mqttrust.Pubsub

/-- The frames committed after the subscriber was created, oldest first. -/
def commitsAfter (subscriber : ℕ) : List Event → List Frame
  | [] => []
  | .subscribed other :: earlier =>
      if other = subscriber then [] else commitsAfter subscriber earlier
  | .committed frame :: earlier => commitsAfter subscriber earlier ++ [frame]
  | _ :: earlier => commitsAfter subscriber earlier

/-- The frames that the subscriber has read since it was created, oldest read first. -/
def readsOf (subscriber : ℕ) : List Event → List Frame
  | [] => []
  | .subscribed other :: earlier => if other = subscriber then [] else readsOf subscriber earlier
  | .delivered other frame :: earlier =>
      if other = subscriber then readsOf subscriber earlier ++ [frame]
      else readsOf subscriber earlier
  | _ :: earlier => readsOf subscriber earlier

/-- The identifiers of the frames that `grant_immediate` removed, since the subscriber was created,
when the subscriber had not read them. -/
def missedBy (subscriber : ℕ) : List Event → List ℕ
  | [] => []
  | .subscribed other :: earlier => if other = subscriber then [] else missedBy subscriber earlier
  | .evicted ids :: earlier =>
      ids.filter (fun id => id ∉ (readsOf subscriber earlier).map Frame.id) ++
        missedBy subscriber earlier
  | _ :: earlier => missedBy subscriber earlier

/-- The committed bytes that were dropped instead of being queued, since the subscriber was
created. -/
def discardsAfter (subscriber : ℕ) : List Event → List (List UInt8)
  | [] => []
  | .subscribed other :: earlier =>
      if other = subscriber then [] else discardsAfter subscriber earlier
  | .discarded bytes :: earlier => bytes :: discardsAfter subscriber earlier
  | _ :: earlier => discardsAfter subscriber earlier

/-- The frames of a log that a reader still gets when some of those it had not read are removed. -/
theorem filter_evicted {reads pending commits : List Frame} {missed gone : List ℕ}
    (delivered : reads ++ pending = commits.filter fun frame => frame.id ∉ missed)
    (unread : ∀ frame ∈ pending, frame.id ∉ reads.map Frame.id) :
    reads ++ pending.filter (fun frame => frame.id ∉ gone) =
      commits.filter fun frame =>
        frame.id ∉ gone.filter (fun id => id ∉ reads.map Frame.id) ++ missed := by
  have both : (commits.filter fun frame =>
      frame.id ∉ gone.filter (fun id => id ∉ reads.map Frame.id) ++ missed) =
        (reads ++ pending).filter fun frame =>
          frame.id ∉ gone.filter fun id => id ∉ reads.map Frame.id := by
    rw [delivered, List.filter_filter]
    apply List.filter_congr
    intro frame _
    simp only [List.mem_append, not_or, Bool.decide_and]
  rw [both, List.filter_append]
  congr 1
  · symm
    rw [List.filter_eq_self]
    intro frame frame_mem
    have read : frame.id ∈ reads.map Frame.id := List.mem_map_of_mem frame_mem
    simp only [List.mem_filter, read, not_true, decide_false, Bool.false_eq_true, and_false,
      not_false_eq_true, decide_true]
  · apply List.filter_congr
    intro frame frame_mem
    simp only [List.mem_filter, unread frame frame_mem, not_false_eq_true, decide_true, and_true]

/-- The frame of a header, with the bytes that are in the buffer. -/
def Header.frame (buf : ℕ → UInt8) (header : Header) : Frame :=
  ⟨header.messageId, bytesAt buf header.region⟩

/-- The queued frames that a subscriber has still to read. -/
def awaitedFrames (buf : ℕ → UInt8) (subscriber : FrameSubscriber) (messages : List Header) :
    List Frame :=
  (messages.filter fun header => subscriber.awaits header.messageId).map (Header.frame buf)

theorem bytesAt_store {buf : ℕ → UInt8} {address : ℕ} {region : Region} (byte : UInt8)
    (outside : address ∉ region) : bytesAt (store buf address byte) region = bytesAt buf region := by
  apply List.map_congr_left
  intro offset offset_mem
  have inside : region.start + offset ∈ region := by
    rw [Region.mem_iff]
    rw [List.mem_range] at offset_mem
    omega
  have elsewhere : region.start + offset ≠ address := fun same => outside (same ▸ inside)
  simp [store, elsewhere]

section AwaitedFrames

variable {buf : ℕ → UInt8} {subscriber : FrameSubscriber} {messages : List Header}

theorem awaitedFrames_congr {messages' : List Header}
    (keys : messages'.map Header.key = messages.map Header.key) :
    awaitedFrames buf subscriber messages' = awaitedFrames buf subscriber messages := by
  have of_keys : ∀ messages : List Header, awaitedFrames buf subscriber messages =
      ((messages.map Header.key).filter fun key => subscriber.awaits key.1).map
        fun key => ⟨key.1, bytesAt buf key.2⟩ := by
    intro messages
    rw [List.filter_map, List.map_map]
    rfl
  rw [of_keys, of_keys, keys]

theorem awaitedFrames_append (older newer : List Header) :
    awaitedFrames buf subscriber (older ++ newer) =
      awaitedFrames buf subscriber older ++ awaitedFrames buf subscriber newer := by
  rw [awaitedFrames, List.filter_append, List.map_append]
  rfl

theorem awaitedFrames_eq_nil
    (read : ∀ header ∈ messages, subscriber.awaits header.messageId = false) :
    awaitedFrames buf subscriber messages = [] := by
  rw [awaitedFrames, List.map_eq_nil_iff, List.filter_eq_nil_iff]
  intro header header_mem
  simp [read header header_mem]

theorem mem_awaitedFrames {frame : Frame}
    (frame_mem : frame ∈ awaitedFrames buf subscriber messages) :
    ∃ header ∈ messages, subscriber.nextMessageId ≤ header.messageId ∧
      frame = header.frame buf := by
  rcases List.mem_map.mp frame_mem with ⟨header, header_mem, rfl⟩
  rw [List.mem_filter] at header_mem
  exact ⟨header, header_mem.1, by simpa [FrameSubscriber.awaits] using header_mem.2, rfl⟩

theorem awaitedFrames_congr_subscriber {subscriber' : FrameSubscriber}
    (same : ∀ header ∈ messages,
      subscriber'.awaits header.messageId = subscriber.awaits header.messageId) :
    awaitedFrames buf subscriber' messages = awaitedFrames buf subscriber messages := by
  rw [awaitedFrames, awaitedFrames, List.filter_congr same]

theorem awaitedFrames_store {address : ℕ} (byte : UInt8)
    (outside : ∀ header ∈ messages, address ∉ header.region) :
    awaitedFrames (store buf address byte) subscriber messages =
      awaitedFrames buf subscriber messages := by
  apply List.map_congr_left
  intro header header_mem
  have header_mem : header ∈ messages := List.mem_of_mem_filter header_mem
  simp only [Header.frame, bytesAt_store byte (outside header header_mem)]

theorem awaitedFrames_cons (increasing : messages.Pairwise (·.messageId < ·.messageId))
    {header : Header} (header_mem : header ∈ messages) :
    awaitedFrames buf ⟨header.messageId⟩ messages =
      header.frame buf :: awaitedFrames buf ⟨header.messageId + 1⟩ messages := by
  induction messages with
  | nil => simp at header_mem
  | cons first rest ih =>
      rcases List.pairwise_cons.mp increasing with ⟨later, increasing⟩
      simp only [awaitedFrames, FrameSubscriber.awaits] at ih ⊢
      rcases List.mem_cons.mp header_mem with rfl | behind
      · have same : ∀ other ∈ rest, decide (header.messageId ≤ other.messageId) =
            decide (header.messageId + 1 ≤ other.messageId) := by
          intro other other_mem
          have := later other other_mem
          simp only [decide_eq_decide]
          omega
        simp [List.filter_congr same]
      · have := later header behind
        have skipped : ¬header.messageId ≤ first.messageId := by omega
        have skipped' : ¬header.messageId + 1 ≤ first.messageId := by omega
        rw [List.filter_cons_of_neg (by rwa [decide_eq_true_eq]),
          List.filter_cons_of_neg (by rwa [decide_eq_true_eq])]
        exact ih increasing behind

end AwaitedFrames

/-- The log as one subscriber sees it. -/
structure World.Delivers (world : World) (id : ℕ) (subscriber : FrameSubscriber) : Prop where
  /-- What was read and what is still to be read are the committed frames that were not missed. -/
  delivered : readsOf id world.history ++
      awaitedFrames world.buf subscriber world.inner.messages =
    (commitsAfter id world.history).filter fun frame => frame.id ∉ missedBy id world.history
  /-- Identifiers follow the commit order. -/
  increasing : ((commitsAfter id world.history).map Frame.id).Pairwise (· < ·)
  committed_lt : ∀ frame ∈ commitsAfter id world.history, frame.id < world.inner.nextMessageId
  read_lt : ∀ frame ∈ readsOf id world.history, frame.id < subscriber.nextMessageId
  missed_lt : ∀ missed ∈ missedBy id world.history, missed < world.inner.nextMessageId
  /-- No committed bytes were dropped. -/
  nothingDiscarded : discardsAfter id world.history = []

/-- The log as the live subscribers see it. -/
def World.Broadcasts (world : World) : Prop :=
  ∀ id subscriber, world.subscribers.get? id = some subscriber → world.Delivers id subscriber

/-- Before the first publisher is created nothing is queued and nothing is being written. -/
structure World.Unused (world : World) : Prop where
  noPublisher : world.inner.publisherTaken = false
  empty : world.inner.messages = []
  noWriter : ∀ writer, world.writers.get? writer = none

namespace World.Delivers

variable {world next : World} {id : ℕ} {subscriber subscriber' : FrameSubscriber}

theorem of_unnoticed (delivers : world.Delivers id subscriber)
    (reads : readsOf id next.history = readsOf id world.history)
    (commits : commitsAfter id next.history = commitsAfter id world.history)
    (missed : missedBy id next.history = missedBy id world.history)
    (discards : discardsAfter id next.history = discardsAfter id world.history)
    (nextId : next.inner.nextMessageId = world.inner.nextMessageId)
    (ahead : subscriber.nextMessageId ≤ subscriber'.nextMessageId)
    (awaited : awaitedFrames next.buf subscriber' next.inner.messages =
      awaitedFrames world.buf subscriber world.inner.messages) :
    next.Delivers id subscriber' where
  delivered := by rw [reads, commits, missed, awaited, delivers.delivered]
  increasing := by rw [commits]; exact delivers.increasing
  committed_lt := by rw [commits, nextId]; exact delivers.committed_lt
  read_lt := by
    rw [reads]
    exact fun frame frame_mem => Nat.lt_of_lt_of_le (delivers.read_lt frame frame_mem) ahead
  missed_lt := by rw [missed, nextId]; exact delivers.missed_lt
  nothingDiscarded := by rw [discards]; exact delivers.nothingDiscarded

theorem commit {header : Header} {frame : Frame} (delivers : world.Delivers id subscriber)
    (current : subscriber.nextMessageId ≤ world.inner.nextMessageId)
    (history : next.history = .committed frame :: world.history)
    (buf : next.buf = world.buf) (messages : next.inner.messages = world.inner.messages ++ [header])
    (nextId : next.inner.nextMessageId = world.inner.nextMessageId + 1)
    (header_id : header.messageId = world.inner.nextMessageId)
    (frame_eq : header.frame world.buf = frame) : next.Delivers id subscriber := by
  have frame_id : frame.id = world.inner.nextMessageId := by
    rw [← frame_eq]
    exact header_id
  have commits : commitsAfter id next.history = commitsAfter id world.history ++ [frame] := by
    rw [history]
    rfl
  have reads : readsOf id next.history = readsOf id world.history := by rw [history]; rfl
  have missed : missedBy id next.history = missedBy id world.history := by rw [history]; rfl
  have notMissed : frame.id ∉ missedBy id world.history := by
    intro frame_missed
    have := delivers.missed_lt _ frame_missed
    omega
  have awaited : awaitedFrames world.buf subscriber [header] = [frame] := by
    have awaits : subscriber.awaits header.messageId = true := by
      simp only [FrameSubscriber.awaits, decide_eq_true_eq]
      omega
    simp only [awaitedFrames, List.filter_cons, awaits, if_true, List.filter_nil, List.map_cons,
      List.map_nil, frame_eq]
  refine
    { delivered := ?_
      increasing := ?_
      committed_lt := ?_
      read_lt := reads ▸ delivers.read_lt
      missed_lt := ?_
      nothingDiscarded := ?_ }
  · rw [reads, missed, commits, buf, messages, awaitedFrames_append, awaited, List.filter_append,
      ← List.append_assoc, delivers.delivered]
    simp [notMissed]
  · rw [commits, List.map_append]
    refine List.pairwise_append.mpr ⟨delivers.increasing, by simp, ?_⟩
    intro older older_mem newest newest_mem
    rcases List.mem_map.mp older_mem with ⟨old, old_mem, rfl⟩
    have := delivers.committed_lt old old_mem
    simp only [List.map_cons, List.map_nil, List.mem_singleton] at newest_mem
    omega
  · intro other other_mem
    rw [commits] at other_mem
    rcases List.mem_append.mp other_mem with old | newest
    · have := delivers.committed_lt other old
      omega
    · rw [List.mem_singleton] at newest
      subst newest
      omega
  · intro other other_mem
    rw [missed] at other_mem
    have := delivers.missed_lt other other_mem
    omega
  · rw [history]
    exact delivers.nothingDiscarded

theorem read {header : Header} (delivers : world.Delivers id subscriber)
    (ahead : subscriber.nextMessageId ≤ header.messageId)
    (history : next.history = .delivered id (header.frame world.buf) :: world.history)
    (nextId : next.inner.nextMessageId = world.inner.nextMessageId)
    (awaited : awaitedFrames world.buf subscriber world.inner.messages =
      header.frame world.buf ::
        awaitedFrames next.buf ⟨header.messageId + 1⟩ next.inner.messages) :
    next.Delivers id ⟨header.messageId + 1⟩ := by
  have reads : readsOf id next.history =
      readsOf id world.history ++ [header.frame world.buf] := by
    rw [history]
    simp [readsOf]
  have commits : commitsAfter id next.history = commitsAfter id world.history := by
    rw [history]
    rfl
  have missed : missedBy id next.history = missedBy id world.history := by rw [history]; rfl
  refine
    { delivered := ?_
      increasing := commits ▸ delivers.increasing
      committed_lt := by rw [commits, nextId]; exact delivers.committed_lt
      read_lt := ?_
      missed_lt := by rw [missed, nextId]; exact delivers.missed_lt
      nothingDiscarded := by rw [history]; exact delivers.nothingDiscarded }
  · rw [reads, commits, missed, ← delivers.delivered, awaited, List.append_assoc,
      List.singleton_append]
  · intro frame frame_mem
    rw [reads] at frame_mem
    rcases List.mem_append.mp frame_mem with old | newest
    · have := delivers.read_lt frame old
      simp only
      omega
    · rw [List.mem_singleton] at newest
      subst newest
      exact Nat.lt_succ_self _

/-- The subscriber misses the frames that are removed before it read them. -/
theorem evict {gone kept : List Header} (delivers : world.Delivers id subscriber)
    (valid : world.inner.Valid) (split : world.inner.messages = gone ++ kept)
    (history : next.history = .evicted (gone.map Header.messageId) :: world.history)
    (buf : next.buf = world.buf) (messages : next.inner.messages = kept)
    (nextId : next.inner.nextMessageId = world.inner.nextMessageId) :
    next.Delivers id subscriber := by
  have reads : readsOf id next.history = readsOf id world.history := by rw [history]; rfl
  have commits : commitsAfter id next.history = commitsAfter id world.history := by
    rw [history]
    rfl
  have missed : missedBy id next.history =
      (gone.map Header.messageId).filter
          (fun id' => id' ∉ (readsOf id world.history).map Frame.id) ++
        missedBy id world.history := by
    rw [history]
    rfl
  have unread : ∀ frame ∈ awaitedFrames world.buf subscriber world.inner.messages,
      frame.id ∉ (readsOf id world.history).map Frame.id := by
    intro frame frame_mem read
    rcases mem_awaitedFrames frame_mem with ⟨header, _, ahead, rfl⟩
    rcases List.mem_map.mp read with ⟨old, old_mem, same⟩
    have := delivers.read_lt old old_mem
    simp only [Header.frame] at same
    omega
  have increasing := valid.increasing
  rw [split] at increasing
  have awaited : awaitedFrames next.buf subscriber next.inner.messages =
      (awaitedFrames world.buf subscriber world.inner.messages).filter
        fun frame => frame.id ∉ gone.map Header.messageId := by
    rw [buf, messages, split, awaitedFrames_append, List.filter_append]
    have removed : (awaitedFrames world.buf subscriber gone).filter
        (fun frame => frame.id ∉ gone.map Header.messageId) = [] := by
      rw [List.filter_eq_nil_iff]
      intro frame frame_mem
      rcases mem_awaitedFrames frame_mem with ⟨header, header_mem, _, rfl⟩
      simpa [Header.frame] using ⟨header, header_mem, rfl⟩
    have remaining : (awaitedFrames world.buf subscriber kept).filter
        (fun frame => frame.id ∉ gone.map Header.messageId) =
          awaitedFrames world.buf subscriber kept := by
      rw [List.filter_eq_self]
      intro frame frame_mem
      rcases mem_awaitedFrames frame_mem with ⟨header, header_mem, _, rfl⟩
      simp only [Header.frame, decide_eq_true_eq, List.mem_map, not_exists, not_and]
      intro older older_mem
      have := (List.pairwise_append.mp increasing).2.2 older older_mem header header_mem
      omega
    rw [removed, remaining, List.nil_append]
  refine
    { delivered := ?_
      increasing := commits ▸ delivers.increasing
      committed_lt := by rw [commits, nextId]; exact delivers.committed_lt
      read_lt := reads ▸ delivers.read_lt
      missed_lt := ?_
      nothingDiscarded := by rw [history]; exact delivers.nothingDiscarded }
  · rw [reads, commits, missed, awaited]
    exact filter_evicted delivers.delivered unread
  · intro other other_mem
    rw [missed] at other_mem
    rw [nextId]
    rcases List.mem_append.mp other_mem with removed | earlier
    · rcases List.mem_map.mp (List.mem_of_mem_filter removed) with ⟨header, header_mem, rfl⟩
      exact valid.messageId_lt (by simp [split, header_mem])
    · exact delivers.missed_lt other earlier

end World.Delivers

theorem history_suffix {config : ChannelConfig} {world next : World} {action : Action}
    (stepped : step config world action = some next) : world.history <:+ next.history := by
  cases World.call_of_step stepped with
  | publisher =>
      unfold World.publisher
      split
      · exact List.suffix_rfl
      · exact List.suffix_cons _ _
  | dropPublisher =>
      exact List.suffix_rfl
  | subscriber =>
      unfold World.subscriber
      split
      · exact List.suffix_rfl
      · exact List.suffix_cons _ _
  | clear =>
      exact List.suffix_rfl
  | grant maxSz cx =>
      have same : (world.grant config maxSz cx).history = world.history := by
        rw [World.grant, World.history_addWriter]
      exact same ▸ List.suffix_rfl
  | grantImmediate =>
      exact List.suffix_cons _ _
  | write | setPid | toCommit =>
      exact List.suffix_rfl
  | commit | dropWriter =>
      exact List.suffix_append _ _
  | read =>
      unfold World.read
      split
      · exact List.suffix_cons _ _
      · exact List.suffix_rfl
  | autoRelease | bufMut | release | dropReader | leakReader | dropSubscriber =>
      exact List.suffix_rfl

namespace World.Unused

variable {config : ChannelConfig} {world next : World}

theorem releaseInner (unused : world.Unused) (grant : FrameGrantR) :
    world.inner.releaseInner grant = world.inner := by
  simp [State.releaseInner, unused.empty]

theorem step {action : Action} (unused : world.Unused) (notPublisher : action ≠ .publisher)
    (stepped : Pubsub.step config world action = some next) : next.Unused := by
  rcases unused with ⟨noPublisher, empty, noWriter⟩
  cases World.call_of_step stepped with
  | publisher => exact absurd rfl notPublisher
  | dropPublisher taken => simp [noPublisher] at taken
  | subscriber =>
      unfold World.subscriber
      split <;> exact ⟨noPublisher, empty, noWriter⟩
  | clear =>
      exact ⟨noPublisher, rfl, noWriter⟩
  | grant _ _ taken | grantImmediate _ taken => simp [noPublisher] at taken
  | write _ _ _ _ live | setPid _ _ _ live | toCommit _ _ _ live | commit _ _ _ live
  | dropWriter _ _ live => simp [noWriter] at live
  | read _ cx reader =>
      have nothing : world.inner.readWithContext config reader cx =
          ({ world.inner with wakers := world.inner.wakers.registerSubscriber config cx },
            world.inner.catchUp reader, .error .insufficientSize) := by
        simp [State.readWithContext, empty]
      simp only [World.read, nothing]
      exact ⟨noPublisher, empty, noWriter⟩
  | autoRelease | bufMut =>
      exact ⟨noPublisher, empty, noWriter⟩
  | release _ grant | dropReader _ grant =>
      have same := releaseInner ⟨noPublisher, empty, noWriter⟩ grant
      exact ⟨by simp [World.release, same, noPublisher], by simp [World.release, same, empty],
        noWriter⟩
  | leakReader =>
      exact ⟨noPublisher, empty, noWriter⟩
  | dropSubscriber _ reader =>
      rcases world.inner.dropSubscriber_frame reader with ⟨_, _, _, taken, _⟩
      refine ⟨taken.trans noPublisher, ?_, noWriter⟩
      rcases world.inner.dropSubscriber_cases reader with ⟨_, messages⟩ | ⟨_, messages⟩
      · exact messages.trans (by simp [State.countOff, State.popExhausted, empty])
      · exact messages.trans empty

end World.Unused

namespace World.Broadcasts

variable {config : ChannelConfig} {capacity : ℕ} {world next : World}

theorem of_unnoticed (broadcasts : world.Broadcasts)
    (history : next.history = world.history)
    (nextId : next.inner.nextMessageId = world.inner.nextMessageId)
    (subscribers : ∀ id subscriber, next.subscribers.get? id = some subscriber →
      world.subscribers.get? id = some subscriber)
    (awaited : ∀ id subscriber, next.subscribers.get? id = some subscriber →
      awaitedFrames next.buf subscriber next.inner.messages =
        awaitedFrames world.buf subscriber world.inner.messages) :
    next.Broadcasts := by
  intro id subscriber live
  exact (broadcasts id subscriber (subscribers id subscriber live)).of_unnoticed
    (by rw [history]) (by rw [history]) (by rw [history]) (by rw [history]) nextId
    (Nat.le_refl _) (awaited id subscriber live)

theorem of_eq (broadcasts : world.Broadcasts) (history : next.history = world.history)
    (nextId : next.inner.nextMessageId = world.inner.nextMessageId)
    (subscribers : next.subscribers = world.subscribers) (buf : next.buf = world.buf)
    (messages : next.inner.messages = world.inner.messages) : next.Broadcasts :=
  broadcasts.of_unnoticed history nextId (fun _ _ live => subscribers ▸ live)
    fun _ _ _ => by rw [buf, messages]

theorem addWriter (broadcasts : world.Broadcasts) {inner : State}
    {result : Except Error FrameGrantW} (messages : inner.messages = world.inner.messages)
    (nextId : inner.nextMessageId = world.inner.nextMessageId) :
    (world.addWriter inner result).Broadcasts := by
  cases result with
  | ok grant => exact broadcasts.of_eq rfl nextId rfl rfl messages
  | error error => exact broadcasts.of_eq rfl nextId rfl rfl messages

theorem publisher (broadcasts : world.Broadcasts)
    (unused : world.inner.publisherTaken = false → world.Unused) : world.publisher.Broadcasts := by
  unfold World.publisher
  split
  · exact broadcasts
  · rename_i notTaken
    have empty := (unused (by simpa using notTaken)).empty
    intro id subscriber live
    exact (broadcasts id subscriber live).of_unnoticed rfl rfl rfl rfl rfl (Nat.le_refl _)
      (by simp only [empty]; rfl)

theorem subscriber (invariant : world.Invariant config capacity) (broadcasts : world.Broadcasts) :
    (world.subscriber config).Broadcasts := by
  unfold World.subscriber
  split
  · exact broadcasts
  · intro id subscriber live
    rw [Table.get?_insert] at live
    split at live
    · rename_i newest
      subst newest
      simp only [Option.some.injEq] at live
      subst live
      have nothing : awaitedFrames world.buf ⟨world.inner.nextMessageId⟩ world.inner.messages = [] := by
        apply awaitedFrames_eq_nil
        intro header header_mem
        have := invariant.valid.messageId_lt header_mem
        simp only [FrameSubscriber.awaits, decide_eq_false_iff_not]
        omega
      have history : ∀ events,
          readsOf world.subscribers.next (.subscribed world.subscribers.next :: events) = [] ∧
          commitsAfter world.subscribers.next (.subscribed world.subscribers.next :: events) = [] ∧
          missedBy world.subscribers.next (.subscribed world.subscribers.next :: events) = [] ∧
          discardsAfter world.subscribers.next
            (.subscribed world.subscribers.next :: events) = [] := by
        simp [readsOf, commitsAfter, missedBy, discardsAfter]
      rcases history world.history with ⟨reads, commits, missed, discards⟩
      exact
        { delivered := by simp only [reads, commits, nothing, List.filter_nil, List.append_nil]
          increasing := by simp [commits]
          committed_lt := by simp [commits]
          read_lt := by simp [reads]
          missed_lt := by simp [missed]
          nothingDiscarded := discards }
    · rename_i different
      have other : ¬world.subscribers.next = id := fun same => different same.symm
      exact (broadcasts id subscriber live).of_unnoticed (by simp [readsOf, other])
        (by simp [commitsAfter, other]) (by simp [missedBy, other]) (by simp [discardsAfter, other])
        rfl (Nat.le_refl _) rfl

theorem grant (broadcasts : world.Broadcasts) (maxSz : ℕ) (cx : Option Waker) :
    (world.grant config maxSz cx).Broadcasts :=
  broadcasts.addWriter (State.messages_grantWithContext config world.inner maxSz cx)
    (State.nextMessageId_grantWithContext config world.inner maxSz cx)

theorem grantImmediate (invariant : world.Invariant config capacity)
    (broadcasts : world.Broadcasts) (maxSz : ℕ) :
    (world.grantImmediate config maxSz).Broadcasts := by
  rcases called : world.inner.grantImmediate config maxSz with ⟨inner, result⟩
  rcases State.grantImmediate_eq called with ⟨gone, kept, split, _, outcome⟩
  have inner_eq : inner.messages = kept ∧ inner.nextMessageId = world.inner.nextMessageId := by
    rcases outcome with ⟨rfl, _⟩ | granted
    · exact ⟨rfl, rfl⟩
    · have messages :=
        State.messages_grantWithContext config { world.inner with messages := kept } maxSz none
      have nextId :=
        State.nextMessageId_grantWithContext config { world.inner with messages := kept } maxSz none
      rw [granted] at messages nextId
      exact ⟨messages, nextId⟩
  rcases inner_eq with ⟨messages, nextId⟩
  have removed : removedIds world.inner.messages inner.messages = gone.map Header.messageId := by
    simp [removedIds, messages, split]
  have same : ∀ world' : World, world' = world.addWriter inner result →
      world'.subscribers = world.subscribers ∧ world'.buf = world.buf ∧
        world'.inner = inner := by
    rintro _ rfl
    cases result <;> exact ⟨rfl, rfl, rfl⟩
  rcases same _ rfl with ⟨subscribers, buf, inner_eq⟩
  simp only [World.grantImmediate, called, removed]
  intro id subscriber live
  change (world.addWriter inner result).subscribers.get? id = some subscriber at live
  refine (broadcasts id subscriber (subscribers ▸ live)).evict invariant.valid split rfl buf ?_ ?_
  · change (world.addWriter inner result).inner.messages = kept
    rw [inner_eq, messages]
  · change (world.addWriter inner result).inner.nextMessageId = world.inner.nextMessageId
    rw [inner_eq, nextId]

/-- A byte stored through the write grant lies in no queued frame. -/
theorem write {writer offset : ℕ} {grant : FrameGrantW} (invariant : world.Invariant config capacity)
    (broadcasts : world.Broadcasts) (live : world.writers.get? writer = some grant)
    (inside : offset < grant.len) (byte : UInt8) :
    ({ world with buf := store world.buf (grant.start + offset) byte } : World).Broadcasts := by
  have layout := invariant.writer_layout writer grant live
  have disjoint := (List.pairwise_append.mp layout.pairwise_disjoint).2.2
  refine broadcasts.of_unnoticed rfl rfl (fun _ _ live => live) ?_
  intro id subscriber _
  apply awaitedFrames_store
  intro header header_mem inHeader
  have queued : header.region ∈ world.inner.regions := List.mem_map_of_mem header_mem
  refine disjoint header.region queued grant.region (by simp) _ inHeader ?_
  rw [Region.mem_iff]
  simp only [FrameGrantW.region]
  omega

/-- A committed message is queued with its bytes when its length fits into the header. -/
theorem commit {writer : ℕ} {grant : FrameGrantW} (invariant : world.Invariant config capacity)
    (broadcasts : world.Broadcasts) (small : capacity ≤ 65535)
    (live : world.writers.get? writer = some grant) (used : ℕ) :
    (world.commit config writer grant used).Broadcasts := by
  have writing := invariant.writer_writes writer grant live
  have layout := invariant.writer_layout writer grant live
  have short := layout.inBounds grant.region (by simp)
  rw [invariant.fixed] at short
  simp only [FrameGrantW.region, Region.finish] at short
  rcases State.commitInner_cases grant used writing (invariant.room writing) with
    ⟨no_subscriber, committed⟩ | ⟨_, committed⟩
  all_goals
    simp only [World.commit, committed]
    intro id subscriber subscribed
  · have := Table.count_pos_of_get? (fun _ => true) subscribed rfl
    have := invariant.counted
    simp only at *
    omega
  · refine (broadcasts id subscriber subscribed).commit
      (invariant.current id subscriber subscribed) rfl rfl rfl rfl rfl ?_
    have fits : min grant.len used % 65536 = min grant.len used := Nat.mod_eq_of_lt (by omega)
    simp [Header.frame, Header.region, State.commitHeader, fits]

theorem read {id : ℕ} {reader : FrameSubscriber} (invariant : world.Invariant config capacity)
    (broadcasts : world.Broadcasts) (live : world.subscribers.get? id = some reader)
    (cx : Option Waker) : (world.read config id reader cx).Broadcasts := by
  rcases called : world.inner.readWithContext config reader cx with ⟨inner, reader', result⟩
  simp only [World.read, called]
  have caught : awaitedFrames world.buf (world.inner.catchUp reader) world.inner.messages =
      awaitedFrames world.buf reader world.inner.messages :=
    awaitedFrames_congr_subscriber fun header header_mem =>
      invariant.awaits_catchUp reader header_mem
  have ahead : reader.nextMessageId ≤ (world.inner.catchUp reader).nextMessageId := by
    unfold State.catchUp
    split
    · rename_i lagging
      exact Nat.le_of_lt lagging
    · exact Nat.le_refl _
  cases result with
  | error error =>
      rcases State.readWithContext_eq_error called with ⟨rfl, rfl⟩
      intro other subscriber live'
      change (world.subscribers.replace id _).get? other = some subscriber at live'
      rw [Table.get?_replace live] at live'
      split at live'
      · rename_i here
        simp only [Option.some.injEq] at live'
        subst here live'
        exact (broadcasts other reader live).of_unnoticed rfl rfl rfl rfl rfl ahead caught
      · exact (broadcasts other subscriber live').of_unnoticed rfl rfl rfl rfl rfl
          (Nat.le_refl _) rfl
  | ok grant =>
      rcases State.readWithContext_eq_ok called with
        ⟨index, header, found, _, index_eq, rfl, rfl, rfl⟩
      have header_mem := List.mem_of_getElem? found
      have read_id : header.messageId = (world.inner.catchUp reader).nextMessageId :=
        invariant.messageId_of_read reader (index_eq ▸ found)
      have keys : ∀ subscriber, awaitedFrames world.buf subscriber
          (world.inner.messages.set index header.startRead) =
            awaitedFrames world.buf subscriber world.inner.messages := fun subscriber =>
        awaitedFrames_congr (State.map_key_set found header.key_startRead)
      intro other subscriber live'
      change (world.subscribers.replace id _).get? other = some subscriber at live'
      rw [Table.get?_replace live] at live'
      split at live'
      · rename_i here
        simp only [Option.some.injEq] at live'
        subst here live'
        rw [← read_id]
        refine (broadcasts other reader live).read (by omega) rfl rfl ?_
        change _ = _ :: awaitedFrames world.buf _
          (world.inner.messages.set index header.startRead)
        rw [keys, ← caught, ← awaitedFrames_cons invariant.valid.increasing header_mem, read_id]
      · rename_i different
        have notOther : ¬id = other := fun same => different same.symm
        refine (broadcasts other subscriber live').of_unnoticed ?_ rfl rfl rfl rfl
          (Nat.le_refl _) (keys subscriber)
        simp [readsOf, notOther]

/-- A frame is released from the queue only when nobody has still to read it. -/
theorem release {reader : ℕ} {grant : FrameGrantR} (invariant : world.Invariant config capacity)
    (broadcasts : world.Broadcasts) : (world.release reader grant).Broadcasts := by
  unfold World.release
  rcases State.releaseInner_cases world.inner grant with
    same | ⟨header, rest, queue, _, _, exhausted, popped⟩ |
      ⟨index, header, found, _, _, _, flagged⟩
  · rw [same]
    exact broadcasts.of_eq rfl rfl rfl rfl rfl
  · rw [popped]
    refine broadcasts.of_unnoticed rfl rfl (fun _ _ live => live) ?_
    intro id subscriber live
    change world.subscribers.get? id = some subscriber at live
    have notAwaited : subscriber.awaits header.messageId = false := by
      have := invariant.awaited header (by simp [queue])
      exact Table.get?_eq_none_of_count_eq_zero (by omega) live
    simp [awaitedFrames, queue, notAwaited]
  · rw [flagged]
    exact broadcasts.of_unnoticed rfl rfl (fun _ _ live => live) fun _ _ _ =>
      awaitedFrames_congr (State.map_key_set found header.key_endRead)

/-- Dropping a subscriber removes only frames that nobody else has still to read. -/
theorem dropSubscriber {id : ℕ} {reader : FrameSubscriber}
    (invariant : world.Invariant config capacity) (broadcasts : world.Broadcasts)
    (live : world.subscribers.get? id = some reader) :
    (world.dropSubscriber id reader).Broadcasts := by
  rcases world.inner.dropSubscriber_frame reader with ⟨_, _, nextId, _, _⟩
  refine broadcasts.of_unnoticed rfl nextId ?_ ?_
  · intro other subscriber live'
    change (world.subscribers.remove id).get? other = some subscriber at live'
    rw [Table.get?_remove] at live'
    split at live'
    · simp at live'
    · exact live'
  · intro other subscriber live'
    change (world.subscribers.remove id).get? other = some subscriber at live'
    change awaitedFrames world.buf subscriber (world.inner.dropSubscriber reader).messages = _
    rcases world.inner.dropSubscriber_cases reader with ⟨inQueue, messages⟩ | ⟨_, messages⟩
    · rcases State.exists_popped (world.inner.countOff reader) with ⟨popped, split, exhausted⟩
      rw [messages, ← awaitedFrames_congr (State.map_key_countOff world.inner reader)]
      conv_rhs => rw [split, awaitedFrames_append]
      have nothing : awaitedFrames world.buf subscriber popped = [] := by
        apply awaitedFrames_eq_nil
        intro header header_mem
        have := exhausted header header_mem
        have := invariant.awaited_countOff live inQueue header
          (by rw [split]; exact List.mem_append_left _ header_mem)
        exact Table.get?_eq_none_of_count_eq_zero (by omega) live'
      rw [nothing, List.nil_append]
    · rw [messages]

/-- Every call keeps the log, when the buffer is zeroed only before it is used. -/
theorem step {action : Action} (small : capacity ≤ 65535)
    (invariant : world.Invariant config capacity) (broadcasts : world.Broadcasts)
    (unused : action = .publisher → world.inner.publisherTaken = false → world.Unused)
    (noClear : action ≠ .clear) (noBufMut : ∀ reader offset byte, action ≠ .bufMut reader offset byte)
    (stepped : Pubsub.step config world action = some next) : next.Broadcasts := by
  cases World.call_of_step stepped with
  | publisher =>
      exact broadcasts.publisher (unused rfl)
  | dropPublisher =>
      exact broadcasts.of_eq rfl rfl rfl rfl rfl
  | subscriber =>
      exact broadcasts.subscriber invariant
  | clear => exact absurd rfl noClear
  | grant maxSz cx =>
      exact broadcasts.grant maxSz cx
  | grantImmediate maxSz =>
      exact broadcasts.grantImmediate invariant maxSz
  | write _ _ byte _ live inside =>
      exact broadcasts.write invariant live inside byte
  | setPid | toCommit =>
      exact broadcasts.of_eq rfl rfl rfl rfl rfl
  | commit _ used _ live =>
      exact broadcasts.commit invariant small live used
  | dropWriter _ grant live =>
      exact broadcasts.commit invariant small live grant.toCommit
  | read _ cx _ live =>
      exact broadcasts.read invariant live cx
  | autoRelease =>
      exact broadcasts.of_eq rfl rfl rfl rfl rfl
  | bufMut reader offset byte => exact absurd rfl (noBufMut reader offset byte)
  | release | dropReader =>
      exact broadcasts.release invariant
  | leakReader =>
      exact broadcasts.of_eq rfl rfl rfl rfl rfl
  | dropSubscriber _ _ live =>
      exact broadcasts.dropSubscriber invariant live

end World.Broadcasts

/-- What holds along a run in which the publisher is created at most once. -/
structure World.BroadcastsOnce (config : ChannelConfig) (capacity : ℕ) (world : World) : Prop where
  invariant : world.Invariant config capacity
  unused : .published ∉ world.history → world.Unused
  broadcasts : world.history.count .published ≤ 1 → world.Broadcasts

namespace World.BroadcastsOnce

variable {config : ChannelConfig} {capacity : ℕ} {world next : World}

theorem new (config : ChannelConfig) (capacity : ℕ) :
    (World.new capacity).BroadcastsOnce config capacity where
  invariant := World.Invariant.new config capacity
  unused := fun _ => ⟨rfl, rfl, fun _ => rfl⟩
  broadcasts := by
    intro _ id subscriber live
    simp [World.new] at live

theorem publisher_history (notTaken : world.inner.publisherTaken = false) :
    world.publisher.history = .published :: world.history := by
  simp [World.publisher, notTaken]

theorem step {action : Action} (small : capacity ≤ 65535)
    (once : world.BroadcastsOnce config capacity)
    (noClear : action ≠ .clear) (noBufMut : ∀ reader offset byte, action ≠ .bufMut reader offset byte)
    (stepped : Pubsub.step config world action = some next) :
    next.BroadcastsOnce config capacity := by
  have grows := history_suffix stepped
  refine ⟨once.invariant.step stepped, ?_, ?_⟩
  · intro unpublished
    have unused := once.unused fun published => unpublished (grows.subset published)
    refine unused.step ?_ stepped
    rintro rfl
    simp only [Pubsub.step, Option.some.injEq] at stepped
    rw [← stepped, publisher_history unused.noPublisher] at unpublished
    simp at unpublished
  · intro atMostOne
    have before := Nat.le_trans (grows.sublist.count_le .published) atMostOne
    refine (once.broadcasts before).step small once.invariant ?_ noClear noBufMut stepped
    rintro rfl notTaken
    simp only [Pubsub.step, Option.some.injEq] at stepped
    rw [← stepped, publisher_history notTaken, List.count_cons_self] at atMostOne
    exact once.unused (List.count_eq_zero.mp (by omega))

end World.BroadcastsOnce

/-- Broadcast delivery. In every run on a buffer of at most 65535 bytes without `clear` and
`buf_mut` in which the publisher is created at most once, a subscriber has read, with their
committed bytes and in strictly increasing commit order, the frames committed after its creation
that it did not miss, up to those that it will still read from the queue; and none of them was
discarded. -/
theorem broadcast_delivery {config : ChannelConfig} {capacity : ℕ} {actions : List Action}
    {world : World} (small : capacity ≤ 65535) (noClear : Action.clear ∉ actions)
    (noBufMut : ∀ reader offset byte, Action.bufMut reader offset byte ∉ actions)
    (reached : runFrom config capacity actions = some world)
    (publishedOnce : world.history.count .published ≤ 1) {id : ℕ} {subscriber : FrameSubscriber}
    (live : world.subscribers.get? id = some subscriber) :
    readsOf id world.history ++ awaitedFrames world.buf subscriber world.inner.messages =
        (commitsAfter id world.history).filter (fun frame => frame.id ∉ missedBy id world.history) ∧
      ((commitsAfter id world.history).map Frame.id).Pairwise (· < ·) ∧
      ((readsOf id world.history).map Frame.id).Pairwise (· < ·) ∧
      discardsAfter id world.history = [] := by
  have allowed : Execution.Guarded (step config) (fun _ action => action ≠ .clear ∧
      ∀ reader offset byte, action ≠ .bufMut reader offset byte) (World.new capacity) actions :=
    Execution.guarded_of_forall fun _ action action_mem =>
      ⟨fun isClear => noClear (isClear ▸ action_mem),
        fun reader offset byte isBufMut => noBufMut reader offset byte (isBufMut ▸ action_mem)⟩
  have once := Execution.invariant_of_guarded (World.BroadcastsOnce config capacity)
    (fun guard once stepped => once.step small guard.1 guard.2 stepped) allowed
    (World.BroadcastsOnce.new config capacity) reached
  have delivers := once.broadcasts publishedOnce id subscriber live
  refine ⟨delivers.delivered, delivers.increasing, ?_, delivers.nothingDiscarded⟩
  have read_sublist : (readsOf id world.history).Sublist (commitsAfter id world.history) := by
    refine List.Sublist.trans ?_ (delivers.delivered ▸ List.filter_sublist)
    exact List.sublist_append_left _ _
  exact delivers.increasing.sublist (read_sublist.map Frame.id)

/-- A subscriber that reads one frame, misses the next one and still awaits the last one. -/
theorem broadcast_delivery_example :
    ∃ world, runFrom ⟨4, 2⟩ 8 [.publisher, .subscriber, .grant 2 none, .write 0 1 7, .commit 0 2,
        .read 0 none, .release 0, .grant 3 none, .commit 1 3, .grantImmediate 8, .write 2 0 9,
        .commit 2 1] = some world ∧
      readsOf 0 world.history = [⟨0, [0, 7]⟩] ∧ missedBy 0 world.history = [1] ∧
      readsOf 0 world.history ++ awaitedFrames world.buf ⟨1⟩ world.inner.messages =
        (commitsAfter 0 world.history).filter (fun frame => frame.id ∉ missedBy 0 world.history) := by
  rcases reached : runFrom ⟨4, 2⟩ 8 [.publisher, .subscriber, .grant 2 none, .write 0 1 7,
    .commit 0 2, .read 0 none, .release 0, .grant 3 none, .commit 1 3, .grantImmediate 8,
    .write 2 0 9, .commit 2 1] with _ | world
  · exact absurd reached (by decide)
  · have delivery := broadcast_delivery (by decide) (by decide) (by simp) reached
    cases reached
    exact ⟨_, rfl, by decide, by decide, (delivery (by decide) rfl).1⟩

end Mqttrust.Pubsub
