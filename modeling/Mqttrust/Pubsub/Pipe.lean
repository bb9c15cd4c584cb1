import Mqttrust.Pubsub.Broadcast
import Mqttrust.Pubsub.ReadGrants

/-!
# A channel with one subscriber

The TX channel has one publisher and one subscriber, both created before anything
is written, and its users neither clear it nor evict messages. Such a channel is a
pipe: what was read and what is still queued is what was committed, in this order.
A write grant that is dropped commits an empty message. Until a read grant is
released its bytes do not change, and until a write grant is committed only its
holder changes the bytes of the buffer.
-/

namespace Mqttrust.Pubsub

/-- The stores of some bytes through a write grant, from an offset on. -/
def stores (writer : ℕ) : ℕ → List UInt8 → List Action
  | _, [] => []
  | offset, byte :: rest => .write writer offset byte :: stores writer (offset + 1) rest

/-- The buffer with some bytes stored from an address on. -/
def fill (buf : ℕ → UInt8) : ℕ → List UInt8 → ℕ → UInt8
  | _, [] => buf
  | address, byte :: rest => fill (store buf address byte) (address + 1) rest

@[simp]
theorem length_bytesAt (buf : ℕ → UInt8) (region : Region) :
    (bytesAt buf region).length = region.len := by
  simp [bytesAt]

theorem bytesAt_succ (buf : ℕ → UInt8) (start len : ℕ) :
    bytesAt buf ⟨start, len + 1⟩ = buf start :: bytesAt buf ⟨start + 1, len⟩ := by
  simp only [bytesAt, List.range_succ_eq_map, List.map_cons, List.map_map, Nat.add_zero,
    List.cons.injEq, true_and]
  apply List.map_congr_left
  intro offset _
  simp only [Function.comp_apply]
  congr 1
  omega

theorem bytesAt_take (buf : ℕ → UInt8) {start len used : ℕ} (shorter : used ≤ len) :
    bytesAt buf ⟨start, used⟩ = (bytesAt buf ⟨start, len⟩).take used := by
  simp only [bytesAt, ← List.map_take, List.take_range, Nat.min_eq_left shorter]

theorem fill_before {buf : ℕ → UInt8} {start address : ℕ} (bytes : List UInt8)
    (before : address < start) : fill buf start bytes address = buf address := by
  induction bytes generalizing buf start with
  | nil => rfl
  | cons byte rest ih =>
      rw [fill, ih (by omega)]
      exact if_neg (by omega)

theorem bytesAt_fill (buf : ℕ → UInt8) (start : ℕ) (bytes : List UInt8) :
    bytesAt (fill buf start bytes) ⟨start, bytes.length⟩ = bytes := by
  induction bytes generalizing buf start with
  | nil => rfl
  | cons byte rest ih =>
      rw [List.length_cons, bytesAt_succ, fill, ih, fill_before _ (Nat.lt_succ_self _)]
      simp [store]

/-- What the users of a pipe do with it, once it is set up. -/
def Action.isFlow : Action → Bool
  | .grant _ _ | .write _ _ _ | .setPid _ _ | .commit _ _ | .dropWriter _ => true
  | .read id _ => id == 0
  | .release _ | .dropReader _ => true
  | _ => false

/-- A call of the publisher's side that commits nothing. -/
def Action.isFilling : Action → Bool
  | .grant _ _ | .write _ _ _ | .setPid _ _ => true
  | _ => false

/-- A channel with its publisher and its only subscriber. -/
def World.newPipe (config : ChannelConfig) (capacity : ℕ) : World :=
  ((World.new capacity).subscriber config).publisher

/-- The invariant of a pipe. -/
structure World.Pipe (config : ChannelConfig) (capacity : ℕ) (world : World) : Prop where
  once : world.BroadcastsOnce config capacity
  publishedOnce : world.history.count .published ≤ 1
  held : world.ReadsHeld
  subscriber : ∃ subscriber, world.subscribers.get? 0 = some subscriber
  /-- Nothing is evicted. -/
  kept : missedBy 0 world.history = []
  /-- A grant that is not committed commits nothing. -/
  toCommit : ∀ writer grant, world.writers.get? writer = some grant → grant.toCommit = 0
  autoRelease : ∀ reader grant, world.readers.get? reader = some grant →
    grant.autoRelease = true
  leaked : world.leaked = []

namespace World

variable {config : ChannelConfig} {capacity : ℕ} {world next : World}

/-- What a call does to a pipe. -/
inductive Flow (config : ChannelConfig) (world : World) : Action → World → Prop where
  | refused {maxSz : ℕ} {cx : Option Waker} (inner : State) :
      Flow config world (.grant maxSz cx) { world with inner := inner }
  | granted {maxSz : ℕ} {cx : Option Waker} (inner : State) (grant : FrameGrantW)
      (alone : ∀ writer, world.writers.get? writer = none) (fresh : grant.toCommit = 0) :
      Flow config world (.grant maxSz cx)
        { world with inner := inner, writers := world.writers.insert grant }
  | write {writer offset : ℕ} {byte : UInt8} (grant : FrameGrantW)
      (live : world.writers.get? writer = some grant) (inside : offset < grant.len) :
      Flow config world (.write writer offset byte)
        { world with buf := store world.buf (grant.start + offset) byte }
  | setPid {writer pid : ℕ} (grant : FrameGrantW)
      (live : world.writers.get? writer = some grant) :
      Flow config world (.setPid writer pid)
        { world with writers := world.writers.replace writer { grant with pid := pid } }
  | commit {action : Action} {writer : ℕ} (inner : State) (grant : FrameGrantW) (used : ℕ)
      (live : world.writers.get? writer = some grant)
      (isCommit : action = .commit writer used ∨ action = .dropWriter writer ∧ used = 0) :
      Flow config world action
        { world with
          inner := inner
          writers := world.writers.remove writer
          history := .committed ⟨world.inner.nextMessageId,
            bytesAt world.buf ⟨grant.start, min grant.len used⟩⟩ :: world.history }
  | waits {subscriber : ℕ} {cx : Option Waker} (inner : State) (reader : FrameSubscriber) :
      Flow config world (.read subscriber cx)
        { world with
          inner := inner, subscribers := world.subscribers.replace subscriber reader }
  | read {subscriber : ℕ} {cx : Option Waker} (inner : State) (reader : FrameSubscriber)
      (grant : FrameGrantR) (auto : grant.autoRelease = true) :
      Flow config world (.read subscriber cx)
        { world with
          inner := inner
          subscribers := world.subscribers.replace subscriber reader
          readers := world.readers.insert grant
          history :=
            .delivered subscriber ⟨grant.messageId, bytesAt world.buf grant.region⟩ ::
              world.history }
  | release {action : Action} {reader : ℕ} (inner : State) (grant : FrameGrantR)
      (live : world.readers.get? reader = some grant)
      (isRelease : action = .release reader ∨ action = .dropReader reader) :
      Flow config world action
        { world with inner := inner, readers := world.readers.remove reader }

namespace Pipe

theorem grant_flow (pipe : world.Pipe config capacity) (maxSz : ℕ) (cx : Option Waker) :
    Flow config world (.grant maxSz cx) (world.grant config maxSz cx) := by
  rcases called : world.inner.grantWithContext config maxSz cx with ⟨inner, result⟩
  simp only [World.grant, called]
  cases result with
  | error error => exact .refused inner
  | ok grant =>
      rcases State.grantWithContext_eq_ok called with ⟨idle, _, _, _, rfl⟩
      refine .granted inner _ ?_ rfl
      intro writer
      rcases live : world.writers.get? writer with _ | other
      · rfl
      · have writing := pipe.once.invariant.writer_writes writer other live
        simp [idle] at writing

/-- The subscriber is there, so a commit is queued. -/
theorem commit_eq (pipe : world.Pipe config capacity) {writer : ℕ} {grant : FrameGrantW}
    (live : world.writers.get? writer = some grant) (used : ℕ) :
    ∃ inner, world.commit config writer grant used =
      { world with
        inner := inner
        writers := world.writers.remove writer
        history := .committed ⟨world.inner.nextMessageId,
          bytesAt world.buf ⟨grant.start, min grant.len used⟩⟩ :: world.history } := by
  have invariant := pipe.once.invariant
  have writing := invariant.writer_writes writer grant live
  rcases pipe.subscriber with ⟨subscriber, subscribed⟩
  have counted := Table.count_pos_of_get? (fun _ => true) subscribed rfl
  rw [← invariant.counted] at counted
  rcases State.commitInner_cases grant used writing (invariant.room writing) with
    ⟨noneLeft, _⟩ | ⟨_, committed⟩
  · omega
  · refine ⟨(world.inner.commitInner config grant used).1, ?_⟩
    simp only [World.commit, committed, commitEvents, State.commitHeader, List.singleton_append]

theorem flow_of_step {action : Action} (pipe : world.Pipe config capacity)
    (isFlow : action.isFlow = true) (stepped : Pubsub.step config world action = some next) :
    Flow config world action next := by
  cases World.call_of_step stepped with
  | grant maxSz cx =>
      exact pipe.grant_flow maxSz cx
  | write _ _ _ grant live inside =>
      exact .write grant live inside
  | setPid _ _ grant live =>
      exact .setPid grant live
  | commit _ used grant live =>
      rcases pipe.commit_eq live used with ⟨inner, committed⟩
      rw [committed]
      exact .commit inner grant used live (.inl rfl)
  | dropWriter writer grant live =>
      rcases pipe.commit_eq live grant.toCommit with ⟨inner, committed⟩
      rw [committed, pipe.toCommit writer grant live]
      exact .commit inner grant 0 live (.inr ⟨rfl, rfl⟩)
  | read _ cx reader =>
      rcases called : world.inner.readWithContext config reader cx with ⟨inner, reader', result⟩
      simp only [World.read, called]
      cases result with
      | error error => exact .waits inner reader'
      | ok grant =>
          rcases State.readWithContext_eq_ok called with ⟨index, header, _, _, _, _, _, rfl⟩
          exact .read inner reader' header.readGrant rfl
  | release _ grant live =>
      exact .release _ grant (get?_of_reader? live) (.inl rfl)
  | dropReader _ grant live =>
      exact .release _ grant (get?_of_reader? live) (.inr rfl)
  | leakReader reader grant live notAuto =>
      have auto := pipe.autoRelease reader grant (get?_of_reader? live)
      simp [auto] at notAuto
  | _ => simp [Action.isFlow] at isFlow

theorem newPipe_eq (subs : 0 < config.subs % 256) :
    newPipe config capacity =
      { World.new capacity with
        inner := { State.new capacity with subscriberCount := 1, publisherTaken := true }
        subscribers := Table.empty.insert ⟨0⟩
        history := [.published, .subscribed 0] } := by
  have notFull : ¬config.subs % 256 ≤ 0 := by omega
  simp only [newPipe, World.subscriber, World.publisher, World.new, State.new, notFull, if_false,
    Bool.false_eq_true, Table.next, Table.empty, List.length_nil, Nat.zero_add]

theorem new (subs : 0 < config.subs % 256) (small : capacity ≤ 65535) :
    (newPipe config capacity).Pipe config capacity := by
  have subscribes : Pubsub.step config (World.new capacity) .subscriber =
      some ((World.new capacity).subscriber config) := rfl
  have publishes : Pubsub.step config ((World.new capacity).subscriber config) .publisher =
      some (newPipe config capacity) := rfl
  have first := (BroadcastsOnce.new config capacity).step small (by simp) (by simp) subscribes
  have second := first.step small (by simp) (by simp) publishes
  have held := (ReadsHeld.new capacity).step (World.Invariant.new config capacity) (by simp)
    (by trivial) subscribes
  have held := held.step first.invariant (by simp) (by trivial) publishes
  refine ⟨second, ?_, held, ?_, ?_, ?_, ?_, ?_⟩
  all_goals
    rw [newPipe_eq subs]
  · change [Event.published, .subscribed 0].count .published ≤ 1
    decide
  · exact ⟨⟨0⟩, rfl⟩
  · rfl
  · simp [World.new]
  · simp [World.new]
  · rfl

theorem step {action : Action} (small : capacity ≤ 65535) (pipe : world.Pipe config capacity)
    (isFlow : action.isFlow = true) (stepped : Pubsub.step config world action = some next) :
    next.Pipe config capacity := by
  have flow := pipe.flow_of_step isFlow stepped
  have once := pipe.once.step small (by rintro rfl; simp [Action.isFlow] at isFlow)
    (by rintro _ _ _ rfl; simp [Action.isFlow] at isFlow) stepped
  have held := pipe.held.step pipe.once.invariant (by rintro rfl; simp [Action.isFlow] at isFlow)
    (by cases action <;> trivial) stepped
  rcases pipe.subscriber with ⟨subscriber, subscribed⟩
  cases flow with
  | refused inner =>
      exact ⟨once, pipe.publishedOnce, held, ⟨_, subscribed⟩, pipe.kept, pipe.toCommit,
        pipe.autoRelease, pipe.leaked⟩
  | granted inner grant alone fresh =>
      refine ⟨once, pipe.publishedOnce, held, ⟨_, subscribed⟩, pipe.kept, ?_, pipe.autoRelease,
        pipe.leaked⟩
      intro writer other live
      dsimp only at live
      rw [Table.get?_insert] at live
      split at live
      · exact Option.some.inj live ▸ fresh
      · exact pipe.toCommit writer other live
  | write grant live inside =>
      exact ⟨once, pipe.publishedOnce, held, ⟨_, subscribed⟩, pipe.kept, pipe.toCommit,
        pipe.autoRelease, pipe.leaked⟩
  | setPid grant live =>
      refine ⟨once, pipe.publishedOnce, held, ⟨_, subscribed⟩, pipe.kept, ?_, pipe.autoRelease,
        pipe.leaked⟩
      intro writer other live'
      dsimp only at live'
      rw [Table.get?_replace live] at live'
      split at live'
      · have nothing := pipe.toCommit _ grant live
        exact Option.some.inj live' ▸ nothing
      · exact pipe.toCommit writer other live'
  | commit inner grant used live isCommit =>
      refine ⟨once, ?_, held, ⟨_, subscribed⟩, pipe.kept, ?_, pipe.autoRelease, pipe.leaked⟩
      · rw [List.count_cons_of_ne (by simp)]
        exact pipe.publishedOnce
      · intro writer other live'
        dsimp only at live'
        rw [Table.get?_remove] at live'
        split at live'
        · simp at live'
        · exact pipe.toCommit writer other live'
  | @waits id cx inner reader =>
      have same : id = 0 := by simpa [Action.isFlow] using isFlow
      subst same
      refine ⟨once, pipe.publishedOnce, held, ⟨reader, ?_⟩, pipe.kept, pipe.toCommit,
        pipe.autoRelease, pipe.leaked⟩
      rw [Table.get?_replace subscribed, if_pos rfl]
  | @read id cx inner reader grant auto =>
      have same : id = 0 := by simpa [Action.isFlow] using isFlow
      subst same
      refine ⟨once, ?_, held, ⟨reader, ?_⟩, pipe.kept, pipe.toCommit, ?_, pipe.leaked⟩
      · rw [List.count_cons_of_ne (by simp)]
        exact pipe.publishedOnce
      · rw [Table.get?_replace subscribed, if_pos rfl]
      · intro handle other live
        dsimp only at live
        rw [Table.get?_insert] at live
        split at live
        · exact Option.some.inj live ▸ auto
        · exact pipe.autoRelease handle other live
  | release inner grant live isRelease =>
      refine ⟨once, pipe.publishedOnce, held, ⟨_, subscribed⟩, pipe.kept, pipe.toCommit, ?_,
        pipe.leaked⟩
      intro handle other live'
      dsimp only at live'
      rw [Table.get?_remove] at live'
      split at live'
      · simp at live'
      · exact pipe.autoRelease handle other live'

/-- What was read and what is still queued is what was committed. -/
theorem delivered (pipe : world.Pipe config capacity) :
    ∃ subscriber, world.subscribers.get? 0 = some subscriber ∧
      readsOf 0 world.history ++ awaitedFrames world.buf subscriber world.inner.messages =
        commitsAfter 0 world.history := by
  rcases pipe.subscriber with ⟨subscriber, subscribed⟩
  have delivers := pipe.once.broadcasts pipe.publishedOnce 0 subscriber subscribed
  refine ⟨subscriber, subscribed, ?_⟩
  rw [delivers.delivered, pipe.kept]
  simp

theorem mem_commits (pipe : world.Pipe config capacity) {frame : Frame}
    (read : frame ∈ readsOf 0 world.history) : frame ∈ commitsAfter 0 world.history := by
  rcases pipe.delivered with ⟨subscriber, _, delivered⟩
  rw [← delivered]
  exact List.mem_append_left _ read

/-- The bytes of a read grant are not granted to the writer. -/
theorem bytesAt_write (pipe : world.Pipe config capacity) {writer reader offset : ℕ}
    {write : FrameGrantW} {read : FrameGrantR} (writing : world.writers.get? writer = some write)
    (reading : world.readers.get? reader = some read) (inside : offset < write.len)
    (byte : UInt8) :
    bytesAt (store world.buf (write.start + offset) byte) read.region =
      bytesAt world.buf read.region := by
  have disjoint := pipe.held.grantsDisjoint pipe.once.invariant writer reader write read writing
    reading
  apply bytesAt_store
  apply disjoint
  rw [Region.mem_iff]
  simp only [FrameGrantW.region]
  omega

end Pipe

/-- What the publisher's side leaves to the subscriber: the read grants, their bytes and what was
read stay as they are, and some messages are committed. -/
structure Publishes (world : World) (added : List Frame) (next : World) : Prop where
  readers : next.readers = world.readers
  bytes : ∀ reader grant, world.readers.get? reader = some grant →
    bytesAt next.buf grant.region = bytesAt world.buf grant.region
  reads : readsOf 0 next.history = readsOf 0 world.history
  commits : commitsAfter 0 next.history = commitsAfter 0 world.history ++ added

namespace Publishes

theorem refl (world : World) : Publishes world [] world :=
  ⟨rfl, fun _ _ _ => rfl, rfl, (List.append_nil _).symm⟩

theorem trans {last : World} {earlier later : List Frame} (first : Publishes world earlier next)
    (second : Publishes next later last) : Publishes world (earlier ++ later) last where
  readers := second.readers.trans first.readers
  bytes := by
    intro reader grant live
    rw [second.bytes reader grant (first.readers ▸ live), first.bytes reader grant live]
  reads := second.reads.trans first.reads
  commits := by rw [second.commits, first.commits, List.append_assoc]

theorem of_isFilling {action : Action} (pipe : world.Pipe config capacity)
    (isFilling : action.isFilling = true)
    (stepped : Pubsub.step config world action = some next) : Publishes world [] next := by
  have isFlow : action.isFlow = true := by
    cases action <;> first | rfl | simp [Action.isFilling] at isFilling
  cases pipe.flow_of_step isFlow stepped with
  | refused | granted | setPid => exact ⟨rfl, fun _ _ _ => rfl, rfl, (List.append_nil _).symm⟩
  | write grant live inside =>
      refine ⟨rfl, ?_, rfl, (List.append_nil _).symm⟩
      intro reader other reading
      exact pipe.bytesAt_write live reading inside _
  | waits | read => simp [Action.isFilling] at isFilling
  | commit inner grant used live isCommit =>
      rcases isCommit with rfl | ⟨rfl, _⟩ <;> simp [Action.isFilling] at isFilling
  | release inner grant live isRelease =>
      rcases isRelease with rfl | rfl <;> simp [Action.isFilling] at isFilling

theorem of_commit (pipe : world.Pipe config capacity) {writer used : ℕ} {grant : FrameGrantW}
    (live : world.writers.get? writer = some grant)
    (stepped : Pubsub.step config world (.commit writer used) = some next) :
    Publishes world
      [⟨world.inner.nextMessageId, bytesAt world.buf ⟨grant.start, min grant.len used⟩⟩] next := by
  rcases pipe.commit_eq live used with ⟨inner, committed⟩
  simp only [Pubsub.step, live, Option.bind_eq_bind, Option.bind_some, Option.some.injEq,
    committed] at stepped
  subst stepped
  exact ⟨rfl, fun _ _ _ => rfl, rfl, rfl⟩

/-- A grant that is dropped commits an empty message. -/
theorem of_dropWriter (pipe : world.Pipe config capacity) {writer : ℕ}
    (stepped : Pubsub.step config world (.dropWriter writer) = some next) :
    Publishes world [⟨world.inner.nextMessageId, []⟩] next := by
  rcases Option.bind_eq_some_iff.mp stepped with ⟨grant, live, stepped⟩
  rcases pipe.commit_eq live 0 with ⟨inner, committed⟩
  rw [Option.some.injEq, pipe.toCommit writer grant live, committed, Nat.min_zero] at stepped
  subst stepped
  exact ⟨rfl, fun _ _ _ => rfl, rfl, rfl⟩

theorem of_stores (small : capacity ≤ 65535) (pipe : world.Pipe config capacity) {writer offset : ℕ}
    {bytes : List UInt8}
    (stored : Execution.run (Pubsub.step config) world (stores writer offset bytes) = some next) :
    next.Pipe config capacity ∧ Publishes world [] next := by
  induction bytes generalizing world offset with
  | nil =>
      simp only [stores, Execution.run_nil, Option.some.injEq] at stored
      exact stored ▸ ⟨pipe, .refl world⟩
  | cons byte rest ih =>
      rcases Execution.run_cons_eq_some.mp stored with ⟨middle, stepped, stored⟩
      rcases ih (pipe.step small rfl stepped) stored with ⟨pipe', second⟩
      exact ⟨pipe', (of_isFilling pipe rfl stepped).trans second⟩

/-- A run of stores changes the bytes of the grant alone. -/
theorem run_stores (config : ChannelConfig) {world : World} {writer : ℕ} {grant : FrameGrantW}
    (live : world.writers.get? writer = some grant) {offset : ℕ} {bytes : List UInt8}
    (fits : offset + bytes.length ≤ grant.len) :
    Execution.run (step config) world (stores writer offset bytes) =
      some { world with buf := fill world.buf (grant.start + offset) bytes } := by
  induction bytes generalizing world offset with
  | nil => rfl
  | cons byte rest ih =>
      rw [List.length_cons] at fits
      have stepped : step config world (.write writer offset byte) =
          some { world with buf := store world.buf (grant.start + offset) byte } := by
        simp only [step, live, Option.bind_eq_bind, Option.bind_some]
        exact if_pos (by omega)
      rw [stores, Execution.run_cons, stepped, Option.bind_some]
      rw [ih (by exact live) (by omega)]
      rfl

end Publishes

end World

end Mqttrust.Pubsub
