import Mqttrust.Foundation.Execution
import Mqttrust.Foundation.Table
import Mqttrust.Pubsub.Publisher
import Mqttrust.Pubsub.Subscriber

/-!
# A publish/subscribe channel and its users

A world is a channel together with everything that was handed out by it: the
subscribers, the write grants, the read grants that have not been released and
the bytes of the buffer they point into. An action is one call of the interface, so a run of actions is one
interleaving of the users of the channel.

The history records what the users observe, most recent first. No operation
reads it.
-/

namespace Mqttrust.Pubsub

/-- A committed message: its identifier and its bytes. -/
structure Frame where
  id : ℕ
  bytes : List UInt8
deriving DecidableEq, Repr

/-- What the users of a channel observe. -/
inductive Event where
  /-- A publisher was created. -/
  | published
  /-- A subscriber was created. -/
  | subscribed (subscriber : ℕ)
  /-- `grant_immediate` removed the messages with these identifiers. -/
  | evicted (ids : List ℕ)
  /-- A message was committed. -/
  | committed (frame : Frame)
  /-- Bytes were committed that nobody will read. -/
  | discarded (bytes : List UInt8)
  /-- A subscriber obtained a read grant for these bytes. -/
  | delivered (subscriber : ℕ) (frame : Frame)
deriving DecidableEq, Repr

/-- The bytes of the buffer in a region. -/
def bytesAt (buf : ℕ → UInt8) (region : Region) : List UInt8 :=
  (List.range region.len).map fun offset => buf (region.start + offset)

/-- Stores a byte at an address of the buffer. -/
def store (buf : ℕ → UInt8) (address : ℕ) (byte : UInt8) : ℕ → UInt8 :=
  fun other => if other = address then byte else buf other

/-- A channel and the objects that it has handed out. -/
structure World where
  inner : State
  buf : ℕ → UInt8
  subscribers : Table FrameSubscriber
  writers : Table FrameGrantW
  readers : Table FrameGrantR
  /-- The read grants that were dropped without being released. -/
  leaked : List ℕ
  history : List Event

/-- The calls of the interface of a channel. Objects are named by the order of their creation. -/
inductive Action where
  /-- `PubSubChannel::publisher`. -/
  | publisher
  /-- `FramePublisher::drop`. -/
  | dropPublisher
  /-- `PubSubChannel::subscriber`. -/
  | subscriber
  /-- `PubSubChannel::clear`. -/
  | clear
  /-- `FramePublisher::grant`, or a poll of the future of `grant_async` by a task. -/
  | grant (maxSz : ℕ) (cx : Option Waker)
  /-- `FramePublisher::grant_immediate`. -/
  | grantImmediate (maxSz : ℕ)
  /-- Stores a byte through the slice of a write grant. -/
  | write (writer : ℕ) (offset : ℕ) (byte : UInt8)
  /-- `FrameGrantW::set_pid`. -/
  | setPid (writer : ℕ) (pid : ℕ)
  /-- `FrameGrantW::to_commit`. -/
  | toCommit (writer : ℕ) (amt : ℕ)
  /-- `FrameGrantW::commit`. -/
  | commit (writer : ℕ) (used : ℕ)
  /-- `FrameGrantW::drop`. -/
  | dropWriter (writer : ℕ)
  /-- `FrameSubscriber::read`, or a poll of the future of `read_async` by a task. -/
  | read (subscriber : ℕ) (cx : Option Waker)
  /-- `FrameGrantR::auto_release`. -/
  | autoRelease (reader : ℕ) (isAuto : Bool)
  /-- Stores a byte through `FrameGrantR::buf_mut`. -/
  | bufMut (reader : ℕ) (offset : ℕ) (byte : UInt8)
  /-- `FrameGrantR::release`. -/
  | release (reader : ℕ)
  /-- `FrameGrantR::drop`. -/
  | dropReader (reader : ℕ)
  /-- `FrameSubscriber::drop`. -/
  | dropSubscriber (subscriber : ℕ)
deriving DecidableEq, Repr

namespace World

/-- A channel built by `PubSubChannel::new` for a buffer of `capacity` bytes. -/
def new (capacity : ℕ) : World where
  inner := State.new capacity
  buf := fun _ => 0
  subscribers := Table.empty
  writers := Table.empty
  readers := Table.empty
  leaked := []
  history := []

variable (config : ChannelConfig) (world : World)

/-- `PubSubChannel::publisher`: the buffer is zeroed for each new publisher. -/
def publisher : World :=
  if world.inner.publisherTaken then world
  else
    { world with
      inner := { world.inner with publisherTaken := true }
      buf := fun _ => 0
      history := .published :: world.history }

/-- `PubSubChannel::subscriber`; the limit is compared as a `u8`. -/
def subscriber : World :=
  if config.subs % 256 ≤ world.inner.subscriberCount then world
  else
    { world with
      inner := { world.inner with subscriberCount := world.inner.subscriberCount + 1 }
      subscribers := world.subscribers.insert ⟨world.inner.nextMessageId⟩
      history := .subscribed world.subscribers.next :: world.history }

/-- Hands out the write grant of a successful call. -/
def addWriter (inner : State) (result : Except Error FrameGrantW) : World :=
  match result with
  | .ok grant => { world with inner := inner, writers := world.writers.insert grant }
  | .error _ => { world with inner := inner }

@[simp]
theorem history_addWriter (inner : State) (result : Except Error FrameGrantW) :
    (world.addWriter inner result).history = world.history := by
  cases result <;> rfl

/-- `FramePublisher::grant`. -/
def grant (maxSz : ℕ) (cx : Option Waker) : World :=
  let (inner, result) := world.inner.grantWithContext config maxSz cx
  world.addWriter inner result

/-- The identifiers of the headers that a call removed from the front of the queue. -/
def removedIds (before after : List Header) : List ℕ :=
  (before.take (before.length - after.length)).map Header.messageId

/-- `FramePublisher::grant_immediate`. -/
def grantImmediate (maxSz : ℕ) : World :=
  let (inner, result) := world.inner.grantImmediate config maxSz
  { world.addWriter inner result with
    history := .evicted (removedIds world.inner.messages inner.messages) :: world.history }

/-- The events of a commit of some bytes. -/
def commitEvents (bytes : List UInt8) : Commit → List Event
  | .idle => []
  | .discarded | .noRoom => [.discarded bytes]
  | .queued header => [.committed ⟨header.messageId, bytes⟩]

/-- Commits a part of a write grant, which is consumed. -/
def commit (writer : ℕ) (grant : FrameGrantW) (used : ℕ) : World :=
  let (inner, outcome) := world.inner.commitInner config grant used
  { world with
    inner := inner
    writers := world.writers.remove writer
    history :=
      commitEvents (bytesAt world.buf ⟨grant.start, min grant.len used⟩) outcome ++ world.history }

/-- `FrameSubscriber::read`. -/
def read (subscriber : ℕ) (reader : FrameSubscriber) (cx : Option Waker) : World :=
  match world.inner.readWithContext config reader cx with
  | (inner, reader', .ok grant) =>
      { world with
        inner := inner
        subscribers := world.subscribers.replace subscriber reader'
        readers := world.readers.insert grant
        history :=
          .delivered subscriber ⟨grant.messageId, bytesAt world.buf grant.region⟩ ::
            world.history }
  | (inner, reader', .error _) =>
      { world with
        inner := inner
        subscribers := world.subscribers.replace subscriber reader' }

/-- The read grant behind a handle, unless it was dropped. -/
def reader? (reader : ℕ) : Option FrameGrantR :=
  if reader ∈ world.leaked then none else world.readers.get? reader

variable {world} in
theorem get?_of_reader? {reader : ℕ} {grant : FrameGrantR}
    (live : world.reader? reader = some grant) : world.readers.get? reader = some grant := by
  unfold reader? at live
  split at live
  · simp at live
  · exact live

/-- `FrameGrantR::release`. -/
def release (reader : ℕ) (grant : FrameGrantR) : World :=
  { world with
    inner := world.inner.releaseInner grant
    readers := world.readers.remove reader }

/-- `FrameGrantR::drop`: the frame is released if the grant is set to do so, and stays marked as
being read otherwise. -/
def dropReader (reader : ℕ) (grant : FrameGrantR) : World :=
  if grant.autoRelease then world.release reader grant
  else { world with leaked := reader :: world.leaked }

/-- `FrameSubscriber::drop`. -/
def dropSubscriber (subscriber : ℕ) (reader : FrameSubscriber) : World :=
  { world with
    inner := world.inner.dropSubscriber reader
    subscribers := world.subscribers.remove subscriber }

end World

/-- One call of the interface. It is not possible with an object that is not live, for a publisher
that does not exist, or when the index of a stored byte is out of bounds. -/
def step (config : ChannelConfig) (world : World) : Action → Option World
  | .publisher => some world.publisher
  | .dropPublisher =>
      if world.inner.publisherTaken then
        some { world with inner := { world.inner with publisherTaken := false } }
      else none
  | .subscriber => some (world.subscriber config)
  | .clear => some { world with inner := world.inner.clear }
  | .grant maxSz cx =>
      if world.inner.publisherTaken then some (world.grant config maxSz cx) else none
  | .grantImmediate maxSz =>
      if world.inner.publisherTaken then some (world.grantImmediate config maxSz) else none
  | .write writer offset byte => do
      let grant ← world.writers.get? writer
      if offset < grant.len then
        some { world with buf := store world.buf (grant.start + offset) byte }
      else none
  | .setPid writer pid => do
      let grant ← world.writers.get? writer
      some { world with writers := world.writers.replace writer { grant with pid := pid } }
  | .toCommit writer amt => do
      let grant ← world.writers.get? writer
      some { world with writers := world.writers.replace writer { grant with toCommit := amt } }
  | .commit writer used => do
      let grant ← world.writers.get? writer
      some (world.commit config writer grant used)
  | .dropWriter writer => do
      let grant ← world.writers.get? writer
      some (world.commit config writer grant grant.toCommit)
  | .read subscriber cx => do
      let reader ← world.subscribers.get? subscriber
      some (world.read config subscriber reader cx)
  | .autoRelease reader isAuto => do
      let grant ← world.reader? reader
      some { world with
        readers := world.readers.replace reader { grant with autoRelease := isAuto } }
  | .bufMut reader offset byte => do
      let grant ← world.reader? reader
      if offset < grant.len then
        some { world with buf := store world.buf (grant.start + offset) byte }
      else none
  | .release reader => do
      let grant ← world.reader? reader
      some (world.release reader grant)
  | .dropReader reader => do
      let grant ← world.reader? reader
      some (world.dropReader reader grant)
  | .dropSubscriber subscriber => do
      let reader ← world.subscribers.get? subscriber
      some (world.dropSubscriber subscriber reader)

namespace World

/-- The calls that are possible, each with the world that it leaves. -/
inductive Call (config : ChannelConfig) (world : World) : Action → World → Prop where
  | publisher : Call config world .publisher world.publisher
  | dropPublisher (taken : world.inner.publisherTaken = true) :
      Call config world .dropPublisher
        { world with inner := { world.inner with publisherTaken := false } }
  | subscriber : Call config world .subscriber (world.subscriber config)
  | clear : Call config world .clear { world with inner := world.inner.clear }
  | grant (maxSz : ℕ) (cx : Option Waker) (taken : world.inner.publisherTaken = true) :
      Call config world (.grant maxSz cx) (world.grant config maxSz cx)
  | grantImmediate (maxSz : ℕ) (taken : world.inner.publisherTaken = true) :
      Call config world (.grantImmediate maxSz) (world.grantImmediate config maxSz)
  | write (writer offset : ℕ) (byte : UInt8) (grant : FrameGrantW)
      (live : world.writers.get? writer = some grant) (inside : offset < grant.len) :
      Call config world (.write writer offset byte)
        { world with buf := store world.buf (grant.start + offset) byte }
  | setPid (writer pid : ℕ) (grant : FrameGrantW)
      (live : world.writers.get? writer = some grant) :
      Call config world (.setPid writer pid)
        { world with writers := world.writers.replace writer { grant with pid := pid } }
  | toCommit (writer amt : ℕ) (grant : FrameGrantW)
      (live : world.writers.get? writer = some grant) :
      Call config world (.toCommit writer amt)
        { world with writers := world.writers.replace writer { grant with toCommit := amt } }
  | commit (writer used : ℕ) (grant : FrameGrantW)
      (live : world.writers.get? writer = some grant) :
      Call config world (.commit writer used) (world.commit config writer grant used)
  | dropWriter (writer : ℕ) (grant : FrameGrantW)
      (live : world.writers.get? writer = some grant) :
      Call config world (.dropWriter writer) (world.commit config writer grant grant.toCommit)
  | read (subscriber : ℕ) (cx : Option Waker) (reader : FrameSubscriber)
      (live : world.subscribers.get? subscriber = some reader) :
      Call config world (.read subscriber cx) (world.read config subscriber reader cx)
  | autoRelease (reader : ℕ) (isAuto : Bool) (grant : FrameGrantR)
      (live : world.reader? reader = some grant) :
      Call config world (.autoRelease reader isAuto)
        { world with
          readers := world.readers.replace reader { grant with autoRelease := isAuto } }
  | bufMut (reader offset : ℕ) (byte : UInt8) (grant : FrameGrantR)
      (live : world.reader? reader = some grant) (inside : offset < grant.len) :
      Call config world (.bufMut reader offset byte)
        { world with buf := store world.buf (grant.start + offset) byte }
  | release (reader : ℕ) (grant : FrameGrantR) (live : world.reader? reader = some grant) :
      Call config world (.release reader) (world.release reader grant)
  | dropReader (reader : ℕ) (grant : FrameGrantR) (live : world.reader? reader = some grant)
      (isAuto : grant.autoRelease = true) :
      Call config world (.dropReader reader) (world.release reader grant)
  | leakReader (reader : ℕ) (grant : FrameGrantR) (live : world.reader? reader = some grant)
      (notAuto : grant.autoRelease = false) :
      Call config world (.dropReader reader) { world with leaked := reader :: world.leaked }
  | dropSubscriber (subscriber : ℕ) (reader : FrameSubscriber)
      (live : world.subscribers.get? subscriber = some reader) :
      Call config world (.dropSubscriber subscriber) (world.dropSubscriber subscriber reader)

theorem call_of_step {config : ChannelConfig} {world next : World} {action : Action}
    (stepped : step config world action = some next) : Call config world action next := by
  cases action with
  | publisher =>
      rcases Option.some.inj stepped with rfl
      exact .publisher
  | dropPublisher =>
      rcases Option.ite_none_right_eq_some.mp stepped with ⟨taken, stepped⟩
      rcases Option.some.inj stepped with rfl
      exact .dropPublisher taken
  | subscriber =>
      rcases Option.some.inj stepped with rfl
      exact .subscriber
  | clear =>
      rcases Option.some.inj stepped with rfl
      exact .clear
  | grant maxSz cx =>
      rcases Option.ite_none_right_eq_some.mp stepped with ⟨taken, stepped⟩
      rcases Option.some.inj stepped with rfl
      exact .grant maxSz cx taken
  | grantImmediate maxSz =>
      rcases Option.ite_none_right_eq_some.mp stepped with ⟨taken, stepped⟩
      rcases Option.some.inj stepped with rfl
      exact .grantImmediate maxSz taken
  | write writer offset byte =>
      rcases Option.bind_eq_some_iff.mp stepped with ⟨grant, live, stepped⟩
      rcases Option.ite_none_right_eq_some.mp stepped with ⟨inside, stepped⟩
      rcases Option.some.inj stepped with rfl
      exact .write writer offset byte grant live inside
  | setPid writer pid =>
      rcases Option.bind_eq_some_iff.mp stepped with ⟨grant, live, stepped⟩
      rcases Option.some.inj stepped with rfl
      exact .setPid writer pid grant live
  | toCommit writer amt =>
      rcases Option.bind_eq_some_iff.mp stepped with ⟨grant, live, stepped⟩
      rcases Option.some.inj stepped with rfl
      exact .toCommit writer amt grant live
  | commit writer used =>
      rcases Option.bind_eq_some_iff.mp stepped with ⟨grant, live, stepped⟩
      rcases Option.some.inj stepped with rfl
      exact .commit writer used grant live
  | dropWriter writer =>
      rcases Option.bind_eq_some_iff.mp stepped with ⟨grant, live, stepped⟩
      rcases Option.some.inj stepped with rfl
      exact .dropWriter writer grant live
  | read subscriber cx =>
      rcases Option.bind_eq_some_iff.mp stepped with ⟨reader, live, stepped⟩
      rcases Option.some.inj stepped with rfl
      exact .read subscriber cx reader live
  | autoRelease reader isAuto =>
      rcases Option.bind_eq_some_iff.mp stepped with ⟨grant, live, stepped⟩
      rcases Option.some.inj stepped with rfl
      exact .autoRelease reader isAuto grant live
  | bufMut reader offset byte =>
      rcases Option.bind_eq_some_iff.mp stepped with ⟨grant, live, stepped⟩
      rcases Option.ite_none_right_eq_some.mp stepped with ⟨inside, stepped⟩
      rcases Option.some.inj stepped with rfl
      exact .bufMut reader offset byte grant live inside
  | release reader =>
      rcases Option.bind_eq_some_iff.mp stepped with ⟨grant, live, stepped⟩
      rcases Option.some.inj stepped with rfl
      exact .release reader grant live
  | dropReader reader =>
      rcases Option.bind_eq_some_iff.mp stepped with ⟨grant, live, stepped⟩
      rcases Option.some.inj stepped with rfl
      unfold dropReader
      split
      · rename_i isAuto
        exact .dropReader reader grant live isAuto
      · rename_i notAuto
        exact .leakReader reader grant live (by simpa using notAuto)
  | dropSubscriber subscriber =>
      rcases Option.bind_eq_some_iff.mp stepped with ⟨reader, live, stepped⟩
      rcases Option.some.inj stepped with rfl
      exact .dropSubscriber subscriber reader live

end World

/-- A run of a channel: the world after some calls on a new channel of the given capacity. -/
abbrev runFrom (config : ChannelConfig) (capacity : ℕ) (actions : List Action) : Option World :=
  Execution.run (step config) (World.new capacity) actions

end Mqttrust.Pubsub
