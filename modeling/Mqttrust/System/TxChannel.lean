import Mqttrust.System.Pipeline

/-!
# What the client puts into the TX channel

A call encodes its packet before it commits its grant, and a grant that is dropped
commits nothing. So every message of the TX channel is a complete packet or empty,
whatever the calls do and wherever they are dropped.
-/

namespace Mqttrust.System

open Pubsub (bytesAt commitsAfter readsOf)
open Pubsub.World (Pipe Publishes)

/-- The bytes of a message: none if its grant was dropped, otherwise a packet. -/
def Whole (bytes : List UInt8) : Prop := bytes = [] ∨ Framed bytes

/-- The messages that are not empty. -/
def contents (messages : List Pubsub.Frame) : List Pubsub.Frame :=
  messages.filter fun message => message.bytes ≠ []

/-- The frames are as many as the messages with a packet that were committed and not read. -/
def Queued (tx : Pubsub.World) (frames : List Frame) : Prop :=
  (contents (readsOf 0 tx.history)).length + frames.length =
    (contents (commitsAfter 0 tx.history)).length

/-- A write grant holds an encoded packet. -/
def Holds (tx : Pubsub.World) (writer used : ℕ) : Prop :=
  ∃ grant, tx.writers.get? writer = some grant ∧ used ≤ grant.len ∧
    Framed (bytesAt tx.buf ⟨grant.start, used⟩)

/-- The invariant of the TX channel, with the grant of the call that is granted. -/
structure TxSound (config : CrateConfig) (capacity : ℕ) (tx : Pubsub.World)
    (granted : Option (ℕ × ℕ)) : Prop where
  pipe : tx.Pipe (txConfig config) capacity
  whole : ∀ frame ∈ commitsAfter 0 tx.history, Whole frame.bytes
  holds : ∀ writer used, granted = some (writer, used) → Holds tx writer used

/-- What asking for a grant and encoding a packet comes to: no other call is granted then. -/
inductive Acquires (config : CrateConfig) (capacity : ℕ) (granted : Option (ℕ × ℕ))
    (next : Pubsub.World) : Acquired → Prop where
  | refused (sound : TxSound config capacity next granted) :
      Acquires config capacity granted next .refused
  | encoded {writer used : ℕ} (alone : granted = none)
      (sound : TxSound config capacity next (some (writer, used))) :
      Acquires config capacity granted next (.encoded writer used)
  | failed {writer : ℕ} (alone : granted = none) (sound : TxSound config capacity next none) :
      Acquires config capacity granted next (.failed writer)

theorem contents_append (earlier later : List Pubsub.Frame) :
    contents (earlier ++ later) = contents earlier ++ contents later :=
  List.filter_append ..

theorem contents_of_framed {frame : Pubsub.Frame} (framed : Framed frame.bytes) :
    contents [frame] = [frame] := by
  simp [contents, framed.ne_nil]

theorem contents_of_empty {frame : Pubsub.Frame} (isEmpty : frame.bytes = []) :
    contents [frame] = [] := by
  simp [contents, isEmpty]

/-- The messages that are committed are queued. -/
theorem Queued.of_publishes {tx next : Pubsub.World} {added : List Pubsub.Frame}
    {frames later : List Frame} (queued : Queued tx frames) (publishes : Publishes tx added next)
    (length : later.length = frames.length + (contents added).length) : Queued next later := by
  unfold Queued at queued ⊢
  rw [publishes.reads, publishes.commits, contents_append, List.length_append, ← queued, length,
    Nat.add_assoc]

theorem Queued.of_reads {tx next : Pubsub.World} {frames : List Frame} (queued : Queued tx frames)
    (reads : readsOf 0 next.history = readsOf 0 tx.history)
    (commits : commitsAfter 0 next.history = commitsAfter 0 tx.history) : Queued next frames := by
  unfold Queued at queued ⊢
  rw [reads, commits, queued]

/-- What is read is not queued any more, unless it is empty. -/
theorem Queued.of_read {tx next : Pubsub.World} {message : Pubsub.Frame} {frames later : List Frame}
    (queued : Queued tx frames)
    (reads : readsOf 0 next.history = readsOf 0 tx.history ++ [message])
    (commits : commitsAfter 0 next.history = commitsAfter 0 tx.history)
    (length : frames.length = (contents [message]).length + later.length) : Queued next later := by
  unfold Queued at queued ⊢
  rw [commits, ← queued, reads, contents_append, List.length_append, length, Nat.add_assoc]

section Acquire

variable {Packet : Type} [MqttEncode Packet] {config : CrateConfig} {capacity : ℕ}
  {tx next : Pubsub.World}

/-- The bytes that were encoded are those of the grant, from its start on. -/
theorem holds_of_stores {writer : ℕ} {grant : Pubsub.FrameGrantW} {encoder : MqttEncoder}
    (live : tx.writers.get? writer = some grant)
    (encoded : Encoded (bytesAt tx.buf grant.region) encoder)
    (stored : Execution.run (Pubsub.step (txConfig config)) tx
      (Pubsub.stores writer 0 encoder.buf) = some next) :
    Holds next writer encoder.usedSize := by
  have length : encoder.buf.length = grant.len := by
    rw [encoded.length, Pubsub.length_bytesAt, Pubsub.FrameGrantW.region]
  rw [Publishes.run_stores _ live (by omega), Option.some.injEq] at stored
  subst stored
  have inside : encoder.offset ≤ grant.len := length ▸ encoded.inside
  refine ⟨grant, live, inside, ?_⟩
  change Framed (bytesAt (Pubsub.fill tx.buf grant.start encoder.buf)
    ⟨grant.start, encoder.offset⟩)
  rw [Pubsub.bytesAt_take _ inside, ← length, Pubsub.bytesAt_fill]
  exact encoded.framed

theorem holds_of_encodeInto (small : capacity ≤ 65535) (pipe : tx.Pipe (txConfig config) capacity)
    {packet : Packet} {writer : ℕ} {grant : Pubsub.FrameGrantW} {acquired : Acquired}
    (live : tx.writers.get? writer = some grant)
    (encoded : encodeInto config tx writer grant packet = some (next, acquired)) :
    next.Pipe (txConfig config) capacity ∧ Publishes tx [] next ∧
      ((∃ used, acquired = .encoded writer used ∧ Holds next writer used) ∨
        acquired = .failed writer) := by
  simp only [encodeInto] at encoded
  split at encoded
  · rename_i encoder written
    rcases Option.map_eq_some_iff.mp encoded with ⟨after, stored, same⟩
    rcases Prod.mk.inj same with ⟨rfl, rfl⟩
    rcases Publishes.of_stores small pipe stored with ⟨pipe', publishes⟩
    have holds := holds_of_stores live (encoded_of_toBuffer written) stored
    exact ⟨pipe', publishes, .inl ⟨_, rfl, holds⟩⟩
  · rcases Option.map_eq_some_iff.mp encoded with ⟨after, stored, same⟩
    rcases Prod.mk.inj same with ⟨rfl, rfl⟩
    rcases Publishes.of_stores small pipe stored with ⟨pipe', publishes⟩
    exact ⟨pipe', publishes, .inr rfl⟩
  · simp at encoded

end Acquire

namespace TxSound

variable {config : CrateConfig} {capacity : ℕ} {tx next : Pubsub.World}
  {granted : Option (ℕ × ℕ)}

theorem new (config : CrateConfig) (small : capacity ≤ 65535) :
    TxSound config capacity (Pubsub.World.newPipe (txConfig config) capacity) none := by
  have subs : 0 < (txConfig config).subs % 256 := Nat.one_pos
  refine ⟨.new subs small, ?_, by simp⟩
  rw [Pipe.newPipe_eq subs]
  simp [commitsAfter]

theorem whole_of_publishes {added : List Pubsub.Frame} (sound : TxSound config capacity tx granted)
    (publishes : Publishes tx added next) (whole : ∀ frame ∈ added, Whole frame.bytes) :
    ∀ frame ∈ commitsAfter 0 next.history, Whole frame.bytes := by
  intro frame committed
  rw [publishes.commits] at committed
  rcases List.mem_append.mp committed with earlier | newest
  · exact sound.whole frame earlier
  · exact whole frame newest

/-- A step that leaves the grants of the calls alone. -/
theorem of_writers (sound : TxSound config capacity tx granted)
    (pipe : next.Pipe (txConfig config) capacity) (writers : next.writers = tx.writers)
    (buf : next.buf = tx.buf) (whole : ∀ frame ∈ commitsAfter 0 next.history, Whole frame.bytes) :
    TxSound config capacity next granted where
  pipe := pipe
  whole := whole
  holds := by
    intro writer used isGranted
    rcases sound.holds writer used isGranted with ⟨grant, live, inside, framed⟩
    exact ⟨grant, writers ▸ live, inside, buf ▸ framed⟩

/-- While no other grant is out, no call is granted. -/
theorem granted_eq_none (sound : TxSound config capacity tx granted)
    (alone : ∀ other, tx.writers.get? other = none) : granted = none := by
  rcases granted with _ | ⟨writer, used⟩
  · rfl
  · rcases sound.holds writer used rfl with ⟨grant, live, _⟩
    simp [alone writer] at live

theorem acquire {Packet : Type} [MqttEncode Packet] (small : capacity ≤ 65535)
    (sound : TxSound config capacity tx granted) {packet : Packet} {size : ℕ}
    {cx : Option Pubsub.Waker} {acquired : Acquired}
    (asked : acquire config tx size cx packet = some (next, acquired)) :
    Publishes tx [] next ∧ Acquires config capacity granted next acquired := by
  rcases Option.bind_eq_some_iff.mp asked with ⟨middle, stepped, asked⟩
  have pipe := sound.pipe.step small rfl stepped
  have publishes := Publishes.of_isFilling sound.pipe rfl stepped
  cases sound.pipe.flow_of_step rfl stepped with
  | refused inner =>
      simp only [Table.get?_next, Option.some.injEq, Prod.mk.injEq] at asked
      rcases asked with ⟨rfl, rfl⟩
      exact ⟨publishes, .refused (sound.of_writers pipe rfl rfl sound.whole)⟩
  | granted inner grant alone fresh =>
      have noneGranted := sound.granted_eq_none alone
      simp only [Table.get?_insert_next] at asked
      rcases holds_of_encodeInto small pipe (Table.get?_insert_next _ _) asked with
        ⟨pipe', encodes, ⟨used, rfl, holds⟩ | rfl⟩
      · have whole := sound.whole_of_publishes (publishes.trans encodes) (by simp)
        refine ⟨publishes.trans encodes, .encoded noneGranted ⟨pipe', whole, ?_⟩⟩
        intro writer used' same
        rcases Prod.mk.inj (Option.some.inj same) with ⟨rfl, rfl⟩
        exact holds
      · have whole := sound.whole_of_publishes (publishes.trans encodes) (by simp)
        exact ⟨publishes.trans encodes, .failed noneGranted ⟨pipe', whole, by simp⟩⟩
  | commit inner grant used live isCommit => simp at isCommit
  | release inner grant live isRelease => simp at isRelease

/-- A packet is committed after it was encoded. -/
theorem commit (small : capacity ≤ 65535) {writer used : ℕ}
    (sound : TxSound config capacity tx (some (writer, used)))
    (stepped : Pubsub.step (txConfig config) tx (.commit writer used) = some next) :
    TxSound config capacity next none ∧
      ∃ frame, Framed frame.bytes ∧ Publishes tx [frame] next := by
  rcases sound.holds writer used rfl with ⟨grant, live, inside, framed⟩
  have publishes := Publishes.of_commit sound.pipe live stepped
  rw [Nat.min_eq_right inside] at publishes
  have whole := sound.whole_of_publishes publishes (by simp [Whole, framed])
  exact ⟨⟨sound.pipe.step small rfl stepped, whole, by simp⟩, _, framed, publishes⟩

/-- Dropping a grant commits an empty message. -/
theorem dropWriter (small : capacity ≤ 65535) (sound : TxSound config capacity tx granted)
    {writer : ℕ} (stepped : Pubsub.step (txConfig config) tx (.dropWriter writer) = some next) :
    TxSound config capacity next none ∧
      ∃ frame : Pubsub.Frame, frame.bytes = [] ∧ Publishes tx [frame] next := by
  have publishes := Publishes.of_dropWriter sound.pipe stepped
  have whole := sound.whole_of_publishes publishes (by simp [Whole])
  exact ⟨⟨sound.pipe.step small rfl stepped, whole, by simp⟩, _, rfl, publishes⟩

/-- A call sets the identifier of its grant and commits it. -/
theorem commitPid (small : capacity ≤ 65535) {writer used : ℕ}
    (sound : TxSound config capacity tx (some (writer, used))) {pid : ℕ}
    (ran : Execution.run (Pubsub.step (txConfig config)) tx
      [.setPid writer pid, .commit writer used] = some next) :
    TxSound config capacity next none ∧
      ∃ frame, Framed frame.bytes ∧ Publishes tx [frame] next := by
  rcases sound.holds writer used rfl with ⟨grant, live, inside, framed⟩
  rcases Execution.run_cons_eq_some.mp ran with ⟨middle, stepped, ran⟩
  rcases Execution.run_cons_eq_some.mp ran with ⟨last, committed, ran⟩
  rw [Execution.run_nil, Option.some.injEq] at ran
  subst ran
  have publishes := Publishes.of_isFilling sound.pipe rfl stepped
  have sound' : TxSound config capacity middle (some (writer, used)) := by
    refine ⟨sound.pipe.step small rfl stepped, sound.whole_of_publishes publishes (by simp), ?_⟩
    intro writer' used' same
    rcases Prod.mk.inj (Option.some.inj same) with ⟨rfl, rfl⟩
    simp only [Pubsub.step, live, Option.bind_eq_bind, Option.bind_some,
      Option.some.injEq] at stepped
    subst stepped
    refine ⟨{ grant with pid := pid }, ?_, inside, framed⟩
    rw [Table.get?_replace live, if_pos rfl]
  rcases sound'.commit small committed with ⟨sound'', frame, framed, publishes'⟩
  exact ⟨sound'', frame, framed, publishes.trans publishes'⟩

theorem release (small : capacity ≤ 65535) (sound : TxSound config capacity tx granted)
    {action : Pubsub.Action} {reader : ℕ}
    (isRelease : action = .release reader ∨ action = .dropReader reader)
    (stepped : Pubsub.step (txConfig config) tx action = some next) :
    TxSound config capacity next granted ∧ next.history = tx.history := by
  have isFlow : action.isFlow = true := by rcases isRelease with rfl | rfl <;> rfl
  have pipe := sound.pipe.step small isFlow stepped
  cases sound.pipe.flow_of_step isFlow stepped with
  | release inner grant live _ => exact ⟨sound.of_writers pipe rfl rfl sound.whole, rfl⟩
  | commit inner grant used live isCommit =>
      rcases isRelease with rfl | rfl <;> simp at isCommit
  | _ => simp at isRelease

theorem read (small : capacity ≤ 65535) (sound : TxSound config capacity tx granted)
    {cx : Option Pubsub.Waker}
    (stepped : Pubsub.step (txConfig config) tx (.read 0 cx) = some next) :
    TxSound config capacity next granted ∧ next.buf = tx.buf ∧
      commitsAfter 0 next.history = commitsAfter 0 tx.history ∧
      (next.readers = tx.readers ∧ readsOf 0 next.history = readsOf 0 tx.history ∨
        ∃ grant, next.readers = tx.readers.insert grant ∧
          readsOf 0 next.history =
            readsOf 0 tx.history ++ [⟨grant.messageId, bytesAt tx.buf grant.region⟩]) := by
  have pipe := sound.pipe.step small rfl stepped
  cases sound.pipe.flow_of_step rfl stepped with
  | waits inner reader =>
      exact ⟨sound.of_writers pipe rfl rfl sound.whole, rfl, rfl, .inl ⟨rfl, rfl⟩⟩
  | read inner reader grant auto =>
      refine ⟨sound.of_writers pipe rfl rfl sound.whole, rfl, rfl, .inr ⟨grant, rfl, ?_⟩⟩
      simp only [readsOf, if_true]
  | commit inner grant used live isCommit => simp at isCommit
  | release inner grant live isRelease => simp at isRelease

end TxSound

end Mqttrust.System
