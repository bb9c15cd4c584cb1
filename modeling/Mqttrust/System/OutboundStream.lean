import Mqttrust.System.LiveConnection
import Mqttrust.System.TxChannel

/-!
# What is written to the connections

The frames of the TX channel and the packets of the stack's own are written one
after the other, each to its end unless writing fails or connecting times out.
Then the connection is given up, and so is the frame. So the connections carry
complete packets, and those of the client in the order of their commits.
-/

namespace Mqttrust.System

open Pubsub (bytesAt commitsAfter readsOf)
open Pubsub.World (Publishes)

/-- What is known of the packets that were begun. -/
structure Recorded (tx : Pubsub.World) (transcript : Transcript (Option Pubsub.Frame) UInt8) :
    Prop where
  framed : ∀ sent ∈ transcript.sent, Framed sent.symbols
  /-- A frame is written as it was committed. -/
  frames : ∀ sent ∈ transcript.sent, ∀ frame, sent.label = some frame → sent.symbols = frame.bytes
  /-- The frames that were read were begun in this order, up to the empty ones. -/
  order : transcript.sent.reverse.filterMap Sent.label =
    contents (readsOf 0 tx.history)

namespace Recorded

variable {tx next : Pubsub.World} {transcript : Transcript (Option Pubsub.Frame) UInt8}

theorem of_reads (recorded : Recorded tx transcript)
    (reads : readsOf 0 next.history = readsOf 0 tx.history) : Recorded next transcript :=
  ⟨recorded.framed, recorded.frames, reads ▸ recorded.order⟩

theorem breakOff (recorded : Recorded tx transcript) (connection : Option ℕ) :
    Recorded tx (transcript.breakOff connection) :=
  ⟨recorded.framed, recorded.frames, recorded.order⟩

/-- Writing some bytes changes what is written of the newest packet, not the packet. -/
theorem append (recorded : Recorded tx transcript) (connection : ℕ) (bytes : List UInt8) :
    Recorded tx (transcript.append connection bytes) := by
  rcases transcript with ⟨stream, sent, cut⟩
  cases sent with
  | nil => exact ⟨recorded.framed, recorded.frames, recorded.order⟩
  | cons newest earlier =>
      refine ⟨?_, ?_, ?_⟩
      · intro packet packet_mem
        rcases List.mem_cons.mp packet_mem with rfl | older
        · exact recorded.framed newest List.mem_cons_self
        · exact recorded.framed packet (List.mem_cons_of_mem _ older)
      · intro packet packet_mem
        rcases List.mem_cons.mp packet_mem with rfl | older
        · exact recorded.frames newest List.mem_cons_self
        · exact recorded.frames packet (List.mem_cons_of_mem _ older)
      · rw [← recorded.order]
        simp [Transcript.append, List.filterMap_append, List.filterMap_cons]

theorem begin (recorded : Recorded tx transcript) (connection : ℕ) {bytes : List UInt8}
    (framed : Framed bytes) : Recorded tx (transcript.begin connection none bytes) where
  framed := by
    intro packet packet_mem
    rcases List.mem_cons.mp packet_mem with rfl | older
    · exact framed
    · exact recorded.framed packet older
  frames := by
    intro packet packet_mem
    rcases List.mem_cons.mp packet_mem with rfl | older
    · simp
    · exact recorded.frames packet older
  order := by
    rw [← recorded.order]
    simp [Transcript.begin, List.filterMap_append]

theorem beginFrame (recorded : Recorded tx transcript) (connection : ℕ) {frame : Pubsub.Frame}
    (reads : readsOf 0 next.history = readsOf 0 tx.history ++ [frame])
    (framed : Framed frame.bytes) :
    Recorded next (transcript.begin connection (some frame) frame.bytes) where
  framed := by
    intro packet packet_mem
    rcases List.mem_cons.mp packet_mem with rfl | older
    · exact framed
    · exact recorded.framed packet older
  frames := by
    intro packet packet_mem
    rcases List.mem_cons.mp packet_mem with rfl | older
    · intro other same
      rw [Option.some.inj same]
    · exact recorded.frames packet older
  order := by
    rw [reads, contents_append, contents_of_framed framed, ← recorded.order]
    simp [Transcript.begin, List.filterMap_append]

theorem skips (recorded : Recorded tx transcript) {frame : Pubsub.Frame}
    (reads : readsOf 0 next.history = readsOf 0 tx.history ++ [frame])
    (isEmpty : frame.bytes = []) : Recorded next transcript := by
  refine ⟨recorded.framed, recorded.frames, ?_⟩
  rw [reads, contents_append, contents_of_empty isEmpty, List.append_nil, recorded.order]

end Recorded

namespace Pipeline

variable {T : Type} [Transport T] {config : CrateConfig} {capacity : ℕ}

/-- The bytes of the packet that is written, and how many of them were written. -/
def underway (pipeline : Pipeline T config) : Option (List UInt8 × ℕ) :=
  if pipeline.link.writes then some (pipeline.current, pipeline.position) else none

/-- The invariant of a pipeline. -/
structure Sound (capacity : ℕ) (pipeline : Pipeline T config) : Prop where
  tx : TxSound config capacity pipeline.tx pipeline.granted
  /-- `select` holds a read grant only while it handles it. -/
  reading : ∀ reader, pipeline.reader = some reader →
    pipeline.link.world.stack.reads = true ∧ ∃ grant, pipeline.tx.readers.get? reader = some grant
  transcript : pipeline.transcript.Sound pipeline.link.opened pipeline.link.live pipeline.underway
  recorded : Recorded pipeline.tx pipeline.transcript
  /-- The queue of the world stands for the TX channel. -/
  queued : Queued pipeline.tx pipeline.link.world.frames

namespace Sound

variable {pipeline next : Pipeline T config} {link : Link T config} {tx : Pubsub.World}

theorem resting (sound : pipeline.Sound capacity) (before : pipeline.link.writes = false) :
    pipeline.transcript.Sound pipeline.link.opened pipeline.link.live none := by
  have transcript := sound.transcript
  rwa [underway, if_neg (by simp [before])] at transcript

theorem writing (sound : pipeline.Sound capacity) (before : pipeline.link.writes = true) :
    pipeline.transcript.Sound pipeline.link.opened pipeline.link.live
      (some (pipeline.current, pipeline.position)) := by
  have transcript := sound.transcript
  rwa [underway, if_pos before] at transcript

theorem of_resting (after : next.link.writes = false)
    (tx : TxSound config capacity next.tx next.granted)
    (reading : ∀ reader, next.reader = some reader →
      next.link.world.stack.reads = true ∧ ∃ grant, next.tx.readers.get? reader = some grant)
    (transcript : next.transcript.Sound next.link.opened next.link.live none)
    (recorded : Recorded next.tx next.transcript)
    (queued : Queued next.tx next.link.world.frames) : next.Sound capacity := by
  refine ⟨tx, reading, ?_, recorded, queued⟩
  rwa [underway, if_neg (by simp [after])]

theorem of_writing {bytes : List UInt8} {position : ℕ} (after : next.link.writes = true)
    (current : next.current = bytes) (isAt : next.position = position)
    (tx : TxSound config capacity next.tx next.granted)
    (reading : ∀ reader, next.reader = some reader →
      next.link.world.stack.reads = true ∧ ∃ grant, next.tx.readers.get? reader = some grant)
    (transcript : next.transcript.Sound next.link.opened next.link.live (some (bytes, position)))
    (recorded : Recorded next.tx next.transcript)
    (queued : Queued next.tx next.link.world.frames) : next.Sound capacity := by
  refine ⟨tx, reading, ?_, recorded, queued⟩
  rwa [underway, if_pos after, current, isAt]

theorem reader_eq_none (sound : pipeline.Sound capacity)
    (phase : pipeline.link.world.stack.reads = false) : pipeline.reader = none := by
  rcases isReader : pipeline.reader with _ | reader
  · rfl
  · simp [(sound.reading reader isReader).1] at phase

omit [Transport T] in
/-- The bytes of the current packet do not change while it is written. -/
theorem current_of_publishes {added : List Pubsub.Frame}
    (publishes : Publishes pipeline.tx added next.tx)
    (reader : next.reader = pipeline.reader) (own : next.own = pipeline.own) :
    next.current = pipeline.current := by
  unfold current
  rw [reader, publishes.readers, own]
  rcases held : pipeline.reader.bind pipeline.tx.readers.get? with _ | grant
  · rfl
  · rcases Option.bind_eq_some_iff.mp held with ⟨handle, _, live⟩
    exact publishes.bytes handle grant live

/-- A packet of the stack's own begins to be written. -/
theorem begin {connection : ℕ} (after : pipeline.link.writes = true)
    (live : pipeline.link.live = some connection) (noReader : pipeline.reader = none)
    (tx : TxSound config capacity pipeline.tx pipeline.granted)
    (transcript : pipeline.transcript.Sound pipeline.link.opened (some connection) none)
    (recorded : Recorded pipeline.tx pipeline.transcript)
    (queued : Queued pipeline.tx pipeline.link.world.frames) (framed : Framed pipeline.own) :
    (pipeline.begin connection none pipeline.own).Sound capacity := by
  have current : (pipeline.begin connection none pipeline.own).current = pipeline.own := by
    simp [current, Pipeline.begin, noReader]
  refine of_writing after current rfl tx (by simp [Pipeline.begin, noReader]) ?_
    (recorded.begin connection framed) queued
  have begun := transcript.begin none pipeline.own
  rw [← live] at begun
  exact begun

theorem of_client (sound : pipeline.Sound capacity) {granted : Option (ℕ × ℕ)}
    {added : List Pubsub.Frame}
    (stepped : link = pipeline.link ∨
      ∃ action, linkStep pipeline.link (.client action) = some link)
    (txSound : TxSound config capacity tx granted) (publishes : Publishes pipeline.tx added tx)
    (frames : link.world.frames.length =
      pipeline.link.world.frames.length + (contents added).length) :
    Sound capacity { pipeline with link := link, tx := tx, granted := granted } := by
  have wire : link.opened = pipeline.link.opened ∧ link.writes = pipeline.link.writes ∧
      link.live = pipeline.link.live ∧ link.world.stack = pipeline.link.world.stack := by
    rcases stepped with rfl | ⟨action, stepped⟩
    · exact ⟨rfl, rfl, rfl, rfl⟩
    · exact Link.wire_of_isClient stepped
  rcases wire with ⟨opened, writes, live, stack⟩
  refine ⟨txSound, ?_, ?_, sound.recorded.of_reads publishes.reads,
    sound.queued.of_publishes publishes frames⟩
  · intro reader isReader
    rcases sound.reading reader isReader with ⟨reads, grant, held⟩
    exact ⟨stack ▸ reads, grant, publishes.readers ▸ held⟩
  · have current : current { pipeline with link := link, tx := tx, granted := granted } =
        pipeline.current := current_of_publishes publishes rfl rfl
    rw [underway, current, opened, live, writes]
    exact sound.transcript

/-- A call of the client that neither commits nor drops a grant. -/
theorem of_calling (sound : pipeline.Sound capacity) {action : Action}
    {granted : Option (ℕ × ℕ)} (stepped : linkStep pipeline.link (.client action) = some link)
    (notQueues : action.queues = false) (txSound : TxSound config capacity tx granted)
    (publishes : Publishes pipeline.tx [] tx) :
    Sound capacity { pipeline with link := link, tx := tx, granted := granted } :=
  sound.of_client (.inr ⟨action, stepped⟩) txSound publishes
    (by rw [Link.frames_of_isClient stepped notQueues]; rfl)

theorem pollGrant (small : capacity ≤ 65535) (sound : pipeline.Sound capacity) {handle : ℕ}
    {packet : ClientPacket} {waker : Pubsub.Waker}
    (stepped : pipeline.pollGrant handle packet waker = some next) : next.Sound capacity := by
  simp only [Pipeline.pollGrant, Option.bind_eq_bind, Option.bind_eq_some_iff,
    Option.ite_none_right_eq_some] at stepped
  rcases stepped with ⟨call, _, _, size, _, ⟨tx, acquired⟩, asked, stepped⟩
  rcases sound.tx.acquire small asked with ⟨publishes, acquires⟩
  cases acquires with
  | refused txSound =>
      simp only [afterGrant, Option.some.injEq] at stepped
      subst stepped
      exact sound.of_client (.inl rfl) txSound publishes rfl
  | encoded alone txSound =>
      simp only [afterGrant, Option.bind_eq_bind, Option.bind_eq_some_iff,
        Option.some.injEq] at stepped
      rcases stepped with ⟨link, stepped, rfl⟩
      exact sound.of_calling stepped rfl txSound publishes
  | failed alone txSound =>
      simp only [afterGrant, Option.bind_eq_bind, Option.bind_eq_some_iff,
        Option.some.injEq] at stepped
      rcases stepped with ⟨link, stepped, tx', dropped, rfl⟩
      rcases txSound.dropWriter small dropped with ⟨txSound', frame, isEmpty, publishes'⟩
      refine sound.of_client (.inr ⟨_, stepped⟩) (alone ▸ txSound') (publishes.trans publishes') ?_
      rw [Link.frames_of_isClient stepped rfl, List.nil_append, contents_of_empty isEmpty]
      rfl

theorem dropSubscription (small : capacity ≤ 65535) (sound : pipeline.Sound capacity)
    {pidLocked statusLocked : Bool} {topics : List Utf8}
    (stepped : pipeline.dropSubscription pidLocked statusLocked topics = some next) :
    next.Sound capacity := by
  simp only [Pipeline.dropSubscription, Option.ite_none_left_eq_some] at stepped
  rcases stepped with ⟨_, stepped⟩
  split at stepped
  · simp only [afterDropGrant, Option.bind_eq_bind, Option.bind_eq_some_iff,
      Option.some.injEq] at stepped
    rcases stepped with ⟨link, stepped, rfl⟩
    refine sound.of_client (.inr ⟨_, stepped⟩) sound.tx (.refl _) ?_
    simp [Link.frames_of_dropSubscription stepped, contents]
  rename_i free
  simp only [Option.bind_eq_bind, Option.bind_eq_some_iff] at stepped
  rcases stepped with ⟨size, _, ⟨tx, acquired⟩, asked, stepped⟩
  rcases sound.tx.acquire small asked with ⟨publishes, acquires⟩
  cases acquires with
  | refused txSound =>
      simp only [afterDropGrant, Option.bind_eq_bind, Option.bind_eq_some_iff,
        Option.some.injEq] at stepped
      rcases stepped with ⟨link, stepped, rfl⟩
      refine sound.of_client (.inr ⟨_, stepped⟩) txSound publishes ?_
      simp [Link.frames_of_dropSubscription stepped, contents]
  | encoded alone txSound =>
      simp only [afterDropGrant, Option.bind_eq_bind, Option.bind_eq_some_iff,
        Option.some.injEq] at stepped
      rcases stepped with ⟨link, stepped, tx', committed, rfl⟩
      rcases txSound.commit small committed with ⟨txSound', frame, framed, publishes'⟩
      refine sound.of_client (.inr ⟨_, stepped⟩) (alone ▸ txSound') (publishes.trans publishes') ?_
      rw [Link.frames_of_dropSubscription stepped, List.nil_append, contents_of_framed framed,
        if_pos ⟨not_not.mp free, rfl, rfl⟩]
      rfl
  | failed alone txSound =>
      simp only [afterDropGrant, Option.bind_eq_bind, Option.bind_eq_some_iff,
        Option.some.injEq] at stepped
      rcases stepped with ⟨link, stepped, tx', dropped, rfl⟩
      rcases txSound.dropWriter small dropped with ⟨txSound', frame, isEmpty, publishes'⟩
      refine sound.of_client (.inr ⟨_, stepped⟩) (alone ▸ txSound') (publishes.trans publishes') ?_
      rw [List.nil_append, contents_of_empty isEmpty]
      simp [Link.frames_of_dropSubscription stepped]

theorem commit (small : capacity ≤ 65535) (sound : pipeline.Sound capacity) {handle : ℕ}
    (client : linkStep pipeline.link (.client (.commit handle)) = some link)
    (stepped : pipeline.commit link handle = some next) : next.Sound capacity := by
  simp only [Pipeline.commit, Option.bind_eq_bind, Option.bind_eq_some_iff] at stepped
  rcases stepped with ⟨call, live, ⟨writer, used⟩, granted, stepped⟩
  have frames := Link.frames_of_commit client live
  split at stepped
  · rename_i shared registered
    simp only [Option.bind_eq_some_iff, Option.some.injEq] at stepped
    rcases stepped with ⟨tx, ran, rfl⟩
    rcases (granted ▸ sound.tx).commitPid small ran with ⟨txSound, frame, framed, publishes⟩
    refine sound.of_client (.inr ⟨_, client⟩) txSound publishes ?_
    rw [frames, registered, contents_of_framed framed]
    rfl
  · rename_i shared registered
    simp only [Option.bind_eq_some_iff, Option.some.injEq] at stepped
    rcases stepped with ⟨tx, dropped, rfl⟩
    rcases sound.tx.dropWriter small dropped with ⟨txSound, frame, isEmpty, publishes⟩
    refine sound.of_client (.inr ⟨_, client⟩) txSound publishes ?_
    rw [frames, registered, contents_of_empty isEmpty]
    rfl
  · rename_i place registered
    rw [Option.some.injEq] at stepped
    subst stepped
    refine sound.of_client (.inr ⟨_, client⟩) sound.tx (.refl _) ?_
    rw [frames, registered]
    rfl

theorem drop (small : capacity ≤ 65535) (sound : pipeline.Sound capacity) {handle : ℕ}
    {contended : Bool}
    (client : linkStep pipeline.link (.client (.drop handle contended)) = some link)
    (stepped : pipeline.drop link handle = some next) : next.Sound capacity := by
  simp only [Pipeline.drop, Option.bind_eq_bind, Option.bind_eq_some_iff] at stepped
  rcases stepped with ⟨call, _, stepped⟩
  split at stepped
  · simp only [Option.bind_eq_some_iff, Option.some.injEq] at stepped
    rcases stepped with ⟨⟨writer, used⟩, _, tx, dropped, rfl⟩
    rcases sound.tx.dropWriter small dropped with ⟨txSound, frame, isEmpty, publishes⟩
    refine sound.of_client (.inr ⟨_, client⟩) txSound publishes ?_
    rw [Link.frames_of_isClient client rfl, contents_of_empty isEmpty]
    rfl
  · rw [Option.some.injEq] at stepped
    subst stepped
    exact sound.of_calling client rfl sound.tx (.refl _)

theorem of_quiet (sound : pipeline.Sound capacity) (quiet : pipeline.link.Quiet link)
    (reading : ∀ reader, pipeline.reader = some reader → link.world.stack.reads = true) :
    Sound capacity { pipeline with link := link } := by
  refine of_resting quiet.after sound.tx ?_ ?_ sound.recorded (quiet.frames ▸ sound.queued)
  · intro reader isReader
    exact ⟨reading reader isReader, (sound.reading reader isReader).2⟩
  · have lost := (sound.resting quiet.before).lose quiet.live
    rw [← quiet.opened] at lost
    exact lost

theorem starts (sound : pipeline.Sound capacity) {connection : ℕ}
    (starts : pipeline.link.Starts connection link) (frame : Option Pubsub.Frame)
    (bytes : List UInt8) :
    (pipeline.transcript.begin connection frame bytes).Sound link.opened link.live
      (some (bytes, 0)) := by
  have resting := sound.resting starts.before
  rw [starts.live, ← starts.opened] at resting
  rw [starts.same]
  exact resting.begin frame bytes

theorem pollRead (small : capacity ≤ 65535) (sound : pipeline.Sound capacity)
    {waker : Pubsub.Waker} (stepped : pipeline.pollRead waker = some next) :
    next.Sound capacity := by
  simp only [Pipeline.pollRead, Option.bind_eq_bind, Option.bind_eq_some_iff,
    Option.ite_none_right_eq_some] at stepped
  rcases stepped with ⟨connection, socket, ⟨phase, noReader⟩, tx, read, stepped⟩
  have before : pipeline.link.writes = false := by simp [Link.writes, phase]
  rcases sound.tx.read small read with
    ⟨txSound, buf, commits, ⟨readers, reads⟩ | ⟨grant, readers, reads⟩⟩
  · have unused : tx.readers.get? pipeline.tx.readers.next = none := by
      rw [readers, Table.get?_next]
    simp only [afterRead, unused, Option.some.injEq] at stepped
    subst stepped
    refine of_resting before txSound ?_ (sound.resting before) (sound.recorded.of_reads reads) ?_
    · simp [noReader]
    · exact sound.queued.of_reads reads commits
  have held : tx.readers.get? pipeline.tx.readers.next = some grant := by
    rw [readers, Table.get?_insert_next]
  have whole := txSound.whole _ (txSound.pipe.mem_commits (reads ▸ List.mem_append_right _
    (List.mem_singleton_self _)))
  have length : (bytesAt pipeline.tx.buf grant.region).length = grant.len :=
    Pubsub.length_bytesAt _ _
  simp only [afterRead, held] at stepped
  split at stepped
  · rename_i isEmpty
    rw [Option.some.injEq] at stepped
    subst stepped
    have nothing := List.eq_nil_of_length_eq_zero (length.trans isEmpty)
    refine of_resting before txSound ?_ (sound.resting before) (sound.recorded.skips reads nothing) ?_
    · intro reader isReader
      rcases Option.some.inj isReader
      exact ⟨by simp [phase, StackPhase.reads], grant, held⟩
    · refine sound.queued.of_read reads commits ?_
      rw [contents_of_empty nothing, List.length_nil, Nat.zero_add]
  · rename_i nonempty
    simp only [Option.bind_eq_bind, Option.bind_eq_some_iff, Option.some.injEq] at stepped
    rcases stepped with ⟨link, stepped, rfl⟩
    rcases Link.starts_of_read stepped with
      ⟨connection', socket', starts, linkReads, first, frames⟩
    rcases Option.some.inj (socket.symm.trans socket')
    have framed : Framed (bytesAt tx.buf grant.region) := by
      rcases whole with isEmpty | framed
      · exact absurd (length.symm.trans (congrArg List.length isEmpty)) nonempty
      · exact buf ▸ framed
    rw [← buf] at reads
    refine of_writing starts.after ?_ rfl txSound ?_ (sound.starts starts _ _)
      (sound.recorded.beginFrame connection reads framed) ?_
    · simp only [current, Pipeline.begin, Option.bind_some, held]
    · intro reader isReader
      rcases Option.some.inj isReader
      exact ⟨linkReads, grant, held⟩
    · refine sound.queued.of_read reads commits ?_
      rw [contents_of_framed framed, frames, List.length_cons, List.length_singleton, Nat.add_comm]
      rfl

/-- The read grant of `select` is released or dropped, and nothing is written. -/
theorem release (small : capacity ≤ 65535) (sound : pipeline.Sound capacity)
    (quiet : pipeline.link.Quiet link) {call : ℕ → Pubsub.Action}
    (isRelease : ∀ reader, call reader = .release reader ∨ call reader = .dropReader reader)
    (stepped : pipeline.release link call = some next) : next.Sound capacity := by
  simp only [Pipeline.release, Option.bind_eq_bind, Option.bind_eq_some_iff,
    Option.some.injEq] at stepped
  rcases stepped with ⟨reader, _, tx, released, rfl⟩
  rcases sound.tx.release small (isRelease reader) released with ⟨txSound, history⟩
  have lost := (sound.resting quiet.before).lose quiet.live
  rw [← quiet.opened] at lost
  refine of_resting quiet.after txSound (by simp) lost (sound.recorded.of_reads (by rw [history])) ?_
  exact quiet.frames ▸ sound.queued.of_reads (by rw [history]) (by rw [history])

theorem skip (small : capacity ≤ 65535) (sound : pipeline.Sound capacity)
    (stepped : pipeline.skip = some next) : next.Sound capacity := by
  simp only [Pipeline.skip, Option.bind_eq_bind, Option.bind_eq_some_iff,
    Option.ite_none_right_eq_some] at stepped
  rcases stepped with ⟨reader, _, grant, _, phase, stepped⟩
  refine sound.release small ?_ (fun _ => .inl rfl) stepped
  refine ⟨rfl, rfl, ?_, ?_, ?_⟩
  · simp [Link.writes, phase]
  · simp [Link.writes, phase]
  · exact .inl (by simp [Link.live, phase])

theorem skipFails (small : capacity ≤ 65535) (sound : pipeline.Sound capacity)
    (stepped : pipeline.skipFails = some next) : next.Sound capacity := by
  simp only [Pipeline.skipFails, Option.bind_eq_bind, Option.bind_eq_some_iff] at stepped
  rcases stepped with ⟨world, failed, stepped⟩
  cases (transition_of_step failed).2 with
  | receiveFails error phase =>
      refine sound.release small ?_ (fun _ => .inr rfl) stepped
      refine ⟨rfl, rfl, ?_, ?_, ?_⟩
      · simp [Link.writes, phase]
      · simp [Link.writes, World.receiveFails]
      · exact .inr (by simp [Link.live, World.receiveFails])

theorem opened [ClosingTransport T] (sound : pipeline.Sound capacity) {connect : Connect}
    (stepped : pipeline.opened connect = some next) : next.Sound capacity := by
  simp only [Pipeline.opened, Option.bind_eq_bind, Option.bind_eq_some_iff] at stepped
  rcases stepped with ⟨link, opens, stepped⟩
  rcases Link.connecting_of_opened opens with
    ⟨before, resting, after, opened, frames, handshake⟩
  have noReader := sound.reader_eq_none (by simp [before, StackPhase.reads])
  have transcript := (sound.resting resting).opens
  rw [← opened] at transcript
  split at stepped
  · rename_i socket
    rw [Option.some.injEq] at stepped
    subst stepped
    rcases handshake with ⟨isSome, _⟩ | ⟨_, refused⟩
    · simp [socket] at isSome
    refine of_resting (by simp [Link.writes, after, refused]) sound.tx (by simp [noReader])
      (transcript.lose (.inr ?_)) sound.recorded (frames ▸ sound.queued)
    simp [Link.live, after, refused]
  · rename_i connection bytes socket encoded
    rw [Option.some.injEq] at stepped
    subst stepped
    rcases handshake with ⟨isSome, greeting⟩ | ⟨isNone, _⟩
    · rcases Option.some.inj (socket.symm.trans isSome)
      have isLive : link.live = some pipeline.link.opened := by
        simp [Link.live, after, greeting, socket]
      exact begin (by simp [Link.writes, after, greeting]) isLive noReader sound.tx transcript
        sound.recorded (frames ▸ sound.queued) (framed_of_encodePacket encoded)
    · simp [socket] at isNone
  · rename_i connection fault socket encoded
    rw [Option.some.injEq] at stepped
    subst stepped
    refine of_resting (by simp [Link.writes, after]) sound.tx (by simp [noReader])
      (transcript.lose (.inr ?_)) sound.recorded (frames ▸ sound.queued)
    simp [Link.live, after]
  · simp at stepped

theorem write (sound : pipeline.Sound capacity) {count : ℕ}
    (stepped : pipeline.write count = some next) : next.Sound capacity := by
  simp only [Pipeline.write, Option.bind_eq_bind, Option.bind_eq_some_iff,
    Option.ite_none_right_eq_some, Option.some.injEq] at stepped
  rcases stepped with ⟨connection, socket, ⟨writes, _, taken⟩, rfl⟩
  have isLive := (Link.live_of_writes writes).trans socket
  have transcript := sound.writing writes
  rw [isLive] at transcript
  have continues : (pipeline.current.drop pipeline.position).take count =
      (pipeline.current.drop pipeline.position).take
        ((pipeline.current.drop pipeline.position).take count).length := by rw [taken]
  have appended := transcript.append continues
  rw [taken, ← isLive] at appended
  exact of_writing writes rfl rfl sound.tx sound.reading appended (sound.recorded.append _ _)
    sound.queued

theorem complete (sound : pipeline.Sound capacity) (ends : pipeline.link.Ends link)
    (reading : ∀ reader, pipeline.reader = some reader → link.world.stack.reads = true)
    (stepped : pipeline.complete link = some next) : next.Sound capacity := by
  simp only [Pipeline.complete, Option.ite_none_right_eq_some, Option.some.injEq] at stepped
  rcases stepped with ⟨isEnd, rfl⟩
  have transcript := sound.writing ends.before
  rw [isEnd, ← ends.live, ← ends.opened] at transcript
  refine of_resting ends.after sound.tx ?_ transcript.complete sound.recorded
    (ends.frames ▸ sound.queued)
  intro reader isReader
  exact ⟨reading reader isReader, (sound.reading reader isReader).2⟩

/-- A connection that is given up is not used any more. -/
theorem givenUp (sound : pipeline.Sound capacity) (givesUp : pipeline.link.GivesUp link)
    (isLive : pipeline.link.live = Transport.socket pipeline.link.transport) :
    (pipeline.transcript.breakOff (Transport.socket pipeline.link.transport)).Sound link.opened
      link.live none := by
  have transcript := sound.transcript.breakOff
  rw [isLive, ← givesUp.opened, ← givesUp.live] at transcript
  exact transcript

theorem writeFails (small : capacity ≤ 65535) (sound : pipeline.Sound capacity)
    (failed : linkStep pipeline.link (.write .writeFails) = some link)
    (stepped : pipeline.writeFails link = some next) : next.Sound capacity := by
  rcases Link.givesUp_of_writeFails failed with ⟨givesUp, isLive⟩
  have transcript := sound.givenUp givesUp isLive
  simp only [Pipeline.writeFails] at stepped
  split at stepped
  · rename_i reader isReader
    simp only [Option.bind_eq_bind, Option.bind_eq_some_iff, Option.some.injEq] at stepped
    rcases stepped with ⟨tx, released, rfl⟩
    rcases sound.tx.release small (.inr rfl) released with ⟨txSound, history⟩
    refine of_resting givesUp.after txSound (by simp) transcript ?_ ?_
    · exact (sound.recorded.of_reads (by rw [history])).breakOff _
    · exact givesUp.frames ▸ sound.queued.of_reads (by rw [history]) (by rw [history])
  · rename_i noReader
    rw [Option.some.injEq] at stepped
    subst stepped
    exact of_resting givesUp.after sound.tx (by simp [noReader]) transcript
      (sound.recorded.breakOff _) (givesUp.frames ▸ sound.queued)

theorem connectFails (sound : pipeline.Sound capacity)
    (failed : linkStep pipeline.link .connectFails = some link) :
    (pipeline.connectFails link).Sound capacity := by
  rcases Link.givesUp_of_connectFails failed with ⟨givesUp, phase⟩
  have noReader := sound.reader_eq_none (by simp [phase, StackPhase.reads])
  rcases writes : pipeline.link.writes with _ | _
  · simp only [Pipeline.connectFails, writes, Bool.false_eq_true, if_false]
    refine of_resting givesUp.after sound.tx (by simp [noReader]) ?_ sound.recorded
      (givesUp.frames ▸ sound.queued)
    have transcript := (sound.resting writes).lose (.inr givesUp.live)
    rw [← givesUp.opened] at transcript
    exact transcript
  · simp only [Pipeline.connectFails, writes, if_true]
    exact of_resting givesUp.after sound.tx (by simp [noReader])
      (sound.givenUp givesUp (Link.live_of_writes writes)) (sound.recorded.breakOff _)
      (givesUp.frames ▸ sound.queued)

/-- A packet was handled or the keep-alive timer was, and the answer begins to be written. -/
theorem answer (sound : pipeline.Sound capacity) (noReader : pipeline.reader = none)
    (answers : pipeline.link.Answers link) (stepped : pipeline.answer link = some next) :
    next.Sound capacity := by
  simp only [Pipeline.answer] at stepped
  rcases answers with
    ⟨connection, socket, transport, starts, frames, reply, phase⟩ | ⟨quiet, noReply⟩
  · rw [← transport] at socket
    simp only [phase, socket] at stepped
    have transcript := sound.resting starts.before
    rw [starts.live, ← starts.opened] at transcript
    split at stepped
    · rename_i encoder encoded
      rw [Option.some.injEq] at stepped
      subst stepped
      have kept := encoded_of_toBuffer encoded
      have framed : Framed encoder.intoPacketBytes := by
        rw [MqttEncoder.intoPacketBytes, kept.headerStart, List.drop_zero]
        exact kept.framed
      exact begin starts.after starts.same noReader sound.tx transcript sound.recorded
        (frames ▸ sound.queued) framed
    · rw [Option.some.injEq] at stepped
      subst stepped
      exact of_resting (by simp [Link.writes]) sound.tx (by simp [noReader])
        (transcript.lose (.inr (by simp [Link.live]))) sound.recorded (frames ▸ sound.queued)
    · simp at stepped
  · split at stepped
    · rename_i phase _
      exact absurd phase (noReply _)
    · rw [Option.some.injEq] at stepped
      subst stepped
      exact sound.of_quiet quiet (by simp [noReader])

/-- An action of the link; while an empty frame is handled, it is one of the client's. -/
theorem follow [ClosingTransport T] (small : capacity ≤ 65535) (sound : pipeline.Sound capacity)
    {action : LinkAction T} (skips : pipeline.skips = true → action.isClient = true)
    (linked : linkStep pipeline.link action = some link)
    (stepped : pipeline.follow link action = some next) : next.Sound capacity := by
  have notIdle (notClient : action.isClient = false) {reader : ℕ}
      (isReader : pipeline.reader = some reader) : pipeline.link.world.stack ≠ .idle := by
    intro phase
    simp [Pipeline.skips, isReader, phase, notClient] at skips
  have noReader (notClient : action.isClient = false) (phase : pipeline.link.world.stack = .idle) :
      pipeline.reader = none := by
    rcases isReader : pipeline.reader with _ | reader
    · rfl
    · exact absurd phase (notIdle notClient isReader)
  have quiet (isQuiet : action.isQuiet = true) (notClient : action.isClient = false)
      (same : pipeline.follow link action = some { pipeline with link := link }) :
      next.Sound capacity := by
    rcases Option.some.inj (same.symm.trans stepped)
    rcases Link.quiet_of_linkStep isQuiet linked with ⟨quiet, reads⟩
    refine sound.of_quiet quiet ?_
    intro reader isReader
    exact (reads (sound.reading reader isReader).1).resolve_left (notIdle notClient isReader)
  cases action with
  | client action =>
      cases action with
      | commit handle => exact sound.commit small linked stepped
      | drop handle contended => exact sound.drop small linked stepped
      | grant | dropSubscription => simp [Pipeline.follow] at stepped
      | _ =>
          rcases Option.some.inj stepped
          exact sound.of_calling linked rfl sound.tx (.refl _)
  | greeted =>
      rcases Link.ends_of_greeted linked with ⟨ends, phase⟩
      have noReader := sound.reader_eq_none (by simp [phase, StackPhase.reads])
      exact sound.complete ends (by simp [noReader]) stepped
  | connectFails =>
      rcases Option.some.inj stepped
      exact sound.connectFails linked
  | receive received payload =>
      rcases Link.answers_of_receive linked with ⟨answers, phase⟩
      exact sound.answer (noReader rfl phase) answers stepped
  | write action =>
      cases action with
      | read => simp [Pipeline.follow] at stepped
      | written =>
          rcases Link.ends_of_written linked with ⟨ends, reads⟩
          exact sound.complete ends (fun _ _ => reads) stepped
      | replied =>
          rcases Link.ends_of_replied linked with ⟨ends, reads⟩
          exact sound.complete ends (fun _ _ => reads) stepped
      | flushed => exact quiet rfl rfl rfl
      | transmitted =>
          exact sound.release small (Link.quiet_of_linkStep rfl linked).1 (fun _ => .inl rfl) stepped
      | writeFails => exact sound.writeFails small linked stepped
      | keepAlive =>
          rcases Link.answers_of_keepAlive linked with ⟨answers, phase⟩
          exact sound.answer (noReader rfl phase) answers stepped
      | _ => simp [linkStep, Action.isWrite] at linked
  | opened | dropRun | disconnect => simp [Pipeline.follow] at stepped
  | connect | recvConnAck | connected | pending | socketFails | lost | drifts | reset =>
      exact quiet rfl rfl rfl

theorem step [ClosingTransport T] (small : capacity ≤ 65535) (sound : pipeline.Sound capacity)
    {action : PipelineAction T} (stepped : pipelineStep pipeline action = some next) :
    next.Sound capacity := by
  simp only [pipelineStep, Option.ite_none_left_eq_some] at stepped
  rcases stepped with ⟨_, stepped⟩
  cases action with
  | pollGrant handle packet waker => exact sound.pollGrant small stepped
  | dropSubscription pidLocked statusLocked topics => exact sound.dropSubscription small stepped
  | pollRead waker => exact sound.pollRead small stepped
  | skipped => exact sound.skip small stepped
  | skipFails => exact sound.skipFails small stepped
  | opened connect => exact sound.opened stepped
  | write count => exact sound.write stepped
  | link action =>
      simp only [Option.ite_none_left_eq_some, Option.bind_eq_some_iff] at stepped
      rcases stepped with ⟨goesOn, link, linked, stepped⟩
      refine sound.follow small ?_ linked stepped
      simpa using goesOn

theorem new (small : capacity ≤ 65535) (config : CrateConfig) (transport : T) :
    (Pipeline.new config capacity transport).Sound capacity := by
  have resting : (Pipeline.new config capacity transport).link.writes = false := by
    rcases connected : Transport.isConnected transport with _ | _
    · simp [Link.writes, Pipeline.new, Link.new, connected]
    · simp [Link.writes, Pipeline.new, Link.new, connected]
  have subs : 0 < (txConfig config).subs % 256 := Nat.one_pos
  refine of_resting resting (.new config small) (by simp [Pipeline.new]) (.empty ?_) ?_ ?_
  · intro connection isLive
    rcases connected : Transport.isConnected transport with _ | _
    · simp [Link.live, Pipeline.new, Link.new, connected] at isLive
    · simp only [Link.live, Pipeline.new, Link.new, connected, if_true] at isLive
      simp [Pipeline.new, isLive]
  · refine ⟨by simp [Pipeline.new, Transcript.empty], by simp [Pipeline.new, Transcript.empty], ?_⟩
    simp [Pipeline.new, Transcript.empty, Pubsub.World.Pipe.newPipe_eq subs, readsOf, contents]
  · simp [Queued, Pipeline.new, Link.new, World.new, Pubsub.World.Pipe.newPipe_eq subs, readsOf,
      commitsAfter, contents]

theorem of_run [ClosingTransport T] (small : capacity ≤ 65535) {transport : T}
    {actions : List (PipelineAction T)}
    (reached : pipelineRun config capacity transport actions = some pipeline) :
    pipeline.Sound capacity :=
  Execution.invariant_of_run (Sound capacity) (fun sound stepped => sound.step small stepped)
    (new small config transport) reached

/-- The queue of the world never keeps the stack from taking a frame of the TX channel. -/
theorem pollRead_ne_none (small : capacity ≤ 65535) (sound : pipeline.Sound capacity)
    {connection : ℕ} (socket : Transport.socket pipeline.link.transport = some connection)
    (running : pipeline.link.world.panicked = none)
    (phase : pipeline.link.world.stack = .idle) (noReader : pipeline.reader = none)
    (waker : Pubsub.Waker) : pipeline.pollRead waker ≠ none := by
  rcases sound.tx.pipe.subscriber with ⟨subscriber, subscribed⟩
  rcases read : Pubsub.step (txConfig config) pipeline.tx (.read 0 (some waker)) with _ | tx
  · simp [Pubsub.step, subscribed] at read
  simp only [Pipeline.pollRead, socket, phase, noReader, read, Option.bind_eq_bind,
    Option.bind_some, and_self, if_true]
  rcases sound.tx.read small read with
    ⟨txSound, _, commits, ⟨readers, _⟩ | ⟨grant, readers, reads⟩⟩
  · have unused : tx.readers.get? pipeline.tx.readers.next = none := by
      rw [readers, Table.get?_next]
    simp [afterRead, unused]
  have held : tx.readers.get? pipeline.tx.readers.next = some grant := by
    rw [readers, Table.get?_insert_next]
  simp only [afterRead, held]
  split
  · simp
  rename_i nonempty
  -- what was read is among the commits, so the world has a frame left
  have sublist : (contents (readsOf 0 tx.history)).Sublist
      (contents (commitsAfter 0 tx.history)) := by
    rcases txSound.pipe.delivered with ⟨_, _, delivered⟩
    rw [← delivered]
    exact (List.sublist_append_left _ _).filter _
  have isContent : contents [(⟨grant.messageId, bytesAt pipeline.tx.buf grant.region⟩ :
      Pubsub.Frame)] = [⟨grant.messageId, bytesAt pipeline.tx.buf grant.region⟩] := by
    have length : (bytesAt pipeline.tx.buf grant.region).length = grant.len :=
      Pubsub.length_bytesAt _ _
    have bytes : bytesAt pipeline.tx.buf grant.region ≠ [] :=
      fun isEmpty => nonempty (length.symm.trans (congrArg List.length isEmpty))
    simp [contents, bytes]
  have queued := sound.queued
  have shorter := sublist.length_le
  rw [reads, commits, contents_append, isContent, List.length_append,
    List.length_singleton] at shorter
  unfold Queued at queued
  rcases frames : pipeline.link.world.frames with _ | ⟨first, rest⟩
  · rw [frames, List.length_nil] at queued
    omega
  · simp [linkStep, socket, Action.isWrite, System.step, running, phase, frames]

/-- The frames that were begun were committed, in this order. -/
theorem sublist_commits (sound : pipeline.Sound capacity) :
    (pipeline.transcript.sent.reverse.filterMap Sent.label).Sublist
      (commitsAfter 0 pipeline.tx.history) := by
  rcases sound.tx.pipe.delivered with ⟨subscriber, _, delivered⟩
  rw [sound.recorded.order, ← delivered]
  exact List.filter_sublist.trans (List.sublist_append_left _ _)

end Sound

/-- With a TX buffer of at most 65535 bytes and a transport whose `disconnect` closes its
connection, any run of a stack writes complete packets to each connection, up to the last one. That
one is being written, or a write failed or connecting timed out. The frames among the packets are
written as they were committed, in the order of the commits, and none is begun twice. -/
theorem integrity_of_pipelineRun {T : Type} [Transport T] [ClosingTransport T]
    {config : CrateConfig} {capacity : ℕ} (small : capacity ≤ 65535) {transport : T}
    {actions : List (PipelineAction T)} {pipeline : Pipeline T config}
    (reached : pipelineRun config capacity transport actions = some pipeline) :
    (∀ connection,
      pipeline.transcript.stream connection =
          (pipeline.transcript.on connection).flatMap Sent.written ∧
        (∀ sent ∈ pipeline.transcript.on connection, Framed sent.symbols) ∧
        (∀ sent ∈ (pipeline.transcript.on connection).dropLast, sent.Complete) ∧
        ∀ sent ∈ pipeline.transcript.on connection,
          sent.Complete ∨ connection ∈ pipeline.transcript.cut ∨
            pipeline.link.writes = true ∧
              Transport.socket pipeline.link.transport = some connection) ∧
      (∀ sent ∈ pipeline.transcript.sent, ∀ frame, sent.label = some frame →
        sent.symbols = frame.bytes) ∧
      (pipeline.transcript.sent.reverse.filterMap Sent.label).Sublist
        (commitsAfter 0 pipeline.tx.history) ∧
      ((pipeline.transcript.sent.reverse.filterMap Sent.label).map Pubsub.Frame.id).Pairwise
        (· < ·) := by
  have sound := Sound.of_run small reached
  have sublist := sound.sublist_commits
  refine ⟨?_, sound.recorded.frames, sublist, ?_⟩
  · intro connection
    refine ⟨sound.transcript.stream connection, ?_, ?_, ?_⟩
    · intro sent isOn
      exact sound.recorded.framed sent (pipeline.transcript.mem_of_mem_on isOn).1
    · intro sent isEarlier
      exact sound.transcript.complete_of_mem_dropLast isEarlier
    · intro sent isOn
      rcases pipeline.transcript.mem_of_mem_on isOn with ⟨sent_mem, rfl⟩
      by_cases complete : sent.Complete
      · exact .inl complete
      rcases sound.transcript.cut_or_underway sent_mem complete with isCut | ⟨isUnderway, isLive⟩
      · exact .inr (.inl isCut)
      · have writes : pipeline.link.writes = true := by
          by_contra rests
          simp [underway, rests] at isUnderway
        exact .inr (.inr ⟨writes, (Link.live_of_writes writes).symm.trans isLive⟩)
  · rcases sound.tx.pipe.subscriber with ⟨subscriber, subscribed⟩
    have delivers := sound.tx.pipe.once.broadcasts sound.tx.pipe.publishedOnce 0 subscriber subscribed
    exact delivers.increasing.sublist (sublist.map Pubsub.Frame.id)

/-- Two publishes of QoS 0 are committed. -/
def commitPublishes (first second : Publish) : List (PipelineAction NalTransport) :=
  [.link (.client (.send (.publish .atMostOnce))), .link (.client (.lock 0)),
    .pollGrant 0 (.publish first) 0, .link (.client (.commit 0)),
    .link (.client (.send (.publish .atMostOnce))), .link (.client (.lock 1)),
    .pollGrant 1 (.publish second) 0, .link (.client (.commit 1))]

/-- The first one is written in two pieces, and a write fails behind the first bytes of the second
one. -/
def cutPublish (first second : Publish) : List (PipelineAction NalTransport) :=
  commitPublishes first second ++
    [.pollRead 0, .write 3, .write 5, .link (.write .written), .link (.write .flushed),
      .link (.write .transmitted), .pollRead 0, .write 3, .link (.write .writeFails)]

theorem integrity_of_pipelineRun_example :
    ∃ pipeline,
      pipelineRun (.default .mqttv5 true) 64 ⟨some 0⟩ (cutPublish
        ⟨false, .atMostOnce, false, none, ⟨[0x61], by decide⟩, .ofSlice [1, 2], .slice []⟩
        ⟨false, .atMostOnce, false, none, ⟨[0x61], by decide⟩, .ofSlice [3], .slice []⟩) =
        some pipeline ∧
      pipeline.transcript.stream 0 = [0x30, 6, 0, 1, 0x61, 0, 1, 2, 0x30, 5, 0] ∧
      (pipeline.transcript.on 0).flatMap Sent.written =
        [0x30, 6, 0, 1, 0x61, 0, 1, 2, 0x30, 5, 0] ∧
      (∀ sent ∈ pipeline.transcript.on 0, Framed sent.symbols) ∧
      (∀ sent ∈ (pipeline.transcript.on 0).dropLast, sent.Complete) ∧
      pipeline.transcript.sent.reverse.filterMap Sent.label =
        [⟨0, [0x30, 6, 0, 1, 0x61, 0, 1, 2]⟩, ⟨1, [0x30, 5, 0, 1, 0x61, 0, 3]⟩] ∧
      (pipeline.transcript.sent.reverse.filterMap Sent.label).Sublist
        (commitsAfter 0 pipeline.tx.history) := by
  have observed : (pipelineRun (.default .mqttv5 true) 64 ⟨some 0⟩ (cutPublish
      ⟨false, .atMostOnce, false, none, ⟨[0x61], by decide⟩, .ofSlice [1, 2], .slice []⟩
      ⟨false, .atMostOnce, false, none, ⟨[0x61], by decide⟩, .ofSlice [3], .slice []⟩)).map
      (fun pipeline => (pipeline.transcript.stream 0,
        pipeline.transcript.sent.reverse.filterMap Sent.label)) =
      some ([0x30, 6, 0, 1, 0x61, 0, 1, 2, 0x30, 5, 0],
        [⟨0, [0x30, 6, 0, 1, 0x61, 0, 1, 2]⟩, ⟨1, [0x30, 5, 0, 1, 0x61, 0, 3]⟩]) := by
    decide +kernel
  rcases Option.map_eq_some_iff.mp observed with ⟨pipeline, reached, same⟩
  rcases Prod.mk.inj same with ⟨stream, labels⟩
  rcases integrity_of_pipelineRun (by decide) reached with ⟨onConnection, _, inOrder, _⟩
  rcases onConnection 0 with ⟨written, framed, earlier, _⟩
  exact ⟨pipeline, reached, stream, written.symm.trans stream, framed, earlier, labels, inOrder⟩

end Pipeline

end Mqttrust.System
