import Mqttrust.Pubsub.Turns
import Mqttrust.System.OutboundStream

/-!
# The stack takes its turns

The stack holds at most one read grant of the TX channel: from the read of a frame
until it is released, or dropped when writing fails. So while it handles a frame,
that is the oldest one of the queue, and otherwise nothing of the queue was read.
Of a packet no more bytes are written than it has.
-/

namespace Mqttrust.System

open Pubsub (bytesAt)
open Pubsub.World (Appends Pipe Turns)

section Acquire

variable {Packet : Type} [MqttEncode Packet] {config : CrateConfig} {capacity : ℕ}
  {tx next : Pubsub.World}

theorem isPublishing_of_mem_stores {writer offset : ℕ} {bytes : List UInt8}
    {action : Pubsub.Action} (stores : action ∈ Pubsub.stores writer offset bytes) :
    action.isPublishing = true := by
  induction bytes generalizing offset with
  | nil => simp [Pubsub.stores] at stores
  | cons byte rest ih =>
      rcases List.mem_cons.mp stores with rfl | later
      · rfl
      · exact ih later

theorem appends_of_encodeInto (small : capacity ≤ 65535) (pipe : tx.Pipe (txConfig config) capacity)
    {packet : Packet} {writer : ℕ} {grant : Pubsub.FrameGrantW} {acquired : Acquired}
    (encoded : encodeInto config tx writer grant packet = some (next, acquired)) :
    Appends tx next := by
  simp only [encodeInto] at encoded
  split at encoded
  · rcases Option.map_eq_some_iff.mp encoded with ⟨after, stored, same⟩
    rcases Prod.mk.inj same with ⟨rfl, rfl⟩
    exact .of_run small pipe (fun _ => isPublishing_of_mem_stores) stored
  · rcases Option.map_eq_some_iff.mp encoded with ⟨after, stored, same⟩
    rcases Prod.mk.inj same with ⟨rfl, rfl⟩
    exact .of_run small pipe (fun _ => isPublishing_of_mem_stores) stored
  · simp at encoded

theorem appends_of_acquire (small : capacity ≤ 65535) (pipe : tx.Pipe (txConfig config) capacity)
    {packet : Packet} {size : ℕ} {cx : Option Pubsub.Waker} {acquired : Acquired}
    (asked : acquire config tx size cx packet = some (next, acquired)) : Appends tx next := by
  rcases Option.bind_eq_some_iff.mp asked with ⟨middle, stepped, asked⟩
  have first := Appends.of_step pipe rfl stepped
  split at asked
  · rcases Prod.mk.inj (Option.some.inj asked) with ⟨rfl, _⟩
    exact first
  · exact first.trans (appends_of_encodeInto small (pipe.step small rfl stepped) asked)

end Acquire

variable {T : Type} [Transport T] {config : CrateConfig} {capacity : ℕ}

/-- A frame is taken by a read only. -/
theorem isSome_frame?_of_step {world next : World config} {action : Action}
    (notRead : action ≠ .read) (stepped : step world action = some next)
    (taken : next.stack.frame?.isSome = true) : world.stack.frame?.isSome = true := by
  by_cases isClient : action.isClient = true
  case pos => rwa [← (stack_of_isClient isClient stepped).1]
  case neg =>
    cases (transition_of_step stepped).2 with
    | written phase | flushed phase => simp [phase, StackPhase.frame?]
    | transmitted phase => simp [World.transmitted, StackPhase.frame?] at taken
    | receive payload phase =>
        unfold World.receive at taken
        dsimp only at taken
        split at taken
        · rename_i shared reply handled
          cases reply <;> simp [StackPhase.frame?] at taken
        · simp [StackPhase.frame?] at taken
        · simpa using taken
    | receiveFails error phase =>
        cases error with
        | io kind => simp [World.receiveFails, StackPhase.frame?] at taken
        | _ => simpa [World.receiveFails] using taken
    | keepAlive phase =>
        unfold World.keepAlive at taken
        split at taken <;> simp [StackPhase.frame?] at taken
    | reset isConnected phase =>
        cases isConnected <;> simp [World.reset, World.resetShared, StackPhase.frame?] at taken
    | dropRun isConnected => cases isConnected <;> simp [StackPhase.frame?] at taken
    | read => simp at notRead
    | _ =>
        simp_all [Action.isClient, StackPhase.frame?, World.connect, World.connected,
          World.resetShared]

theorem Link.isSome_frame?_of_linkStep {link next : Link T config} {action : LinkAction T}
    (notRead : action ≠ .write .read) (stepped : linkStep link action = some next)
    (taken : next.world.stack.frame?.isSome = true) :
    link.world.stack.frame?.isSome = true := by
  cases transition_of_linkStep stepped with
  | opened phase =>
      unfold connectTransport at taken
      dsimp only at taken
      split at taken <;> exact taken
  | write socket isWrite inner =>
      exact isSome_frame?_of_step (by rintro rfl; exact notRead rfl) inner taken
  | client isClient inner =>
      exact isSome_frame?_of_step (by rintro rfl; simp [Action.isClient] at isClient) inner taken
  | connect _ inner | connected _ inner | connectFails _ inner | receive _ _ inner
  | receiveFails _ _ inner | socketFails _ inner | lost _ inner | reset inner | dropRun _ inner =>
      exact isSome_frame?_of_step (by simp) inner taken
  | disconnect socket inner =>
      simp only [Link.disconnect] at taken
      split at taken <;> simp [StackPhase.frame?] at taken
  | _ => exact taken

namespace Pipeline

variable {pipeline next : Pipeline T config} {link : Link T config}

/-- The order in which the stack handles the frames and the bytes. -/
structure Orderly (pipeline : Pipeline T config) : Prop where
  turns : pipeline.tx.Turns pipeline.reader
  /-- A frame that is handled is held. -/
  holds : pipeline.link.world.stack.frame?.isSome = true → pipeline.reader.isSome = true
  within : ∀ sent ∈ pipeline.transcript.sent, sent.count ≤ sent.symbols.length

/-- The publisher's side of the TX channel goes on. -/
structure Fills (pipeline next : Pipeline T config) : Prop where
  tx : Appends pipeline.tx next.tx
  reader : next.reader = pipeline.reader
  position : next.position = pipeline.position
  stack : next.link.world.stack = pipeline.link.world.stack
  writes : next.link.writes = pipeline.link.writes
  transcript : next.transcript = pipeline.transcript

/-- What a poll of `read_async` comes to: it waits, or takes the oldest frame of the queue, which is
written unless it is empty. -/
inductive Polled (pipeline next : Pipeline T config) : Prop where
  | waits (tx : Pubsub.World) (nothing : pipeline.tx.inner.messages = [])
      (noReader : pipeline.reader = none) (turns : tx.Turns none) (queue : tx.inner.messages = [])
      (startId : tx.inner.startId = pipeline.tx.inner.startId)
      (same : next = { pipeline with tx := tx })
  | empty (tx : Pubsub.World) (reader : ℕ) (front : Pubsub.Header) (later : List Pubsub.Header)
      (split : pipeline.tx.inner.messages = front :: later) (noReader : pipeline.reader = none)
      (turns : tx.Turns (some reader)) (queue : tx.inner.messages = front.startRead :: later)
      (startId : tx.inner.startId = pipeline.tx.inner.startId)
      (same : next = { pipeline with tx := tx, reader := some reader })
  | begins (link : Link T config) (tx : Pubsub.World) (reader connection : ℕ)
      (front : Pubsub.Header) (later : List Pubsub.Header)
      (split : pipeline.tx.inner.messages = front :: later) (noReader : pipeline.reader = none)
      (turns : tx.Turns (some reader)) (held : tx.readers.get? reader = some front.readGrant)
      (queue : tx.inner.messages = front.startRead :: later)
      (startId : tx.inner.startId = pipeline.tx.inner.startId)
      (taken : linkStep pipeline.link (.write .read) = some link)
      (same : next = Pipeline.begin { pipeline with link := link, tx := tx, reader := some reader }
        connection (some ⟨front.messageId, bytesAt tx.buf front.readGrant.region⟩)
        (bytesAt tx.buf front.readGrant.region))

namespace Fills

theorem of_client {action : Action} {tx : Pubsub.World} (granted : Option (ℕ × ℕ))
    (called : linkStep pipeline.link (.client action) = some link)
    (appends : Appends pipeline.tx tx) :
    pipeline.Fills { pipeline with link := link, tx := tx, granted := granted } where
  tx := appends
  reader := rfl
  position := rfl
  stack := (Link.wire_of_isClient called).2.2.2
  writes := (Link.wire_of_isClient called).2.1
  transcript := rfl

end Fills

namespace Orderly

omit [Transport T] in
theorem fills (orderly : pipeline.Orderly) (fills : pipeline.Fills next) : next.Orderly where
  turns := by
    rw [fills.reader]
    exact orderly.turns.appends fills.tx
  holds := by
    rw [fills.stack, fills.reader]
    exact orderly.holds
  within := by
    rw [fills.transcript]
    exact orderly.within

omit [Transport T] in
theorem within_begin (orderly : pipeline.Orderly) (connection : ℕ) (label : Option Pubsub.Frame)
    (bytes : List UInt8) :
    ∀ sent ∈ (pipeline.transcript.begin connection label bytes).sent,
      sent.count ≤ sent.symbols.length := by
  intro sent sent_mem
  rcases List.mem_cons.mp sent_mem with rfl | older
  · exact Nat.zero_le _
  · exact orderly.within sent older

end Orderly

namespace Sound

theorem fills_of_pollGrant (small : capacity ≤ 65535) (sound : pipeline.Sound capacity)
    {handle : ℕ} {packet : ClientPacket} {waker : Pubsub.Waker}
    (stepped : pipeline.pollGrant handle packet waker = some next) : pipeline.Fills next := by
  simp only [Pipeline.pollGrant, Option.bind_eq_bind, Option.bind_eq_some_iff,
    Option.ite_none_right_eq_some] at stepped
  rcases stepped with ⟨call, _, _, size, _, ⟨tx, acquired⟩, asked, stepped⟩
  have appends := appends_of_acquire small sound.tx.pipe asked
  cases (sound.tx.acquire small asked).2 with
  | refused txSound =>
      rcases Option.some.inj stepped with rfl
      exact ⟨appends, rfl, rfl, rfl, rfl, rfl⟩
  | encoded alone txSound =>
      simp only [afterGrant, Option.bind_eq_bind, Option.bind_eq_some_iff,
        Option.some.injEq] at stepped
      rcases stepped with ⟨link, called, rfl⟩
      exact .of_client _ called appends
  | failed alone txSound =>
      simp only [afterGrant, Option.bind_eq_bind, Option.bind_eq_some_iff,
        Option.some.injEq] at stepped
      rcases stepped with ⟨link, called, tx', dropped, rfl⟩
      exact .of_client _ called (appends.trans (.of_step txSound.pipe rfl dropped))

theorem fills_of_dropSubscription (small : capacity ≤ 65535) (sound : pipeline.Sound capacity)
    {pidLocked statusLocked : Bool} {topics : List Utf8}
    (stepped : pipeline.dropSubscription pidLocked statusLocked topics = some next) :
    pipeline.Fills next := by
  simp only [Pipeline.dropSubscription, Option.ite_none_left_eq_some] at stepped
  rcases stepped with ⟨_, stepped⟩
  split at stepped
  · simp only [afterDropGrant, Option.bind_eq_bind, Option.bind_eq_some_iff,
      Option.some.injEq] at stepped
    rcases stepped with ⟨link, called, rfl⟩
    exact .of_client _ called (.refl _)
  simp only [Option.bind_eq_bind, Option.bind_eq_some_iff] at stepped
  rcases stepped with ⟨size, _, ⟨tx, acquired⟩, asked, stepped⟩
  have appends := appends_of_acquire small sound.tx.pipe asked
  cases (sound.tx.acquire small asked).2 with
  | refused txSound =>
      simp only [afterDropGrant, Option.bind_eq_bind, Option.bind_eq_some_iff,
        Option.some.injEq] at stepped
      rcases stepped with ⟨link, called, rfl⟩
      exact .of_client _ called appends
  | encoded alone txSound =>
      simp only [afterDropGrant, Option.bind_eq_bind, Option.bind_eq_some_iff,
        Option.some.injEq] at stepped
      rcases stepped with ⟨link, called, tx', committed, rfl⟩
      exact .of_client _ called (appends.trans (.of_step txSound.pipe rfl committed))
  | failed alone txSound =>
      simp only [afterDropGrant, Option.bind_eq_bind, Option.bind_eq_some_iff,
        Option.some.injEq] at stepped
      rcases stepped with ⟨link, called, tx', dropped, rfl⟩
      exact .of_client _ called (appends.trans (.of_step txSound.pipe rfl dropped))

theorem fills_of_commit (small : capacity ≤ 65535) (sound : pipeline.Sound capacity) {handle : ℕ}
    (client : linkStep pipeline.link (.client (.commit handle)) = some link)
    (stepped : pipeline.commit link handle = some next) : pipeline.Fills next := by
  simp only [Pipeline.commit, Option.bind_eq_bind, Option.bind_eq_some_iff] at stepped
  rcases stepped with ⟨call, live, ⟨writer, used⟩, granted, stepped⟩
  split at stepped
  · simp only [Option.bind_eq_some_iff, Option.some.injEq] at stepped
    rcases stepped with ⟨tx, ran, rfl⟩
    have publishing : ∀ action ∈ [Pubsub.Action.setPid writer call.pid.val, .commit writer used],
        action.isPublishing = true := by simp [Pubsub.Action.isPublishing]
    exact .of_client _ client (.of_run small sound.tx.pipe publishing ran)
  · simp only [Option.bind_eq_some_iff, Option.some.injEq] at stepped
    rcases stepped with ⟨tx, dropped, rfl⟩
    exact .of_client _ client (.of_step sound.tx.pipe rfl dropped)
  · rcases Option.some.inj stepped with rfl
    exact .of_client _ client (.refl _)

theorem fills_of_drop (sound : pipeline.Sound capacity) {handle : ℕ} {contended : Bool}
    (client : linkStep pipeline.link (.client (.drop handle contended)) = some link)
    (stepped : pipeline.drop link handle = some next) : pipeline.Fills next := by
  simp only [Pipeline.drop, Option.bind_eq_bind, Option.bind_eq_some_iff] at stepped
  rcases stepped with ⟨call, _, stepped⟩
  split at stepped
  · simp only [Option.bind_eq_some_iff, Option.some.injEq] at stepped
    rcases stepped with ⟨⟨writer, used⟩, _, tx, dropped, rfl⟩
    exact .of_client _ client (.of_step sound.tx.pipe rfl dropped)
  · rcases Option.some.inj stepped with rfl
    exact .of_client _ client (.refl _)

theorem fills_of_client (small : capacity ≤ 65535) (sound : pipeline.Sound capacity)
    {action : Action} (client : linkStep pipeline.link (.client action) = some link)
    (stepped : pipeline.follow link (.client action) = some next) : pipeline.Fills next := by
  cases action with
  | commit handle => exact sound.fills_of_commit small client stepped
  | drop handle contended => exact sound.fills_of_drop client stepped
  | grant | dropSubscription => simp [Pipeline.follow] at stepped
  | _ =>
      rcases Option.some.inj stepped with rfl
      exact .of_client _ client (.refl _)

end Sound

/-- A packet of which some bytes are written has these bytes. -/
theorem Sound.within_write (sound : pipeline.Sound capacity)
    (within : ∀ sent ∈ pipeline.transcript.sent, sent.count ≤ sent.symbols.length) {count : ℕ}
    (stepped : pipeline.write count = some next) :
    ∀ sent ∈ next.transcript.sent, sent.count ≤ sent.symbols.length := by
  simp only [Pipeline.write, Option.bind_eq_bind, Option.bind_eq_some_iff,
    Option.ite_none_right_eq_some, Option.some.injEq] at stepped
  rcases stepped with ⟨connection, _, ⟨writes, _, taken⟩, rfl⟩
  rcases (sound.writing writes).unfinished with ⟨newest, earlier, sent, _, symbols, position, _⟩
  rw [List.length_take, List.length_drop] at taken
  intro packet packet_mem
  simp only [Transcript.append, sent] at packet_mem
  rcases List.mem_cons.mp packet_mem with rfl | older
  · have inside := within newest (by simp [sent])
    simp only [List.length_take, List.length_drop, symbols, position] at inside ⊢
    omega
  · exact within packet (by simp [sent, older])

namespace Orderly

theorem new (config : CrateConfig) (capacity : ℕ) (transport : T) :
    (Pipeline.new config capacity transport).Orderly where
  turns := by
    have subs : 0 < (txConfig config).subs % 256 := Nat.one_pos
    exact .new subs
  holds taken := by
    rcases connected : Transport.isConnected transport with _ | _
    · simp [Pipeline.new, Link.new, connected, StackPhase.frame?] at taken
    · simp [Pipeline.new, Link.new, connected, StackPhase.frame?] at taken
  within := by simp [Pipeline.new, Transcript.empty]

theorem polled (orderly : pipeline.Orderly) (sound : pipeline.Sound capacity)
    {waker : Pubsub.Waker} (stepped : pipeline.pollRead waker = some next) :
    pipeline.Polled next := by
  simp only [Pipeline.pollRead, Option.bind_eq_bind, Option.bind_eq_some_iff,
    Option.ite_none_right_eq_some] at stepped
  rcases stepped with ⟨connection, _, ⟨_, noReader⟩, tx, read, stepped⟩
  have turns := orderly.turns
  rw [noReader] at turns
  rcases queue : pipeline.tx.inner.messages with _ | ⟨front, later⟩
  · rcases turns.read_nil queue read with ⟨turns, readers, nothing, startId⟩
    have unused : tx.readers.get? pipeline.tx.readers.next = none := by
      rw [readers, Table.get?_next]
    simp only [afterRead, unused, Option.some.injEq] at stepped
    exact .waits tx queue noReader turns nothing startId stepped.symm
  · rcases turns.read_cons sound.tx.pipe.once.invariant queue read with
      ⟨turns, held, queue', startId⟩
    simp only [afterRead, held] at stepped
    split at stepped
    · exact .empty tx _ front later queue noReader turns queue' startId
        (Option.some.inj stepped).symm
    · simp only [Option.bind_eq_bind, Option.bind_eq_some_iff, Option.some.injEq] at stepped
      rcases stepped with ⟨link, taken, same⟩
      exact .begins link tx _ connection front later queue noReader turns held queue' startId taken
        same.symm

theorem pollRead (orderly : pipeline.Orderly) (sound : pipeline.Sound capacity)
    {waker : Pubsub.Waker} (stepped : pipeline.pollRead waker = some next) : next.Orderly := by
  cases orderly.polled sound stepped with
  | waits tx nothing noReader turns queue startId same =>
      subst same
      exact ⟨by rwa [noReader], orderly.holds, orderly.within⟩
  | empty tx reader front later split noReader turns queue startId same =>
      subst same
      exact ⟨turns, fun _ => rfl, orderly.within⟩
  | begins link tx reader connection front later split noReader turns held queue startId taken
      same =>
      subst same
      exact ⟨turns, fun _ => rfl, orderly.within_begin _ _ _⟩

theorem release (orderly : pipeline.Orderly) (sound : pipeline.Sound capacity)
    {call : ℕ → Pubsub.Action}
    (isRelease : ∀ reader, call reader = .release reader ∨ call reader = .dropReader reader)
    (after : link.world.stack.frame? = none)
    (stepped : pipeline.release link call = some next) : next.Orderly := by
  simp only [Pipeline.release, Option.bind_eq_bind, Option.bind_eq_some_iff,
    Option.some.injEq] at stepped
  rcases stepped with ⟨reader, isReader, tx, released, rfl⟩
  have turns := orderly.turns
  rw [isReader] at turns
  rcases turns.release sound.tx.pipe (isRelease reader) with ⟨next, same, turns, _⟩
  rcases Option.some.inj (released.symm.trans same) with rfl
  exact ⟨turns, by simp [after], orderly.within⟩

theorem writeFails (orderly : pipeline.Orderly) (sound : pipeline.Sound capacity)
    (failed : linkStep pipeline.link (.write .writeFails) = some link)
    (stepped : pipeline.writeFails link = some next) : next.Orderly := by
  simp only [Pipeline.writeFails] at stepped
  split at stepped
  · rename_i reader isReader
    simp only [Option.bind_eq_bind, Option.bind_eq_some_iff, Option.some.injEq] at stepped
    rcases stepped with ⟨tx, dropped, rfl⟩
    have released : pipeline.release link .dropReader =
        some { pipeline with link := link, tx := tx, reader := none } := by
      simp [Pipeline.release, isReader, dropped]
    have after : link.world.stack.frame? = none := by
      cases Link.transition_of_linkStep failed with
      | write _ _ inner =>
          cases (transition_of_step inner).2 with
          | writeFails => rfl
    have orderly := orderly.release sound (fun _ => .inr rfl) after released
    exact ⟨orderly.turns, orderly.holds, orderly.within⟩
  · rename_i noReader
    rcases Option.some.inj stepped with rfl
    exact ⟨orderly.turns, fun taken => orderly.holds
      (Link.isSome_frame?_of_linkStep (by simp) failed taken), orderly.within⟩

theorem opened (orderly : pipeline.Orderly) {connect : Connect}
    (stepped : pipeline.opened connect = some next) : next.Orderly := by
  simp only [Pipeline.opened, Option.bind_eq_bind, Option.bind_eq_some_iff] at stepped
  rcases stepped with ⟨link, opens, stepped⟩
  have holds (taken : link.world.stack.frame?.isSome = true) : pipeline.reader.isSome = true :=
    orderly.holds (Link.isSome_frame?_of_linkStep (by simp) opens taken)
  split at stepped
  · rcases Option.some.inj stepped with rfl
    exact ⟨orderly.turns, holds, orderly.within⟩
  · rcases Option.some.inj stepped with rfl
    exact ⟨orderly.turns, holds, orderly.within_begin _ _ _⟩
  · rcases Option.some.inj stepped with rfl
    exact ⟨orderly.turns, holds, orderly.within⟩
  · simp at stepped

theorem answer (orderly : pipeline.Orderly)
    (stack : link.world.stack.frame?.isSome = true →
      pipeline.link.world.stack.frame?.isSome = true)
    (stepped : pipeline.answer link = some next) : next.Orderly := by
  unfold Pipeline.answer at stepped
  split at stepped
  · split at stepped
    · rcases Option.some.inj stepped with rfl
      exact ⟨orderly.turns, fun taken => orderly.holds (stack taken), orderly.within_begin _ _ _⟩
    · rcases Option.some.inj stepped with rfl
      exact ⟨orderly.turns, by simp [StackPhase.frame?], orderly.within⟩
    · simp at stepped
  · rcases Option.some.inj stepped with rfl
    exact ⟨orderly.turns, fun taken => orderly.holds (stack taken), orderly.within⟩

theorem follow (small : capacity ≤ 65535) (orderly : pipeline.Orderly)
    (sound : pipeline.Sound capacity) {action : LinkAction T}
    (linked : linkStep pipeline.link action = some link)
    (stepped : pipeline.follow link action = some next) : next.Orderly := by
  -- the frame, if there is one, was taken before
  have same (notRead : action ≠ .write .read)
      (after : next = { pipeline with link := link }) : next.Orderly := by
    subst after
    exact ⟨orderly.turns, fun taken => orderly.holds
      (Link.isSome_frame?_of_linkStep notRead linked taken), orderly.within⟩
  have complete (notRead : action ≠ .write .read)
      (stepped : pipeline.complete link = some next) : next.Orderly := by
    simp only [Pipeline.complete, Option.ite_none_right_eq_some, Option.some.injEq] at stepped
    exact same notRead stepped.2.symm
  cases action with
  | client action => exact orderly.fills (sound.fills_of_client small linked stepped)
  | greeted => exact complete (by simp) stepped
  | receive received payload =>
      exact orderly.answer (Link.isSome_frame?_of_linkStep (by simp) linked) stepped
  | connectFails =>
      rcases Option.some.inj stepped with rfl
      refine ⟨orderly.turns, fun taken => orderly.holds
        (Link.isSome_frame?_of_linkStep (by simp) linked taken), ?_⟩
      simp only [Pipeline.connectFails]
      split
      · exact orderly.within
      · exact orderly.within
  | write action =>
      cases action with
      | read => simp [Pipeline.follow] at stepped
      | written | replied => exact complete (by simp) stepped
      | transmitted =>
          have after : link.world.stack.frame? = none := by
            cases Link.transition_of_linkStep linked with
            | write _ _ inner =>
                cases (transition_of_step inner).2 with
                | transmitted => rfl
          exact orderly.release sound (fun _ => .inl rfl) after stepped
      | writeFails => exact orderly.writeFails sound linked stepped
      | keepAlive => exact orderly.answer (Link.isSome_frame?_of_linkStep (by simp) linked) stepped
      | _ => exact same (by simp) (Option.some.inj stepped).symm
  | opened | dropRun | disconnect => simp [Pipeline.follow] at stepped
  | connect | recvConnAck | connected | pending | socketFails | lost | drifts | reset =>
      exact same (by simp) (Option.some.inj stepped).symm

theorem step (small : capacity ≤ 65535) (orderly : pipeline.Orderly)
    (sound : pipeline.Sound capacity) {action : PipelineAction T}
    (stepped : pipelineStep pipeline action = some next) : next.Orderly := by
  simp only [pipelineStep, Option.ite_none_left_eq_some] at stepped
  rcases stepped with ⟨_, stepped⟩
  cases action with
  | pollGrant handle packet waker => exact orderly.fills (sound.fills_of_pollGrant small stepped)
  | dropSubscription pidLocked statusLocked topics =>
      exact orderly.fills (sound.fills_of_dropSubscription small stepped)
  | pollRead waker => exact orderly.pollRead sound stepped
  | skipped =>
      simp only [Pipeline.skip, Option.bind_eq_bind, Option.bind_eq_some_iff,
        Option.ite_none_right_eq_some] at stepped
      rcases stepped with ⟨_, _, _, _, phase, stepped⟩
      exact orderly.release sound (fun _ => .inl rfl) (by simp [phase, StackPhase.frame?]) stepped
  | skipFails =>
      simp only [Pipeline.skipFails, Option.bind_eq_bind, Option.bind_eq_some_iff] at stepped
      rcases stepped with ⟨world, failed, stepped⟩
      have after : world.stack.frame? = none := by
        cases (transition_of_step failed).2 with
        | receiveFails error phase => simp [World.receiveFails, StackPhase.frame?]
      exact orderly.release sound (fun _ => .inr rfl) after stepped
  | opened connect => exact orderly.opened stepped
  | write count =>
      have within := sound.within_write orderly.within stepped
      simp only [Pipeline.write, Option.bind_eq_bind, Option.bind_eq_some_iff,
        Option.ite_none_right_eq_some, Option.some.injEq] at stepped
      rcases stepped with ⟨_, _, _, rfl⟩
      exact ⟨orderly.turns, orderly.holds, within⟩
  | link action =>
      simp only [Option.ite_none_left_eq_some, Option.bind_eq_some_iff] at stepped
      rcases stepped with ⟨_, link, linked, stepped⟩
      exact orderly.follow small sound linked stepped

end Orderly

end Pipeline

end Mqttrust.System
