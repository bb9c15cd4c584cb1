import Mqttrust.System.MessageStream

/-!
# What a subscription hands out

A subscription hands out the messages of the publishes that were committed to the RX
channel since its `subscribe` took a subscriber of the channel, as far as its topic
filters match and `grant_immediate` has not evicted their frames before it read them: in
order, one each, and with the packet identifier that the stack acknowledged. The frames
that it has not handed out yet are still queued for it.
-/

namespace Mqttrust.System

open Pubsub (FrameSubscriber awaitedFrames bytesAt commitsAfter discardsAfter handed missedBy
  readsOf)

variable {T : Type} {config : CrateConfig}

/-- A run of calls that the publisher of the RX channel makes. -/
def Produces (config : CrateConfig) (rx next : Pubsub.World) : Prop :=
  ∃ actions, (∀ action ∈ actions, Pubsub.Action.isProducer action = true) ∧
    Execution.run (Pubsub.step (rxConfig config)) rx actions = some next

namespace Produces

variable {rx next : Pubsub.World}

theorem refl (rx : Pubsub.World) : Produces config rx rx := ⟨[], by simp, rfl⟩

theorem of_step {action : Pubsub.Action} (isProducer : action.isProducer = true)
    (stepped : Pubsub.step (rxConfig config) rx action = some next) : Produces config rx next := by
  refine ⟨[action], ?_, ?_⟩
  · intro other listed
    rcases List.mem_singleton.mp listed with rfl
    exact isProducer
  · rw [Execution.run_cons, stepped]
    rfl

/-- The induction over the calls of the publisher. -/
theorem keeps (produces : Produces config rx next) (invariant : Pubsub.World → Prop)
    (preserved : ∀ {rx next : Pubsub.World} {action : Pubsub.Action}, action.isProducer = true →
      invariant rx → Pubsub.step (rxConfig config) rx action = some next → invariant next)
    (initial : invariant rx) : invariant next := by
  rcases produces with ⟨actions, isProducer, reached⟩
  have guarded : Execution.Guarded (Pubsub.step (rxConfig config))
      (fun _ action => action.isProducer = true) rx actions :=
    Execution.guarded_of_forall fun _ action listed => isProducer action listed
  exact Execution.invariant_of_guarded invariant preserved guarded initial reached

theorem unread (produces : Produces config rx next) : Pubsub.World.Unread rx next := by
  refine produces.keeps (Pubsub.World.Unread rx) ?_ (.refl rx)
  intro middle last action isProducer unread stepped
  exact unread.trans (Pubsub.World.unread_of_isProducer isProducer stepped)

theorem onePublisher {capacity : ℕ} (small : capacity ≤ 65535) (produces : Produces config rx next)
    (one : rx.OnePublisher (rxConfig config) capacity) :
    next.OnePublisher (rxConfig config) capacity := by
  refine produces.keeps _ ?_ one
  intro middle last action isProducer one stepped
  refine one.step small (.inl isProducer) ?_ stepped
  rintro reader offset byte rfl
  simp [Pubsub.Action.isProducer] at isProducer

end Produces

namespace Inbound

variable {inbound next : Inbound T config} {publishing : InboundPublish} {link : Link T config}

theorem rx_encode {Packet : Type} [MqttEncode Packet] {packet : Packet}
    {encoded failed : Link T config} (stepped : inbound.encode packet encoded failed = some next) :
    next.rx = inbound.rx := by
  unfold encode at stepped
  split at stepped
  · rcases Option.some.inj stepped with rfl
    rfl
  · rcases Option.some.inj stepped with rfl
    rfl
  · simp at stepped

theorem rx_goOn (stepped : inbound.goOn link = some next) : next.rx = inbound.rx := by
  unfold goOn at stepped
  split at stepped
  · exact rx_encode stepped
  · rcases Option.some.inj stepped with rfl
    rfl

theorem produces_cut {writer : ℕ} (stepped : inbound.cut writer = some next) :
    Produces config inbound.rx next.rx := by
  simp only [cut, Option.bind_eq_bind, Option.bind_eq_some_iff, Option.some.injEq] at stepped
  rcases stepped with ⟨rx, dropped, rfl⟩
  exact .of_step rfl dropped

theorem produces_dropRun (stepped : inbound.dropRun publishing link = some next) :
    Produces config inbound.rx next.rx := by
  unfold dropRun at stepped
  split at stepped
  · rcases Option.map_eq_some_iff.mp stepped with ⟨after, dropped, rfl⟩
    have produces := produces_cut dropped
    exact produces
  · rcases Option.some.inj stepped with rfl
    exact .refl _

theorem produces_follow {action : LinkAction T} (stepped : inbound.follow action link = some next) :
    Produces config inbound.rx next.rx := by
  unfold follow at stepped
  split at stepped
  · rcases Option.some.inj stepped with rfl
    exact .refl _
  · exact produces_dropRun stepped
  · simp at stepped
  · simp at stepped
  · rw [rx_encode stepped]
    exact .refl _
  · rw [rx_goOn stepped]
    exact .refl _

variable [Transport T]

theorem rx_proceed {payload : Payload} (stepped : inbound.proceed publishing payload = some next) :
    next.rx = inbound.rx := by
  simp only [proceed, Option.bind_eq_bind, Option.bind_eq_some_iff] at stepped
  rcases stepped with ⟨_, _, _, _, stepped⟩
  have same := rx_goOn stepped
  exact same

theorem produces_recv {socket : Socket} (stepped : inbound.recv socket = some next) :
    Produces config inbound.rx next.rx := by
  simp only [Inbound.recv, Option.bind_eq_bind, Option.bind_eq_some_iff,
    Option.ite_none_left_eq_some] at stepped
  rcases stepped with ⟨_, _, _, stepped⟩
  split at stepped
  · simp only [grantImmediate, Option.bind_eq_bind, Option.bind_eq_some_iff] at stepped
    rcases stepped with ⟨rx, granted, stepped⟩
    have produces : Produces config inbound.rx rx := .of_step rfl granted
    split at stepped
    · rcases Option.some.inj stepped with rfl
      exact produces
    · rcases Option.some.inj stepped with rfl
      exact produces
  · rcases Option.bind_eq_some_iff.mp stepped with ⟨link, _, stepped⟩
    rw [rx_goOn stepped]
    exact .refl _

theorem produces_commit {writer : ℕ} {frame : List UInt8}
    (stepped : inbound.commit publishing writer frame = some next) :
    Produces config inbound.rx next.rx := by
  simp only [commit, Option.bind_eq_bind, Option.bind_eq_some_iff] at stepped
  rcases stepped with ⟨rx, stored, stepped⟩
  have produces : Produces config inbound.rx rx := by
    refine ⟨_, ?_, stored⟩
    intro action listed
    rcases List.mem_append.mp listed with listed | listed
    · exact Pubsub.isProducer_of_mem_stores listed
    · rcases List.mem_singleton.mp listed with rfl
      rfl
  split at stepped
  · rcases Option.some.inj stepped with rfl
    exact produces
  · rw [rx_proceed stepped]
    exact produces

theorem produces_copyAll (stepped : inbound.copyAll = some next) :
    Produces config inbound.rx next.rx := by
  simp only [copyAll, Option.bind_eq_bind, Option.bind_eq_some_iff] at stepped
  rcases stepped with ⟨publishing, _, stepped⟩
  split at stepped
  · rcases Option.bind_eq_some_iff.mp stepped with ⟨grant, _, stepped⟩
    split at stepped
    · exact produces_commit stepped
    · rcases Option.bind_eq_some_iff.mp stepped with ⟨after, dropped, stepped⟩
      rw [rx_proceed stepped]
      exact produces_cut dropped
    · simp at stepped
    · simp at stepped
  · simp at stepped

/-- Whatever the stack does, it uses the RX channel as its publisher only. -/
theorem produces_of_step {action : InboundAction T} (notSubscriber : action.isSubscriber = false)
    (stepped : inboundStep inbound action = some next) : Produces config inbound.rx next.rx := by
  unfold inboundStep at stepped
  split at stepped
  · simp at stepped
  · cases action with
    | recv socket => exact produces_recv stepped
    | copyAll => exact produces_copyAll stepped
    | discard =>
        simp only [discard, Option.bind_eq_bind, Option.bind_eq_some_iff] at stepped
        rcases stepped with ⟨publishing, _, stepped⟩
        split at stepped
        · split at stepped
          · rw [rx_proceed stepped]
            exact .refl _
          · rw [rx_proceed stepped]
            exact .refl _
          · simp at stepped
        · simp at stepped
    | insert =>
        simp only [insert, Option.bind_eq_bind, Option.bind_eq_some_iff] at stepped
        rcases stepped with ⟨publishing, _, stepped⟩
        split at stepped
        · rw [rx_proceed stepped]
          exact .refl _
        · simp at stepped
    | subscriber action => simp [InboundAction.isSubscriber] at notSubscriber
    | link action =>
        rcases Option.bind_eq_some_iff.mp stepped with ⟨link, _, stepped⟩
        exact produces_follow stepped

end Inbound

namespace Receiver

variable [Transport T] {receiver next : Receiver T config}

theorem exists_of_uses {action : Pubsub.Action} (used : receiver.uses action = some next) :
    ∃ rx, Pubsub.step (rxConfig config) receiver.inbound.rx action = some rx ∧
      action.isSubscriber = true ∧
      inboundStep receiver.inbound (.subscriber action) = some { receiver.inbound with rx := rx } ∧
      next = { receiver with inbound := { receiver.inbound with rx := rx } } := by
  rcases Option.map_eq_some_iff.mp used with ⟨inbound, stepped, rfl⟩
  have called := stepped
  unfold inboundStep at called
  split at called
  · simp at called
  · simp only [Option.ite_none_right_eq_some, Option.map_eq_some_iff] at called
    rcases called with ⟨isSubscriber, rx, performed, rfl⟩
    exact ⟨rx, performed, isSubscriber, stepped, rfl⟩

/-- Whether a subscriber of the RX channel is there. -/
def has (receiver : Receiver T config) (subscriber : ℕ) : Prop :=
  (receiver.inbound.rx.subscribers.get? subscriber).isSome = true

/-- What a subscriber of the RX channel has read. -/
def reads (receiver : Receiver T config) (subscriber : ℕ) : List Pubsub.Frame :=
  readsOf subscriber receiver.inbound.rx.history

/-- What an action does to the subscribers of the RX channel and the subscriptions. -/
inductive Moves (receiver next : Receiver T config) : Prop where
  | quiet (has : ∀ id, next.has id ↔ receiver.has id) (reads : ∀ id, next.reads id = receiver.reads id)
      (subscribing : next.subscribing = receiver.subscribing)
      (streams : next.streams = receiver.streams) : Moves receiver next
  | subscribe (subscriber : ℕ) (fresh : ¬receiver.has subscriber)
      (has : ∀ id, next.has id ↔ id = subscriber ∨ receiver.has id)
      (reads : ∀ id, next.reads id = if id = subscriber then [] else receiver.reads id)
      (subscribing : next.subscribing = subscriber :: receiver.subscribing)
      (streams : next.streams = receiver.streams) : Moves receiver next
  | create (subscriber : ℕ) (stream : MessageStream config)
      (owned : subscriber ∈ receiver.subscribing) (subscriber_eq : stream.subscriber = subscriber)
      (nothing : stream.handedOut = []) (inbound : next.inbound = receiver.inbound)
      (subscribing : next.subscribing = receiver.subscribing.erase subscriber)
      (streams : next.streams = receiver.streams.insert stream) : Moves receiver next
  | abandon (subscriber : ℕ) (owned : subscriber ∈ receiver.subscribing)
      (has : ∀ id, next.has id ↔ id ≠ subscriber ∧ receiver.has id)
      (reads : ∀ id, next.reads id = receiver.reads id)
      (subscribing : next.subscribing = receiver.subscribing.erase subscriber)
      (streams : next.streams = receiver.streams) : Moves receiver next
  | read (id : ℕ) (stream : MessageStream config) (frame : Pubsub.Frame)
      (live : receiver.streams.get? id = some stream) (has : ∀ id, next.has id ↔ receiver.has id)
      (reads : ∀ other, next.reads other =
        if other = stream.subscriber then receiver.reads other ++ [frame] else receiver.reads other)
      (subscribing : next.subscribing = receiver.subscribing)
      (streams : ∀ other, next.streams.get? other =
        if other = id then
          some { stream with
            handedOut := stream.handedOut ++ (stream.accepts frame.bytes).toList }
        else receiver.streams.get? other) : Moves receiver next
  | drop (id : ℕ) (stream : MessageStream config) (live : receiver.streams.get? id = some stream)
      (has : ∀ other, next.has other ↔ other ≠ stream.subscriber ∧ receiver.has other)
      (reads : ∀ other, next.reads other = receiver.reads other)
      (subscribing : next.subscribing = receiver.subscribing)
      (streams : next.streams = receiver.streams.remove id) : Moves receiver next

namespace Moves

theorem of_subscriber (stepped : receiver.subscriber = some next) : Moves receiver next := by
  simp only [subscriber, Option.bind_eq_bind, Option.bind_eq_some_iff] at stepped
  rcases stepped with ⟨middle, used, stepped⟩
  rcases exists_of_uses used with ⟨rx, called, _, _, rfl⟩
  rcases Pubsub.World.cases_of_subscriber called with rfl | ⟨⟨reader, subscribers⟩, history⟩
  · rw [Table.get?_next, Option.isSome_none, if_neg (by simp), Option.some.injEq] at stepped
    subst stepped
    exact .quiet (fun _ => Iff.rfl) (fun _ => rfl) rfl rfl
  · rw [subscribers, Table.get?_insert_next, Option.isSome_some, if_pos rfl,
      Option.some.injEq] at stepped
    subst stepped
    refine .subscribe receiver.inbound.rx.subscribers.next ?_ ?_ ?_ rfl rfl
    · simp [has]
    · intro id
      simp only [has, subscribers, Table.get?_insert]
      split
      · rename_i same
        simp [same]
      · rename_i other
        simp [other]
    · intro id
      simp only [reads, history, readsOf]
      by_cases same : id = receiver.inbound.rx.subscribers.next
      · simp [same]
      · rw [if_neg same, if_neg (Ne.symm same)]

omit [Transport T] in
theorem of_create {subscriber maxTopics : ℕ} {topics : List Utf8}
    (stepped : receiver.create subscriber topics maxTopics = some next) : Moves receiver next := by
  unfold Receiver.create at stepped
  split at stepped
  · rename_i owned
    split at stepped
    · rcases Option.some.inj stepped with rfl
      exact .create subscriber _ owned rfl rfl rfl rfl rfl
    · rcases Option.some.inj stepped with rfl
      exact .quiet (fun _ => Iff.rfl) (fun _ => rfl) rfl rfl
    · simp at stepped
  · simp at stepped

omit [Transport T] in
theorem has_remove {subscriber : ℕ} {rx : Pubsub.World}
    (removed : rx.subscribers = receiver.inbound.rx.subscribers.remove subscriber) (id : ℕ) :
    (rx.subscribers.get? id).isSome = true ↔ id ≠ subscriber ∧ receiver.has id := by
  rw [has, removed, Table.get?_remove]
  split
  · rename_i same
    simp [same]
  · rename_i other
    simp [other]

theorem of_abandon {subscriber : ℕ} (stepped : receiver.abandon subscriber = some next) :
    Moves receiver next := by
  simp only [Receiver.abandon, Option.ite_none_right_eq_some, Option.map_eq_some_iff] at stepped
  rcases stepped with ⟨owned, middle, used, rfl⟩
  rcases exists_of_uses used with ⟨rx, called, _, _, rfl⟩
  rcases Pubsub.World.dropSubscriber_eq called with ⟨subscribers, history⟩
  refine .abandon subscriber owned (has_remove subscribers) ?_ rfl rfl
  intro id
  simp only [reads, history]

theorem of_dropStream {id : ℕ} (stepped : receiver.dropStream id = some next) :
    Moves receiver next := by
  simp only [Receiver.dropStream, Option.bind_eq_bind, Option.bind_eq_some_iff,
    Option.map_eq_some_iff] at stepped
  rcases stepped with ⟨stream, live, middle, used, rfl⟩
  rcases exists_of_uses used with ⟨rx, called, _, _, rfl⟩
  rcases Pubsub.World.dropSubscriber_eq called with ⟨subscribers, history⟩
  refine .drop id stream live (has_remove subscribers) ?_ rfl rfl
  intro other
  simp only [reads, history]

theorem of_readGrant {action : Pubsub.Action} {reader : ℕ} {middle : Receiver T config}
    (onGrant : action = .dropReader reader ∨ ∃ offset byte, action = .bufMut reader offset byte)
    (used : receiver.uses action = some middle) (inbound : next.inbound = middle.inbound)
    (subscribing : next.subscribing = receiver.subscribing)
    (streams : next.streams = receiver.streams) : Moves receiver next := by
  rcases exists_of_uses used with ⟨rx, called, _, _, rfl⟩
  rcases Pubsub.World.quiet_of_readGrant onGrant called with ⟨subscribers, history⟩
  refine .quiet ?_ ?_ subscribing streams
  · intro other
    simp only [has, inbound, subscribers]
  · intro other
    simp only [reads, inbound, history]

theorem of_dropMessage {id : ℕ} (stepped : receiver.dropMessage id = some next) :
    Moves receiver next := by
  simp only [Receiver.dropMessage, Option.bind_eq_bind, Option.bind_eq_some_iff,
    Option.map_eq_some_iff] at stepped
  rcases stepped with ⟨owned, _, middle, used, rfl⟩
  rcases exists_of_uses used with ⟨_, _, _, _, rfl⟩
  exact of_readGrant (.inl rfl) used rfl rfl rfl

theorem of_payloadMut {id offset : ℕ} {byte : UInt8}
    (stepped : receiver.payloadMut id offset byte = some next) : Moves receiver next := by
  simp only [Receiver.payloadMut, Option.bind_eq_bind, Option.bind_eq_some_iff,
    Option.ite_none_right_eq_some] at stepped
  rcases stepped with ⟨owned, _, _, used⟩
  rcases exists_of_uses used with ⟨_, _, _, _, rfl⟩
  exact of_readGrant (.inr ⟨_, _, rfl⟩) used rfl rfl rfl

theorem of_readNext {id : ℕ} {stream : MessageStream config} {cx : Pubsub.Waker}
    {received : Received} (live : receiver.streams.get? id = some stream)
    (stepped : receiver.readNext id stream cx = some (next, received)) : Moves receiver next := by
  simp only [readNext, Option.bind_eq_bind, Option.bind_eq_some_iff] at stepped
  rcases stepped with ⟨middle, used, stepped⟩
  rcases exists_of_uses used with ⟨rx, called, _, _, rfl⟩
  have kept (other : ℕ) : (rx.subscribers.get? other).isSome = true ↔ receiver.has other := by
    rw [has, Pubsub.World.subscribers_of_read called]
  rcases Pubsub.World.cases_of_read called with
    ⟨readers, history⟩ | ⟨grant, readers, buf, _, history⟩
  · simp only [readers, Table.get?_next, Option.some.injEq, Prod.mk.injEq] at stepped
    rcases stepped with ⟨rfl, _⟩
    refine .quiet kept ?_ rfl rfl
    intro other
    simp only [reads, history]
  · simp only [readers, Table.get?_insert_next, buf] at stepped
    let frame : Pubsub.Frame := ⟨grant.messageId, bytesAt receiver.inbound.rx.buf grant.region⟩
    have delivered : ∀ other, readsOf other rx.history =
        if other = stream.subscriber then receiver.reads other ++ [frame]
        else receiver.reads other := by
      intro other
      rw [history, readsOf]
      by_cases same : other = stream.subscriber
      · rw [if_pos same, if_pos same.symm]
        rfl
      · rw [if_neg same, if_neg (Ne.symm same)]
        rfl
    -- a message that is not wanted, and a frame that is not a message, are dropped again
    have dropped : stream.accepts frame.bytes = none → ∀ {last : Receiver T config},
        Receiver.uses { receiver with inbound := { receiver.inbound with rx := rx } }
          (.dropReader receiver.inbound.rx.readers.next) = some last → Moves receiver last := by
      intro refused last usedAgain
      rcases exists_of_uses usedAgain with ⟨after, released, _, _, rfl⟩
      rcases Pubsub.World.quiet_of_readGrant (.inl rfl) released with ⟨subscribers, sameHistory⟩
      refine .read id stream frame live ?_ ?_ rfl ?_
      · intro other
        rw [has, subscribers]
        exact kept other
      · intro other
        rw [reads, sameHistory]
        exact delivered other
      · intro other
        rw [refused, Option.toList_none, List.append_nil]
        split
        · rename_i same
          rw [same]
          exact live
        · rfl
    split at stepped
    · rename_i message parsed
      split at stepped
      · rename_i wanted
        rcases Option.some.inj stepped with stepped
        rcases Prod.mk.inj stepped with ⟨rfl, _⟩
        refine .read id stream frame live kept delivered rfl ?_
        intro other
        have accepted : stream.accepts frame.bytes = some message := by
          simp only [MessageStream.accepts, frame, parsed, wanted, if_true]
        rw [accepted]
        exact Table.get?_replace live _ other
      · rename_i unwanted
        rcases Option.map_eq_some_iff.mp stepped with ⟨last, usedAgain, same⟩
        rcases Prod.mk.inj same with ⟨rfl, _⟩
        refine dropped ?_ usedAgain
        simp only [MessageStream.accepts, frame, parsed, unwanted, if_false, Bool.false_eq_true]
    · rename_i error failed
      rcases Option.map_eq_some_iff.mp stepped with ⟨last, usedAgain, same⟩
      rcases Prod.mk.inj same with ⟨rfl, _⟩
      refine dropped ?_ usedAgain
      simp only [MessageStream.accepts, frame, failed]
    · simp at stepped

theorem of_pollNext {id : ℕ} {cx : Pubsub.Waker} {contended : Bool} {received : Received}
    (stepped : receiver.pollNext id cx contended = some (next, received)) : Moves receiver next := by
  simp only [Receiver.pollNext, Option.bind_eq_bind, Option.bind_eq_some_iff] at stepped
  rcases stepped with ⟨stream, live, stepped⟩
  have same : ∀ {result : Received}, some (receiver, result) = some (next, received) →
      Moves receiver next := by
    intro result returned
    rcases Prod.mk.inj (Option.some.inj returned) with ⟨rfl, _⟩
    exact .quiet (fun _ => Iff.rfl) (fun _ => rfl) rfl rfl
  split at stepped
  · exact same stepped
  · split at stepped
    · exact same stepped
    · exact of_readNext live stepped

theorem of_inbound {action : InboundAction T} (notSubscriber : action.isSubscriber = false)
    {inbound : Inbound T config} (stepped : inboundStep receiver.inbound action = some inbound) :
    Moves receiver { receiver with inbound := inbound } := by
  have unread := (Inbound.produces_of_step notSubscriber stepped).unread
  refine .quiet ?_ unread.reads rfl rfl
  intro id
  simp only [has, unread.subscribers]

end Moves

theorem moves_of_step {action : ReceiverAction T}
    (stepped : receiverStep receiver action = some next) : Moves receiver next := by
  cases action with
  | subscriber => exact .of_subscriber stepped
  | create subscriber topics maxTopics => exact .of_create stepped
  | abandon subscriber => exact .of_abandon stepped
  | pollNext id cx contended =>
      rcases Option.map_eq_some_iff.mp stepped with ⟨⟨after, received⟩, polled, rfl⟩
      exact .of_pollNext polled
  | payloadMut message offset byte => exact .of_payloadMut stepped
  | dropMessage id => exact .of_dropMessage stepped
  | dropStream id => exact .of_dropStream stepped
  | inbound action =>
      simp only [receiverStep, Option.ite_none_left_eq_some, Option.map_eq_some_iff,
        Bool.not_eq_true] at stepped
      rcases stepped with ⟨notSubscriber, inbound, stepped, rfl⟩
      exact .of_inbound notSubscriber stepped

/-- Every subscriber of the RX channel has one owner, and what it has read is what its subscription
was given. -/
structure Feeds (receiver : Receiver T config) : Prop where
  has : ∀ id stream, receiver.streams.get? id = some stream → receiver.has stream.subscriber
  subscribing : ∀ subscriber ∈ receiver.subscribing,
    receiver.has subscriber ∧ receiver.reads subscriber = []
  nodup : receiver.subscribing.Nodup
  owned : ∀ id stream, receiver.streams.get? id = some stream →
    stream.subscriber ∉ receiver.subscribing
  distinct : ∀ left right stream other, receiver.streams.get? left = some stream →
    receiver.streams.get? right = some other → stream.subscriber = other.subscriber → left = right
  handedOut : ∀ id stream, receiver.streams.get? id = some stream →
    stream.handedOut = (receiver.reads stream.subscriber).filterMap fun frame =>
      stream.accepts frame.bytes

namespace Feeds

theorem new (config : CrateConfig) (capacity : ℕ) (transport : T) :
    (Receiver.new config capacity transport).Feeds where
  has := by simp [Receiver.new]
  subscribing := by simp [Receiver.new]
  nodup := List.nodup_nil
  owned := by simp [Receiver.new]
  distinct := by simp [Receiver.new]
  handedOut := by simp [Receiver.new]

section Moves

omit [Transport T]

variable {id subscriber : ℕ} {stream : MessageStream config}

theorem quiet (feeds : receiver.Feeds) (has : ∀ id, next.has id ↔ receiver.has id)
    (reads : ∀ id, next.reads id = receiver.reads id)
    (subscribing : next.subscribing = receiver.subscribing)
    (streams : next.streams = receiver.streams) : next.Feeds where
  has id stream live := (has _).mpr (feeds.has id stream (streams ▸ live))
  subscribing subscriber owned := by
    rcases feeds.subscribing subscriber (subscribing ▸ owned) with ⟨there, nothing⟩
    exact ⟨(has subscriber).mpr there, (reads subscriber).trans nothing⟩
  nodup := subscribing ▸ feeds.nodup
  owned id stream live := by
    rw [subscribing]
    exact feeds.owned id stream (streams ▸ live)
  distinct := by
    rw [streams]
    exact feeds.distinct
  handedOut id stream live := by
    rw [reads]
    exact feeds.handedOut id stream (streams ▸ live)

theorem subscribe (feeds : receiver.Feeds) (fresh : ¬receiver.has subscriber)
    (has : ∀ id, next.has id ↔ id = subscriber ∨ receiver.has id)
    (reads : ∀ id, next.reads id = if id = subscriber then [] else receiver.reads id)
    (subscribing : next.subscribing = subscriber :: receiver.subscribing)
    (streams : next.streams = receiver.streams) : next.Feeds := by
  have other : ∀ id, receiver.has id → id ≠ subscriber := by
    rintro id there rfl
    exact fresh there
  constructor
  case has =>
    intro id stream live
    exact (has _).mpr (.inr (feeds.has id stream (streams ▸ live)))
  case subscribing =>
    intro owner owned
    rw [subscribing] at owned
    rcases List.mem_cons.mp owned with rfl | owned
    · exact ⟨(has _).mpr (.inl rfl), by rw [reads, if_pos rfl]⟩
    · rcases feeds.subscribing owner owned with ⟨there, nothing⟩
      exact ⟨(has owner).mpr (.inr there), by rw [reads, if_neg (other owner there), nothing]⟩
  case nodup =>
    rw [subscribing, List.nodup_cons]
    exact ⟨fun owned => fresh (feeds.subscribing subscriber owned).1, feeds.nodup⟩
  case owned =>
    intro id stream live
    have live := streams ▸ live
    rw [subscribing, List.mem_cons, not_or]
    exact ⟨other _ (feeds.has id stream live), feeds.owned id stream live⟩
  case distinct =>
    rw [streams]
    exact feeds.distinct
  case handedOut =>
    intro id stream live
    have live := streams ▸ live
    rw [reads, if_neg (other _ (feeds.has id stream live))]
    exact feeds.handedOut id stream live

theorem eq_or_get?_of_create (streams : next.streams = receiver.streams.insert stream)
    {other : ℕ} {after : MessageStream config} (live : next.streams.get? other = some after) :
    other = receiver.streams.next ∧ after = stream ∨ receiver.streams.get? other = some after := by
  rw [streams, Table.get?_insert] at live
  split at live
  · rename_i same
    exact .inl ⟨same, (Option.some.inj live).symm⟩
  · exact .inr live

/-- The subscriber passes from the call to its subscription, which begins where the subscriber is:
nothing read, nothing handed out. -/
theorem create (feeds : receiver.Feeds) (owned : stream.subscriber ∈ receiver.subscribing)
    (nothing : stream.handedOut = []) (inbound : next.inbound = receiver.inbound)
    (subscribing : next.subscribing = receiver.subscribing.erase stream.subscriber)
    (streams : next.streams = receiver.streams.insert stream) : next.Feeds := by
  have has (id : ℕ) : next.has id ↔ receiver.has id := by rw [Receiver.has, inbound]; rfl
  have reads (id : ℕ) : next.reads id = receiver.reads id := by
    rw [Receiver.reads, inbound]
    rfl
  have newest := feeds.subscribing stream.subscriber owned
  have unowned {id : ℕ} {earlier : MessageStream config}
      (live : receiver.streams.get? id = some earlier) :
      earlier.subscriber ≠ stream.subscriber := by
    intro same
    exact feeds.owned id earlier live (same ▸ owned)
  constructor
  case has =>
    intro id after live
    rw [has]
    rcases eq_or_get?_of_create streams live with ⟨_, rfl⟩ | live
    · exact newest.1
    · exact feeds.has id after live
  case subscribing =>
    intro owner listed
    rw [subscribing] at listed
    rw [has, reads]
    exact feeds.subscribing owner (List.mem_of_mem_erase listed)
  case nodup => exact subscribing ▸ feeds.nodup.erase stream.subscriber
  case owned =>
    intro id after live
    rw [subscribing]
    rcases eq_or_get?_of_create streams live with ⟨_, rfl⟩ | live
    · exact feeds.nodup.not_mem_erase
    · exact fun listed => feeds.owned id after live (List.mem_of_mem_erase listed)
  case distinct =>
    intro left right after other live live' same
    rcases eq_or_get?_of_create streams live with ⟨left_eq, rfl⟩ | live
    · rcases eq_or_get?_of_create streams live' with ⟨right_eq, rfl⟩ | live'
      · rw [left_eq, right_eq]
      · exact absurd same.symm (unowned live')
    · rcases eq_or_get?_of_create streams live' with ⟨right_eq, rfl⟩ | live'
      · exact absurd same (unowned live)
      · exact feeds.distinct left right after other live live' same
  case handedOut =>
    intro id after live
    rw [reads]
    rcases eq_or_get?_of_create streams live with ⟨_, rfl⟩ | live
    · rw [nothing, newest.2]
      rfl
    · exact feeds.handedOut id after live

theorem abandon (feeds : receiver.Feeds) (owned : subscriber ∈ receiver.subscribing)
    (has : ∀ id, next.has id ↔ id ≠ subscriber ∧ receiver.has id)
    (reads : ∀ id, next.reads id = receiver.reads id)
    (subscribing : next.subscribing = receiver.subscribing.erase subscriber)
    (streams : next.streams = receiver.streams) : next.Feeds where
  has id stream live := by
    have live := streams ▸ live
    refine (has _).mpr ⟨?_, feeds.has id stream live⟩
    rintro rfl
    exact feeds.owned id stream live owned
  subscribing owner listed := by
    rw [subscribing] at listed
    rcases (List.Nodup.mem_erase_iff feeds.nodup).mp listed with ⟨different, listed⟩
    rcases feeds.subscribing owner listed with ⟨there, nothing⟩
    exact ⟨(has owner).mpr ⟨different, there⟩, (reads owner).trans nothing⟩
  nodup := subscribing ▸ feeds.nodup.erase subscriber
  owned id stream live := by
    rw [subscribing]
    exact fun listed => feeds.owned id stream (streams ▸ live) (List.mem_of_mem_erase listed)
  distinct := by
    rw [streams]
    exact feeds.distinct
  handedOut id stream live := by
    rw [reads]
    exact feeds.handedOut id stream (streams ▸ live)

/-- A frame goes to the history of one subscriber, and what the topic filters let through of it to
the subscription that owns this subscriber. -/
theorem read {frame : Pubsub.Frame} (feeds : receiver.Feeds)
    (live : receiver.streams.get? id = some stream) (has : ∀ id, next.has id ↔ receiver.has id)
    (reads : ∀ other, next.reads other =
      if other = stream.subscriber then receiver.reads other ++ [frame] else receiver.reads other)
    (subscribing : next.subscribing = receiver.subscribing)
    (streams : ∀ other, next.streams.get? other =
      if other = id then
        some { stream with handedOut := stream.handedOut ++ (stream.accepts frame.bytes).toList }
      else receiver.streams.get? other) : next.Feeds := by
  -- every subscription after the read is one of before, with the same subscriber
  have exists_before {other : ℕ} {after : MessageStream config}
      (there : next.streams.get? other = some after) : ∃ before,
        receiver.streams.get? other = some before ∧ after.subscriber = before.subscriber := by
    rw [streams] at there
    split at there
    · rename_i same
      rcases Option.some.inj there with rfl
      exact ⟨stream, same ▸ live, rfl⟩
    · exact ⟨after, there, rfl⟩
  constructor
  case has =>
    intro other after there
    rcases exists_before there with ⟨before, there, same⟩
    rw [has, same]
    exact feeds.has other before there
  case subscribing =>
    intro owner owned
    rw [subscribing] at owned
    rcases feeds.subscribing owner owned with ⟨there, nothing⟩
    refine ⟨(has owner).mpr there, ?_⟩
    rw [reads, if_neg, nothing]
    rintro rfl
    exact feeds.owned id stream live owned
  case nodup => exact subscribing ▸ feeds.nodup
  case owned =>
    intro other after there
    rcases exists_before there with ⟨before, there, same⟩
    rw [subscribing, same]
    exact feeds.owned other before there
  case distinct =>
    intro left right after other there there' same
    rcases exists_before there with ⟨before, there, leftSame⟩
    rcases exists_before there' with ⟨before', there', rightSame⟩
    exact feeds.distinct left right before before' there there'
      (leftSame.symm.trans (same.trans rightSame))
  case handedOut =>
    intro other after there
    have found := there
    rw [streams] at there
    split at there
    · rcases Option.some.inj there with rfl
      rw [reads, if_pos rfl, List.filterMap_append, feeds.handedOut id stream live]
      congr 1
    · rename_i different
      rw [reads, if_neg]
      · exact feeds.handedOut other after there
      · intro same
        exact different (feeds.distinct other id after stream there live same)

theorem ne_and_get?_of_drop (streams : next.streams = receiver.streams.remove id) {other : ℕ}
    {after : MessageStream config} (there : next.streams.get? other = some after) :
    other ≠ id ∧ receiver.streams.get? other = some after := by
  rw [streams, Table.get?_remove] at there
  split at there
  · simp at there
  · rename_i different
    exact ⟨different, there⟩

theorem drop (feeds : receiver.Feeds) (live : receiver.streams.get? id = some stream)
    (has : ∀ other, next.has other ↔ other ≠ stream.subscriber ∧ receiver.has other)
    (reads : ∀ other, next.reads other = receiver.reads other)
    (subscribing : next.subscribing = receiver.subscribing)
    (streams : next.streams = receiver.streams.remove id) : next.Feeds where
  has other after there := by
    rcases ne_and_get?_of_drop streams there with ⟨different, there⟩
    refine (has _).mpr ⟨?_, feeds.has other after there⟩
    intro same
    exact different (feeds.distinct other id after stream there live same)
  subscribing owner owned := by
    rw [subscribing] at owned
    rcases feeds.subscribing owner owned with ⟨there, nothing⟩
    refine ⟨(has owner).mpr ⟨?_, there⟩, (reads owner).trans nothing⟩
    rintro rfl
    exact feeds.owned id stream live owned
  nodup := subscribing ▸ feeds.nodup
  owned other after there := by
    rw [subscribing]
    exact feeds.owned other after (ne_and_get?_of_drop streams there).2
  distinct left right after other there there' :=
    feeds.distinct left right after other (ne_and_get?_of_drop streams there).2
      (ne_and_get?_of_drop streams there').2
  handedOut other after there := by
    rw [reads]
    exact feeds.handedOut other after (ne_and_get?_of_drop streams there).2

theorem step (feeds : receiver.Feeds) (moves : Moves receiver next) : next.Feeds := by
  cases moves with
  | quiet has reads subscribing streams => exact feeds.quiet has reads subscribing streams
  | subscribe _ fresh has reads subscribing streams =>
      exact feeds.subscribe fresh has reads subscribing streams
  | create _ _ owned subscriber_eq nothing inbound subscribing streams =>
      subst subscriber_eq
      exact feeds.create owned nothing inbound subscribing streams
  | abandon _ owned has reads subscribing streams =>
      exact feeds.abandon owned has reads subscribing streams
  | read _ _ _ live has reads subscribing streams =>
      exact feeds.read live has reads subscribing streams
  | drop _ _ live has reads subscribing streams =>
      exact feeds.drop live has reads subscribing streams

end Moves

end Feeds

/-- How an action uses the RX channel. -/
inductive Uses (receiver : Receiver T config) : ReceiverAction T → List Pubsub.Action → Prop where
  | subscriber : Uses receiver .subscriber [.subscriber]
  | create {subscriber maxTopics : ℕ} {topics : List Utf8} :
      Uses receiver (.create subscriber topics maxTopics) []
  | abandon {subscriber : ℕ} (owned : subscriber ∈ receiver.subscribing) :
      Uses receiver (.abandon subscriber) [.dropSubscriber subscriber]
  | unread {id : ℕ} {cx : Pubsub.Waker} {contended : Bool} :
      Uses receiver (.pollNext id cx contended) []
  | read {id : ℕ} {cx : Pubsub.Waker} {contended : Bool} {stream : MessageStream config}
      (live : receiver.streams.get? id = some stream) :
      Uses receiver (.pollNext id cx contended) [.read stream.subscriber (some cx)]
  | skip {id reader : ℕ} {cx : Pubsub.Waker} {contended : Bool} {stream : MessageStream config}
      (live : receiver.streams.get? id = some stream) :
      Uses receiver (.pollNext id cx contended)
        [.read stream.subscriber (some cx), .dropReader reader]
  | payloadMut {message offset reader index : ℕ} {byte : UInt8} :
      Uses receiver (.payloadMut message offset byte) [.bufMut reader index byte]
  | dropMessage {message reader : ℕ} : Uses receiver (.dropMessage message) [.dropReader reader]
  | dropStream {id : ℕ} {stream : MessageStream config}
      (live : receiver.streams.get? id = some stream) :
      Uses receiver (.dropStream id) [.dropSubscriber stream.subscriber]

/-- A subscription stays until it is dropped; only what it has handed out changes. -/
def LeavesStreams (receiver : Receiver T config) (action : ReceiverAction T)
    (next : Receiver T config) : Prop :=
  ∀ id stream, action ≠ .dropStream id → receiver.streams.get? id = some stream →
    ∃ messages, next.streams.get? id = some { stream with handedOut := messages }

omit [Transport T] in
theorem LeavesStreams.of_eq {action : ReceiverAction T} (streams : next.streams = receiver.streams) :
    receiver.LeavesStreams action next :=
  fun _ stream _ found => ⟨stream.handedOut, streams ▸ found⟩

/-- What an action does that is not one of the stack or the client. -/
structure Serves (receiver : Receiver T config) (action : ReceiverAction T)
    (used : List Pubsub.Action) (next : Receiver T config) : Prop where
  uses : receiver.Uses action used
  performed : Execution.run inboundStep receiver.inbound (used.map .subscriber) =
    some next.inbound
  streams : receiver.LeavesStreams action next

theorem performed_of_uses {used : Pubsub.Action} (called : receiver.uses used = some next) :
    inboundStep receiver.inbound (.subscriber used) = some next.inbound ∧
      next.streams = receiver.streams := by
  rcases exists_of_uses called with ⟨rx, _, _, performed, rfl⟩
  exact ⟨performed, rfl⟩

theorem Serves.of_uses {action : ReceiverAction T} {used : Pubsub.Action}
    {middle : Receiver T config} (uses : receiver.Uses action [used])
    (called : receiver.uses used = some middle) (inbound : next.inbound = middle.inbound)
    (streams : receiver.LeavesStreams action next) : receiver.Serves action [used] next := by
  refine ⟨uses, ?_, streams⟩
  rw [List.map_singleton, Execution.run_cons, (performed_of_uses called).1, inbound]
  rfl

theorem exists_serves_of_readNext {id : ℕ} {stream : MessageStream config} {cx : Pubsub.Waker}
    {received : Received} (live : receiver.streams.get? id = some stream)
    (stepped : receiver.readNext id stream cx = some (next, received)) :
    ∃ used, receiver.Serves (.pollNext id cx false) used next := by
  simp only [readNext, Option.bind_eq_bind, Option.bind_eq_some_iff] at stepped
  rcases stepped with ⟨middle, used, stepped⟩
  rcases performed_of_uses used with ⟨performed, streams⟩
  have same : receiver.LeavesStreams (.pollNext id cx false) middle := .of_eq streams
  have dropped : ∀ {reader : ℕ}, (middle.uses (.dropReader reader)).map (·, Received.pending) =
      some (next, received) → ∃ used, receiver.Serves (.pollNext id cx false) used next := by
    intro reader returned
    rcases Option.map_eq_some_iff.mp returned with ⟨last, usedAgain, rest⟩
    rcases Prod.mk.inj rest with ⟨rfl, _⟩
    rcases performed_of_uses usedAgain with ⟨released, streamsAgain⟩
    refine ⟨[.read stream.subscriber (some cx), .dropReader reader], .skip live, ?_,
      .of_eq (streamsAgain.trans streams)⟩
    rw [List.map_cons, Execution.run_cons, performed, Option.bind_some, List.map_singleton,
      Execution.run_cons, released]
    rfl
  split at stepped
  · rcases Prod.mk.inj (Option.some.inj stepped) with ⟨rfl, _⟩
    exact ⟨_, .of_uses (.read live) used rfl same⟩
  · split at stepped
    · rename_i message _
      split at stepped
      · rcases Prod.mk.inj (Option.some.inj stepped) with ⟨rfl, _⟩
        refine ⟨_, .of_uses (.read live) used rfl fun other found _ there => ?_⟩
        have handed := Table.get?_replace (streams ▸ live)
          { stream with handedOut := stream.handedOut ++ [message] } other
        by_cases own : other = id
        · subst own
          rcases Option.some.inj (live.symm.trans there) with rfl
          exact ⟨_, handed.trans (if_pos rfl)⟩
        · exact ⟨found.handedOut, handed.trans ((if_neg own).trans (streams ▸ there))⟩
      · exact dropped stepped
    · exact dropped stepped
    · simp at stepped

/-- An action is one of the stack and the client, or it uses the RX channel. -/
theorem cases_of_step {action : ReceiverAction T}
    (stepped : receiverStep receiver action = some next) :
    (∃ inner, action = .inbound inner ∧ inner.isSubscriber = false ∧
      inboundStep receiver.inbound inner = some next.inbound ∧ next.streams = receiver.streams) ∨
      ∃ used, receiver.Serves action used next := by
  cases action with
  | subscriber =>
      right
      simp only [receiverStep, Receiver.subscriber, Option.bind_eq_bind,
        Option.bind_eq_some_iff] at stepped
      rcases stepped with ⟨middle, used, stepped⟩
      have streams := (performed_of_uses used).2
      split at stepped
      · rcases Option.some.inj stepped with rfl
        exact ⟨_, .of_uses .subscriber used rfl (.of_eq streams)⟩
      · rcases Option.some.inj stepped with rfl
        exact ⟨_, .of_uses .subscriber used rfl (.of_eq streams)⟩
  | create subscriber topics maxTopics =>
      right
      simp only [receiverStep, Receiver.create, Option.ite_none_right_eq_some] at stepped
      rcases stepped with ⟨_, stepped⟩
      split at stepped
      · rcases Option.some.inj stepped with rfl
        refine ⟨[], .create, rfl, fun _ stream _ found => ⟨stream.handedOut, ?_⟩⟩
        exact Table.get?_insert_of_get? found _
      · rcases Option.some.inj stepped with rfl
        exact ⟨[], .create, rfl, .of_eq rfl⟩
      · simp at stepped
  | abandon subscriber =>
      right
      simp only [receiverStep, Receiver.abandon, Option.ite_none_right_eq_some,
        Option.map_eq_some_iff] at stepped
      rcases stepped with ⟨owned, middle, used, rfl⟩
      have streams := (performed_of_uses used).2
      exact ⟨_, .of_uses (.abandon owned) used rfl (.of_eq streams)⟩
  | pollNext id cx contended =>
      right
      rcases Option.map_eq_some_iff.mp stepped with ⟨⟨after, received⟩, polled, rfl⟩
      rcases Option.bind_eq_some_iff.mp polled with ⟨stream, live, polled⟩
      split at polled
      · rcases Prod.mk.inj (Option.some.inj polled) with ⟨rfl, _⟩
        exact ⟨[], .unread, rfl, .of_eq rfl⟩
      · rename_i uncontended
        split at polled
        · rcases Prod.mk.inj (Option.some.inj polled) with ⟨rfl, _⟩
          exact ⟨[], .unread, rfl, .of_eq rfl⟩
        · rw [Bool.eq_false_iff.mpr uncontended]
          exact exists_serves_of_readNext live polled
  | payloadMut message offset byte =>
      right
      simp only [receiverStep, Receiver.payloadMut, Option.bind_eq_bind, Option.bind_eq_some_iff,
        Option.ite_none_right_eq_some] at stepped
      rcases stepped with ⟨owned, _, _, used⟩
      have streams := (performed_of_uses used).2
      exact ⟨_, .of_uses .payloadMut used rfl (.of_eq streams)⟩
  | dropMessage message =>
      right
      simp only [receiverStep, Receiver.dropMessage, Option.bind_eq_bind, Option.bind_eq_some_iff,
        Option.map_eq_some_iff] at stepped
      rcases stepped with ⟨owned, _, middle, used, rfl⟩
      have streams := (performed_of_uses used).2
      exact ⟨_, .of_uses .dropMessage used rfl (.of_eq streams)⟩
  | dropStream id =>
      right
      simp only [receiverStep, Receiver.dropStream, Option.bind_eq_bind, Option.bind_eq_some_iff,
        Option.map_eq_some_iff] at stepped
      rcases stepped with ⟨stream, live, middle, used, rfl⟩
      have streams := (performed_of_uses used).2
      refine ⟨_, .of_uses (.dropStream live) used rfl fun other found different there => ?_⟩
      refine ⟨found.handedOut, (Table.get?_remove _ _ _).trans ((if_neg ?_).trans there)⟩
      rintro rfl
      exact different rfl
  | inbound action =>
      left
      simp only [receiverStep, Option.ite_none_left_eq_some, Option.map_eq_some_iff,
        Bool.not_eq_true] at stepped
      rcases stepped with ⟨notSubscriber, inbound, performed, rfl⟩
      exact ⟨action, rfl, notSubscriber, performed, rfl⟩

/-- What every step of the stack and every use of the RX channel keeps, every action of a receiver
keeps that changes no message. -/
theorem keeps_of_step (invariant : Inbound T config → Prop)
    (preserved : ∀ {inbound next : Inbound T config} {action : InboundAction T},
      (∀ reader offset byte, action ≠ .subscriber (.bufMut reader offset byte)) →
      invariant inbound → inboundStep inbound action = some next → invariant next)
    {action : ReceiverAction T}
    (noPayloadMut : ∀ message offset byte, action ≠ .payloadMut message offset byte)
    (initial : invariant receiver.inbound) (stepped : receiverStep receiver action = some next) :
    invariant next.inbound := by
  rcases cases_of_step stepped with ⟨inner, rfl, notSubscriber, performed, _⟩ | ⟨used, serves⟩
  · refine preserved ?_ initial performed
    rintro reader offset byte rfl
    simp [InboundAction.isSubscriber] at notSubscriber
  · have noBufMut : ∀ action ∈ used, ∀ reader offset byte, action ≠ .bufMut reader offset byte := by
      cases serves.uses with
      | payloadMut => exact absurd rfl (noPayloadMut _ _ _)
      | subscriber | create | abandon | unread | read | skip | dropMessage | dropStream => simp
    refine Execution.invariant_of_guarded invariant preserved ?_ initial serves.performed
    refine Execution.guarded_of_forall fun _ action listed reader offset byte same => ?_
    rcases List.mem_map.mp listed with ⟨inner, inner_mem, rfl⟩
    exact noBufMut inner inner_mem reader offset byte (InboundAction.subscriber.inj same)

/-- The invariant of a run. -/
structure Sound (capacity : ℕ) (receiver : Receiver T config) : Prop where
  feeds : receiver.Feeds
  one : receiver.inbound.rx.OnePublisher (rxConfig config) capacity
  disciplined : receiver.inbound.Disciplined capacity
  accepted : receiver.inbound.AllAccepted

namespace Sound

variable {capacity : ℕ}

theorem new (config : CrateConfig) (small : capacity ≤ 65535) (transport : T) :
    (Receiver.new config capacity transport).Sound capacity where
  feeds := .new config capacity transport
  one := .publisher _ small
  disciplined := .new config capacity transport
  accepted := by simp [Inbound.AllAccepted, Receiver.new, Inbound.new]

theorem onePublisher_of_step {inbound after : Inbound T config} {action : InboundAction T}
    (small : capacity ≤ 65535)
    (noBufMut : ∀ reader offset byte, action ≠ .subscriber (.bufMut reader offset byte))
    (one : inbound.rx.OnePublisher (rxConfig config) capacity)
    (stepped : inboundStep inbound action = some after) :
    after.rx.OnePublisher (rxConfig config) capacity := by
  cases isSubscriber : action.isSubscriber with
  | false => exact (Inbound.produces_of_step isSubscriber stepped).onePublisher small one
  | true =>
      cases action with
      | subscriber action =>
          unfold inboundStep at stepped
          split at stepped
          · simp at stepped
          · simp only [Option.ite_none_right_eq_some, Option.map_eq_some_iff] at stepped
            rcases stepped with ⟨isSubscriber, rx, used, rfl⟩
            refine one.step small (.inr isSubscriber) ?_ used
            rintro reader offset byte rfl
            exact noBufMut reader offset byte rfl
      | recv | copyAll | discard | insert | link =>
          simp [InboundAction.isSubscriber] at isSubscriber

theorem step {action : ReceiverAction T} (small : capacity ≤ 65535)
    (noPayloadMut : ∀ message offset byte, action ≠ .payloadMut message offset byte)
    (sound : receiver.Sound capacity) (stepped : receiverStep receiver action = some next) :
    next.Sound capacity where
  feeds := sound.feeds.step (moves_of_step stepped)
  one := keeps_of_step (fun inbound => inbound.rx.OnePublisher (rxConfig config) capacity)
    (onePublisher_of_step small) noPayloadMut sound.one stepped
  disciplined := keeps_of_step (Inbound.Disciplined capacity)
    (fun _ held performed => (held.step performed).disciplined) noPayloadMut sound.disciplined stepped
  accepted := keeps_of_step Inbound.AllAccepted (fun _ held performed => held.step performed)
    noPayloadMut sound.accepted stepped

end Sound

/-- The messages that are queued for a subscription. -/
def queued (receiver : Receiver T config) (stream : MessageStream config) : List Message :=
  match receiver.inbound.rx.subscribers.get? stream.subscriber with
  | some reader =>
      (awaitedFrames receiver.inbound.rx.buf reader receiver.inbound.rx.inner.messages).filterMap
        fun frame => stream.accepts frame.bytes
  | none => []

/-- The frames that were committed since the subscriber of a subscription was created. -/
def committedFor (receiver : Receiver T config) (stream : MessageStream config) :
    List Pubsub.Frame :=
  commitsAfter stream.subscriber receiver.inbound.rx.history

/-- The frames that were evicted before the subscription has read them. -/
def evictedFrom (receiver : Receiver T config) (stream : MessageStream config) : List ℕ :=
  missedBy stream.subscriber receiver.inbound.rx.history

end Receiver

/-- The message that a subscription makes of what became of a PUBLISH. -/
def MessageStream.messageOf? (stream : MessageStream config) (reception : Reception) :
    Option Message :=
  reception.handed?.bind stream.accepts

theorem MessageStream.tryNew_of_accepts {stream : MessageStream config} {frame : List UInt8}
    {message : Message} (accepted : stream.accepts frame = some message) :
    Message.tryNew config frame = .ok message ∧ stream.wants message = true := by
  unfold MessageStream.accepts at accepted
  split at accepted
  · rename_i other parsed
    split at accepted
    · rename_i wanted
      rcases Option.some.inj accepted with rfl
      exact ⟨parsed, wanted⟩
    · simp at accepted
  · simp at accepted

/-- A message owns the frame that it was made of. -/
theorem Message.grant_of_tryNew {frame : List UInt8} {message : Message}
    (parsed : Message.tryNew config frame = .ok message) : message.grant = frame := by
  rcases exists_of_bind_eq_ok parsed with ⟨decoder, _, parsed⟩
  rcases exists_of_bind_eq_ok parsed with ⟨_, _, parsed⟩
  rcases exists_of_bind_eq_ok parsed with ⟨topicName, _, parsed⟩
  rcases exists_of_bind_eq_ok parsed with ⟨qosPid, _, parsed⟩
  rcases exists_of_bind_eq_ok parsed with ⟨range, _, parsed⟩
  rcases exists_of_bind_eq_ok parsed with ⟨payload, _, parsed⟩
  rw [← Except.ok.inj parsed]

namespace Receiver

variable {receiver : Receiver T config} {capacity : ℕ}

/-- A message owns the complete packet of a PUBLISH, and has the packet identifier with which the
PUBLISH was answered. -/
theorem Sound.committed_of_messageOf? [Transport T] (sound : receiver.Sound capacity)
    {stream : MessageStream config} {reception : Reception}
    (listed : reception ∈ receiver.inbound.receptions) {message : Message}
    (made : stream.messageOf? reception = some message) :
    reception.fate = .committed message.grant ∧ message.qosPid = reception.qosPid := by
  rcases Option.bind_eq_some_iff.mp made with ⟨frame, handedOver, accepted⟩
  have parsed := (MessageStream.tryNew_of_accepts accepted).1
  have grant := Message.grant_of_tryNew parsed
  have committed : reception.fate = .committed frame := by
    unfold Reception.handed? at handedOver
    split at handedOver
    · rename_i frame' fate
      rw [fate, Option.some.inj handedOver]
    · rcases Option.some.inj handedOver with rfl
      have rejected : ∀ config, Message.tryNew config [] = fail .insufficientBytes := fun _ => rfl
      rw [rejected] at parsed
      exact absurd parsed MqttDecoder.fail_ne_ok
    · simp at handedOver
  refine ⟨by rw [grant]; exact committed, ?_⟩
  rcases sound.accepted.of_committed sound.disciplined.accounts listed committed with
    ⟨buf, topicName, decoded, received, whole⟩
  rcases Message.publishFields_of_tryNew parsed with ⟨decoder, created, fields⟩
  rcases (parsersAgree_of_fields decoded received whole created fields).parsed with
    ⟨other, parsedAgain, _, same⟩
  rcases Except.ok.inj (parsed.symm.trans parsedAgain) with rfl
  exact same

/-- The publishes that were received since a subscriber was created, and those of them whose frames
were not evicted before it has read them. -/
theorem Sound.exists_kept [Transport T] (sound : receiver.Sound capacity) {id : ℕ}
    {stream : MessageStream config} (live : receiver.streams.get? id = some stream) :
    ∃ since kept, since <:+ receiver.inbound.receptions.reverse ∧
      since.filterMap Reception.handed? = (receiver.committedFor stream).map Pubsub.Frame.bytes ∧
      kept.Sublist since ∧ (receiver.evictedFrom stream = [] → kept = since) ∧
      stream.handedOut ++ receiver.queued stream = kept.filterMap stream.messageOf? := by
  rcases Option.isSome_iff_exists.mp (sound.feeds.has id stream live) with ⟨reader, subscribed⟩
  have delivers := sound.one.delivers subscribed
  rcases Pubsub.exists_handed delivers.nothingDiscarded with ⟨before, split⟩
  rw [sound.disciplined.accounts.handed] at split
  have inOrder : receiver.inbound.receptions.reverse.filterMap Reception.handed? =
      before.reverse ++ (receiver.committedFor stream).map Pubsub.Frame.bytes := by
    rw [List.filterMap_reverse, split, List.reverse_append, List.reverse_reverse]
    rfl
  rcases List.filterMap_eq_append_iff.mp inOrder with ⟨earlier, since, parts, _, sinceFrames⟩
  let unread := (receiver.committedFor stream).filter fun frame =>
    frame.id ∉ receiver.evictedFrom stream
  have unread_sublist : (unread.map Pubsub.Frame.bytes).Sublist
      (since.filterMap Reception.handed?) := by
    rw [sinceFrames]
    exact List.filter_sublist.map _
  have queue : stream.handedOut ++ receiver.queued stream =
      (unread.map Pubsub.Frame.bytes).filterMap stream.accepts := by
    rw [queued, subscribed, sound.feeds.handedOut id stream live, List.filterMap_map]
    dsimp only
    rw [← List.filterMap_append, reads, delivers.delivered]
    rfl
  have suffix : since <:+ receiver.inbound.receptions.reverse := by
    rw [parts]
    exact List.suffix_append _ _
  by_cases nothing : receiver.evictedFrom stream = []
  · refine ⟨since, since, suffix, sinceFrames, List.Sublist.refl _, fun _ => rfl, ?_⟩
    have all : unread = receiver.committedFor stream := by
      simp only [unread, nothing, List.not_mem_nil, not_false_eq_true, decide_true, List.filter_true]
    rw [queue, all, ← sinceFrames, List.filterMap_filterMap]
    rfl
  · rcases List.sublist_filterMap_iff.mp unread_sublist with ⟨kept, sublist, frames⟩
    refine ⟨since, kept, suffix, sinceFrames, sublist, fun impossible => absurd impossible nothing, ?_⟩
    rw [queue, frames, List.filterMap_filterMap]
    rfl

end Receiver

/-- In every run in which no message is changed, with an RX buffer of at most 65535 bytes, a
subscription has handed out, and will hand out of what is queued for it, the messages that it makes
of the publishes that were committed since its subscriber of the RX channel was created: in order,
one each, and all of them when no frame was evicted before it was read. Each of them owns the
complete packet, and has the packet identifier with which the PUBLISH was answered. -/
theorem handedOut_of_receiverRun [Transport T] {capacity : ℕ} {transport : T}
    {actions : List (ReceiverAction T)} {receiver : Receiver T config} (small : capacity ≤ 65535)
    (noPayloadMut : ∀ message offset byte, .payloadMut message offset byte ∉ actions)
    (reached : receiverRun config capacity transport actions = some receiver) {id : ℕ}
    {stream : MessageStream config} (live : receiver.streams.get? id = some stream) :
    ∃ since kept, since <:+ receiver.inbound.receptions.reverse ∧
      since.filterMap Reception.handed? = (receiver.committedFor stream).map Pubsub.Frame.bytes ∧
      kept.Sublist since ∧ (receiver.evictedFrom stream = [] → kept = since) ∧
      stream.handedOut ++ receiver.queued stream = kept.filterMap stream.messageOf? ∧
      ∀ reception ∈ kept, ∀ message, stream.messageOf? reception = some message →
        reception.fate = .committed message.grant ∧ message.qosPid = reception.qosPid := by
  have allowed : Execution.Guarded receiverStep (fun _ action =>
      ∀ message offset byte, action ≠ .payloadMut message offset byte)
      (Receiver.new config capacity transport) actions :=
    Execution.guarded_of_forall fun _ action listed message offset byte same =>
      noPayloadMut message offset byte (same ▸ listed)
  have sound := Execution.invariant_of_guarded (Receiver.Sound capacity)
    (fun noPayloadMut sound stepped => sound.step small noPayloadMut stepped) allowed
    (.new config small transport) reached
  rcases sound.exists_kept live with ⟨since, kept, suffix, frames, sublist, all, handedOut⟩
  refine ⟨since, kept, suffix, frames, sublist, all, handedOut, ?_⟩
  intro reception listed message made
  refine sound.committed_of_messageOf? ?_ made
  exact List.mem_reverse.mp (suffix.subset (sublist.subset listed))

/-- A subscription to one of the topics of two publishes, the second of which is still queued when
the first is handed out. -/
def oneOfTwoTopics : List (ReceiverAction NalTransport) :=
  [.subscriber, .create 0 [⟨[0x61], rfl⟩] 1,
    .inbound (.recv (.full [0x32, 0x08, 0x00, 0x01, 0x61, 0x00, 0x07, 0x00, 0xD0, 0xD1] .waiting)),
    .inbound .copyAll, .inbound (.link (.write .replied)),
    .inbound (.recv (.full [0x30, 0x05, 0x00, 0x01, 0x62, 0x00, 0xD2] .waiting)),
    .inbound .copyAll, .pollNext 0 3 false]

theorem handedOut_of_receiverRun_example :
    ∃ (receiver : Receiver NalTransport (.default .mqttv5 true)) (stream : MessageStream _),
      receiverRun _ 64 ⟨some 0⟩ oneOfTwoTopics = some receiver ∧
      receiver.streams.get? 0 = some stream ∧
      stream.handedOut.map Message.payloadBytes = [[0xD0, 0xD1]] ∧
      ∃ kept : List Reception, kept.Sublist receiver.inbound.receptions.reverse ∧
        stream.handedOut ++ receiver.queued stream = kept.filterMap stream.messageOf? := by
  have payloads : ((receiverRun (.default .mqttv5 true) 64 (⟨some 0⟩ : NalTransport)
      oneOfTwoTopics).bind fun receiver => receiver.streams.get? 0).map
        (fun stream => stream.handedOut.map Message.payloadBytes) = some [[0xD0, 0xD1]] := by
    decide +kernel
  rcases Option.map_eq_some_iff.mp payloads with ⟨stream, found, payloads⟩
  rcases Option.bind_eq_some_iff.mp found with ⟨receiver, reached, live⟩
  rcases handedOut_of_receiverRun (by decide) (by simp [oneOfTwoTopics]) reached live with
    ⟨since, kept, suffix, _, sublist, _, handedOut, _⟩
  exact ⟨receiver, stream, reached, live, payloads, kept, sublist.trans suffix.sublist, handedOut⟩

end Mqttrust.System
