import Mqttrust.System.StreamDelivery
import Mqttrust.System.Wakers

/-!
# Subscriptions that sleep

`poll_next` registers the waker of its task twice before it returns `Poll::Pending`: in
`connection_state_change_waker`, which has one slot for all subscriptions, and with the
RX channel, when its read is refused. A subscription that finds the shared state locked
or a message that it does not want wakes itself.
-/

namespace Mqttrust.System

open Pubsub (Waker)

variable {T : Type} {config : CrateConfig}

/-- A receiver, the connection waker of its shared state, and the subscriptions that sleep. -/
structure Audience (T : Type) (config : CrateConfig) where
  receiver : Receiver T config
  connectionStateChangeWaker : WakerRegistration Waker
  asleep : Sleepers ℕ Waker

/-- What happens to an audience. -/
inductive AudienceAction (T : Type) where
  | receiver (action : ReceiverAction T)
  /-- Another future registers its task, as `wait_connection_change` does. -/
  | register (task : Waker)

/-- Whether `poll_next` of a subscription, with the shared state unlocked, reads and is refused. -/
def Receiver.parks (receiver : Receiver T config) (id : ℕ) (cx : Waker) : Bool :=
  (receiver.streams.get? id).any fun stream =>
    receiver.inbound.link.world.shared.cleanSessionCount == stream.createdCleanSessionCount &&
      receiver.inbound.rx.refuses (rxConfig config) stream.subscriber (some cx)

namespace Audience

/-- Nobody sleeps in a new stack. -/
def new [Transport T] (config : CrateConfig) (capacity : ℕ) (transport : T) :
    Audience T config where
  receiver := .new config capacity transport
  connectionStateChangeWaker := .new
  asleep := .none

variable (audience : Audience T config)

/-- Whether a task is registered at both places. -/
def registered (task : Waker) : Bool :=
  decide (audience.connectionStateChangeWaker.task = some task) &&
    decide (task ∈ audience.receiver.inbound.rx.inner.wakers.subscribers)

/-- A subscription wakes up when its waker is not registered any more. -/
def settle : Audience T config :=
  { audience with asleep := audience.asleep.stay fun _ => audience.registered }

/-- What an action does to the wakers: a subscription that is polled registers its own, and a
change of the connection status wakes the one that is registered. -/
def follow (action : ReceiverAction T) (next : Receiver T config) : Audience T config :=
  let changed :=
    audience.receiver.inbound.link.world.shared.connected != next.inbound.link.world.shared.connected
  match action with
  | .pollNext id cx false =>
      settle {
        receiver := next
        connectionStateChangeWaker := audience.connectionStateChangeWaker.register cx
        asleep :=
          if audience.receiver.parks id cx then audience.asleep.sleep id cx
          else audience.asleep.rouse (some id) }
  | .pollNext id _ true | .dropStream id =>
      settle { audience with receiver := next, asleep := audience.asleep.rouse (some id) }
  | _ =>
      settle { audience with
        receiver := next
        connectionStateChangeWaker := audience.connectionStateChangeWaker.wakeIf changed }

end Audience

/-- One action of an audience. -/
def audienceStep [Transport T] (audience : Audience T config) :
    AudienceAction T → Option (Audience T config)
  | .receiver action => (receiverStep audience.receiver action).map (audience.follow action)
  | .register task =>
      some (Audience.settle { audience with
        connectionStateChangeWaker := audience.connectionStateChangeWaker.register task })

namespace Inbound

variable {inbound next : Inbound T config} {publishing : InboundPublish} {link : Link T config}

/-- The shared state is left alone, or the world has taken one step. -/
def SharesStep (inbound next : Inbound T config) : Prop :=
  next.link.world.shared = inbound.link.world.shared ∨
    ∃ action world, step inbound.link.world action = some world ∧
      next.link.world.shared = world.shared

theorem shared_encode {Packet : Type} [MqttEncode Packet] {packet : Packet}
    {encoded failed : Link T config} (stepped : inbound.encode packet encoded failed = some next) :
    next.link = encoded ∨ next.link = failed := by
  unfold encode at stepped
  split at stepped
  · rcases Option.some.inj stepped with rfl
    exact .inl rfl
  · rcases Option.some.inj stepped with rfl
    exact .inr rfl
  · simp at stepped

theorem shared_goOn (stepped : inbound.goOn link = some next) :
    next.link.world.shared = link.world.shared := by
  unfold goOn at stepped
  split at stepped
  · rcases shared_encode stepped with same | same
    · rw [same]
    · rw [same]
  · rcases Option.some.inj stepped with rfl
    rfl

variable [Transport T]

theorem sharesStep_of_linkStep {link next : Link T config} {action : LinkAction T}
    (stepped : linkStep link action = some next) :
    next.world.shared = link.world.shared ∨
      ∃ action world, step link.world action = some world ∧ next.world.shared = world.shared := by
  cases Link.transition_of_linkStep stepped with
  | opened =>
      left
      unfold Link.connectTransport
      dsimp only
      split <;> rfl
  | greeted | recvConnAck | pending | drifts | disconnectFails => exact .inl rfl
  | connect _ performed | connected _ performed | connectFails _ performed
  | receive _ _ performed | receiveFails _ _ performed | client _ performed | write _ _ performed
  | socketFails _ performed | lost _ performed | reset performed | dropRun _ performed
  | disconnect _ performed => exact .inr ⟨_, _, performed, rfl⟩

theorem sharesStep_proceed {payload : Payload}
    (stepped : inbound.proceed publishing payload = some next) : inbound.SharesStep next := by
  simp only [proceed, Option.bind_eq_bind, Option.bind_eq_some_iff] at stepped
  rcases stepped with ⟨connection, _, world, received, stepped⟩
  exact .inr ⟨_, world, received, shared_goOn stepped⟩

theorem sharesStep_commit {writer : ℕ} {frame : List UInt8}
    (stepped : inbound.commit publishing writer frame = some next) : inbound.SharesStep next := by
  simp only [commit, Option.bind_eq_bind, Option.bind_eq_some_iff] at stepped
  rcases stepped with ⟨rx, _, stepped⟩
  split at stepped
  · rcases Option.some.inj stepped with rfl
    exact .inl rfl
  · have shares := sharesStep_proceed stepped
    exact shares

omit [Transport T] in
theorem cut_link {writer : ℕ} (stepped : inbound.cut writer = some next) :
    next.link = inbound.link := by
  simp only [cut, Option.bind_eq_bind, Option.bind_eq_some_iff, Option.some.injEq] at stepped
  rcases stepped with ⟨rx, _, rfl⟩
  rfl

theorem sharesStep_follow {action : LinkAction T} (performed : linkStep inbound.link action = some link)
    (stepped : inbound.follow action link = some next) : inbound.SharesStep next := by
  have shares := sharesStep_of_linkStep performed
  unfold follow at stepped
  split at stepped
  · rcases Option.some.inj stepped with rfl
    exact shares
  · unfold dropRun at stepped
    split at stepped
    · rcases Option.map_eq_some_iff.mp stepped with ⟨after, _, rfl⟩
      exact shares
    · rcases Option.some.inj stepped with rfl
      exact shares
  · simp at stepped
  · simp at stepped
  · rcases shared_encode stepped with same | same
    · rw [SharesStep, same]
      exact shares
    · exact .inl (by rw [same])
  · rw [SharesStep, shared_goOn stepped]
    exact shares

/-- Whatever the stack and its client do, the shared state takes at most one step. -/
theorem sharesStep_of_step {action : InboundAction T}
    (stepped : inboundStep inbound action = some next) : inbound.SharesStep next := by
  unfold inboundStep at stepped
  split at stepped
  · simp at stepped
  · cases action with
    | recv socket =>
        simp only [recv, Option.bind_eq_bind, Option.bind_eq_some_iff,
          Option.ite_none_left_eq_some] at stepped
        rcases stepped with ⟨_, _, _, stepped⟩
        split at stepped
        · simp only [grantImmediate, Option.bind_eq_bind, Option.bind_eq_some_iff] at stepped
          rcases stepped with ⟨rx, _, stepped⟩
          split at stepped
          · rcases Option.some.inj stepped with rfl
            exact .inl rfl
          · rcases Option.some.inj stepped with rfl
            exact .inl rfl
        · rcases Option.bind_eq_some_iff.mp stepped with ⟨link, performed, stepped⟩
          rw [SharesStep, shared_goOn stepped]
          exact sharesStep_of_linkStep performed
    | copyAll =>
        simp only [copyAll, Option.bind_eq_bind, Option.bind_eq_some_iff] at stepped
        rcases stepped with ⟨publishing, _, stepped⟩
        split at stepped
        · rcases Option.bind_eq_some_iff.mp stepped with ⟨grant, _, stepped⟩
          split at stepped
          · exact sharesStep_commit stepped
          · rcases Option.bind_eq_some_iff.mp stepped with ⟨after, dropped, stepped⟩
            have shares := sharesStep_proceed stepped
            rw [SharesStep, cut_link dropped] at shares
            exact shares
          · simp at stepped
          · simp at stepped
        · simp at stepped
    | discard =>
        simp only [discard, Option.bind_eq_bind, Option.bind_eq_some_iff] at stepped
        rcases stepped with ⟨publishing, _, stepped⟩
        split at stepped
        · split at stepped
          · exact sharesStep_proceed stepped
          · exact sharesStep_proceed stepped
          · simp at stepped
        · simp at stepped
    | insert =>
        simp only [insert, Option.bind_eq_bind, Option.bind_eq_some_iff] at stepped
        rcases stepped with ⟨publishing, _, stepped⟩
        split at stepped
        · exact sharesStep_proceed stepped
        · simp at stepped
    | subscriber action =>
        simp only [Option.ite_none_right_eq_some, Option.map_eq_some_iff] at stepped
        rcases stepped with ⟨_, rx, _, rfl⟩
        exact .inl rfl
    | link action =>
        rcases Option.bind_eq_some_iff.mp stepped with ⟨link, performed, stepped⟩
        exact sharesStep_follow performed stepped

end Inbound

namespace Receiver

variable [Transport T] {receiver next : Receiver T config} {action : ReceiverAction T}
  {capacity : ℕ} {id : ℕ} {waker : Waker}

/-- What uses the RX channel alone leaves the link alone. -/
theorem run_subscriber {inbound after : Inbound T config} {used : List Pubsub.Action}
    (performed : Execution.run inboundStep inbound (used.map .subscriber) = some after) :
    after.link = inbound.link ∧
      Execution.run (Pubsub.step (rxConfig config)) inbound.rx used = some after.rx := by
  induction used generalizing inbound with
  | nil =>
      rcases Option.some.inj performed with rfl
      exact ⟨rfl, rfl⟩
  | cons call rest ih =>
      rcases Execution.run_cons_eq_some.mp performed with ⟨middle, called, performed⟩
      unfold inboundStep at called
      split at called
      · simp at called
      · simp only [Option.ite_none_right_eq_some, Option.map_eq_some_iff] at called
        rcases called with ⟨_, rx, called, rfl⟩
        rcases ih performed with ⟨link, continued⟩
        exact ⟨link, Execution.run_cons_eq_some.mpr ⟨rx, called, continued⟩⟩

theorem rxInvariant_step
    (invariant : receiver.inbound.rx.Invariant (rxConfig config) capacity)
    (stepped : receiverStep receiver action = some next) :
    next.inbound.rx.Invariant (rxConfig config) capacity := by
  rcases cases_of_step stepped with ⟨inner, _, notSubscriber, performed, _⟩ | ⟨used, serves⟩
  · exact (Inbound.produces_of_step notSubscriber performed).keeps
      (Pubsub.World.Invariant (rxConfig config) capacity)
      (fun _ invariant called => invariant.step called) invariant
  · exact Execution.invariant_of_run (Pubsub.World.Invariant (rxConfig config) capacity)
      (fun invariant called => invariant.step called) invariant (run_subscriber serves.performed).2

/-- Only the stack and its client use the shared state. -/
theorem sharesStep_of_step (stepped : receiverStep receiver action = some next) :
    receiver.inbound.SharesStep next.inbound := by
  rcases cases_of_step stepped with ⟨inner, _, _, performed, _⟩ | ⟨used, serves⟩
  · exact Inbound.sharesStep_of_step performed
  · exact .inl (by rw [(run_subscriber serves.performed).1])

theorem link_of_step (notInbound : ∀ inner, action ≠ .inbound inner)
    (stepped : receiverStep receiver action = some next) :
    next.inbound.link = receiver.inbound.link := by
  rcases cases_of_step stepped with ⟨inner, same, _⟩ | ⟨used, serves⟩
  · exact absurd same (notInbound inner)
  · exact (run_subscriber serves.performed).1

/-- A clean session is counted when the connection status changes. -/
theorem count_of_connected (stepped : receiverStep receiver action = some next)
    (unchanged : next.inbound.link.world.shared.connected =
      receiver.inbound.link.world.shared.connected) :
    next.inbound.link.world.shared.cleanSessionCount =
      receiver.inbound.link.world.shared.cleanSessionCount := by
  rcases sharesStep_of_step stepped with same | ⟨_, world, performed, same⟩
  · rw [same]
  · rw [same] at unchanged ⊢
    exact (transition_of_step performed).2.count_of_connected unchanged

/-- The subscription would be refused, if it were polled again. -/
def Sleeps (receiver : Receiver T config) (id : ℕ) : Prop :=
  ∃ stream, receiver.streams.get? id = some stream ∧
    receiver.inbound.link.world.shared.cleanSessionCount = stream.createdCleanSessionCount ∧
      receiver.inbound.rx.Sleeps stream.subscriber

/-- While the waker of a subscription that sleeps is not woken, only its own polls and its drop
change that it would be refused. -/
theorem parked_of_step (feeds : receiver.Feeds)
    (invariant : receiver.inbound.rx.Invariant (rxConfig config) capacity)
    (stepped : receiverStep receiver action = some next) {stream : MessageStream config}
    (live : receiver.streams.get? id = some stream)
    (sleeps : receiver.inbound.rx.Sleeps stream.subscriber) (notOwn : action.stream? ≠ some id) :
    next.inbound.rx.Parked stream.subscriber waker := by
  rcases cases_of_step stepped with ⟨inner, _, notSubscriber, performed, _⟩ | ⟨used, serves⟩
  · rcases Inbound.produces_of_step notSubscriber performed with ⟨actions, isProducer, reached⟩
    refine sleeps.run invariant ?_ ?_ reached waker
    · intro action listed
      have := isProducer action listed
      constructor
      · rintro cx rfl
        simp [Pubsub.Action.isProducer] at this
      · rintro rfl
        simp [Pubsub.Action.isProducer] at this
    · rintro action listed other cx rfl
      have := isProducer _ (List.mem_of_mem_tail listed)
      simp [Pubsub.Action.isProducer] at this
  · -- another subscription has another subscriber of the RX channel
    have apart : ∀ {other : ℕ} {stream' : MessageStream config}, some other ≠ some id →
        receiver.streams.get? other = some stream' →
        stream'.subscriber ≠ stream.subscriber := by
      intro other stream' different live' same
      exact different (congrArg some (feeds.distinct other id stream' stream live' live same))
    refine sleeps.run invariant ?_ ?_ (run_subscriber serves.performed).2 waker
    · cases serves.uses with
      | subscriber | create | unread | payloadMut | dropMessage => simp
      | abandon owned =>
          have different : ∀ {subscriber : ℕ}, subscriber ∈ receiver.subscribing →
              subscriber ≠ stream.subscriber := by
            rintro subscriber owned rfl
            exact feeds.owned id stream live owned
          simpa using different owned
      | read live' => simpa using apart notOwn live'
      | skip live' => simpa using apart notOwn live'
      | dropStream live' => simpa using apart notOwn live'
    · cases serves.uses <;> simp

omit [Transport T] in
theorem parks_eq_true {cx : Waker} :
    receiver.parks id cx = true ↔ ∃ stream, receiver.streams.get? id = some stream ∧
      receiver.inbound.link.world.shared.cleanSessionCount = stream.createdCleanSessionCount ∧
        receiver.inbound.rx.refuses (rxConfig config) stream.subscriber (some cx) = true := by
  simp only [parks, Option.any_eq_true, Bool.and_eq_true, beq_iff_eq]

omit [Transport T] in
/-- Whoever sleeps would be refused again, whichever task polls. -/
theorem Sleeps.parks (sleeps : receiver.Sleeps id)
    (invariant : receiver.inbound.rx.Invariant (rxConfig config) capacity) (cx : Waker) :
    receiver.parks id cx = true := by
  rcases sleeps with ⟨stream, live, count, sleeps⟩
  exact parks_eq_true.mpr ⟨stream, live, count, sleeps.refuses invariant (some cx)⟩

/-- A poll that is refused leaves the subscription asleep. -/
theorem sleeps_of_parks {cx : Waker}
    (invariant : receiver.inbound.rx.Invariant (rxConfig config) capacity)
    (parks : receiver.parks id cx = true)
    (stepped : receiverStep receiver (.pollNext id cx false) = some next)
    (registered : waker ∈ next.inbound.rx.inner.wakers.subscribers) : next.Sleeps id := by
  rcases parks_eq_true.mp parks with ⟨stream, live, count, refused⟩
  rcases cases_of_step stepped with ⟨_, impossible, _⟩ | ⟨used, serves⟩
  · simp at impossible
  · rcases serves.streams id stream (by simp) live with ⟨messages, live'⟩
    rcases run_subscriber serves.performed with ⟨link, called⟩
    refine ⟨_, live', by rw [link]; exact count, ?_⟩
    have own : ∀ {polled : MessageStream config}, receiver.streams.get? id = some polled →
        polled = stream := fun found => Option.some.inj (found.symm.trans live)
    cases serves.uses with
    | unread =>
        rw [← Option.some.inj called]
        exact Pubsub.World.sleeps_of_refuses invariant refused
    | read live'' =>
        rcases Execution.run_cons_eq_some.mp called with ⟨rx, read, last⟩
        rw [← Option.some.inj last]
        rw [own live''] at read
        exact Pubsub.World.sleeps_of_read invariant refused read
    | skip live'' =>
        rcases Execution.run_cons_eq_some.mp called with ⟨rx, read, called⟩
        rcases Execution.run_cons_eq_some.mp called with ⟨rx', dropped, last⟩
        rcases Option.some.inj last
        rw [own live''] at read
        have sleeps := Pubsub.World.sleeps_of_read invariant refused read
        exact sleeps.step (invariant.step read) (by simp) (by simp) dropped waker registered

/-- A subscription that sleeps sleeps on until its waker is woken, the connection status changes, or
it is polled or dropped. -/
theorem Sleeps.step (feeds : receiver.Feeds)
    (invariant : receiver.inbound.rx.Invariant (rxConfig config) capacity)
    (sleeps : receiver.Sleeps id) (stepped : receiverStep receiver action = some next)
    (notOwn : action.stream? ≠ some id)
    (unchanged : next.inbound.link.world.shared.connected =
      receiver.inbound.link.world.shared.connected)
    (registered : waker ∈ next.inbound.rx.inner.wakers.subscribers) : next.Sleeps id := by
  rcases sleeps with ⟨stream, live, count, sleeps⟩
  have parked := parked_of_step feeds invariant stepped live sleeps notOwn registered
  have stays : ∃ messages, next.streams.get? id = some { stream with handedOut := messages } := by
    rcases cases_of_step stepped with ⟨_, _, _, _, streams⟩ | ⟨used, serves⟩
    · exact ⟨stream.handedOut, streams ▸ live⟩
    · refine serves.streams id stream ?_ live
      rintro rfl
      exact notOwn rfl
  rcases stays with ⟨messages, live'⟩
  refine ⟨_, live', ?_, parked⟩
  rw [count_of_connected stepped unchanged]
  exact count

end Receiver

namespace Audience

variable [Transport T] {audience next : Audience T config} {capacity : ℕ}

/-- What a run keeps: whoever sleeps is registered, and would be refused. -/
structure Sound (capacity : ℕ) (audience : Audience T config) : Prop where
  feeds : audience.receiver.Feeds
  invariant : audience.receiver.inbound.rx.Invariant (rxConfig config) capacity
  registered : ∀ id task, audience.asleep id = some task → audience.registered task = true
  sleeps : ∀ id task, audience.asleep id = some task → audience.receiver.Sleeps id

namespace Sound

theorem new (config : CrateConfig) (capacity : ℕ) (transport : T) :
    (Audience.new config capacity transport).Sound capacity where
  feeds := .new config capacity transport
  invariant := (Pubsub.World.Invariant.new (rxConfig config) capacity).step
    (show Pubsub.step (rxConfig config) (Pubsub.World.new capacity) .publisher = some _ from rfl)
  registered := by simp [Audience.new, Sleepers.none]
  sleeps := by simp [Audience.new, Sleepers.none]

omit [Transport T] in
theorem asleep_settle {id : ℕ} {task : Waker} :
    audience.settle.asleep id = some task ↔
      audience.asleep id = some task ∧ audience.registered task = true := by
  simp only [settle, Sleepers.stay_eq_some]

omit [Transport T] in
theorem of_settle {audience : Audience T config} (feeds : audience.receiver.Feeds)
    (invariant : audience.receiver.inbound.rx.Invariant (rxConfig config) capacity)
    (sleeps : ∀ id task, audience.asleep id = some task → audience.registered task = true →
      audience.receiver.Sleeps id) : audience.settle.Sound capacity where
  feeds := feeds
  invariant := invariant
  registered := fun _ _ asleep => (asleep_settle.mp asleep).2
  sleeps := fun id task asleep => (asleep_settle.mp asleep).elim (sleeps id task)

theorem follow {action : ReceiverAction T} {after : Receiver T config}
    (sound : audience.Sound capacity) (stepped : receiverStep audience.receiver action = some after) :
    (audience.follow action after).Sound capacity := by
  have feeds := sound.feeds.step (Receiver.moves_of_step stepped)
  have invariant := Receiver.rxInvariant_step sound.invariant stepped
  have stays : ∀ id task, audience.asleep id = some task → action.stream? ≠ some id →
      after.inbound.link.world.shared.connected =
        audience.receiver.inbound.link.world.shared.connected →
      task ∈ after.inbound.rx.inner.wakers.subscribers → after.Sleeps id :=
    fun id task asleep notOwn unchanged registered =>
      (sound.sleeps id task asleep).step sound.feeds sound.invariant stepped notOwn unchanged
        registered
  -- a poll does not change the connection status, and neither does a drop
  have unchanged : (∀ inner, action ≠ .inbound inner) →
      after.inbound.link.world.shared.connected =
        audience.receiver.inbound.link.world.shared.connected :=
    fun notInbound => by rw [Receiver.link_of_step notInbound stepped]
  have waker : ∀ {state : Audience T config} {task : Waker}, state.registered task = true →
      state.connectionStateChangeWaker.task = some task ∧
        task ∈ state.receiver.inbound.rx.inner.wakers.subscribers := by
    intro state task registered
    simpa only [Audience.registered, Bool.and_eq_true, decide_eq_true_eq] using registered
  unfold Audience.follow
  dsimp only
  split
  · rename_i id cx
    refine of_settle feeds invariant fun other task asleep registered => ?_
    have registered := (waker registered).2
    dsimp only at asleep
    split at asleep
    · rename_i parks
      rcases Sleepers.sleep_eq_some.mp asleep with ⟨rfl, _⟩ | ⟨different, asleep⟩
      · exact Receiver.sleeps_of_parks sound.invariant parks stepped registered
      · refine stays other task asleep ?_ (unchanged (by simp)) registered
        exact fun same => different (Option.some.inj same).symm
    · rcases Sleepers.rouse_eq_some.mp asleep with ⟨notOwn, asleep⟩
      exact stays other task asleep notOwn (unchanged (by simp)) registered
  · refine of_settle feeds invariant fun other task asleep registered => ?_
    rcases Sleepers.rouse_eq_some.mp asleep with ⟨notOwn, asleep⟩
    exact stays other task asleep notOwn (unchanged (by simp)) (waker registered).2
  · refine of_settle feeds invariant fun other task asleep registered => ?_
    rcases Sleepers.rouse_eq_some.mp asleep with ⟨notOwn, asleep⟩
    exact stays other task asleep notOwn (unchanged (by simp)) (waker registered).2
  · rename_i notPolled notContended notDropped
    refine of_settle feeds invariant fun other task asleep registered => ?_
    rcases waker registered with ⟨unwoken, registered⟩
    refine stays other task asleep ?_ ?_ registered
    · cases action with
      | pollNext id cx contended =>
          cases contended
          · exact absurd rfl (notPolled id cx)
          · exact absurd rfl (notContended id cx)
      | dropStream id => exact absurd rfl (notDropped id)
      | subscriber | create | abandon | payloadMut | dropMessage | inbound =>
          simp [ReceiverAction.stream?]
    · by_contra changed
      simp [Ne.symm changed] at unwoken

theorem step {action : AudienceAction T} (sound : audience.Sound capacity)
    (stepped : audienceStep audience action = some next) : next.Sound capacity := by
  cases action with
  | receiver action =>
      rcases Option.map_eq_some_iff.mp stepped with ⟨after, performed, rfl⟩
      exact sound.follow performed
  | register task =>
      rcases Option.some.inj stepped with rfl
      refine ⟨sound.feeds, sound.invariant, ?_, ?_⟩
      · exact fun id task asleep => (asleep_settle.mp asleep).2
      · exact fun id task asleep => sound.sleeps id task (asleep_settle.mp asleep).1

end Sound

end Audience

/-- In every run, whoever sleeps would be refused again if it were polled, so no subscription misses
what it waits for; and all subscriptions that sleep belong to one task, since a poll by another
task takes the slot of `connection_state_change_waker` and wakes them. -/
theorem asleep_of_audienceRun [Transport T] {capacity : ℕ} {transport : T}
    {actions : List (AudienceAction T)} {audience : Audience T config}
    (reached : Execution.run audienceStep (.new config capacity transport) actions =
      some audience) :
    (∀ id task, audience.asleep id = some task → ∀ cx, audience.receiver.parks id cx = true) ∧
      ∀ id other task task', audience.asleep id = some task → audience.asleep other = some task' →
        task = task' := by
  have sound := Execution.invariant_of_run (Audience.Sound capacity)
    (fun sound stepped => sound.step stepped) (.new config capacity transport) reached
  refine ⟨fun id task asleep => (sound.sleeps id task asleep).parks sound.invariant, ?_⟩
  intro id other task task' asleep asleep'
  have first := sound.registered id task asleep
  have second := sound.registered other task' asleep'
  simp only [Audience.registered, Bool.and_eq_true, decide_eq_true_eq] at first second
  exact Option.some.inj (first.1.symm.trans second.1)

/-- Two subscriptions of different tasks, of which the one that is polled last sleeps. -/
def twoTasks : List (AudienceAction NalTransport) :=
  [.receiver .subscriber, .receiver (.create 0 [⟨[0x78], rfl⟩] 1), .receiver .subscriber,
    .receiver (.create 1 [⟨[0x79], rfl⟩] 1), .receiver (.pollNext 0 3 false),
    .receiver (.pollNext 1 5 false)]

theorem asleep_of_audienceRun_example :
    ∃ audience : Audience NalTransport (.default .mqttv5 true),
      Execution.run audienceStep (.new _ 64 ⟨some 0⟩) twoTasks = some audience ∧
        audience.asleep 0 = none ∧ audience.asleep 1 = some 5 ∧
        ∀ cx, audience.receiver.parks 1 cx = true := by
  have asleep : (Execution.run audienceStep
      (Audience.new (.default .mqttv5 true) 64 (⟨some 0⟩ : NalTransport)) twoTasks).map
      (fun audience => (audience.asleep 0, audience.asleep 1)) = some (none, some 5) := by
    decide +kernel
  rcases Option.map_eq_some_iff.mp asleep with ⟨audience, reached, asleep⟩
  rcases Prod.mk.inj asleep with ⟨first, second⟩
  exact ⟨audience, reached, first, second, (asleep_of_audienceRun reached).1 1 5 second⟩

end Mqttrust.System
