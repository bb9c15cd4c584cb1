import Mqttrust.System.TopicFilter
import Mqttrust.System.Transition

/-!
# Subscriptions

`MqttClient::subscribe` tries up to three times to have its SUBSCRIBE acknowledged.
It then makes a `Subscription` of its topic filters and a snapshot of the number of
clean sessions, with which `poll_next` compares the current number. A subscription
that is dropped queues an UNSUBSCRIBE; `unsubscribe` owns its subscription until
the UNSUBACK, and drops it when it fails or is dropped itself.

A subscriber is a world together with the calls of `subscribe` and the
subscriptions. It also records the number of clean sessions, when SUBACKs were
processed, and for which topic filters subscriptions were made and UNSUBSCRIBEs
were queued. No operation reads the record.
-/

namespace Mqttrust.System

variable {config : CrateConfig}

/-- `MAX_ATTEMPTS` of `MqttClient::subscribe`. -/
def maxSubscribeAttempts : ℕ := 3

/-- Where a call of `subscribe` is suspended. -/
inductive SubscribePhase where
  /-- In or before an attempt; an attempt is a call of `send`. -/
  | attempting (call : Option ℕ)
  /-- Waiting for the shared state, to take the snapshot, with the number of clean sessions there
  were when the SUBACK was processed. -/
  | acknowledged (ackedAt : ℕ)
  | over
deriving DecidableEq, Repr

/-- A call of `MqttClient::subscribe` that has got its subscriber of the RX channel. -/
structure Subscribing where
  topics : List Utf8
  /-- `MAX_TOPICS`. -/
  maxTopics : ℕ
  attempts : ℕ
  phase : SubscribePhase

/-- `Subscription`. -/
structure Subscription (config : CrateConfig) where
  topicFilters : List (TopicFilter config)
  createdCleanSessionCount : UInt8
  /-- The number of clean sessions when the SUBACK was processed. -/
  ackedAt : ℕ
  /-- The number of clean sessions when the snapshot was taken. -/
  createdAt : ℕ
  /-- The call of `unsubscribe` that owns the subscription. -/
  owner : Option ℕ

/-- What `poll_next` returns. -/
inductive Polled where
  | pending
  /-- `Poll::Ready(None)`. -/
  | ended
  | message (topicName : Utf8)
deriving DecidableEq

namespace Subscription

/-- The topics of the UNSUBSCRIBE. -/
def topics (subscription : Subscription config) : List Utf8 :=
  subscription.topicFilters.map TopicFilter.filter

/-- `Subscription::poll_next`, when the RX channel has a message with the given topic name, if
any. -/
def pollNext (subscription : Subscription config) (shared : Shared config) (contended : Bool)
    (message : Option Utf8) : Polled :=
  if contended then .pending
  else if shared.cleanSessionCount ≠ subscription.createdCleanSessionCount then .ended
  else
    match message with
    | some topicName =>
        if subscription.topicFilters.any fun filter => filter.isMatch topicName then
          .message topicName
        else .pending
    | none => .pending

end Subscription

/-- An UNSUBSCRIBE that was queued because of a subscription. -/
structure Unsubscribed where
  subscription : ℕ
  topics : List Utf8
  /-- The topics of the other subscriptions that were alive then. -/
  others : List (List Utf8)

/-- A client with its subscriptions. -/
structure Subscriber (config : CrateConfig) where
  inner : World config
  subscribes : Table Subscribing
  subscriptions : Table (Subscription config)
  /-- The number of connections that were established with a clean session. -/
  cleanSessions : ℕ
  /-- The identifiers whose SUBACK was processed and the number of clean sessions then, most recent
  first. -/
  acks : List (ℕ × ℕ)
  /-- The topics for which the subscriptions were made. -/
  created : List (List Utf8)
  unsubscribed : List Unsubscribed

/-- What happens to a subscriber. -/
inductive SubscribeAction where
  /-- `subscribe` is called. -/
  | subscribe (topics : List Utf8) (maxTopics : ℕ)
  /-- The next attempt of a subscribe begins. -/
  | attempt (subscribe : ℕ)
  /-- An attempt gets its reason codes. -/
  | waitStatus (subscribe : ℕ) (contended : Bool)
  /-- A subscribe takes its snapshot and returns. -/
  | create (subscribe : ℕ)
  /-- `Subscription::unsubscribe` is called. -/
  | unsubscribe (subscription : ℕ)
  /-- `send` of the UNSUBSCRIBE commits its frame. -/
  | commitUnsubscribe (subscription : ℕ)
  /-- `unsubscribe` gets its reason codes. -/
  | finishUnsubscribe (subscription : ℕ) (contended : Bool)
  /-- A subscription is dropped, by itself or with the call of `unsubscribe` that owns it. -/
  | drop (subscription : ℕ) (contended : Bool) (drop : SubscriptionDrop)
  /-- Any other action; the attempts go on by it, and time out by `Action.drop`. -/
  | other (action : Action)

/-- The identifier whose SUBACK is processed. -/
def World.subAcked? (world : World config) : Action → Option ℕ
  | .receive (.subAck packet) _ =>
      match world.shared.ackStatus.get? packet.pid.val with
      | some .awaitingSubAck => some packet.pid.val
      | _ => none
  | _ => none

/-- Whether the action is not one of those that a subscriber takes itself. -/
def World.isOther (world : World config) : Action → Bool
  | .send packet => packet.getQos.isSome
  | .waitStatus _ _ | .dropSubscription _ => false
  | .commit handle | .drop handle _ =>
      (world.calls.get? handle).all fun call => call.packet != .unsubscribe
  | _ => true

/-- The call has returned successfully. -/
def Call.succeeded (call : Call) : Bool :=
  match call.phase with
  | .finished (.ok _) => true
  | _ => false

namespace Subscriber

/-- A new client that is not connected. -/
def new (config : CrateConfig) : Subscriber config where
  inner := World.new config
  subscribes := .empty
  subscriptions := .empty
  cleanSessions := 0
  acks := []
  created := []
  unsubscribed := []

variable (subscriber : Subscriber config)

/-- An action of the world. -/
def follow (action : Action) : Option (Subscriber config) :=
  (step subscriber.inner action).map fun inner =>
    { subscriber with
      inner := inner
      cleanSessions := subscriber.cleanSessions + if action = .connected false then 1 else 0
      acks := (subscriber.inner.subAcked? action).toList.map (·, subscriber.cleanSessions) ++
        subscriber.acks }

/-- The number of clean sessions when the last SUBACK for the identifier was processed. -/
def ackedAt (pid : Pid) : ℕ :=
  ((subscriber.acks.find? fun ack => ack.1 == pid.val).map Prod.snd).getD 0

/-- The loop of `subscribe` goes on: there are attempts left, and the last one has failed. -/
def mayAttempt (subscribing : Subscribing) (call : Option ℕ) : Prop :=
  subscribing.attempts < maxSubscribeAttempts ∧
    ∀ handle ∈ call, ∀ call ∈ subscriber.inner.calls.get? handle, call.failed = true

instance (subscribing : Subscribing) (call : Option ℕ) :
    Decidable (subscriber.mayAttempt subscribing call) :=
  inferInstanceAs (Decidable (_ ∧ ∀ handle ∈ call,
    ∀ call ∈ subscriber.inner.calls.get? handle, _))

/-- A subscribe goes on to a phase. -/
def setPhase (subscribe : ℕ) (subscribing : Subscribing) (phase : SubscribePhase) :
    Subscriber config :=
  { subscriber with
    subscribes := subscriber.subscribes.replace subscribe { subscribing with phase := phase } }

/-- The end of `subscribe`, which fails when a topic filter is not valid. -/
def create (subscribe : ℕ) (subscribing : Subscribing) (ackedAt : ℕ) : Subscriber config :=
  let returned := subscriber.setPhase subscribe subscribing .over
  match TopicFilter.collect subscribing.maxTopics subscribing.topics with
  | .filters topicFilters =>
      { returned with
        subscriptions := subscriber.subscriptions.insert
          { topicFilters := topicFilters
            createdCleanSessionCount := subscriber.inner.shared.cleanSessionCount
            ackedAt := ackedAt
            createdAt := subscriber.cleanSessions
            owner := none }
        created := subscriber.created ++ [subscribing.topics] }
  | _ => returned

/-- The topics of the subscriptions that are alive, without the given one. -/
def others (subscription : ℕ) : List (List Utf8) :=
  (List.range subscriber.subscriptions.next).filterMap fun other =>
    if other = subscription then none
    else
      match subscriber.subscriptions.get? other with
      | some live => if live.owner = none then some live.topics else none
      | none => none

/-- An UNSUBSCRIBE is recorded if the last action has queued it. -/
def queued (subscription : ℕ) (topics : List Utf8) (before : World config) : Subscriber config :=
  if before.frames.length < subscriber.inner.frames.length then
    { subscriber with
      unsubscribed :=
        ⟨subscription, topics, subscriber.others subscription⟩ :: subscriber.unsubscribed }
  else subscriber

/-- A subscription is owned by a call of `unsubscribe`. -/
def setOwner (id : ℕ) (subscription : Subscription config) (owner : ℕ) : Subscriber config :=
  { subscriber with
    subscriptions := subscriber.subscriptions.replace id { subscription with owner := some owner } }

/-- The subscription is gone. -/
def remove (id : ℕ) : Subscriber config :=
  { subscriber with subscriptions := subscriber.subscriptions.remove id }

/-- The call of `send` of `unsubscribe` is dropped, if there is one. -/
def dropOwner (subscription : Subscription config) (contended : Bool) :
    Option (Subscriber config) :=
  match subscription.owner with
  | some handle => subscriber.follow (.drop handle contended)
  | none => some subscriber

/-- `Subscription::drop`. -/
def drop (id : ℕ) (subscription : Subscription config) (contended : Bool)
    (drop : SubscriptionDrop) : Option (Subscriber config) := do
  let dropped ← subscriber.dropOwner subscription contended
  if subscription.topicFilters.isEmpty then some (dropped.remove id)
  else
    (dropped.follow (.dropSubscription drop)).map fun next =>
      (next.queued id subscription.topics dropped.inner).remove id

end Subscriber

/-- One action of a subscriber. -/
def subscribeStep (subscriber : Subscriber config) :
    SubscribeAction → Option (Subscriber config)
  | .subscribe topics maxTopics =>
      some { subscriber with
        subscribes := subscriber.subscribes.insert ⟨topics, maxTopics, 0, .attempting none⟩ }
  | .attempt id => do
      let subscribing ← subscriber.subscribes.get? id
      match subscribing.phase with
      | .attempting call =>
          if subscriber.mayAttempt subscribing call then
            (subscriber.follow (.send .subscribe)).map fun next =>
              next.setPhase id { subscribing with attempts := subscribing.attempts + 1 }
                (.attempting (some subscriber.inner.calls.next))
          else none
      | _ => none
  | .waitStatus id contended => do
      let subscribing ← subscriber.subscribes.get? id
      match subscribing.phase with
      | .attempting (some handle) => do
          let call ← subscriber.inner.calls.get? handle
          (subscriber.follow (.waitStatus handle contended)).map fun next =>
            if (next.inner.calls.get? handle).any Call.succeeded then
              next.setPhase id subscribing (.acknowledged (next.ackedAt call.pid))
            else next
      | _ => none
  | .create id => do
      let subscribing ← subscriber.subscribes.get? id
      match subscribing.phase with
      | .acknowledged ackedAt =>
          if (TopicFilter.collect subscribing.maxTopics subscribing.topics : Collected config) =
              .panicked then none
          else some (subscriber.create id subscribing ackedAt)
      | _ => none
  | .unsubscribe id => do
      let subscription ← subscriber.subscriptions.get? id
      if subscription.owner = none then
        (subscriber.follow (.send .unsubscribe)).map fun next =>
          next.setOwner id subscription subscriber.inner.calls.next
      else none
  | .commitUnsubscribe id => do
      let subscription ← subscriber.subscriptions.get? id
      let handle ← subscription.owner
      (subscriber.follow (.commit handle)).map fun next =>
        next.queued id subscription.topics subscriber.inner
  | .finishUnsubscribe id contended => do
      let subscription ← subscriber.subscriptions.get? id
      let handle ← subscription.owner
      (subscriber.follow (.waitStatus handle contended)).map fun next =>
        if (next.inner.calls.get? handle).any Call.succeeded then next.remove id else next
  | .drop id contended drop => do
      let subscription ← subscriber.subscriptions.get? id
      subscriber.drop id subscription contended drop
  | .other action => if subscriber.inner.isOther action then subscriber.follow action else none

/-- A run of a new client with its subscriptions. -/
abbrev subscribeRun (config : CrateConfig) (actions : List SubscribeAction) :
    Option (Subscriber config) :=
  Execution.run subscribeStep (Subscriber.new config) actions

namespace Subscriber

variable {subscriber next : Subscriber config} {action : Action}

/-- What an action of the world leaves alone. -/
structure Follows (subscriber next : Subscriber config) : Prop where
  subscribes : next.subscribes = subscriber.subscribes
  subscriptions : next.subscriptions = subscriber.subscriptions
  created : next.created = subscriber.created
  unsubscribed : next.unsubscribed = subscriber.unsubscribed

theorem Follows.trans {last : Subscriber config} (first : subscriber.Follows next)
    (second : next.Follows last) : subscriber.Follows last where
  subscribes := second.subscribes.trans first.subscribes
  subscriptions := second.subscriptions.trans first.subscriptions
  created := second.created.trans first.created
  unsubscribed := second.unsubscribed.trans first.unsubscribed

theorem follows (followed : subscriber.follow action = some next) :
    subscriber.Follows next := by
  rcases Option.map_eq_some_iff.mp followed with ⟨inner, _, rfl⟩
  exact ⟨rfl, rfl, rfl, rfl⟩

theorem mem_others {subscription : ℕ} {topics : List Utf8} :
    topics ∈ subscriber.others subscription ↔
      ∃ other live, other ≠ subscription ∧ subscriber.subscriptions.get? other = some live ∧
        live.owner = none ∧ live.topics = topics := by
  simp only [others, List.mem_filterMap, List.mem_range]
  constructor
  · rintro ⟨other, _, found⟩
    split at found
    · simp at found
    · rename_i different
      split at found
      · rename_i live there
        split at found
        · rename_i alive
          exact ⟨other, live, different, there, alive, Option.some.inj found⟩
        · simp at found
      · simp at found
  · rintro ⟨other, live, different, there, alive, rfl⟩
    refine ⟨other, Table.lt_next_of_get? there, ?_⟩
    simp only [different, there, alive, if_true, if_false]

/-- The steps of a subscriber. -/
inductive Transition (subscriber : Subscriber config) : SubscribeAction → Subscriber config → Prop
    where
  | subscribe (topics : List Utf8) (maxTopics : ℕ) :
      Transition subscriber (.subscribe topics maxTopics) { subscriber with
        subscribes := subscriber.subscribes.insert ⟨topics, maxTopics, 0, .attempting none⟩ }
  | attempt {id : ℕ} {subscribing : Subscribing} {call : Option ℕ} {next : Subscriber config}
      (found : subscriber.subscribes.get? id = some subscribing)
      (followed : subscriber.follow (.send .subscribe) = some next) :
      Transition subscriber (.attempt id)
        (next.setPhase id { subscribing with attempts := subscribing.attempts + 1 }
          (.attempting call))
  | acknowledged {id handle : ℕ} {contended : Bool} {subscribing : Subscribing} {pid : Pid}
      {next : Subscriber config} (found : subscriber.subscribes.get? id = some subscribing)
      (followed : subscriber.follow (.waitStatus handle contended) = some next) :
      Transition subscriber (.waitStatus id contended)
        (next.setPhase id subscribing (.acknowledged (next.ackedAt pid)))
  | notAcknowledged {id handle : ℕ} {contended : Bool} {next : Subscriber config}
      (followed : subscriber.follow (.waitStatus handle contended) = some next) :
      Transition subscriber (.waitStatus id contended) next
  | create {id ackedAt : ℕ} {subscribing : Subscribing}
      (found : subscriber.subscribes.get? id = some subscribing)
      (phase : subscribing.phase = .acknowledged ackedAt) :
      Transition subscriber (.create id) (subscriber.create id subscribing ackedAt)
  | unsubscribe {id owner : ℕ} {subscription : Subscription config} {next : Subscriber config}
      (found : subscriber.subscriptions.get? id = some subscription)
      (followed : subscriber.follow (.send .unsubscribe) = some next) :
      Transition subscriber (.unsubscribe id) (next.setOwner id subscription owner)
  | commitUnsubscribe {id handle : ℕ} {subscription : Subscription config}
      {next : Subscriber config} (found : subscriber.subscriptions.get? id = some subscription)
      (followed : subscriber.follow (.commit handle) = some next) :
      Transition subscriber (.commitUnsubscribe id)
        (next.queued id subscription.topics subscriber.inner)
  | finishUnsubscribe {id handle : ℕ} {contended : Bool} {next : Subscriber config}
      (followed : subscriber.follow (.waitStatus handle contended) = some next) :
      Transition subscriber (.finishUnsubscribe id contended) (next.remove id)
  | notFinishUnsubscribe {id handle : ℕ} {contended : Bool} {next : Subscriber config}
      (followed : subscriber.follow (.waitStatus handle contended) = some next) :
      Transition subscriber (.finishUnsubscribe id contended) next
  | drop {id : ℕ} {contended : Bool} {drop : SubscriptionDrop}
      {subscription : Subscription config} {next : Subscriber config}
      (found : subscriber.subscriptions.get? id = some subscription)
      (dropped : subscriber.drop id subscription contended drop = some next) :
      Transition subscriber (.drop id contended drop) next
  | other {action : Action} {next : Subscriber config}
      (followed : subscriber.follow action = some next) :
      Transition subscriber (.other action) next

/-- A subscription is dropped with or without an UNSUBSCRIBE. -/
theorem drop_cases {id : ℕ} {contended : Bool} {drop : SubscriptionDrop}
    {subscription : Subscription config}
    (dropped : subscriber.drop id subscription contended drop = some next) :
    ∃ middle, (middle = subscriber ∨
        ∃ handle, subscriber.follow (.drop handle contended) = some middle) ∧
      (next = middle.remove id ∨ ∃ last, middle.follow (.dropSubscription drop) = some last ∧
        next = (last.queued id subscription.topics middle.inner).remove id) := by
  unfold Subscriber.drop at dropped
  rcases Option.bind_eq_some_iff.mp dropped with ⟨middle, first, rest⟩
  refine ⟨middle, ?_, ?_⟩
  · unfold dropOwner at first
    split at first
    · rename_i handle owned
      exact .inr ⟨handle, first⟩
    · exact .inl (Option.some.inj first).symm
  · split at rest
    · exact .inl (Option.some.inj rest).symm
    · rcases Option.map_eq_some_iff.mp rest with ⟨last, followed, rfl⟩
      exact .inr ⟨last, followed, rfl⟩

theorem transition_of_subscribeStep {action : SubscribeAction}
    (stepped : subscribeStep subscriber action = some next) :
    subscriber.Transition action next := by
  cases action with
  | subscribe topics maxTopics =>
      rcases Option.some.inj stepped with rfl
      exact .subscribe topics maxTopics
  | attempt id =>
      rcases Option.bind_eq_some_iff.mp stepped with ⟨subscribing, found, rest⟩
      split at rest
      · split at rest
        · rcases Option.map_eq_some_iff.mp rest with ⟨after, followed, rfl⟩
          exact .attempt found followed
        · simp at rest
      · simp at rest
  | waitStatus id contended =>
      rcases Option.bind_eq_some_iff.mp stepped with ⟨subscribing, found, rest⟩
      split at rest
      · rcases Option.bind_eq_some_iff.mp rest with ⟨call, live, rest⟩
        rcases Option.map_eq_some_iff.mp rest with ⟨after, followed, rfl⟩
        split
        · exact .acknowledged found followed
        · exact .notAcknowledged followed
      · simp at rest
  | create id =>
      rcases Option.bind_eq_some_iff.mp stepped with ⟨subscribing, found, rest⟩
      split at rest
      · rename_i ackedAt phase
        simp only [Option.ite_none_left_eq_some, Option.some.injEq] at rest
        rcases rest with ⟨_, rfl⟩
        exact .create found phase
      · simp at rest
  | unsubscribe id =>
      rcases Option.bind_eq_some_iff.mp stepped with ⟨subscription, found, rest⟩
      simp only [Option.ite_none_right_eq_some, Option.map_eq_some_iff] at rest
      rcases rest with ⟨_, after, followed, rfl⟩
      exact .unsubscribe found followed
  | commitUnsubscribe id =>
      rcases Option.bind_eq_some_iff.mp stepped with ⟨subscription, found, rest⟩
      rcases Option.bind_eq_some_iff.mp rest with ⟨handle, _, rest⟩
      rcases Option.map_eq_some_iff.mp rest with ⟨after, followed, rfl⟩
      exact .commitUnsubscribe found followed
  | finishUnsubscribe id contended =>
      rcases Option.bind_eq_some_iff.mp stepped with ⟨subscription, found, rest⟩
      rcases Option.bind_eq_some_iff.mp rest with ⟨handle, _, rest⟩
      rcases Option.map_eq_some_iff.mp rest with ⟨after, followed, rfl⟩
      split
      · exact .finishUnsubscribe followed
      · exact .notFinishUnsubscribe followed
  | drop id contended drop =>
      rcases Option.bind_eq_some_iff.mp stepped with ⟨subscription, found, rest⟩
      exact .drop found rest
  | other action =>
      simp only [subscribeStep, Option.ite_none_right_eq_some] at stepped
      exact .other stepped.2

end Subscriber

/-- A subscribe to one topic whose first attempt is acknowledged, up to the snapshot. Its number is
also that of the attempt, and the identifier is that of the attempt. -/
def subscribed (id : ℕ) (pid : Pid) (topic : Utf8) : List SubscribeAction :=
  [.subscribe [topic] 1, .attempt id, .other (.lock id), .other (.grant id (.ok ())),
    .other (.commit id), .other .read, .other .written, .other .flushed, .other .transmitted,
    .other (.waitTx id), .other (.receive (.subAck ⟨pid, some [], [0]⟩) .copied),
    .waitStatus id false]

end Mqttrust.System
