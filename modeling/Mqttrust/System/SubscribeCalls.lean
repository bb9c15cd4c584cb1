import Mqttrust.Encoding.LackOfSpace
import Mqttrust.System.Attribution
import Mqttrust.System.Outbound
import Mqttrust.System.Subscription

/-!
# When subscribe validates its topics

`MqttClient::subscribe` collects its topic filters after its SUBSCRIBE has been
acknowledged. A topic that is no topic filter makes it fail when the packet was sent
long ago, and a topic too many for the `Subscription` makes it panic. It also panics
when its packet is encoded, where the packet is larger than its `max_packet_size` and
the grant ends in front of a write that is not checked.

The calls of `subscribe` are those of a subscriber, together with their packets. It is
recorded which attempts they have made, whose frames were queued and which calls have
returned an error of `TopicFilter::new`. No operation reads the record.
-/

namespace Mqttrust.System

variable {config : CrateConfig}

/-- A subscriber whose calls of `subscribe` have their packets. -/
structure SubscribeCalls (config : CrateConfig) where
  subscriber : Subscriber config
  /-- The packets, under the numbers of the calls of `subscribe`. -/
  packets : Table Subscribe
  /-- A call of `subscribe` has panicked. -/
  panicked : Bool
  /-- The attempts: a call of `subscribe` and its call of `send`. -/
  attempts : List (ℕ × ℕ)
  /-- The calls of `send` whose frames were queued. -/
  queued : List ℕ
  /-- The calls of `subscribe` that have returned an error of `TopicFilter::new`. -/
  rejected : List ℕ

/-- What happens to calls of `subscribe`. -/
inductive SubscribeCallAction where
  /-- `subscribe` is called and gets its subscriber of the RX channel. -/
  | subscribe (packet : Subscribe) (maxTopics : ℕ)
  /-- The next attempt of a subscribe begins. -/
  | attempt (subscribe : ℕ)
  /-- `grant_async` of an attempt returns, with a buffer or without, and the packet is encoded. -/
  | grant (subscribe : ℕ) (buf : Option (List UInt8))
  /-- A subscribe collects its topic filters and returns. -/
  | create (subscribe : ℕ)
  /-- Any other action of the subscriber. -/
  | other (action : SubscribeAction)

/-- The calls of `send` whose frames a step has queued. -/
def World.committed (before after : World config) : List ℕ :=
  (after.frames.drop before.frames.length).filterMap Frame.call?

/-- Whether the action is not one that a call of `subscribe` takes with its packet. -/
def Subscriber.isOther (subscriber : Subscriber config) : SubscribeAction → Bool
  | .subscribe _ _ | .attempt _ | .create _ => false
  | .other (.grant handle _) =>
      (subscriber.inner.calls.get? handle).all fun call => call.packet != .subscribe
  | _ => true

namespace SubscribeCalls

/-- A new client that is not connected. -/
def new (config : CrateConfig) : SubscribeCalls config where
  subscriber := Subscriber.new config
  packets := .empty
  panicked := false
  attempts := []
  queued := []
  rejected := []

variable (calls : SubscribeCalls config)

/-- An action of the subscriber. -/
def follow (action : SubscribeAction) : Option (SubscribeCalls config) :=
  (subscribeStep calls.subscriber action).map fun subscriber =>
    { calls with
      subscriber := subscriber
      queued := calls.subscriber.inner.committed subscriber.inner ++ calls.queued }

/-- The call panics. -/
def panics : SubscribeCalls config := { calls with panicked := true }

/-- `subscribe` is called. The bound of `MAX_TOPICS` is checked when the program is compiled. -/
def subscribe (packet : Subscribe) (maxTopics : ℕ) : Option (SubscribeCalls config) :=
  if maxTopics ≤ config.maxSubTopicsPerMsg then
    (calls.follow (.subscribe (packet.topics.map SubscribeTopic.topicPath) maxTopics)).map
      fun next => { next with packets := calls.packets.insert packet }
  else none

/-- An attempt begins. -/
def attempt (id : ℕ) : Option (SubscribeCalls config) :=
  (calls.follow (.attempt id)).map fun next =>
    { next with attempts := (id, calls.subscriber.inner.calls.next) :: calls.attempts }

/-- The call of `send` of a subscribe that waits for its grant. -/
def granting? (id : ℕ) : Option (ℕ × Call) := do
  let subscribing ← calls.subscriber.subscribes.get? id
  match subscribing.phase with
  | .attempting (some handle) => do
      let call ← calls.subscriber.inner.calls.get? handle
      if call.phase = .publishing then some (handle, call) else none
  | _ => none

/-- `send` goes on with its grant, for which it has asked with the size of the packet. -/
def grant (id : ℕ) (buf : Option (List UInt8)) : Option (SubscribeCalls config) := do
  let (handle, call) ← calls.granting? id
  let packet ← calls.packets.get? id
  match packet.maxPacketSize config, buf with
  | none, _ => some calls.panics
  | some _, none => calls.follow (.other (.grant handle (.error .overflow)))
  | some size, some buf =>
      if buf.length = size then
        match MqttEncode.toBuffer config { packet with pid := some call.pid }
          (MqttEncoder.new buf) with
        | .ok () _ => calls.follow (.other (.grant handle (.ok ())))
        | .error (.error _) _ => calls.follow (.other (.grant handle (.error .encoding)))
        | .error .panic _ => some calls.panics
      else none

/-- The subscribe that collects its topic filters. -/
def collecting? (id : ℕ) : Option Subscribing := do
  let subscribing ← calls.subscriber.subscribes.get? id
  match subscribing.phase with
  | .acknowledged _ => some subscribing
  | _ => none

/-- The end of `subscribe`. -/
def create (id : ℕ) : Option (SubscribeCalls config) := do
  let subscribing ← calls.collecting? id
  match (TopicFilter.collect subscribing.maxTopics subscribing.topics : Collected config) with
  | .filters _ => calls.follow (.create id)
  | .failed _ =>
      (calls.follow (.create id)).map fun next => { next with rejected := id :: calls.rejected }
  | .panicked => some calls.panics

/-- A SUBSCRIBE of the call was queued. -/
def Queued (id : ℕ) : Prop := ∃ handle, (id, handle) ∈ calls.attempts ∧ handle ∈ calls.queued

/-- No call of `subscribe` has panicked, and none that has returned an error of `TopicFilter::new`
has queued its packet. -/
structure Validates : Prop where
  running : calls.panicked = false
  rejected : ∀ id ∈ calls.rejected, ¬ calls.Queued id

/-- The condition on an action: a packet that is encoded has a size and fits, or the first field of
it that does not is checked; topics that are collected are topic filters, no more than
`MAX_TOPICS`. -/
def Acceptable : SubscribeCallAction → Prop
  | .grant id buf => ∀ handle call packet, calls.granting? id = some (handle, call) →
      calls.packets.get? id = some packet → packet.maxPacketSize config ≠ none ∧
        ∀ bytes ∈ buf, (EncodablePacket.subscribe { packet with pid := some call.pid }).SpaceGuarded
          config bytes
  | .create id => ∀ subscribing, calls.collecting? id = some subscribing →
      subscribing.topics.length ≤ subscribing.maxTopics ∧
        ∀ topic ∈ subscribing.topics, ∃ filter : TopicFilter config, TopicFilter.new topic = .ok filter
  | _ => True

end SubscribeCalls

/-- One action of calls of `subscribe`, unless one has panicked. -/
def subscribeCallsStep (calls : SubscribeCalls config) (action : SubscribeCallAction) :
    Option (SubscribeCalls config) :=
  if calls.panicked then none
  else
    match action with
    | .subscribe packet maxTopics => calls.subscribe packet maxTopics
    | .attempt id => calls.attempt id
    | .grant id buf => calls.grant id buf
    | .create id => calls.create id
    | .other action => if calls.subscriber.isOther action then calls.follow action else none

section Waiting

variable {world next : World config} {action : Action}

/-- A call that waits has waited before, or its frame has just been queued. -/
theorem World.waiting_of_step (stepped : step world action = some next) {handle : ℕ} {call : Call}
    (live : next.calls.get? handle = some call) (waiting : call.isWaiting = true) :
    (∃ old, world.calls.get? handle = some old ∧ old.isWaiting = true) ∨
      handle ∈ world.committed next := by
  have transition := (transition_of_step stepped).2
  by_cases isCommit : ∃ committing, action = .commit committing
  · rcases isCommit with ⟨committing, rfl⟩
    cases transition with
    | commit found phase =>
        unfold World.commit at live ⊢
        split at live
        · rename_i shared registered
          dsimp only [World.setPhase] at live
          rw [Table.get?_replace found] at live
          split at live
          · rename_i same
            subst same
            right
            simp [World.committed, Frame.call?]
          · exact .inl ⟨call, live, waiting⟩
        · dsimp only [World.setPhase] at live
          rw [Table.get?_replace found] at live
          split at live
          · rcases Option.some.inj live with rfl
            simp [Call.isWaiting] at waiting
          · exact .inl ⟨call, live, waiting⟩
        · exact .inl ⟨call, live, waiting⟩
  · have notCommit : ∀ committing, action ≠ .commit committing := by
      rintro committing rfl
      exact isCommit ⟨committing, rfl⟩
    rcases transition.waitedBefore notCommit handle call live waiting with ⟨old, found, before, _⟩
    exact .inl ⟨old, found, before⟩

end Waiting

namespace Subscriber

variable {subscriber next : Subscriber config} {action : SubscribeAction}

theorem waiting_of_follow {action : Action} (followed : subscriber.follow action = some next)
    {handle : ℕ} {call : Call} (live : next.inner.calls.get? handle = some call)
    (waiting : call.isWaiting = true) :
    (∃ old, subscriber.inner.calls.get? handle = some old ∧ old.isWaiting = true) ∨
      handle ∈ subscriber.inner.committed next.inner := by
  rcases Option.map_eq_some_iff.mp followed with ⟨inner, stepped, rfl⟩
  exact World.waiting_of_step stepped live waiting

/-- Nothing but a commit makes a call wait. -/
theorem waitedBefore_of_follow {action : Action} (followed : subscriber.follow action = some next)
    (notCommit : ∀ handle, action ≠ .commit handle) {handle : ℕ} {call : Call}
    (live : next.inner.calls.get? handle = some call) (waiting : call.isWaiting = true) :
    ∃ old, subscriber.inner.calls.get? handle = some old ∧ old.isWaiting = true := by
  rcases Option.map_eq_some_iff.mp followed with ⟨inner, stepped, rfl⟩
  rcases (transition_of_step stepped).2.waitedBefore notCommit handle call live waiting with
    ⟨old, found, before, _⟩
  exact ⟨old, found, before⟩

theorem inner_queued (id : ℕ) (topics : List Utf8) (before : World config) :
    (subscriber.queued id topics before).inner = subscriber.inner := by
  unfold queued
  split <;> rfl

theorem inner_create (id ackedAt : ℕ) (subscribing : Subscribing) :
    (subscriber.create id subscribing ackedAt).inner = subscriber.inner := by
  unfold create
  dsimp only
  split <;> rfl

theorem subscribes_queued (id : ℕ) (topics : List Utf8) (before : World config) :
    (subscriber.queued id topics before).subscribes = subscriber.subscribes := by
  unfold queued
  split <;> rfl

/-- The calls of `subscribe` stay as they are, unless one of them goes on. -/
theorem subscribes_of_isOther (isOther : subscriber.isOther action = true)
    (notWait : ∀ id contended, action ≠ .waitStatus id contended)
    (stepped : subscribeStep subscriber action = some next) :
    next.subscribes = subscriber.subscribes := by
  cases transition_of_subscribeStep stepped with
  | subscribe | attempt | create => simp [Subscriber.isOther] at isOther
  | @acknowledged id _ contended | @notAcknowledged id _ contended =>
      exact absurd rfl (notWait id contended)
  | unsubscribe _ followed => exact (follows followed).subscribes
  | commitUnsubscribe _ followed =>
      rw [subscribes_queued]
      exact (follows followed).subscribes
  | finishUnsubscribe followed => exact (follows followed).subscribes
  | notFinishUnsubscribe followed => exact (follows followed).subscribes
  | drop _ dropped =>
      rcases drop_cases dropped with ⟨middle, first, last⟩
      have before : middle.subscribes = subscriber.subscribes := by
        rcases first with rfl | ⟨owner, followed⟩
        · rfl
        · exact (follows followed).subscribes
      rcases last with rfl | ⟨last, followed, rfl⟩
      · exact before
      · dsimp only [remove]
        rw [subscribes_queued]
        exact (follows followed).subscribes.trans before
  | other followed => exact (follows followed).subscribes

/-- A call that waits has waited before, or its frame has just been queued. -/
theorem waiting_of_step (stepped : subscribeStep subscriber action = some next) {handle : ℕ}
    {call : Call} (live : next.inner.calls.get? handle = some call)
    (waiting : call.isWaiting = true) :
    (∃ old, subscriber.inner.calls.get? handle = some old ∧ old.isWaiting = true) ∨
      handle ∈ subscriber.inner.committed next.inner := by
  cases transition_of_subscribeStep stepped with
  | subscribe => exact .inl ⟨call, live, waiting⟩
  | attempt _ followed => exact waiting_of_follow followed live waiting
  | acknowledged _ followed => exact waiting_of_follow followed live waiting
  | notAcknowledged followed => exact waiting_of_follow followed live waiting
  | create =>
      rw [inner_create] at live
      exact .inl ⟨call, live, waiting⟩
  | unsubscribe _ followed => exact waiting_of_follow followed live waiting
  | commitUnsubscribe _ followed =>
      rw [inner_queued] at live ⊢
      exact waiting_of_follow followed live waiting
  | finishUnsubscribe followed => exact waiting_of_follow followed live waiting
  | notFinishUnsubscribe followed => exact waiting_of_follow followed live waiting
  | drop _ dropped =>
      left
      rcases drop_cases dropped with ⟨middle, first, last⟩
      have middleWaits : ∃ old, middle.inner.calls.get? handle = some old ∧
          old.isWaiting = true := by
        rcases last with rfl | ⟨last, followed, rfl⟩
        · exact ⟨call, live, waiting⟩
        · dsimp only [remove] at live
          rw [inner_queued] at live
          exact waitedBefore_of_follow followed (by simp) live waiting
      rcases middleWaits with ⟨old, found, before⟩
      rcases first with rfl | ⟨owner, followed⟩
      · exact ⟨old, found, before⟩
      · exact waitedBefore_of_follow followed (by simp) found before
  | other followed => exact waiting_of_follow followed live waiting

end Subscriber

namespace SubscribeCalls

variable {calls next : SubscribeCalls config} {action : SubscribeAction}

/-- What is known of a call of `subscribe` in some phase. -/
def Accounts (calls : SubscribeCalls config) (id : ℕ) : SubscribePhase → Prop
  | .attempting (some handle) => (id, handle) ∈ calls.attempts
  | .acknowledged _ => calls.Queued id
  | .attempting none | .over => True

/-- The frame of a call that waits was queued, and so was one of every call of `subscribe` that was
acknowledged or has rejected a topic filter. -/
structure Sound (calls : SubscribeCalls config) : Prop where
  waiting : ∀ handle call, calls.subscriber.inner.calls.get? handle = some call →
    call.isWaiting = true → handle ∈ calls.queued
  entries : ∀ id subscribing, calls.subscriber.subscribes.get? id = some subscribing →
    calls.Accounts id subscribing.phase
  rejected : ∀ id ∈ calls.rejected, calls.Queued id

/-- The record has only grown. -/
structure Grows (calls next : SubscribeCalls config) : Prop where
  attempts : calls.attempts ⊆ next.attempts
  queued : calls.queued ⊆ next.queued

theorem Grows.mono (grows : calls.Grows next) {id : ℕ} (queued : calls.Queued id) :
    next.Queued id := by
  rcases queued with ⟨handle, attempted, committed⟩
  exact ⟨handle, grows.attempts attempted, grows.queued committed⟩

theorem Grows.accounts (grows : calls.Grows next) {id : ℕ} {phase : SubscribePhase}
    (accounts : calls.Accounts id phase) : next.Accounts id phase := by
  cases phase with
  | attempting call =>
      cases call with
      | none => trivial
      | some handle => exact grows.attempts accounts
  | acknowledged => exact grows.mono accounts
  | _ => trivial

theorem Sound.new (config : CrateConfig) : (SubscribeCalls.new config).Sound where
  waiting := by simp [SubscribeCalls.new, Subscriber.new, World.new]
  entries := by simp [SubscribeCalls.new, Subscriber.new]
  rejected := by simp [SubscribeCalls.new]

/-- What the record says of the calls that wait is so after an action of the subscriber, too. -/
theorem Sound.waiting_of_follow (sound : calls.Sound) (followed : calls.follow action = some next)
    {handle : ℕ} {call : Call} (live : next.subscriber.inner.calls.get? handle = some call)
    (waiting : call.isWaiting = true) : handle ∈ next.queued := by
  rcases Option.map_eq_some_iff.mp followed with ⟨subscriber, stepped, rfl⟩
  apply List.mem_append.mpr
  rcases Subscriber.waiting_of_step stepped live waiting with ⟨old, found, before⟩ | committed
  · exact .inr (sound.waiting handle old found before)
  · exact .inl committed

theorem grows_of_follow (followed : calls.follow action = some next) : calls.Grows next := by
  rcases Option.map_eq_some_iff.mp followed with ⟨subscriber, stepped, rfl⟩
  exact ⟨List.Subset.refl _, List.subset_append_right _ _⟩

/-- An action of the subscriber keeps the record sound when the calls of `subscribe` that it changes
are accounted for. -/
theorem Sound.of_follow {middle : SubscribeCalls config} (sound : calls.Sound)
    (followed : calls.follow action = some middle)
    (subscriber : next.subscriber = middle.subscriber) (queued : next.queued = middle.queued)
    (attempts : calls.attempts ⊆ next.attempts)
    (rejected : ∀ id ∈ next.rejected, id ∈ calls.rejected ∨ next.Queued id)
    (entries : ∀ id subscribing, middle.subscriber.subscribes.get? id = some subscribing →
      calls.subscriber.subscribes.get? id = some subscribing ∨
        next.Accounts id subscribing.phase) : next.Sound := by
  have grows : calls.Grows next := ⟨attempts, queued ▸ (grows_of_follow followed).queued⟩
  refine ⟨?_, ?_, ?_⟩
  · intro handle call live waiting
    rw [subscriber] at live
    rw [queued]
    exact sound.waiting_of_follow followed live waiting
  · intro id subscribing found
    rw [subscriber] at found
    rcases entries id subscribing found with old | accounts
    · exact grows.accounts (sound.entries id subscribing old)
    · exact accounts
  · intro id listed
    rcases rejected id listed with old | now
    · exact grows.mono (sound.rejected id old)
    · exact now

theorem attempts_of_follow (followed : calls.follow action = some next) :
    next.attempts = calls.attempts ∧ next.rejected = calls.rejected ∧
      next.panicked = calls.panicked := by
  rcases Option.map_eq_some_iff.mp followed with ⟨subscriber, stepped, rfl⟩
  exact ⟨rfl, rfl, rfl⟩

/-- The record stays sound when the calls of `subscribe` stay as they are, or are accounted for. -/
theorem Sound.follow (sound : calls.Sound) (followed : calls.follow action = some next)
    (entries : ∀ id subscribing, next.subscriber.subscribes.get? id = some subscribing →
      calls.subscriber.subscribes.get? id = some subscribing ∨
        next.Accounts id subscribing.phase) : next.Sound := by
  rcases attempts_of_follow followed with ⟨attempts, rejected, _⟩
  apply sound.of_follow followed rfl rfl _ _ entries
  · rw [attempts]
    exact List.Subset.refl _
  · intro id listed
    exact .inl (rejected ▸ listed)

theorem Sound.subscribe (sound : calls.Sound) {packet : Subscribe} {maxTopics : ℕ}
    (stepped : calls.subscribe packet maxTopics = some next) : next.Sound := by
  simp only [SubscribeCalls.subscribe, Option.ite_none_right_eq_some,
    Option.map_eq_some_iff] at stepped
  rcases stepped with ⟨_, middle, followed, rfl⟩
  rcases attempts_of_follow followed with ⟨attempts, rejected, _⟩
  refine sound.of_follow followed rfl rfl ?_ ?_ ?_
  · dsimp only
    rw [attempts]
    exact List.Subset.refl _
  · intro id listed
    exact .inl (rejected ▸ listed)
  · intro id subscribing found
    rcases Option.map_eq_some_iff.mp followed with ⟨subscriber, stepped, rfl⟩
    rcases Option.some.inj stepped with rfl
    dsimp only at found
    rw [Table.get?_insert] at found
    split at found
    · rcases Option.some.inj found with rfl
      exact .inr trivial
    · exact .inl found

theorem Sound.attempt (sound : calls.Sound) {id : ℕ} (stepped : calls.attempt id = some next) :
    next.Sound := by
  rcases Option.map_eq_some_iff.mp stepped with ⟨middle, followed, rfl⟩
  rcases attempts_of_follow followed with ⟨_, rejected, _⟩
  refine sound.of_follow followed rfl rfl ?_ ?_ ?_
  · exact List.subset_cons_self _ _
  · intro other listed
    exact .inl (rejected ▸ listed)
  · intro other subscribing found
    rcases Option.map_eq_some_iff.mp followed with ⟨subscriber, went, rfl⟩
    simp only [subscribeStep, Option.bind_eq_bind, Option.bind_eq_some_iff] at went
    rcases went with ⟨old, oldFound, went⟩
    split at went
    · simp only [Option.ite_none_right_eq_some, Option.map_eq_some_iff] at went
      rcases went with ⟨_, after, sent, rfl⟩
      dsimp only [Subscriber.setPhase] at found
      rw [(Subscriber.follows sent).subscribes, Table.get?_replace oldFound] at found
      split at found
      · rename_i same
        rcases Option.some.inj found with rfl
        subst same
        exact .inr List.mem_cons_self
      · exact .inl found
    · simp at went

/-- The end of `subscribe` is the end of the call. -/
theorem subscribes_of_create {id : ℕ} (followed : calls.follow (.create id) = some next) {other : ℕ}
    {subscribing : Subscribing}
    (found : next.subscriber.subscribes.get? other = some subscribing) :
    calls.subscriber.subscribes.get? other = some subscribing ∨ subscribing.phase = .over := by
  rcases Option.map_eq_some_iff.mp followed with ⟨subscriber, stepped, rfl⟩
  simp only [subscribeStep, Option.bind_eq_bind, Option.bind_eq_some_iff] at stepped
  rcases stepped with ⟨old, oldFound, stepped⟩
  split at stepped
  · rename_i ackedAt phase
    simp only [Option.ite_none_left_eq_some, Option.some.injEq] at stepped
    rcases stepped with ⟨_, rfl⟩
    have subscribes : (calls.subscriber.create id old ackedAt).subscribes =
        calls.subscriber.subscribes.replace id { old with phase := .over } := by
      unfold Subscriber.create
      dsimp only
      split <;> rfl
    dsimp only at found
    rw [subscribes, Table.get?_replace oldFound] at found
    split at found
    · rcases Option.some.inj found with rfl
      exact .inr rfl
    · exact .inl found
  · simp at stepped

theorem exists_of_collecting? {id : ℕ} {subscribing : Subscribing}
    (collects : calls.collecting? id = some subscribing) :
    ∃ ackedAt, calls.subscriber.subscribes.get? id = some subscribing ∧
      subscribing.phase = .acknowledged ackedAt := by
  rcases Option.bind_eq_some_iff.mp collects with ⟨found, there, collects⟩
  split at collects
  · rename_i ackedAt phase
    rcases Option.some.inj collects with rfl
    exact ⟨ackedAt, there, phase⟩
  · simp at collects

/-- A call that collects its topic filters has queued its packet. -/
theorem Sound.queued (sound : calls.Sound) {id : ℕ} {subscribing : Subscribing}
    (collects : calls.collecting? id = some subscribing) : calls.Queued id := by
  rcases exists_of_collecting? collects with ⟨ackedAt, found, phase⟩
  have accounts := sound.entries id subscribing found
  rw [phase] at accounts
  exact accounts

theorem Sound.panics (sound : calls.Sound) : calls.panics.Sound :=
  ⟨sound.waiting, sound.entries, sound.rejected⟩

theorem Sound.create (sound : calls.Sound) {id : ℕ} (stepped : calls.create id = some next) :
    next.Sound := by
  rcases Option.bind_eq_some_iff.mp stepped with ⟨subscribing, collects, stepped⟩
  have ended : ∀ {middle : SubscribeCalls config} {accounted : SubscribeCalls config},
      calls.follow (.create id) = some middle → ∀ other entry,
        middle.subscriber.subscribes.get? other = some entry →
          calls.subscriber.subscribes.get? other = some entry ∨
            accounted.Accounts other entry.phase := by
    intro middle accounted followed other entry found
    rcases subscribes_of_create followed found with old | isOver
    · exact .inl old
    · rw [isOver]
      exact .inr trivial
  split at stepped
  · exact sound.follow stepped (ended stepped)
  · rcases Option.map_eq_some_iff.mp stepped with ⟨middle, followed, rfl⟩
    have attempts := (attempts_of_follow followed).1
    refine sound.of_follow followed rfl rfl ?_ ?_ (ended followed)
    · dsimp only
      rw [attempts]
      exact List.Subset.refl _
    · intro other listed
      rcases List.mem_cons.mp listed with rfl | old
      · exact .inr ((grows_of_follow followed).mono (sound.queued collects))
      · exact .inl old
  · rcases Option.some.inj stepped with rfl
    exact sound.panics

/-- An attempt that is acknowledged has waited, so its packet was queued. -/
theorem Sound.waitStatus (sound : calls.Sound) {id : ℕ} {contended : Bool}
    (followed : calls.follow (.waitStatus id contended) = some next) : next.Sound := by
  have grows := grows_of_follow followed
  apply sound.follow followed
  intro other subscribing found
  rcases Option.map_eq_some_iff.mp followed with ⟨subscriber, went, rfl⟩
  simp only [subscribeStep, Option.bind_eq_bind, Option.bind_eq_some_iff] at went
  rcases went with ⟨old, oldFound, went⟩
  split at went
  · rename_i handle phase
    simp only [Option.bind_eq_some_iff, Option.map_eq_some_iff] at went
    rcases went with ⟨call, live, after, waited, rfl⟩
    have same := (Subscriber.follows waited).subscribes
    have queued : calls.Queued id := by
      have attempted := sound.entries id old oldFound
      rw [phase] at attempted
      rcases Option.map_eq_some_iff.mp waited with ⟨inner, stepped, _⟩
      cases (transition_of_step stepped).2 with
      | waitStatus _ found transmitted =>
          refine ⟨handle, attempted, sound.waiting handle _ found ?_⟩
          simp [Call.isWaiting, transmitted]
    dsimp only at found
    split at found
    · dsimp only [Subscriber.setPhase] at found
      rw [same, Table.get?_replace oldFound] at found
      split at found
      · rename_i isId
        rcases Option.some.inj found with rfl
        subst isId
        exact .inr (grows.mono queued)
      · exact .inl found
    · exact .inl (same ▸ found)
  · simp at went

/-- The other actions of the subscriber leave the calls of `subscribe` alone, unless one is
acknowledged. -/
theorem Sound.other (sound : calls.Sound) (isOther : calls.subscriber.isOther action = true)
    (followed : calls.follow action = some next) : next.Sound := by
  by_cases isWait : ∃ id contended, action = .waitStatus id contended
  · rcases isWait with ⟨id, contended, rfl⟩
    exact sound.waitStatus followed
  · apply sound.follow followed
    intro id subscribing found
    rcases Option.map_eq_some_iff.mp followed with ⟨subscriber, stepped, rfl⟩
    left
    rwa [Subscriber.subscribes_of_isOther isOther (fun id contended isIt =>
      isWait ⟨id, contended, isIt⟩) stepped] at found

theorem Sound.grant (sound : calls.Sound) {id : ℕ} {buf : Option (List UInt8)}
    (stepped : calls.grant id buf = some next) : next.Sound := by
  have granted : ∀ {handle : ℕ} {result : Except Error Unit} {after : SubscribeCalls config},
      calls.follow (.other (.grant handle result)) = some after → after.Sound := by
    intro handle result after followed
    apply sound.follow followed
    intro id subscribing found
    rcases Option.map_eq_some_iff.mp followed with ⟨subscriber, went, rfl⟩
    simp only [subscribeStep, Option.ite_none_right_eq_some] at went
    exact .inl ((Subscriber.follows went.2).subscribes ▸ found)
  simp only [SubscribeCalls.grant, Option.bind_eq_bind, Option.bind_eq_some_iff] at stepped
  rcases stepped with ⟨⟨handle, call⟩, grants, packet, _, stepped⟩
  split at stepped
  · rcases Option.some.inj stepped with rfl
    exact sound.panics
  · exact granted stepped
  · split at stepped
    · split at stepped
      · exact granted stepped
      · exact granted stepped
      · rcases Option.some.inj stepped with rfl
        exact sound.panics
    · simp at stepped

theorem Sound.step (sound : calls.Sound) {action : SubscribeCallAction}
    (stepped : subscribeCallsStep calls action = some next) : next.Sound := by
  simp only [subscribeCallsStep, Option.ite_none_left_eq_some] at stepped
  rcases stepped with ⟨_, stepped⟩
  cases action with
  | subscribe packet maxTopics => exact sound.subscribe stepped
  | attempt id => exact sound.attempt stepped
  | grant id buf => exact sound.grant stepped
  | create id => exact sound.create stepped
  | other action =>
      simp only [Option.ite_none_right_eq_some] at stepped
      exact sound.other stepped.1 stepped.2

/-- A call that rejects a topic filter has queued its packet. -/
theorem Sound.validates_iff (sound : calls.Sound) :
    calls.Validates ↔ calls.panicked = false ∧ calls.rejected = [] := by
  constructor
  · intro validates
    refine ⟨validates.running, ?_⟩
    apply List.eq_nil_iff_forall_not_mem.mpr
    intro id listed
    exact validates.rejected id listed (sound.rejected id listed)
  · rintro ⟨running, nothing⟩
    refine ⟨running, ?_⟩
    intro id listed
    simp [nothing] at listed

theorem header_of_maxPacketSize {packet : Subscribe} {size : ℕ}
    (sized : packet.maxPacketSize config = some size) : maxMqttHeaderLen ≤ size := by
  rcases Option.bind_eq_some_iff.mp sized with ⟨properties, _, sized⟩
  rcases Option.some.inj sized with rfl
  omega

/-- The packet of an attempt that is granted a buffer of its size. -/
theorem panics_grant_iff {packet : Subscribe} {size : ℕ} {buf : List UInt8} (pid : Pid)
    (sized : packet.maxPacketSize config = some size) (length : buf.length = size) :
    Encode.Panics (MqttEncode.toBuffer config { packet with pid := some pid })
        (MqttEncoder.new buf) ↔
      ¬ (EncodablePacket.subscribe { packet with pid := some pid }).SpaceGuarded config buf := by
  apply EncodablePacket.panics_subscribe_iff
  · rw [length]
    exact header_of_maxPacketSize sized
  · rfl

/-- What an action comes to that meets the condition: no call panics, and none rejects a topic
filter. -/
theorem unchanged_of_acceptable {action : SubscribeCallAction} (acceptable : calls.Acceptable action)
    (stepped : subscribeCallsStep calls action = some next) :
    next.panicked = calls.panicked ∧ next.rejected = calls.rejected := by
  have followed : ∀ {action : SubscribeAction} {after : SubscribeCalls config},
      calls.follow action = some after →
        after.panicked = calls.panicked ∧ after.rejected = calls.rejected := by
    intro action after followed
    rcases attempts_of_follow followed with ⟨_, rejected, panicked⟩
    exact ⟨panicked, rejected⟩
  simp only [subscribeCallsStep, Option.ite_none_left_eq_some] at stepped
  rcases stepped with ⟨_, stepped⟩
  cases action with
  | subscribe packet maxTopics =>
      simp only [SubscribeCalls.subscribe, Option.ite_none_right_eq_some,
        Option.map_eq_some_iff] at stepped
      rcases stepped with ⟨_, middle, went, rfl⟩
      have same := followed went
      exact same
  | attempt id =>
      rcases Option.map_eq_some_iff.mp stepped with ⟨middle, went, rfl⟩
      have same := followed went
      exact same
  | grant id buf =>
      simp only [SubscribeCalls.grant, Option.bind_eq_bind, Option.bind_eq_some_iff] at stepped
      rcases stepped with ⟨⟨handle, call⟩, grants, packet, found, stepped⟩
      rcases acceptable handle call packet grants found with ⟨hasSize, guarded⟩
      split at stepped
      · rename_i noSize
        exact absurd noSize hasSize
      · exact followed stepped
      · rename_i size bytes sized
        split at stepped
        · rename_i length
          split at stepped
          · exact followed stepped
          · exact followed stepped
          · rename_i encoder panicked
            have panics := (panics_grant_iff call.pid sized length).mp ⟨encoder, panicked⟩
            exact absurd (guarded bytes rfl) panics
        · simp at stepped
  | create id =>
      rcases Option.bind_eq_some_iff.mp stepped with ⟨subscribing, collects, stepped⟩
      rcases TopicFilter.exists_collect_iff.mpr (acceptable subscribing collects) with
        ⟨filters, collected⟩
      rw [collected] at stepped
      exact followed stepped
  | other action =>
      simp only [Option.ite_none_right_eq_some] at stepped
      exact followed stepped.2

/-- An action behind which no call has panicked or rejected a topic filter meets the condition. -/
theorem acceptable_of_clean {action : SubscribeCallAction}
    (stepped : subscribeCallsStep calls action = some next) (running : next.panicked = false)
    (nothing : next.rejected = []) : calls.Acceptable action := by
  simp only [subscribeCallsStep, Option.ite_none_left_eq_some] at stepped
  rcases stepped with ⟨_, stepped⟩
  cases action with
  | subscribe | attempt | other => trivial
  | grant id buf =>
      intro handle call packet grants found
      simp only [SubscribeCalls.grant, Option.bind_eq_bind, grants, found,
        Option.bind_some] at stepped
      split at stepped
      · rcases Option.some.inj stepped with rfl
        simp [SubscribeCalls.panics] at running
      · rename_i size sized
        exact ⟨by simp [sized], by simp⟩
      · rename_i size bytes sized
        refine ⟨by simp [sized], ?_⟩
        intro other same
        rcases Option.some.inj same with rfl
        split at stepped
        · rename_i length
          by_contra notGuarded
          rcases (panics_grant_iff call.pid sized length).mpr notGuarded with ⟨encoder, panicked⟩
          rw [panicked] at stepped
          rcases Option.some.inj stepped with rfl
          simp [SubscribeCalls.panics] at running
        · simp at stepped
  | create id =>
      intro subscribing collects
      apply TopicFilter.exists_collect_iff.mp
      simp only [SubscribeCalls.create, Option.bind_eq_bind, collects, Option.bind_some] at stepped
      split at stepped
      · rename_i filters collected
        exact ⟨filters, collected⟩
      · rcases Option.map_eq_some_iff.mp stepped with ⟨middle, _, rfl⟩
        simp at nothing
      · rcases Option.some.inj stepped with rfl
        simp [SubscribeCalls.panics] at running

end SubscribeCalls

/-- In every run, no call of `subscribe` panics or returns an error of `TopicFilter::new` behind a
queued SUBSCRIBE, if and only if every packet that is encoded has a size in which it fits or is
refused, and all topics that are collected are topic filters, no more than `MAX_TOPICS`. -/
theorem subscribe_validates_iff (config : CrateConfig) (actions : List SubscribeCallAction) :
    Execution.Always subscribeCallsStep SubscribeCalls.Validates (SubscribeCalls.new config)
        actions ↔
      Execution.Guarded subscribeCallsStep
        (fun calls action => subscribeCallsStep calls action ≠ none → calls.Acceptable action)
        (SubscribeCalls.new config) actions := by
  have initial := SubscribeCalls.Sound.new config
  apply Execution.always_iff_guarded (fun _ _ => True) SubscribeCalls.Sound
  · intro calls next action _ sound stepped
    exact sound.step stepped
  · intro calls next action _ sound validates guarded stepped
    rcases sound.validates_iff.mp validates with ⟨running, nothing⟩
    have acceptable := guarded (by simp [stepped])
    rcases SubscribeCalls.unchanged_of_acceptable acceptable stepped with ⟨panicked, rejected⟩
    exact (sound.step stepped).validates_iff.mpr ⟨panicked.trans running, rejected.trans nothing⟩
  · intro calls next action sound _ stepped validates _
    rcases (sound.step stepped).validates_iff.mp validates with ⟨running, nothing⟩
    exact SubscribeCalls.acceptable_of_clean stepped running nothing
  · intro calls action disabled possible
    exact absurd disabled possible
  · exact Execution.guarded_of_forall fun _ _ _ => trivial
  · exact initial
  · exact initial.validates_iff.mpr ⟨rfl, rfl⟩

/-- A SUBSCRIBE to some topics. -/
def subscribeTo (topics : List Utf8) : Subscribe where
  pid := none
  properties := .slice []
  topics := topics.map fun topic => ⟨topic, .atMostOnce, false, false, .sendAtSubscribeTime⟩

/-- A call of `subscribe` whose first attempt is granted a buffer and is acknowledged. -/
def subscribeOnce (topics : List Utf8) (maxTopics size : ℕ) : List SubscribeCallAction :=
  [.other (.other .connect), .other (.other (.connected false)),
    .subscribe (subscribeTo topics) maxTopics, .attempt 0, .other (.other (.lock 0)),
    .grant 0 (some (List.replicate size 0)), .other (.other (.commit 0)), .other (.other .read),
    .other (.other .written), .other (.other .flushed), .other (.other .transmitted),
    .other (.other (.waitTx 0)),
    .other (.other (.receive (.subAck ⟨⟨2, by decide, by decide⟩, some [], [0]⟩) .copied)),
    .other (.waitStatus 0 false), .create 0]

/-- The topic `a#b` is rejected behind its SUBSCRIBE, and two topics where there is room for one
make the call panic. -/
theorem not_subscribe_validates :
    ¬ Execution.Always subscribeCallsStep SubscribeCalls.Validates
        (SubscribeCalls.new (.default .mqttv5 true))
        (subscribeOnce [⟨[0x61, 0x23, 0x62], by decide⟩] 1 14) ∧
      ¬ Execution.Always subscribeCallsStep SubscribeCalls.Validates
        (SubscribeCalls.new (.default .mqttv5 true))
        (subscribeOnce [⟨[0x61], by decide⟩, ⟨[0x62], by decide⟩] 1 16) := by
  constructor
  · have recorded : (Execution.run subscribeCallsStep (SubscribeCalls.new (.default .mqttv5 true))
        (subscribeOnce [⟨[0x61, 0x23, 0x62], by decide⟩] 1 14)).map
        (fun calls => (calls.rejected, calls.attempts, calls.queued)) =
          some ([0], [(0, 0)], [0]) := by
      decide +kernel
    intro always
    rcases Option.map_eq_some_iff.mp recorded with ⟨calls, reached, recorded⟩
    simp only [Prod.mk.injEq] at recorded
    rcases recorded with ⟨rejected, attempts, queued⟩
    apply (always.of_run reached).rejected 0 (by simp [rejected])
    exact ⟨0, by simp [attempts], by simp [queued]⟩
  · have panicked : (Execution.run subscribeCallsStep (SubscribeCalls.new (.default .mqttv5 true))
        (subscribeOnce [⟨[0x61], by decide⟩, ⟨[0x62], by decide⟩] 1 16)).map
        SubscribeCalls.panicked = some true := by
      decide +kernel
    intro always
    rcases Option.map_eq_some_iff.mp panicked with ⟨calls, reached, panicked⟩
    have running := (always.of_run reached).running
    rw [panicked] at running
    simp at running

end Mqttrust.System
