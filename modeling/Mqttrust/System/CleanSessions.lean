import Mqttrust.System.Inflight
import Mqttrust.System.Subscription

/-!
# Noticing a clean session

A connection with a clean session means that the broker has forgotten the
subscriptions. `poll_next` compares two values of a counter of 8 bits, and the
first one is taken after the SUBACK was waited for, so a clean session is not
noticed when it comes before the snapshot, or when the counter has gone around.
-/

namespace Mqttrust.System

variable {config : CrateConfig}

namespace Shared

variable {shared next : Shared config}

/-- The connection status is left alone. -/
structure SameSession (shared next : Shared config) : Prop where
  connected : next.connected = shared.connected
  count : next.cleanSessionCount = shared.cleanSessionCount

theorem SameSession.refl (shared : Shared config) : shared.SameSession shared := ⟨rfl, rfl⟩

theorem SameSession.trans {last : Shared config} (first : shared.SameSession next)
    (second : next.SameSession last) : shared.SameSession last :=
  ⟨second.connected.trans first.connected, second.count.trans first.count⟩

theorem Steady.sameSession (steady : shared.Steady next) : shared.SameSession next :=
  ⟨steady.connected, steady.count⟩

end Shared

/-- While the stack connects the client is not connected. -/
def World.Unconnected (world : World config) : Prop :=
  world.stack = .connecting → world.shared.connected = none

/-- What a step does to the connection status. -/
structure World.Sessions (world : World config) (action : Action) (next : World config) : Prop where
  count : next.shared.cleanSessionCount =
    world.shared.cleanSessionCount + if action = .connected false then 1 else 0
  unconnected : next.Unconnected

theorem World.Sessions.of_sameSession {world next : World config} {action : Action}
    (unconnected : world.Unconnected) (same : world.shared.SameSession next.shared)
    (stack : next.stack = .connecting → world.stack = .connecting)
    (other : action ≠ .connected false) : world.Sessions action next := by
  constructor
  · simp [same.count, other]
  · intro connecting
    rw [same.connected]
    exact unconnected (stack connecting)

theorem Transition.sessions {world next : World config} {action : Action}
    (unconnected : world.Unconnected) (transition : Transition world action next) :
    world.Sessions action next := by
  cases transition with
  | send packet =>
      unfold World.send
      split <;> exact .of_sameSession unconnected ⟨rfl, rfl⟩ id (by simp)
  | lock | waitTx | waitAck | waitRel => exact .of_sameSession unconnected ⟨rfl, rfl⟩ id (by simp)
  | grant result =>
      cases result <;> exact .of_sameSession unconnected ⟨rfl, rfl⟩ id (by simp)
  | commit live phase =>
      unfold World.commit
      split
      · rename_i registered
        exact .of_sameSession unconnected (Shared.steady_of_done registered).sameSession id (by simp)
      · rename_i registered
        exact .of_sameSession unconnected (Shared.steady_of_full registered).sameSession id (by simp)
      · exact .of_sameSession unconnected ⟨rfl, rfl⟩ id (by simp)
  | waitStatus contended live phase notPublish ready =>
      have waited := (Shared.steady_waitStatus ready).sameSession
      unfold World.finishStatus
      split
      · refine .of_sameSession unconnected ?_ id (by simp)
        exact waited.trans (Shared.steady_clean _ _ _ _).sameSession
      · exact .of_sameSession unconnected waited id (by simp)
  | drop contended live =>
      unfold World.drop
      split
      all_goals
        refine .of_sameSession unconnected ?_ id (by simp)
        first
          | exact .refl _
          | exact (Shared.steady_clean _ _ _ _).sameSession
  | dropSubscription drop =>
      unfold World.dropSubscription
      dsimp only
      split
      · refine .of_sameSession unconnected ?_ id (by simp)
        dsimp only
        split <;> split <;> exact ⟨rfl, rfl⟩
      · refine .of_sameSession unconnected ?_ id (by simp)
        dsimp only
        split <;> exact ⟨rfl, rfl⟩
  | connect => exact ⟨by simp [World.connect, Shared.setConnected], fun _ => rfl⟩
  | connected sessionPresent phase =>
      constructor
      · cases sessionPresent <;>
          simp [World.connected, Shared.setConnected, unconnected phase]
      · simp [World.Unconnected, World.connected]
  | connectFails | lost | read | flushed | writeFails | replied =>
      exact .of_sameSession unconnected ⟨rfl, rfl⟩ (by simp) (by simp)
  | written => exact .of_sameSession unconnected ⟨rfl, rfl⟩ (by simp [World.written]) (by simp)
  | transmitted =>
      refine .of_sameSession unconnected ?_ (by simp [World.transmitted]) (by simp)
      unfold World.transmitted
      dsimp only
      split <;> exact ⟨rfl, rfl⟩
  | receive payload phase =>
      unfold World.receive
      dsimp only
      split
      · rename_i shared reply handled
        refine .of_sameSession unconnected (Shared.steady_handle handled).sameSession ?_ (by simp)
        cases reply <;> simp
      · exact .of_sameSession unconnected ⟨rfl, rfl⟩ (by simp) (by simp)
      · exact .of_sameSession unconnected ⟨rfl, rfl⟩ id (by simp)
  | receiveFails error phase =>
      cases error with
      | io kind => exact .of_sameSession unconnected ⟨rfl, rfl⟩ (by simp [World.receiveFails]) (by simp)
      | _ => exact .of_sameSession unconnected ⟨rfl, rfl⟩ id (by simp)
  | keepAlive =>
      unfold World.keepAlive
      split <;> exact .of_sameSession unconnected ⟨rfl, rfl⟩ (by simp) (by simp)
  | reset isConnected =>
      refine ⟨by simp [World.reset, World.resetShared, Shared.reset, Shared.setConnected], ?_⟩
      exact fun _ => rfl
  | dropRun isConnected =>
      refine .of_sameSession unconnected ⟨rfl, rfl⟩ ?_ (by simp)
      cases isConnected <;> simp
  | disconnect =>
      refine ⟨by simp [World.resetShared, Shared.reset, Shared.setConnected], ?_⟩
      exact fun _ => rfl

/-- What the snapshot of a subscription stands for. -/
structure Subscription.Snapshot (subscription : Subscription config) (cleanSessions : ℕ) : Prop
    where
  acked : subscription.ackedAt ≤ subscription.createdAt
  created : subscription.createdAt ≤ cleanSessions
  count : subscription.createdCleanSessionCount = UInt8.ofNat subscription.createdAt

theorem Subscription.Snapshot.mono {subscription : Subscription config} {earlier later : ℕ}
    (snapshot : subscription.Snapshot earlier) (ordered : earlier ≤ later) :
    subscription.Snapshot later :=
  ⟨snapshot.acked, snapshot.created.trans ordered, snapshot.count⟩

namespace Subscriber

variable {subscriber next last : Subscriber config}

/-- The counter counts the clean sessions, and what is recorded of them came earlier. -/
structure Counted (subscriber : Subscriber config) : Prop where
  count : subscriber.inner.shared.cleanSessionCount = UInt8.ofNat subscriber.cleanSessions
  unconnected : subscriber.inner.Unconnected
  acks : ∀ ack ∈ subscriber.acks, ack.2 ≤ subscriber.cleanSessions
  acknowledged : ∀ id subscribing ackedAt, subscriber.subscribes.get? id = some subscribing →
    subscribing.phase = .acknowledged ackedAt → ackedAt ≤ subscriber.cleanSessions
  snapshots : ∀ id subscription, subscriber.subscriptions.get? id = some subscription →
    subscription.Snapshot subscriber.cleanSessions

namespace Counted

theorem new (config : CrateConfig) : (Subscriber.new config).Counted where
  count := rfl
  unconnected := by simp [Subscriber.new, World.new, World.Unconnected]
  acks := by simp [Subscriber.new]
  acknowledged := by simp [Subscriber.new]
  snapshots := by simp [Subscriber.new]

theorem follow {action : Action} (counted : subscriber.Counted)
    (followed : subscriber.follow action = some next) : next.Counted := by
  rcases Option.map_eq_some_iff.mp followed with ⟨inner, stepped, rfl⟩
  rcases (transition_of_step stepped).2.sessions counted.unconnected with ⟨count, unconnected⟩
  refine ⟨?_, unconnected, ?_, ?_, ?_⟩
  · dsimp only
    rw [count, counted.count]
    split <;> simp
  · intro ack ack_mem
    dsimp only at ack_mem ⊢
    rcases List.mem_append.mp ack_mem with new | old
    · rcases List.mem_map.mp new with ⟨pid, _, rfl⟩
      exact Nat.le_add_right _ _
    · exact (counted.acks ack old).trans (Nat.le_add_right _ _)
  · intro id subscribing ackedAt found phase
    exact (counted.acknowledged id subscribing ackedAt found phase).trans (Nat.le_add_right _ _)
  · intro id subscription found
    exact (counted.snapshots id subscription found).mono (Nat.le_add_right _ _)

theorem ackedAt_le (counted : subscriber.Counted) (pid : Pid) :
    subscriber.ackedAt pid ≤ subscriber.cleanSessions := by
  unfold ackedAt
  cases found : subscriber.acks.find? fun ack => ack.1 == pid.val with
  | none => exact Nat.zero_le _
  | some ack => exact counted.acks ack (List.mem_of_find?_eq_some found)

theorem setPhase (counted : subscriber.Counted) {id : ℕ} {old subscribing : Subscribing}
    {phase : SubscribePhase} (found : subscriber.subscribes.get? id = some old)
    (recorded : ∀ ackedAt, phase = .acknowledged ackedAt → ackedAt ≤ subscriber.cleanSessions) :
    (subscriber.setPhase id subscribing phase).Counted := by
  refine ⟨counted.count, counted.unconnected, counted.acks, ?_, counted.snapshots⟩
  intro other current ackedAt there reached
  simp only [Subscriber.setPhase, Table.get?_replace found] at there
  split at there
  · rcases Option.some.inj there with rfl
    exact recorded ackedAt reached
  · exact counted.acknowledged other current ackedAt there reached

theorem of_subscriptions (counted : subscriber.Counted)
    {subscriptions : Table (Subscription config)} {created : List (List Utf8)}
    {unsubscribed : List Unsubscribed}
    (snapshots : ∀ id subscription, subscriptions.get? id = some subscription →
      subscription.Snapshot subscriber.cleanSessions) :
    Counted { subscriber with
      subscriptions := subscriptions, created := created, unsubscribed := unsubscribed } :=
  ⟨counted.count, counted.unconnected, counted.acks, counted.acknowledged, snapshots⟩

theorem create (counted : subscriber.Counted) {id ackedAt : ℕ} {subscribing : Subscribing}
    (found : subscriber.subscribes.get? id = some subscribing)
    (phase : subscribing.phase = .acknowledged ackedAt) :
    (subscriber.create id subscribing ackedAt).Counted := by
  have returned : (subscriber.setPhase id subscribing .over).Counted :=
    counted.setPhase found (by simp)
  unfold Subscriber.create
  dsimp only
  split
  · refine returned.of_subscriptions ?_
    intro other subscription there
    rw [Table.get?_insert] at there
    split at there
    · rcases Option.some.inj there with rfl
      exact ⟨counted.acknowledged id subscribing ackedAt found phase, le_rfl, counted.count⟩
    · exact counted.snapshots other subscription there
  · exact returned

theorem queued (counted : subscriber.Counted) (id : ℕ) (topics : List Utf8)
    (before : World config) : (subscriber.queued id topics before).Counted := by
  unfold Subscriber.queued
  split
  · exact counted.of_subscriptions counted.snapshots
  · exact counted

theorem remove (counted : subscriber.Counted) (id : ℕ) : (subscriber.remove id).Counted := by
  apply counted.of_subscriptions
  intro other subscription there
  rw [Table.get?_remove] at there
  split at there
  · simp at there
  · exact counted.snapshots other subscription there

theorem setOwner (counted : subscriber.Counted) {id : ℕ} {subscription : Subscription config}
    (found : subscriber.subscriptions.get? id = some subscription) (owner : ℕ) :
    (subscriber.setOwner id subscription owner).Counted := by
  apply counted.of_subscriptions
  intro other current there
  rw [Table.get?_replace found] at there
  split at there
  · rcases Option.some.inj there with rfl
    rcases counted.snapshots id subscription found with ⟨acked, created, count⟩
    exact ⟨acked, created, count⟩
  · exact counted.snapshots other current there

theorem step {action : SubscribeAction} (counted : subscriber.Counted)
    (stepped : subscribeStep subscriber action = some next) : next.Counted := by
  cases transition_of_subscribeStep stepped with
  | subscribe topics maxTopics =>
      refine ⟨counted.count, counted.unconnected, counted.acks, ?_, counted.snapshots⟩
      intro id subscribing ackedAt there phase
      rw [Table.get?_insert] at there
      split at there
      · rcases Option.some.inj there with rfl
        simp at phase
      · exact counted.acknowledged id subscribing ackedAt there phase
  | attempt found followed =>
      rw [← (follows followed).subscribes] at found
      exact (counted.follow followed).setPhase found (by simp)
  | acknowledged found followed =>
      rw [← (follows followed).subscribes] at found
      have waited := counted.follow followed
      apply waited.setPhase found
      intro ackedAt same
      exact SubscribePhase.acknowledged.inj same ▸ waited.ackedAt_le _
  | notAcknowledged followed => exact counted.follow followed
  | create found phase => exact counted.create found phase
  | unsubscribe found followed =>
      rw [← (follows followed).subscriptions] at found
      exact (counted.follow followed).setOwner found _
  | commitUnsubscribe found followed => exact (counted.follow followed).queued _ _ _
  | finishUnsubscribe followed => exact (counted.follow followed).remove _
  | notFinishUnsubscribe followed => exact counted.follow followed
  | drop found dropped =>
      rcases drop_cases dropped with ⟨middle, first, rest⟩
      have middleCounted : middle.Counted := by
        rcases first with rfl | ⟨handle, followed⟩
        · exact counted
        · exact counted.follow followed
      rcases rest with rfl | ⟨last, followed, rfl⟩
      · exact middleCounted.remove _
      · exact ((middleCounted.follow followed).queued _ _ _).remove _
  | other followed => exact counted.follow followed

end Counted

end Subscriber

theorem Subscription.pollNext_eq_ended_iff {subscription : Subscription config}
    {shared : Shared config} {contended : Bool} {message : Option Utf8} :
    subscription.pollNext shared contended message = .ended ↔
      contended = false ∧ shared.cleanSessionCount ≠ subscription.createdCleanSessionCount := by
  unfold pollNext
  split
  · rename_i locked
    simp [locked]
  · rename_i free
    split
    · rename_i differs
      simp [free, differs]
    · rename_i same
      constructor
      · intro ended
        split at ended
        · split at ended <;> simp at ended
        · simp at ended
      · exact fun differs => absurd differs.2 same

theorem uint8_ofNat_eq_iff {earlier later : ℕ} (ordered : earlier ≤ later) :
    UInt8.ofNat later = UInt8.ofNat earlier ↔ 256 ∣ later - earlier := by
  rw [← UInt8.toNat_inj, UInt8.toNat_ofNat', UInt8.toNat_ofNat']
  omega

namespace Subscriber

/-- What a poll makes of the clean sessions since the SUBACK was processed: the subscription ends if
there was one, and not without. -/
def Notices (subscriber : Subscriber config) (subscription : Subscription config) (contended : Bool)
    (message : Option Utf8) : Prop :=
  (subscription.ackedAt < subscriber.cleanSessions →
    subscription.pollNext subscriber.inner.shared contended message = .ended) ∧
  (subscriber.cleanSessions = subscription.ackedAt →
    subscription.pollNext subscriber.inner.shared contended message ≠ .ended)

variable {subscriber : Subscriber config}

theorem counted_of_run {actions : List SubscribeAction}
    (reached : subscribeRun config actions = some subscriber) : subscriber.Counted := by
  apply Execution.invariant_of_run Subscriber.Counted _ _ reached
  · intro subscriber next action counted stepped
    exact counted.step stepped
  · exact Subscriber.Counted.new config

theorem Counted.notices_iff_not_goneAround (counted : subscriber.Counted) {id : ℕ}
    {subscription : Subscription config}
    (live : subscriber.subscriptions.get? id = some subscription) (contended : Bool)
    (message : Option Utf8) :
    subscriber.Notices subscription contended message ↔
      ¬(subscription.ackedAt < subscriber.cleanSessions ∧
        (contended = true ∨ 256 ∣ subscriber.cleanSessions - subscription.createdAt)) := by
  rcases counted.snapshots id subscription live with ⟨acked, created, count⟩
  have ended_iff : subscription.pollNext subscriber.inner.shared contended message = .ended ↔
      contended = false ∧ ¬256 ∣ subscriber.cleanSessions - subscription.createdAt := by
    rw [Subscription.pollNext_eq_ended_iff, counted.count, count, ne_eq, uint8_ofNat_eq_iff created]
  unfold Subscriber.Notices
  rw [ne_eq, ended_iff]
  constructor
  · rintro ⟨ends, _⟩ ⟨cleaned, unnoticed⟩
    rcases ends cleaned with ⟨free, differs⟩
    rcases unnoticed with locked | goneAround
    · simp [free] at locked
    · exact differs goneAround
  · intro noticed
    constructor
    · intro cleaned
      refine ⟨?_, ?_⟩
      · rw [Bool.eq_false_iff]
        exact fun locked => noticed ⟨cleaned, .inl locked⟩
      · exact fun goneAround => noticed ⟨cleaned, .inr goneAround⟩
    · rintro same ⟨_, differs⟩
      have : subscriber.cleanSessions = subscription.createdAt := by omega
      simp [this] at differs

end Subscriber

/-- A poll does not notice that there were clean sessions since the SUBACK when it finds the shared
state locked, and when their number since the snapshot is a multiple of 256, such as zero. -/
theorem notices_iff {actions : List SubscribeAction} {subscriber : Subscriber config}
    (reached : subscribeRun config actions = some subscriber) {id : ℕ}
    {subscription : Subscription config}
    (live : subscriber.subscriptions.get? id = some subscription) (contended : Bool)
    (message : Option Utf8) :
    subscriber.Notices subscription contended message ↔
      ¬(subscription.ackedAt < subscriber.cleanSessions ∧
        (contended = true ∨ 256 ∣ subscriber.cleanSessions - subscription.createdAt)) :=
  (Subscriber.counted_of_run reached).notices_iff_not_goneAround live contended message

/-- A subscription ends when the client reconnects with a clean session after the snapshot. -/
theorem notices_iff_example :
    ∃ subscriber subscription, subscribeRun twoInflight
        ([.other .connect, .other (.connected false)] ++
          subscribed 0 ⟨2, by decide, by decide⟩ ⟨[0x61], by decide⟩ ++
          [.create 0, .other .lost, .other .connect, .other (.connected false)]) =
        some subscriber ∧
      subscriber.subscriptions.get? 0 = some subscription ∧
      subscription.pollNext subscriber.inner.shared false none = .ended ∧
      subscriber.Notices subscription false none := by
  rcases reached : subscribeRun twoInflight
    ([.other .connect, .other (.connected false)] ++
      subscribed 0 ⟨2, by decide, by decide⟩ ⟨[0x61], by decide⟩ ++
      [.create 0, .other .lost, .other .connect, .other (.connected false)]) with _ | subscriber
  · exact absurd reached (by decide)
  · rcases live : subscriber.subscriptions.get? 0 with _ | subscription
    · cases reached
      exact absurd live (by decide)
    · refine ⟨subscriber, subscription, reached, live, ?_, (notices_iff reached live false none).mpr ?_⟩
      · cases reached
        cases live
        decide
      · cases reached
        cases live
        decide

/-- The client reconnects after an error, each time with a clean session. -/
def reconnects : ℕ → List SubscribeAction
  | 0 => []
  | count + 1 =>
      [.other (.receiveFails (.io .other)), .other (.reset false), .other .connect,
        .other (.connected false)] ++ reconnects count

/-- Reconnecting is always possible and leaves the subscriptions alone. -/
theorem run_reconnects (count : ℕ) {subscriber : Subscriber config}
    (idle : subscriber.inner.stack = .idle) (noPanic : subscriber.inner.panicked = none) :
    ∃ last, Execution.run subscribeStep subscriber (reconnects count) = some last ∧
      last.subscriptions = subscriber.subscriptions ∧
      last.cleanSessions = subscriber.cleanSessions + count := by
  induction count generalizing subscriber with
  | zero => exact ⟨subscriber, rfl, rfl, rfl⟩
  | succ count ih =>
      have cycle : ∃ middle, Execution.run subscribeStep subscriber
          [.other (.receiveFails (.io .other)), .other (.reset false), .other .connect,
            .other (.connected false)] = some middle ∧
          middle.inner.stack = .idle ∧ middle.inner.panicked = none ∧
          middle.subscriptions = subscriber.subscriptions ∧
          middle.cleanSessions = subscriber.cleanSessions + 1 := by
        simp [Execution.run, subscribeStep, World.isOther, Subscriber.follow, step, idle, noPanic,
          World.receiveFails, World.reset, World.resetShared, World.connect, World.connected]
      rcases cycle with ⟨middle, ran, idle, noPanic, subscriptions, cleanSessions⟩
      rcases ih idle noPanic with ⟨last, rest, same, cleaned⟩
      refine ⟨last, ?_, same.trans subscriptions, by omega⟩
      rw [reconnects, Execution.run_append, ran]
      exact rest

theorem exists_after_reconnects (count : ℕ) :
    ∃ subscriber subscription, subscribeRun twoInflight
        ([.other .connect, .other (.connected false)] ++
          subscribed 0 ⟨2, by decide, by decide⟩ ⟨[0x61], by decide⟩ ++ [.create 0] ++
          reconnects count) = some subscriber ∧
      subscriber.subscriptions.get? 0 = some subscription ∧ subscription.ackedAt = 1 ∧
      subscription.createdAt = 1 ∧ subscriber.cleanSessions = 1 + count := by
  rcases started : subscribeRun twoInflight
    ([.other .connect, .other (.connected false)] ++
      subscribed 0 ⟨2, by decide, by decide⟩ ⟨[0x61], by decide⟩ ++ [.create 0]) with _ | start
  · exact absurd started (by decide)
  have idle : start.inner.stack = .idle := by
    cases started
    decide
  have noPanic : start.inner.panicked = none := by
    cases started
    decide
  rcases run_reconnects count idle noPanic with ⟨last, ran, subscriptions, cleanSessions⟩
  refine ⟨last, ?_⟩
  rw [subscriptions, cleanSessions]
  change Execution.run _ _ _ = _ at started
  rw [subscribeRun, Execution.run_append, started, Option.bind_some, ran]
  cases started
  exact ⟨_, rfl, rfl, rfl, rfl, rfl⟩

/-- The client reconnects between the SUBACK and the snapshot, or 256 times after it. -/
theorem not_notices_after_reconnects :
    (∃ subscriber subscription, subscribeRun twoInflight
        ([.other .connect, .other (.connected false)] ++
          subscribed 0 ⟨2, by decide, by decide⟩ ⟨[0x61], by decide⟩ ++ reconnects 1 ++
          [.create 0]) = some subscriber ∧
      subscriber.subscriptions.get? 0 = some subscription ∧
      ¬subscriber.Notices subscription false none) ∧
    ∃ subscriber subscription, subscribeRun twoInflight
        ([.other .connect, .other (.connected false)] ++
          subscribed 0 ⟨2, by decide, by decide⟩ ⟨[0x61], by decide⟩ ++ [.create 0] ++
          reconnects 256) = some subscriber ∧
      subscriber.subscriptions.get? 0 = some subscription ∧
      ¬subscriber.Notices subscription false none := by
  constructor
  · refine ⟨_, _, rfl, rfl, fun notices => ?_⟩
    exact absurd (notices.1 (by decide)) (by decide)
  · rcases exists_after_reconnects 256 with
      ⟨subscriber, subscription, reached, live, acked, created, cleaned⟩
    refine ⟨subscriber, subscription, reached, live, ?_⟩
    rw [(Subscriber.counted_of_run reached).notices_iff_not_goneAround live, not_not, acked,
      created, cleaned]
    decide

end Mqttrust.System
