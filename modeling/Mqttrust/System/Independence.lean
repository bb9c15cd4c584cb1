import Mqttrust.System.Inflight
import Mqttrust.System.Subscription

/-!
# What an UNSUBSCRIBE is queued for

A subscription that is dropped or unsubscribed looks only at itself: its
UNSUBSCRIBE has exactly its own topics, whichever of them other subscriptions have
too. Without common topics the subscriptions are independent.
-/

namespace Mqttrust.System

variable {config : CrateConfig}

/-- No UNSUBSCRIBE was queued for a topic of another subscription that was alive then. -/
def Independent (unsubscribed : List Unsubscribed) : Prop :=
  ∀ entry ∈ unsubscribed, ∀ topics ∈ entry.others, ∀ topic ∈ topics, topic ∉ entry.topics

/-- The subscribe that takes its snapshot. -/
def SubscribeAction.creates? : SubscribeAction → Option ℕ
  | .create id => some id
  | _ => none

/-- The condition on an action: a subscription is made only for topics that no other subscription
has, be it alive or owned by a call of `unsubscribe`. -/
def CreatesApart (subscriber : Subscriber config) (action : SubscribeAction) : Prop :=
  ∀ id ∈ action.creates?, ∀ subscribing ∈ subscriber.subscribes.get? id,
    ∀ slot ∈ subscriber.subscriptions.slots, ∀ subscription ∈ slot,
      ∀ topic ∈ subscribing.topics, topic ∉ subscription.topics

instance (subscriber : Subscriber config) (action : SubscribeAction) :
    Decidable (CreatesApart subscriber action) :=
  inferInstanceAs (Decidable (∀ id ∈ action.creates?,
    ∀ subscribing ∈ subscriber.subscribes.get? id,
      ∀ slot ∈ subscriber.subscriptions.slots, ∀ subscription ∈ slot,
        ∀ topic ∈ subscribing.topics, topic ∉ subscription.topics))

theorem filter_of_new {topic : Utf8} {filter : TopicFilter config}
    (valid : TopicFilter.new topic = .ok filter) : filter.filter = topic := by
  unfold TopicFilter.new at valid
  split at valid
  · split at valid
    · simp at valid
    · split at valid
      · split at valid
        · simp at valid
        · exact (Except.ok.inj valid) ▸ rfl
      · exact (Except.ok.inj valid) ▸ rfl
  · simp at valid

theorem topics_of_collect {capacity : ℕ} {topics : List Utf8}
    {topicFilters : List (TopicFilter config)}
    (collected : TopicFilter.collect capacity topics = .filters topicFilters) :
    topicFilters.map TopicFilter.filter = topics := by
  induction topics generalizing capacity topicFilters with
  | nil =>
      rw [TopicFilter.collect] at collected
      rcases Collected.filters.inj collected with rfl
      rfl
  | cons topic rest ih =>
      rcases TopicFilter.collect_cons_eq_filters.mp collected with
        ⟨room, filter, others, rfl, made, collectedOthers, rfl⟩
      rw [List.map_cons, filter_of_new made, ih collectedOthers]

namespace Subscriber

variable {subscriber next last : Subscriber config}

/-- Subscriptions may be owned or be gone, and an UNSUBSCRIBE may be queued for one of them. -/
structure Keeps (subscriber next : Subscriber config) : Prop where
  created : next.created = subscriber.created
  made : next.subscriptions.next = subscriber.subscriptions.next
  subscriptions : ∀ id live, next.subscriptions.get? id = some live →
    ∃ old, subscriber.subscriptions.get? id = some old ∧ live.topics = old.topics
  unsubscribed : next.unsubscribed = subscriber.unsubscribed ∨
    ∃ entry, next.unsubscribed = entry :: subscriber.unsubscribed ∧
      (∃ dropped, subscriber.subscriptions.get? entry.subscription = some dropped ∧
        entry.topics = dropped.topics) ∧
      ∀ topics ∈ entry.others, ∃ other live, other ≠ entry.subscription ∧
        subscriber.subscriptions.get? other = some live ∧ live.topics = topics

namespace Keeps

theorem of_eq (subscriptions : next.subscriptions = subscriber.subscriptions)
    (created : next.created = subscriber.created)
    (unsubscribed : next.unsubscribed = subscriber.unsubscribed) : subscriber.Keeps next := by
  refine ⟨created, by rw [subscriptions], ?_, .inl unsubscribed⟩
  intro id live found
  exact ⟨live, subscriptions ▸ found, rfl⟩

theorem of_follows (follows : subscriber.Follows next) : subscriber.Keeps next :=
  of_eq follows.subscriptions follows.created follows.unsubscribed

theorem queued {id : ℕ} {subscription : Subscription config} (follows : subscriber.Follows next)
    (found : subscriber.subscriptions.get? id = some subscription) (before : World config) :
    subscriber.Keeps (next.queued id subscription.topics before) := by
  unfold Subscriber.queued
  split
  · refine ⟨follows.created, by rw [follows.subscriptions], ?_, .inr ?_⟩
    · exact (of_follows follows).subscriptions
    · refine ⟨_, by rw [follows.unsubscribed], ⟨subscription, found, rfl⟩, ?_⟩
      intro topics topics_mem
      rcases mem_others.mp topics_mem with ⟨other, live, different, there, _, rfl⟩
      exact ⟨other, live, different, follows.subscriptions ▸ there, rfl⟩
  · exact of_follows follows

theorem remove (keeps : subscriber.Keeps next) (id : ℕ) : subscriber.Keeps (next.remove id) := by
  refine ⟨keeps.created, ?_, ?_, keeps.unsubscribed⟩
  · simp only [Subscriber.remove, Table.next_remove, keeps.made]
  · intro other live found
    simp only [Subscriber.remove, Table.get?_remove] at found
    split at found
    · simp at found
    · exact keeps.subscriptions other live found

theorem setOwner {id owner : ℕ} {subscription : Subscription config}
    (follows : subscriber.Follows next)
    (found : subscriber.subscriptions.get? id = some subscription) :
    subscriber.Keeps (next.setOwner id subscription owner) := by
  refine ⟨follows.created, ?_, ?_, .inl follows.unsubscribed⟩
  · simp only [Subscriber.setOwner, Table.next_replace, follows.subscriptions]
  · intro other live there
    simp only [Subscriber.setOwner, follows.subscriptions, Table.get?_replace found] at there
    split at there
    · rename_i same
      rcases Option.some.inj there with rfl
      exact ⟨subscription, same ▸ found, rfl⟩
    · exact ⟨live, there, rfl⟩

end Keeps

/-- A step makes a subscription, or keeps those that there are. -/
theorem Transition.keeps {action : SubscribeAction} (transition : Transition subscriber action next) :
    subscriber.Keeps next ∨ ∃ id subscribing ackedAt, action = .create id ∧
      subscriber.subscribes.get? id = some subscribing ∧
        next = subscriber.create id subscribing ackedAt := by
  cases transition with
  | subscribe topics maxTopics => exact .inl (.of_eq rfl rfl rfl)
  | attempt found followed =>
      rcases follows followed with ⟨_, subscriptions, created, unsubscribed⟩
      exact .inl (.of_eq subscriptions created unsubscribed)
  | acknowledged found followed =>
      rcases follows followed with ⟨_, subscriptions, created, unsubscribed⟩
      exact .inl (.of_eq subscriptions created unsubscribed)
  | notAcknowledged followed => exact .inl (.of_follows (follows followed))
  | create found phase => exact .inr ⟨_, _, _, rfl, found, rfl⟩
  | unsubscribe found followed => exact .inl (.setOwner (follows followed) found)
  | commitUnsubscribe found followed => exact .inl (.queued (follows followed) found _)
  | finishUnsubscribe followed => exact .inl ((Keeps.of_follows (follows followed)).remove _)
  | notFinishUnsubscribe followed => exact .inl (.of_follows (follows followed))
  | drop found dropped =>
      rcases drop_cases dropped with ⟨middle, first, rest⟩
      have toMiddle : subscriber.Follows middle := by
        rcases first with rfl | ⟨handle, followed⟩
        · exact ⟨rfl, rfl, rfl, rfl⟩
        · exact follows followed
      left
      rcases rest with rfl | ⟨last, followed, rfl⟩
      · exact (Keeps.of_follows toMiddle).remove _
      · exact (Keeps.queued (toMiddle.trans (follows followed)) found _).remove _
  | other followed => exact .inl (.of_follows (follows followed))

/-- What the record says of the subscriptions. -/
structure Owns (subscriber : Subscriber config) : Prop where
  made : subscriber.created.length = subscriber.subscriptions.next
  topics : ∀ id live, subscriber.subscriptions.get? id = some live →
    subscriber.created[id]? = some live.topics
  unsubscribed : ∀ entry ∈ subscriber.unsubscribed,
    subscriber.created[entry.subscription]? = some entry.topics

/-- Different subscriptions have no topics in common. -/
structure Apart (subscriber : Subscriber config) : Prop where
  topics : ∀ id live other live', id ≠ other → subscriber.subscriptions.get? id = some live →
    subscriber.subscriptions.get? other = some live' → ∀ topic ∈ live.topics, topic ∉ live'.topics
  independent : Independent subscriber.unsubscribed

theorem Owns.new (config : CrateConfig) : (Subscriber.new config).Owns :=
  ⟨rfl, by simp [Subscriber.new], by simp [Subscriber.new]⟩

theorem Apart.new (config : CrateConfig) : (Subscriber.new config).Apart :=
  ⟨by simp [Subscriber.new], by simp [Subscriber.new, Independent]⟩

theorem Owns.of_keeps (owns : subscriber.Owns) (keeps : subscriber.Keeps next) : next.Owns := by
  refine ⟨?_, ?_, ?_⟩
  · rw [keeps.created, keeps.made, owns.made]
  · intro id live found
    rcases keeps.subscriptions id live found with ⟨old, there, same⟩
    rw [keeps.created, same]
    exact owns.topics id old there
  · rw [keeps.created]
    rcases keeps.unsubscribed with same | ⟨entry, grown, ⟨dropped, there, same⟩, _⟩
    · rw [same]
      exact owns.unsubscribed
    · rw [grown, List.forall_mem_cons, same]
      exact ⟨owns.topics _ dropped there, owns.unsubscribed⟩

theorem Apart.of_keeps (apart : subscriber.Apart) (keeps : subscriber.Keeps next) :
    next.Apart := by
  constructor
  · intro id live other live' different found found' 
    rcases keeps.subscriptions id live found with ⟨old, there, same⟩
    rcases keeps.subscriptions other live' found' with ⟨old', there', same'⟩
    rw [same, same']
    exact apart.topics id old other old' different there there'
  · rcases keeps.unsubscribed with same | ⟨entry, grown, ⟨dropped, there, same⟩, others⟩
    · rw [same]
      exact apart.independent
    · unfold Independent
      rw [grown, List.forall_mem_cons]
      refine ⟨?_, apart.independent⟩
      intro topics topics_mem
      rcases others topics topics_mem with ⟨other, live, different, there', rfl⟩
      rw [same]
      exact apart.topics other live _ dropped different there' there

theorem create_cases (id : ℕ) (subscribing : Subscribing) (ackedAt : ℕ) :
    subscriber.Keeps (subscriber.create id subscribing ackedAt) ∨
      ∃ subscription : Subscription config, subscription.topics = subscribing.topics ∧
        (subscriber.create id subscribing ackedAt).subscriptions =
          subscriber.subscriptions.insert subscription ∧
        (subscriber.create id subscribing ackedAt).created =
          subscriber.created ++ [subscribing.topics] ∧
        (subscriber.create id subscribing ackedAt).unsubscribed = subscriber.unsubscribed := by
  unfold create
  dsimp only
  split
  · rename_i topicFilters collected
    exact .inr ⟨_, topics_of_collect collected, rfl, rfl, rfl⟩
  · exact .inl (.of_eq rfl rfl rfl)

theorem Owns.step {action : SubscribeAction} (owns : subscriber.Owns)
    (stepped : subscribeStep subscriber action = some next) : next.Owns := by
  rcases (transition_of_subscribeStep stepped).keeps with keeps | ⟨id, subscribing, ackedAt, rfl, _, rfl⟩
  · exact owns.of_keeps keeps
  rcases subscriber.create_cases id subscribing ackedAt with
    keeps | ⟨subscription, same, subscriptions, created, unsubscribed⟩
  · exact owns.of_keeps keeps
  have old : ∀ {id : ℕ} {topics : List Utf8}, subscriber.created[id]? = some topics →
      (subscriber.created ++ [subscribing.topics])[id]? = some topics := by
    intro id topics found
    rw [List.getElem?_append_left (List.getElem?_eq_some_iff.mp found).1]
    exact found
  refine ⟨?_, ?_, ?_⟩
  · simp [created, subscriptions, owns.made]
  · intro id live found
    rw [subscriptions, Table.get?_insert] at found
    rw [created]
    split at found
    · rename_i newest
      rcases Option.some.inj found with rfl
      simp [newest, ← owns.made, same]
    · exact old (owns.topics id live found)
  · rw [created, unsubscribed]
    exact fun entry entry_mem => old (owns.unsubscribed entry entry_mem)

theorem Apart.step {action : SubscribeAction} (apart : subscriber.Apart)
    (createsApart : CreatesApart subscriber action)
    (stepped : subscribeStep subscriber action = some next) : next.Apart := by
  rcases (transition_of_subscribeStep stepped).keeps with
    keeps | ⟨id, subscribing, ackedAt, rfl, found, rfl⟩
  · exact apart.of_keeps keeps
  rcases subscriber.create_cases id subscribing ackedAt with
    keeps | ⟨subscription, same, subscriptions, _, unsubscribed⟩
  · exact apart.of_keeps keeps
  have fresh : ∀ id live, subscriber.subscriptions.get? id = some live →
      ∀ topic ∈ subscription.topics, topic ∉ live.topics := by
    intro other live there
    rw [same]
    rcases Table.slots_of_get? there with ⟨inside, slot⟩
    exact createsApart id rfl subscribing found _ (List.getElem_mem inside) live slot
  refine ⟨?_, ?_⟩
  · intro first live second live' different found found'
    rw [subscriptions, Table.get?_insert] at found found'
    split at found
    · split at found'
      · omega
      · rcases Option.some.inj found with rfl
        exact fresh second live' found'
    · split at found'
      · rcases Option.some.inj found' with rfl
        intro topic topic_mem new
        exact fresh first live found topic new topic_mem
      · exact apart.topics first live second live' different found found'
  · rw [unsubscribed]
    exact apart.independent

end Subscriber

/-- Every UNSUBSCRIBE that was queued for a subscription has exactly the topics for which that
subscription was made. When different subscriptions have no topics in common, none is queued for a
topic of another one that is alive. -/
theorem unsubscribed_own (config : CrateConfig) :
    (∀ (actions : List SubscribeAction) (subscriber : Subscriber config),
      subscribeRun config actions = some subscriber → ∀ entry ∈ subscriber.unsubscribed,
        subscriber.created[entry.subscription]? = some entry.topics) ∧
    (∀ (actions : List SubscribeAction) (subscriber : Subscriber config),
      Execution.Guarded subscribeStep CreatesApart (Subscriber.new config) actions →
        subscribeRun config actions = some subscriber → Independent subscriber.unsubscribed) := by
  constructor
  · intro actions subscriber reached
    apply Subscriber.Owns.unsubscribed
    apply Execution.invariant_of_run Subscriber.Owns _ _ reached
    · intro subscriber next action owns stepped
      exact owns.step stepped
    · exact Subscriber.Owns.new config
  · intro actions subscriber guarded reached
    apply Subscriber.Apart.independent
    apply Execution.invariant_of_guarded Subscriber.Apart _ guarded _ reached
    · intro subscriber next action createsApart apart stepped
      exact apart.step createsApart stepped
    · exact Subscriber.Apart.new config

/-- A subscription is dropped while one with another topic is alive. -/
theorem unsubscribed_own_example :
    ∃ subscriber, subscribeRun twoInflight
        ([.other .connect, .other (.connected false)] ++
          subscribed 0 ⟨2, by decide, by decide⟩ ⟨[0x61], by decide⟩ ++ [.create 0] ++
          subscribed 1 ⟨3, by decide, by decide⟩ ⟨[0x62], by decide⟩ ++ [.create 1] ++
          [.drop 0 false ⟨true, true, true, true⟩]) = some subscriber ∧
      subscriber.unsubscribed.map Unsubscribed.topics = [[⟨[0x61], by decide⟩]] ∧
      Independent subscriber.unsubscribed := by
  rcases reached : subscribeRun twoInflight
    ([.other .connect, .other (.connected false)] ++
      subscribed 0 ⟨2, by decide, by decide⟩ ⟨[0x61], by decide⟩ ++ [.create 0] ++
      subscribed 1 ⟨3, by decide, by decide⟩ ⟨[0x62], by decide⟩ ++ [.create 1] ++
      [.drop 0 false ⟨true, true, true, true⟩]) with _ | subscriber
  · exact absurd reached (by decide)
  · refine ⟨subscriber, reached, ?_,
      (unsubscribed_own twoInflight).2 _ subscriber (by decide) reached⟩
    cases reached
    decide

/-- A subscription is replaced by a new one for the same topic: dropping the old one queues an
UNSUBSCRIBE for the topic of the new one. -/
theorem not_independent_after_replacement :
    ∃ subscriber, subscribeRun twoInflight
        ([.other .connect, .other (.connected false)] ++
          subscribed 0 ⟨2, by decide, by decide⟩ ⟨[0x61], by decide⟩ ++ [.create 0] ++
          subscribed 1 ⟨3, by decide, by decide⟩ ⟨[0x61], by decide⟩ ++ [.create 1] ++
          [.drop 0 false ⟨true, true, true, true⟩]) = some subscriber ∧
      ¬Independent subscriber.unsubscribed := by
  refine ⟨_, rfl, ?_⟩
  intro independent
  exact independent ⟨0, [⟨[0x61], by decide⟩], [[⟨[0x61], by decide⟩]]⟩ List.mem_cons_self
    [⟨[0x61], by decide⟩] List.mem_cons_self ⟨[0x61], by decide⟩ List.mem_cons_self
    List.mem_cons_self

end Mqttrust.System
