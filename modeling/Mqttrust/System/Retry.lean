import Mqttrust.System.Inflight
import Mqttrust.System.Outbound

/-!
# The attempts of a publish

`MqttClient::publish` tries up to six times. Each attempt is a call of `send`
with an identifier of its own; an attempt that times out is dropped, but a frame
that it committed cannot be taken back from the TX channel. When the stack writes
it later, the next attempt writes the message a second time.

A publisher is a world together with the calls of `publish` and the attempts that
each of them has begun.
-/

namespace Mqttrust.System

variable {config : CrateConfig}

/-- `MAX_ATTEMPTS` of `MqttClient::publish`. -/
def maxAttempts : ℕ := 6

/-- A call of `MqttClient::publish`. -/
structure Publishing where
  qos : QoS
  attempts : ℕ
  /-- The attempts that passed the capacity check of `send`, latest first. -/
  calls : List ℕ
deriving DecidableEq, Repr

/-- A client with its calls of `publish`. -/
structure Publisher (config : CrateConfig) where
  inner : World config
  publishes : Table Publishing
deriving DecidableEq

/-- What happens to a publisher. -/
inductive PublishAction where
  /-- `publish` is called. -/
  | publish (qos : QoS)
  /-- The next attempt of a publish begins. -/
  | attempt (publish : ℕ)
  /-- Any other action; the attempts go on by it, and time out by `Action.drop`. -/
  | other (action : Action)
deriving DecidableEq

namespace PublishAction

/-- The publish whose next attempt begins. -/
def attempts? : PublishAction → Option ℕ
  | .attempt id => some id
  | _ => none

end PublishAction

namespace Publisher

/-- A new client that is not connected. -/
def new (config : CrateConfig) : Publisher config := ⟨World.new config, .empty⟩

variable (publisher : Publisher config)

/-- The loop of `publish` goes on: there are attempts left, and the last one has failed. -/
def mayAttempt (publishing : Publishing) : Prop :=
  publishing.attempts < maxAttempts ∧
    ∀ handle ∈ publishing.calls.head?, ∀ call ∈ publisher.inner.calls.get? handle,
      call.failed = true

instance (publishing : Publishing) : Decidable (publisher.mayAttempt publishing) :=
  inferInstanceAs (Decidable (_ ∧ ∀ handle ∈ publishing.calls.head?,
    ∀ call ∈ publisher.inner.calls.get? handle, _))

/-- An attempt begins with the first part of `send`. -/
def attempt (publish : ℕ) (publishing : Publishing) (inner : World config) : Publisher config where
  inner := inner
  publishes := publisher.publishes.replace publish
    { publishing with
      attempts := publishing.attempts + 1
      calls :=
        if publisher.inner.shared.hasRoom (.publish publishing.qos) then
          publisher.inner.calls.next :: publishing.calls
        else publishing.calls }

/-- The complete copies of a message that were written to a socket. -/
def copies (publishing : Publishing) : List Frame :=
  publisher.inner.transmissions.filter fun frame =>
    publishing.calls.any fun handle => frame.call? == some handle

/-- A publish of QoS 0 was written at most once, and one of QoS 2 under one identifier. -/
def NoDuplicates : Prop :=
  ∀ publish publishing, publisher.publishes.get? publish = some publishing →
    (publishing.qos = .atMostOnce → (publisher.copies publishing).length ≤ 1) ∧
    (publishing.qos = .exactlyOnce → ∀ frame ∈ publisher.copies publishing,
      ∀ frame' ∈ publisher.copies publishing, frame.txPid = frame'.txPid)

end Publisher

/-- One action of a publisher. A publish is sent by its attempts only. -/
def publishStep (publisher : Publisher config) : PublishAction → Option (Publisher config)
  | .publish qos =>
      if (SendPacket.publish qos).supported config then
        some { publisher with publishes := publisher.publishes.insert ⟨qos, 0, []⟩ }
      else none
  | .attempt publish => do
      let publishing ← publisher.publishes.get? publish
      if publisher.mayAttempt publishing then
        let inner ← step publisher.inner (.send (.publish publishing.qos))
        some (publisher.attempt publish publishing inner)
      else none
  | .other (.send (.publish _)) => none
  | .other action => (step publisher.inner action).map fun inner => { publisher with inner := inner }

/-- The condition on an action: an attempt to publish with QoS 0 or 2 begins only while no frame of
an earlier attempt is queued, is being written or was written. -/
def RetriesUnsent (publisher : Publisher config) (action : PublishAction) : Prop :=
  ∀ publish ∈ action.attempts?, ∀ publishing ∈ publisher.publishes.get? publish,
    publishing.qos ≠ .atLeastOnce → ∀ handle ∈ publishing.calls, publisher.inner.Unsent handle

instance (publisher : Publisher config) (action : PublishAction) :
    Decidable (RetriesUnsent publisher action) :=
  inferInstanceAs (Decidable (∀ publish ∈ action.attempts?,
    ∀ publishing ∈ publisher.publishes.get? publish, _ → ∀ handle ∈ publishing.calls, _))

/-- A call that is over and has no outbound frame never gets one. -/
theorem World.Unsent.step {world next : World config} {action : Action} {handle : ℕ} {call : Call}
    (unsent : world.Unsent handle) (live : world.calls.get? handle = some call)
    (isOver : call.isOver = true) (stepped : System.step world action = some next) :
    next.Unsent handle := by
  intro frame frame_mem same
  rcases (transition_of_step stepped).2.outbound with lost | ⟨newest, commits, appended⟩
  · exact unsent frame (lost.subset frame_mem) same
  · rw [appended] at frame_mem
    rcases List.mem_append.mp frame_mem with old | new
    · exact unsent frame old same
    · rcases List.mem_singleton.mp new with rfl
      cases commits with
      | call other_live phase sent =>
          rcases Option.some.inj same with rfl
          rcases Option.some.inj (live.symm.trans other_live) with rfl
          simp [Call.isOver, phase] at isOver
      | dropped drop pid => simp [Frame.call?] at same

theorem Call.isOver_of_failed {call : Call} (failed : call.failed = true) : call.isOver = true := by
  unfold Call.failed at failed
  unfold Call.isOver
  split at failed
  · rename_i error finished
    rw [finished]
  · rename_i dropped
    rw [dropped]
  · simp at failed

/-- All attempts of a publish with QoS 0 or 2 but the latest are over and have no outbound frame. -/
structure Publisher.Withdrawn (publisher : Publisher config) : Prop where
  onceEach : publisher.inner.OnceEach
  live : ∀ publish publishing, publisher.publishes.get? publish = some publishing →
    ∀ handle ∈ publishing.calls, ∃ call, publisher.inner.calls.get? handle = some call
  earlier : ∀ publish publishing, publisher.publishes.get? publish = some publishing →
    ∀ handle ∈ publishing.calls.tail,
      ∃ call, publisher.inner.calls.get? handle = some call ∧ call.isOver = true
  unsent : ∀ publish publishing, publisher.publishes.get? publish = some publishing →
    publishing.qos ≠ .atLeastOnce → ∀ handle ∈ publishing.calls.tail,
      publisher.inner.Unsent handle

namespace Publisher.Withdrawn

variable {publisher next : Publisher config} {inner : World config} {action : Action}

theorem new (config : CrateConfig) : (Publisher.new config).Withdrawn where
  onceEach := World.OnceEach.new config
  live := by simp [Publisher.new]
  earlier := by simp [Publisher.new]
  unsent := by simp [Publisher.new]

theorem publish (withdrawn : publisher.Withdrawn) (qos : QoS) :
    ({ publisher with publishes := publisher.publishes.insert ⟨qos, 0, []⟩ } :
      Publisher config).Withdrawn := by
  have older : ∀ publish publishing,
      (publisher.publishes.insert ⟨qos, 0, []⟩).get? publish = some publishing →
        publishing.calls = [] ∨ publisher.publishes.get? publish = some publishing := by
    intro publish publishing found
    rw [Table.get?_insert] at found
    split at found
    · rcases Option.some.inj found with rfl
      exact .inl rfl
    · exact .inr found
  refine ⟨withdrawn.onceEach, ?_, ?_, ?_⟩
  · intro publish publishing found handle handle_mem
    rcases older publish publishing found with empty | old
    · simp [empty] at handle_mem
    · exact withdrawn.live publish publishing old handle handle_mem
  · intro publish publishing found handle handle_mem
    rcases older publish publishing found with empty | old
    · simp [empty] at handle_mem
    · exact withdrawn.earlier publish publishing old handle handle_mem
  · intro publish publishing found notOne handle handle_mem
    rcases older publish publishing found with empty | old
    · simp [empty] at handle_mem
    · exact withdrawn.unsent publish publishing old notOne handle handle_mem

theorem other (withdrawn : publisher.Withdrawn)
    (stepped : step publisher.inner action = some inner) :
    ({ publisher with inner := inner } : Publisher config).Withdrawn := by
  have transition := (transition_of_step stepped).2
  refine ⟨withdrawn.onceEach.step stepped, ?_, ?_, ?_⟩
  · intro publish publishing found handle handle_mem
    rcases withdrawn.live publish publishing found handle handle_mem with ⟨call, live⟩
    rcases transition.callGoesOn live with ⟨call', live', _⟩
    exact ⟨call', live'⟩
  · intro publish publishing found handle handle_mem
    rcases withdrawn.earlier publish publishing found handle handle_mem with ⟨call, live, isOver⟩
    rcases transition.callGoesOn live with ⟨call', live', goesOn⟩
    rcases goesOn.isOver isOver with rfl
    exact ⟨call', live', isOver⟩
  · intro publish publishing found notOne handle handle_mem
    rcases withdrawn.earlier publish publishing found handle handle_mem with ⟨call, live, isOver⟩
    have unsent := withdrawn.unsent publish publishing found notOne handle handle_mem
    exact unsent.step live isOver stepped

/-- All attempts of a publish are over when the last one has failed. -/
theorem isOver_of_mayAttempt (withdrawn : publisher.Withdrawn) {publish : ℕ}
    {publishing : Publishing} (found : publisher.publishes.get? publish = some publishing)
    (may : publisher.mayAttempt publishing) :
    ∀ handle ∈ publishing.calls,
      ∃ call, publisher.inner.calls.get? handle = some call ∧ call.isOver = true := by
  intro handle handle_mem
  have earlier := withdrawn.earlier publish publishing found
  rcases withdrawn.live publish publishing found handle handle_mem with ⟨call, live⟩
  rcases calls : publishing.calls with _ | ⟨latest, rest⟩
  · simp [calls] at handle_mem
  · rw [calls] at handle_mem earlier
    rcases List.mem_cons.mp handle_mem with rfl | older
    · refine ⟨call, live, Call.isOver_of_failed ?_⟩
      exact may.2 handle (by simp [calls]) call live
    · exact earlier handle older

theorem attempt (withdrawn : publisher.Withdrawn) {publish : ℕ} {publishing : Publishing}
    (found : publisher.publishes.get? publish = some publishing)
    (may : publisher.mayAttempt publishing)
    (retries : RetriesUnsent publisher (.attempt publish))
    (stepped : step publisher.inner (.send (.publish publishing.qos)) = some inner) :
    (publisher.attempt publish publishing inner).Withdrawn := by
  have others := withdrawn.other stepped
  have ended := withdrawn.isOver_of_mayAttempt found may
  have transition := (transition_of_step stepped).2
  have inner_eq : inner = publisher.inner.send (.publish publishing.qos) := by
    cases transition with
    | send => rfl
  -- what holds of the old attempts after the step
  have still : ∀ handle ∈ publishing.calls,
      ∃ call, inner.calls.get? handle = some call ∧ call.isOver = true := by
    intro handle handle_mem
    rcases ended handle handle_mem with ⟨call, live, isOver⟩
    rcases transition.callGoesOn live with ⟨call', live', goesOn⟩
    rcases goesOn.isOver isOver with rfl
    exact ⟨call', live', isOver⟩
  have unsent : publishing.qos ≠ .atLeastOnce → ∀ handle ∈ publishing.calls,
      inner.Unsent handle := by
    intro notOne handle handle_mem
    rcases ended handle handle_mem with ⟨call, live, isOver⟩
    exact (retries publish rfl publishing found notOne handle handle_mem).step live isOver stepped
  have entries : ∀ other publishing',
      (publisher.attempt publish publishing inner).publishes.get? other = some publishing' →
        (publisher.publishes.get? other = some publishing') ∨
        (publishing'.qos = publishing.qos ∧
          ((∃ handle call, publishing'.calls = handle :: publishing.calls ∧
              inner.calls.get? handle = some call) ∨
            publishing'.calls = publishing.calls)) := by
    intro other publishing' live
    simp only [Publisher.attempt] at live
    rw [Table.get?_replace found] at live
    split at live
    · rcases Option.some.inj live with rfl
      refine .inr ⟨rfl, ?_⟩
      dsimp only
      split
      · rename_i room
        refine .inl ⟨publisher.inner.calls.next,
          ⟨.publish publishing.qos, publisher.inner.shared.nextPid, .checked⟩, rfl, ?_⟩
        rw [inner_eq]
        unfold World.send
        rw [if_pos room]
        exact Table.get?_insert_next _ _
      · exact .inr rfl
    · exact .inl live
  refine ⟨others.onceEach, ?_, ?_, ?_⟩
  · intro other publishing' live handle handle_mem
    rcases entries other publishing' live with old | ⟨_, ⟨newest, call, calls, newest_live⟩ | calls⟩
    · exact others.live other publishing' old handle handle_mem
    · rw [calls] at handle_mem
      rcases List.mem_cons.mp handle_mem with rfl | older
      · exact ⟨call, newest_live⟩
      · rcases still handle older with ⟨call, older_live, _⟩
        exact ⟨call, older_live⟩
    · rcases still handle (calls ▸ handle_mem) with ⟨call, older_live, _⟩
      exact ⟨call, older_live⟩
  · intro other publishing' live handle handle_mem
    rcases entries other publishing' live with old | ⟨_, ⟨newest, call, calls, _⟩ | calls⟩
    · exact others.earlier other publishing' old handle handle_mem
    · rw [calls] at handle_mem
      exact still handle handle_mem
    · rw [calls] at handle_mem
      exact still handle (List.mem_of_mem_tail handle_mem)
  · intro other publishing' live notOne handle handle_mem
    rcases entries other publishing' live with old | ⟨sameQos, ⟨newest, call, calls, _⟩ | calls⟩
    · exact others.unsent other publishing' old notOne handle handle_mem
    · rw [calls] at handle_mem
      exact unsent (sameQos ▸ notOne) handle handle_mem
    · rw [calls] at handle_mem
      exact unsent (sameQos ▸ notOne) handle (List.mem_of_mem_tail handle_mem)

theorem step {action : PublishAction} (withdrawn : publisher.Withdrawn)
    (retries : RetriesUnsent publisher action)
    (stepped : publishStep publisher action = some next) : next.Withdrawn := by
  unfold publishStep at stepped
  split at stepped
  · rename_i qos
    simp only [Option.ite_none_right_eq_some, Option.some.injEq] at stepped
    rcases stepped with ⟨_, rfl⟩
    exact withdrawn.publish qos
  · rename_i publish
    simp only [Option.bind_eq_bind, Option.bind_eq_some_iff, Option.ite_none_right_eq_some,
      Option.some.injEq] at stepped
    rcases stepped with ⟨publishing, found, may, inner, sent, rfl⟩
    exact withdrawn.attempt found may retries sent
  · simp at stepped
  · rcases Option.map_eq_some_iff.mp stepped with ⟨inner, inner_stepped, rfl⟩
    exact withdrawn.other inner_stepped

/-- A publish with QoS 0 or 2 was written at most once. -/
theorem length_copies_le (withdrawn : publisher.Withdrawn) {publish : ℕ}
    {publishing : Publishing} (found : publisher.publishes.get? publish = some publishing)
    (notOne : publishing.qos ≠ .atLeastOnce) : (publisher.copies publishing).length ≤ 1 := by
  have sent : ∀ frame ∈ publisher.inner.transmissions, frame ∈ publisher.inner.outbound :=
    fun frame frame_mem => List.mem_append_left _ frame_mem
  have unsent := withdrawn.unsent publish publishing found notOne
  rcases calls : publishing.calls with _ | ⟨latest, rest⟩
  · simp [Publisher.copies, calls]
  · rw [calls] at unsent
    have only_latest : publisher.copies publishing =
        publisher.inner.transmissions.filter fun frame => frame.call? == some latest := by
      apply List.filter_congr
      intro frame frame_mem
      simp only [calls, List.any_cons]
      have not_rest : rest.any (fun handle => frame.call? == some handle) = false := by
        rw [List.any_eq_false]
        intro handle handle_mem
        simpa using unsent handle handle_mem frame (sent frame frame_mem)
      rw [not_rest, Bool.or_false]
    rw [only_latest, ← List.countP_eq_length_filter]
    apply Nat.le_trans _ (withdrawn.onceEach.once latest)
    exact (List.sublist_append_left _ _).countP_le

theorem noDuplicates (withdrawn : publisher.Withdrawn) : publisher.NoDuplicates := by
  intro publish publishing found
  constructor
  · intro atMostOnce
    exact withdrawn.length_copies_le found (by simp [atMostOnce])
  · intro exactlyOnce frame frame_mem frame' frame_mem'
    have single := withdrawn.length_copies_le found (by simp [exactlyOnce])
    rcases copies : publisher.copies publishing with _ | ⟨only, _ | ⟨second, rest⟩⟩
    · simp [copies] at frame_mem
    · rw [copies, List.mem_singleton] at frame_mem frame_mem'
      rw [frame_mem, frame_mem']
    · simp [copies] at single

end Publisher.Withdrawn

/-- In every run in which an attempt to publish with QoS 0 or 2 begins only while no frame of an
earlier attempt is queued, is being written or was written, the message is written at most once
with QoS 0 and under one identifier with QoS 2. -/
theorem noDuplicates_of_retriesUnsent {actions : List PublishAction} {publisher : Publisher config}
    (retries : Execution.Guarded publishStep RetriesUnsent (Publisher.new config) actions)
    (reached : Execution.run publishStep (Publisher.new config) actions = some publisher) :
    publisher.NoDuplicates := by
  apply Publisher.Withdrawn.noDuplicates
  apply Execution.invariant_of_guarded Publisher.Withdrawn _ retries _ reached
  · intro publisher next action retries withdrawn stepped
    exact withdrawn.step retries stepped
  · exact Publisher.Withdrawn.new config

/-- An attempt that holds the lock `tx_publisher` when it times out is tried again. -/
theorem noDuplicates_of_retriesUnsent_example :
    ∃ publisher, Execution.run publishStep (Publisher.new twoInflight)
        [.other .connect, .other (.connected false), .publish .exactlyOnce, .attempt 0,
          .other (.lock 0), .other (.drop 0 false), .attempt 0, .other (.lock 1),
          .other (.grant 1 (.ok ())), .other (.commit 1), .other .read, .other .written] =
        some publisher ∧
      (publisher.copies ⟨.exactlyOnce, 2, [1, 0]⟩).length = 1 ∧ publisher.NoDuplicates := by
  rcases reached : Execution.run publishStep (Publisher.new twoInflight)
    [.other .connect, .other (.connected false), .publish .exactlyOnce, .attempt 0,
      .other (.lock 0), .other (.drop 0 false), .attempt 0, .other (.lock 1),
      .other (.grant 1 (.ok ())), .other (.commit 1), .other .read, .other .written]
    with _ | publisher
  · exact absurd reached (by decide)
  · refine ⟨publisher, rfl, ?_, noDuplicates_of_retriesUnsent (by decide) reached⟩
    cases reached
    decide

/-- While the stack is held up in writing a PINGREQ, an attempt commits its frame and times out.
The next attempt commits another frame, and both are written. -/
def retryBehindPing (qos : QoS) : List PublishAction :=
  [.other .connect, .other (.connected false), .other .keepAlive, .publish qos, .attempt 0,
    .other (.lock 0), .other (.grant 0 (.ok ())), .other (.commit 0), .other (.drop 0 false),
    .attempt 0, .other (.lock 1), .other (.grant 1 (.ok ())), .other (.commit 1), .other .replied,
    .other .read, .other .written, .other .flushed, .other .transmitted, .other .read,
    .other .written]

/-- With QoS 0 the message is written twice, with QoS 2 under two identifiers. -/
theorem not_noDuplicates_of_timeout :
    (∃ publisher, Execution.run publishStep (Publisher.new twoInflight)
        (retryBehindPing .atMostOnce) = some publisher ∧ ¬publisher.NoDuplicates) ∧
    ∃ publisher, Execution.run publishStep (Publisher.new twoInflight)
        (retryBehindPing .exactlyOnce) = some publisher ∧ ¬publisher.NoDuplicates := by
  constructor
  · refine ⟨_, rfl, ?_⟩
    intro noDuplicates
    exact absurd ((noDuplicates 0 ⟨.atMostOnce, 2, [1, 0]⟩ (by decide)).1 rfl) (by decide)
  · refine ⟨_, rfl, ?_⟩
    intro noDuplicates
    have samePid := (noDuplicates 0 ⟨.exactlyOnce, 2, [1, 0]⟩ (by decide)).2 rfl
      (.send 0 (.publish .exactlyOnce) ⟨2, by decide, by decide⟩) (by decide)
      (.send 1 (.publish .exactlyOnce) ⟨3, by decide, by decide⟩) (by decide)
    exact absurd samePid (by decide)

end Mqttrust.System
