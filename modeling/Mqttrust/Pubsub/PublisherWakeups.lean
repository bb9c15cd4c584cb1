import Mqttrust.Pubsub.Effect

/-!
# The wake-ups of the publisher

The future of a grant registers its waker when it has to wait. A vigil keeps the
size of the last pending grant, as long as the waker has not been woken: the
registration loses its waker only by waking it.

A frame that is released and a subscriber that is dropped wake the publisher when
they remove a frame. Three calls do not: the commit of the outstanding write grant,
which ends the other reason for waiting, the removal of all messages, and a call of
`grant_immediate` that removes frames and is refused. The file says when such a call
leaves room for a pending grant.
-/

namespace Mqttrust.Pubsub

/-- The calls that can make a grant possible without waking the publisher. -/
def Action.frees : Action → Bool
  | .commit _ _ | .dropWriter _ | .clear | .grantImmediate _ => true
  | _ => false

namespace State

/-- The queue after a part of a write grant is committed. -/
def afterCommit (state : State) (grant : FrameGrantW) (used : ℕ) : State :=
  if state.subscriberCount = 0 then state
  else { state with messages := state.messages ++ [state.commitHeader grant used] }

/-- The queue after the oldest frames are removed, up to one that is being read. -/
def afterEviction (state : State) : State :=
  { state with messages := state.messages.dropWhile fun header => !header.readInProgress }

variable {config : ChannelConfig} {state : State} {maxSz sz : ℕ}

theorem evict_eq_dropWhile (state : State) {messages : List Header}
    (refused : ¬Evictable config { state with messages := messages } maxSz) :
    (state.evict config maxSz messages).1 =
      messages.dropWhile fun header => !header.readInProgress := by
  induction messages with
  | nil => rfl
  | cons front rest ih =>
      have lacksRoom : ¬HasRoom config { state with messages := front :: rest } maxSz := by
        intro room
        exact refused ⟨[], front :: rest, rfl, by simp, room⟩
      cases reading : front.readInProgress with
      | true =>
          rw [List.dropWhile_cons_of_neg (by simp [reading])]
          exact evict_eq_self (.inr (.inr ⟨front, rfl, reading⟩))
      | false =>
          rw [evict_cons lacksRoom reading, List.dropWhile_cons_of_pos (by simp [reading])]
          apply ih
          rintro ⟨gone, kept, split, idle, room⟩
          refine refused ⟨front :: gone, kept, congrArg (front :: ·) split, ?_, room⟩
          intro header header_mem
          rcases List.mem_cons.mp header_mem with rfl | later
          · exact reading
          · exact idle header later

/-- A call of `grant_immediate` leaves no grant to give when it is given one itself, when another
one is out, or when there is no room without the frames that it can remove. -/
theorem grants_grantImmediate_iff :
    ¬(state.grantImmediate config maxSz).1.Grants config sz ↔
      state.writeInProgress = true ∨ state.Evictable config maxSz ∨
        ¬state.afterEviction.HasRoom config sz := by
  rcases exists_evicted config state maxSz state.messages with ⟨gone, split, idle⟩
  by_cases grants : Grants config
      { state with messages := (state.evict config maxSz state.messages).1 } maxSz
  · have evictable : state.Evictable config maxSz := ⟨gone, _, split, idle, grants.2⟩
    rw [grantImmediate_of_grants grants, grantWithContext_of_grants grants]
    simp [Grants, evictable]
  · rcases grantImmediate_of_not_grants grants with ⟨error, called⟩
    rw [called]
    cases writing : state.writeInProgress with
    | true => simp [Grants]
    | false =>
        have refused : ¬state.Evictable config maxSz := by
          intro evictable
          rcases evict_makes_room state evictable with ⟨kept, evicted, room⟩
          rw [evicted] at grants
          exact grants ⟨writing, room⟩
        have dropped := evict_eq_dropWhile state refused
        rw [dropped]
        simp [Grants, writing, refused, afterEviction]

/-- A subscriber that is dropped wakes the publisher when it removes a frame. -/
theorem publisher_dropSubscriber {reader : FrameSubscriber}
    (removed : (state.dropSubscriber reader).messages.length < state.messages.length) :
    (state.dropSubscriber reader).wakers.publisher = none := by
  unfold dropSubscriber at removed ⊢
  simp only at removed ⊢
  split at removed
  · rename_i current
    have counted := congrArg List.length (map_key_countOff state reader)
    rw [List.length_map, List.length_map] at counted
    have shorter : (popExhausted (state.countOff reader)).length <
        (state.countOff reader).length := counted.symm ▸ removed
    have same : countOff { state with subscriberCount := state.subscriberCount - 1 } reader =
        state.countOff reader := rfl
    simp only [if_pos current, same, decide_eq_true shorter, if_true]
    rfl
  · exact absurd removed (Nat.lt_irrefl _)

theorem regions_dropSubscriber {reader : FrameSubscriber}
    (asleep : (state.dropSubscriber reader).wakers.publisher.isSome = true) :
    (state.dropSubscriber reader).regions = state.regions := by
  rcases exists_dropped state reader with ⟨gone, keys⟩
  cases gone with
  | nil => rw [regions_eq_map_key, regions_eq_map_key, keys, List.nil_append]
  | cons first gone =>
      have lengths := congrArg List.length keys
      simp only [List.length_map, List.length_append, List.length_cons] at lengths
      rw [publisher_dropSubscriber (by omega)] at asleep
      simp at asleep

end State

/-- A channel together with the pending grant of the publisher. -/
structure Vigil where
  world : World
  /-- The size of the last pending grant, unless the waker of the publisher was woken since. -/
  waiting : Option ℕ

namespace Vigil

/-- A new channel. -/
def new (capacity : ℕ) : Vigil := ⟨World.new capacity, none⟩

/-- The size of the last pending grant, this call included. -/
def registered (config : ChannelConfig) (vigil : Vigil) : Action → Option ℕ
  | .grant sz (some cx) =>
      if (vigil.world.inner.pollGrant config sz cx).2.isNone then some sz else none
  | _ => vigil.waiting

/-- The pending grant would still be refused. -/
def Justified (config : ChannelConfig) (vigil : Vigil) : Prop :=
  ∀ sz ∈ vigil.waiting, ∀ grant,
    (vigil.world.inner.grantWithContext config sz none).2 ≠ .ok grant

/-- The condition on a call. The commit of a write grant leaves no room for the pending grant; the
messages are not cleared, unless another grant is out or the buffer is too small for the pending
one; a call of `grant_immediate` that is refused without another grant being out cannot remove
enough frames for the pending one. -/
def KeepsWaiting (config : ChannelConfig) (vigil : Vigil) : Action → Prop
  | .commit writer used =>
      ∀ sz ∈ vigil.waiting, ∀ grant ∈ vigil.world.writers.get? writer,
        ¬(vigil.world.inner.afterCommit grant used).HasRoom config sz
  | .dropWriter writer =>
      ∀ sz ∈ vigil.waiting, ∀ grant ∈ vigil.world.writers.get? writer,
        ¬(vigil.world.inner.afterCommit grant grant.toCommit).HasRoom config sz
  | .clear =>
      ∀ sz ∈ vigil.waiting, vigil.world.inner.writeInProgress = true ∨
        ¬(sz ≤ vigil.world.inner.capacity ∧ 0 < config.maxPubsubMessages)
  | .grantImmediate maxSz =>
      vigil.world.inner.publisherTaken = true → ∀ sz ∈ vigil.waiting,
        vigil.world.inner.writeInProgress = true ∨ vigil.world.inner.Evictable config maxSz ∨
          ¬vigil.world.inner.afterEviction.HasRoom config sz
  | _ => True

end Vigil

/-- One call of the interface; when no waker of the publisher is registered it was woken. -/
def vigilStep (config : ChannelConfig) (vigil : Vigil) (action : Action) : Option Vigil :=
  (step config vigil.world action).map fun next =>
    { world := next
      waiting := (vigil.registered config action).filter fun _ =>
        next.inner.wakers.publisher.isSome }

/-- A run of a channel with the pending grant of the publisher. -/
abbrev vigilRun (config : ChannelConfig) (capacity : ℕ) (actions : List Action) : Option Vigil :=
  Execution.run (vigilStep config) (Vigil.new capacity) actions

namespace World

variable {config : ChannelConfig} {capacity sz : ℕ} {world next : World}

theorem grants_commit_iff {writer used : ℕ} {grant : FrameGrantW}
    (invariant : world.Invariant config capacity)
    (live : world.writers.get? writer = some grant) :
    (world.commit config writer grant used).inner.Grants config sz ↔
      (world.inner.afterCommit grant used).HasRoom config sz := by
  have writing := invariant.writer_writes writer grant live
  rcases State.commitInner_cases grant used writing (invariant.room writing) with
    ⟨noneLeft, committed⟩ | ⟨someLeft, committed⟩
  · simp only [World.commit, committed, State.Grants, true_and, State.afterCommit, if_pos noneLeft]
    exact State.hasRoom_of_regions rfl rfl
  · simp only [World.commit, committed, State.Grants, true_and, State.afterCommit,
      if_neg (Nat.ne_of_gt someLeft)]
    exact State.hasRoom_of_regions rfl rfl

theorem publisher_commit {writer used : ℕ} {grant : FrameGrantW}
    (invariant : world.Invariant config capacity)
    (live : world.writers.get? writer = some grant) :
    (world.commit config writer grant used).inner.wakers.publisher =
      world.inner.wakers.publisher := by
  have writing := invariant.writer_writes writer grant live
  rcases State.commitInner_cases grant used writing (invariant.room writing) with
    ⟨_, committed⟩ | ⟨_, committed⟩
  all_goals simp only [World.commit, committed, Wakers.wakeSubscribers]

theorem grants_clear_iff :
    world.inner.clear.Grants config sz ↔ world.inner.writeInProgress = false ∧
      sz ≤ world.inner.capacity ∧ 0 < config.maxPubsubMessages := by
  rw [State.Grants, State.hasRoom_of_empty rfl]
  rfl

theorem inner_grantImmediate (world : World) (maxSz : ℕ) :
    (world.grantImmediate config maxSz).inner = (world.inner.grantImmediate config maxSz).1 := by
  rcases called : world.inner.grantImmediate config maxSz with ⟨inner, result⟩
  simp only [World.grantImmediate, called]
  cases result <;> rfl

theorem publisher_grantImmediate (world : World) (maxSz : ℕ) :
    (world.grantImmediate config maxSz).inner.wakers.publisher =
      world.inner.wakers.publisher := by
  rw [inner_grantImmediate]
  by_cases grants : State.Grants config
      { world.inner with
        messages := (world.inner.evict config maxSz world.inner.messages).1 } maxSz
  · rw [State.grantImmediate_of_grants grants, State.grantWithContext_of_grants grants]
  · rcases State.grantImmediate_of_not_grants grants with ⟨error, called⟩
    rw [called]

/-- A call that frees something does not wake the publisher. -/
theorem publisher_of_frees {action : Action} (invariant : world.Invariant config capacity)
    (frees : action.frees = true) (stepped : step config world action = some next) :
    next.inner.wakers.publisher = world.inner.wakers.publisher := by
  cases World.call_of_step stepped with
  | commit _ _ _ live | dropWriter _ _ live =>
      exact publisher_commit invariant live
  | clear => rfl
  | grantImmediate maxSz =>
      exact publisher_grantImmediate world maxSz
  | _ => simp [Action.frees] at frees

end World

namespace Vigil

variable {config : ChannelConfig} {capacity : ℕ} {vigil next : Vigil} {action : Action}

theorem justified_iff : vigil.Justified config ↔
    ∀ sz ∈ vigil.waiting, ¬vigil.world.inner.Grants config sz := by
  simp only [Justified, ← State.exists_grant_iff none, not_exists, ne_eq]

/-- The channel, and a waker for the pending grant. -/
structure Sound (config : ChannelConfig) (capacity : ℕ) (vigil : Vigil) : Prop where
  invariant : vigil.world.Invariant config capacity
  asleep : ∀ sz ∈ vigil.waiting, vigil.world.inner.wakers.publisher.isSome = true

theorem Sound.step (sound : vigil.Sound config capacity)
    (stepped : vigilStep config vigil action = some next) : next.Sound config capacity := by
  rcases Option.map_eq_some_iff.mp stepped with ⟨world, called, rfl⟩
  refine ⟨sound.invariant.step called, ?_⟩
  intro sz waits
  exact (Option.filter_eq_some_iff.mp waits).2

theorem waiting_of_frees (sound : vigil.Sound config capacity) (frees : action.frees = true)
    (stepped : vigilStep config vigil action = some next) : next.waiting = vigil.waiting := by
  rcases Option.map_eq_some_iff.mp stepped with ⟨world, called, rfl⟩
  have same := World.publisher_of_frees sound.invariant frees called
  have registered : vigil.registered config action = vigil.waiting := by
    cases action <;> first | rfl | simp [Action.frees] at frees
  simp only [registered, same]
  rcases waits : vigil.waiting with _ | sz
  · rfl
  · simp [Option.filter, sound.asleep sz waits]

/-- A call that frees something keeps the publisher waiting rightly exactly under the condition. -/
theorem justified_iff_of_frees (sound : vigil.Sound config capacity) (frees : action.frees = true)
    (stepped : vigilStep config vigil action = some next) :
    next.Justified config ↔ vigil.KeepsWaiting config action := by
  rw [justified_iff, waiting_of_frees sound frees stepped]
  rcases Option.map_eq_some_iff.mp stepped with ⟨world, called, rfl⟩
  cases World.call_of_step called with
  | commit _ _ _ live | dropWriter _ _ live =>
      simp only [World.grants_commit_iff sound.invariant live, KeepsWaiting, live, Option.mem_def,
        Option.some.injEq, forall_eq']
  | clear =>
      simp only [World.grants_clear_iff, KeepsWaiting, not_and_or, Bool.not_eq_false]
  | grantImmediate _ taken =>
      simp only [World.inner_grantImmediate, State.grants_grantImmediate_iff, KeepsWaiting, taken,
        forall_const]
  | _ => simp [Action.frees] at frees

/-- The other calls keep the publisher waiting rightly, or wake it. -/
theorem Justified.step (sound : vigil.Sound config capacity) (justified : vigil.Justified config)
    (calm : action.frees = false) (stepped : vigilStep config vigil action = some next) :
    next.Justified config := by
  rw [justified_iff] at justified ⊢
  rcases Option.map_eq_some_iff.mp stepped with ⟨world, called, rfl⟩
  intro sz waits
  rcases Option.filter_eq_some_iff.mp waits with ⟨registered, asleep⟩
  have refused : ¬vigil.world.inner.Grants config sz := by
    unfold Vigil.registered at registered
    split at registered
    · rename_i polled cx
      simp only [Option.isNone_iff_eq_none, Option.ite_none_right_eq_some,
        Option.some.injEq] at registered
      rcases registered with ⟨pending, rfl⟩
      exact (State.pollGrant_pending_iff cx).mp pending
    · exact justified sz registered
  have frame : ∀ next : State, next.capacity = vigil.world.inner.capacity →
      next.writeInProgress = vigil.world.inner.writeInProgress →
      next.regions = vigil.world.inner.regions → ¬next.Grants config sz := by
    intro next capacity writing regions
    rw [State.grants_of_regions capacity writing regions]
    exact refused
  cases World.effect_of_step sound.invariant called with
  | quiet taken inner _ _ =>
      rw [inner]
      exact frame _ rfl rfl rfl
  | subscribe inner _ _ =>
      rw [inner]
      exact frame _ rfl rfl rfl
  | refuse _ inner _ _ =>
      rw [inner]
      exact frame _ rfl rfl rfl
  | grant _ inner _ _ =>
      rw [inner]
      simp [State.Grants]
  | block _ _ _ _ inner _ _ =>
      rw [inner]
      exact frame _ rfl rfl rfl
  | read _ index header _ found _ _ inner _ _ =>
      rw [inner]
      refine frame _ rfl rfl ?_
      rw [State.regions_eq_map_key, State.regions_eq_map_key,
        State.map_key_set found header.key_startRead]
  | flag index header found inner _ _ =>
      rw [inner]
      refine frame _ rfl rfl ?_
      rw [State.regions_eq_map_key, State.regions_eq_map_key,
        State.map_key_set found header.key_endRead]
  | pop _ _ _ inner _ _ =>
      rw [inner] at asleep
      simp [Wakers.wakePublisher, Wakers.wakeSubscribers] at asleep
  | leave reader _ inner _ _ =>
      rw [inner] at asleep ⊢
      rcases State.dropSubscriber_frame vigil.world.inner reader with ⟨sameCapacity, writing, _⟩
      exact frame _ sameCapacity writing (State.regions_dropSubscriber asleep)
  | clear _ _ _ => simp [Action.frees] at calm
  | evict _ _ _ _ _ _ _ _ _ => simp [Action.frees] at calm
  | evictAndGrant _ _ _ _ _ _ _ _ => simp [Action.frees] at calm
  | discard _ _ commits _ _ _ _ =>
      rcases commits with rfl | ⟨rfl, _⟩ <;> simp [Action.frees] at calm
  | commit _ _ _ commits _ _ _ _ _ =>
      rcases commits with rfl | ⟨rfl, _⟩ <;> simp [Action.frees] at calm

/-- The vigil changes nothing: its runs are those of the channel. -/
theorem map_world_vigilRun (config : ChannelConfig) (capacity : ℕ) (actions : List Action) :
    (vigilRun config capacity actions).map Vigil.world = runFrom config capacity actions := by
  apply Execution.run_map
  intro vigil action
  simp [vigilStep, Function.comp_def]

end Vigil

/-- The publisher never waits for a wake-up that has been lost exactly when every call meets the
condition. -/
theorem always_justified_iff (config : ChannelConfig) (capacity : ℕ) (actions : List Action) :
    Execution.Always (vigilStep config) (Vigil.Justified config) (Vigil.new capacity) actions ↔
      Execution.Guarded (vigilStep config) (Vigil.KeepsWaiting config) (Vigil.new capacity)
        actions := by
  apply Execution.always_iff_guarded (fun _ _ => True) (Vigil.Sound config capacity)
    (Vigil.Justified config)
  · intro vigil next action _ sound stepped
    exact sound.step stepped
  · intro vigil next action _ sound justified keeps stepped
    cases frees : action.frees with
    | true => exact (Vigil.justified_iff_of_frees sound frees stepped).mpr keeps
    | false => exact justified.step sound frees stepped
  · intro vigil next action sound _ stepped justified
    cases frees : action.frees with
    | true => exact (Vigil.justified_iff_of_frees sound frees stepped).mp justified
    | false => cases action <;> trivial
  · intro vigil action impossible
    have impossible : step config vigil.world action = none := by
      simpa [vigilStep] using impossible
    cases action with
    | commit writer used =>
        intro sz _ grant live
        simp [step, Option.mem_def.mp live] at impossible
    | dropWriter writer =>
        intro sz _ grant live
        simp [step, Option.mem_def.mp live] at impossible
    | clear => simp [step] at impossible
    | grantImmediate maxSz =>
        intro taken
        simp [step, taken] at impossible
    | _ => trivial
  · exact Execution.guarded_of_forall fun _ _ _ => trivial
  · exact ⟨.new config capacity, by simp [Vigil.new]⟩
  · simp [Vigil.Justified, Vigil.new]

/-- The outstanding write grant is committed while a second one is pending: there is room for it,
and nobody wakes the publisher. -/
theorem not_justified_after_commit :
    ¬∀ (config : ChannelConfig) (capacity : ℕ) (actions : List Action) (vigil : Vigil),
      vigilRun config capacity actions = some vigil → vigil.Justified config := by
  intro claimed
  have justified := claimed ⟨2, 1⟩ 8
    [.publisher, .subscriber, .grant 4 none, .grant 2 (some 7), .commit 0 4] _ rfl
  exact justified 2 (by decide) ⟨4, 2, 0, 0⟩ (by decide)

end Mqttrust.Pubsub
