import Mqttrust.Pubsub.Invariant

/-!
# When a grant is given

A grant is given when no other is out and the queue has room for it: a header can
be queued, and the free space suffices. Room depends only on the regions of the
queued frames. An empty queue has room for everything that fits into the buffer,
and no queue has room for more.
-/

namespace Mqttrust.Pubsub

namespace State

variable {config : ChannelConfig} {state next : State} {maxSz : ℕ}

/-- A header can be queued and the free space suffices. -/
def HasRoom (config : ChannelConfig) (state : State) (maxSz : ℕ) : Prop :=
  maxSz ≤ state.freeSpace ∧ state.messages.length < config.maxPubsubMessages

instance (config : ChannelConfig) (state : State) (maxSz : ℕ) :
    Decidable (state.HasRoom config maxSz) :=
  inferInstanceAs (Decidable (_ ∧ _))

/-- A call of `grant` would be given a write grant. -/
def Grants (config : ChannelConfig) (state : State) (maxSz : ℕ) : Prop :=
  state.writeInProgress = false ∧ state.HasRoom config maxSz

instance (config : ChannelConfig) (state : State) (maxSz : ℕ) :
    Decidable (state.Grants config maxSz) :=
  inferInstanceAs (Decidable (_ ∧ _))

theorem lacksRoom_iff :
    (decide (state.freeSpace < maxSz) || state.messagesFull config) = true ↔
      ¬state.HasRoom config maxSz := by
  simp only [HasRoom, messagesFull, Bool.or_eq_true, decide_eq_true_eq]
  omega

theorem grantWithContext_of_grants (grants : state.Grants config maxSz) (cx : Option Waker) :
    state.grantWithContext config maxSz cx =
      ({ state with writeInProgress := true },
        .ok { start := state.newStart maxSz, len := maxSz, toCommit := 0, pid := 0 }) := by
  have fits : (decide (maxSz > state.freeSpace) || state.messagesFull config) = false := by
    have := mt lacksRoom_iff.mp (not_not_intro grants.2)
    simpa using this
  simp only [grantWithContext, grants.1, Bool.false_eq_true, if_false, fits]

theorem grantWithContext_of_not_grants (refused : ¬state.Grants config maxSz)
    (cx : Option Waker) :
    ∃ error, state.grantWithContext config maxSz cx =
      ({ state with wakers := state.wakers.registerPublisher cx }, .error error) := by
  rcases called : state.grantWithContext config maxSz cx with ⟨inner, result⟩
  cases result with
  | error error =>
      have := grantWithContext_eq_error called
      exact ⟨error, by rw [this]⟩
  | ok grant =>
      rcases grantWithContext_eq_ok called with ⟨idle, fits, room, _, _⟩
      exact absurd ⟨idle, fits, room⟩ refused

/-- A call of `grant` is answered with a grant exactly when there is one to give. -/
theorem exists_grant_iff (cx : Option Waker) :
    (∃ grant, (state.grantWithContext config maxSz cx).2 = .ok grant) ↔
      state.Grants config maxSz := by
  constructor
  · rintro ⟨grant, given⟩
    by_contra refused
    rcases grantWithContext_of_not_grants refused cx with ⟨error, called⟩
    rw [called] at given
    simp at given
  · intro grants
    exact ⟨_, by rw [grantWithContext_of_grants grants]⟩

theorem refusal_of_not_grants (refused : ¬state.Grants config maxSz) (cx : Option Waker) :
    (state.grantWithContext config maxSz cx).2 = .error .grantInProgress ∨
      (state.grantWithContext config maxSz cx).2 = .error .insufficientSize := by
  unfold grantWithContext
  cases writing : state.writeInProgress with
  | true => exact Or.inl rfl
  | false =>
      right
      have lacks := lacksRoom_iff.mpr fun room => refused ⟨writing, room⟩
      exact congrArg Prod.snd (if_pos lacks)

/-- `GrantFuture::poll`; `none` stands for `Poll::Pending`. -/
def pollGrant (config : ChannelConfig) (state : State) (sz : ℕ) (cx : Waker) :
    State × Option (Except Error FrameGrantW) :=
  match state.grantWithContext config sz (some cx) with
  | (next, .ok grant) => (next, some (.ok grant))
  | (next, .error .grantInProgress) => (next, none)
  | (next, .error .insufficientSize) => (next, none)
  | (next, .error error) => (next, some (.error error))

/-- The future is never answered with an error: it waits whenever there is no grant to give. -/
theorem pollGrant_pending_iff {sz : ℕ} (cx : Waker) :
    (state.pollGrant config sz cx).2 = none ↔ ¬state.Grants config sz := by
  constructor
  · intro pending grants
    rw [pollGrant, grantWithContext_of_grants grants] at pending
    simp at pending
  · intro refused
    rcases called : state.grantWithContext config sz (some cx) with ⟨next, result⟩
    rcases refusal_of_not_grants refused (some cx) with known | known
    all_goals
      rw [called] at known
      subst known
      rw [pollGrant, called]

theorem freeSpace_of_empty (empty : state.messages = []) : state.freeSpace = state.capacity := by
  simp [freeSpace, empty]

/-- The free space is a function of the regions of the oldest and the newest frame. -/
theorem freeSpace_eq (state : State) :
    state.freeSpace =
      match state.regions.getLast?, state.regions.head? with
      | some back, some front =>
          if back.finish ≤ front.start then front.start - back.finish
          else max front.start (state.capacity - back.finish)
      | _, _ => state.capacity := by
  unfold freeSpace
  rw [State.regions, List.getLast?_map, List.head?_map]
  rcases state.messages.getLast? with _ | back
  · rfl
  · rcases state.messages.head? with _ | front
    · rfl
    · simp only [decide_eq_true_eq]
      rfl

theorem freeSpace_of_regions (capacity : next.capacity = state.capacity)
    (regions : next.regions = state.regions) : next.freeSpace = state.freeSpace := by
  rw [freeSpace_eq, freeSpace_eq, capacity, regions]

theorem hasRoom_of_regions (capacity : next.capacity = state.capacity)
    (regions : next.regions = state.regions) :
    next.HasRoom config maxSz ↔ state.HasRoom config maxSz := by
  have lengths := congrArg List.length regions
  simp only [State.regions, List.length_map] at lengths
  rw [HasRoom, HasRoom, freeSpace_of_regions capacity regions, lengths]

theorem grants_of_regions (capacity : next.capacity = state.capacity)
    (writing : next.writeInProgress = state.writeInProgress)
    (regions : next.regions = state.regions) :
    next.Grants config maxSz ↔ state.Grants config maxSz := by
  rw [Grants, Grants, writing, hasRoom_of_regions capacity regions]

theorem freeSpace_le_capacity (layout : RingLayout state.capacity state.regions) :
    state.freeSpace ≤ state.capacity := by
  unfold freeSpace
  split
  · rename_i back front _ first
    have front_le := layout.inBounds front.region
      (List.mem_map_of_mem (List.mem_of_head? first))
    simp only [Header.region_finish] at front_le
    dsimp only
    split <;> omega
  · exact Nat.le_refl _

theorem le_capacity_of_grants (layout : RingLayout state.capacity state.regions)
    (grants : state.Grants config maxSz) :
    maxSz ≤ state.capacity ∧ 0 < config.maxPubsubMessages := by
  have := freeSpace_le_capacity layout
  have := grants.2.1
  have := grants.2.2
  omega

theorem hasRoom_of_empty (empty : state.messages = []) :
    state.HasRoom config maxSz ↔ maxSz ≤ state.capacity ∧ 0 < config.maxPubsubMessages := by
  rw [HasRoom, freeSpace_of_empty empty, empty, List.length_nil]

end State

end Mqttrust.Pubsub
