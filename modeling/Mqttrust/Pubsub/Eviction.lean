import Mqttrust.Pubsub.Room

/-!
# Frames lost to refused grants

`grant_immediate` removes the oldest frames until there is room, and only then
asks for a grant. The grant can still be refused: when another one is out, when
a frame that is being read is met, or when even the empty buffer is too small.
The frames that were removed up to then are lost.
-/

namespace Mqttrust.Pubsub

namespace State

variable {config : ChannelConfig} {state : State} {maxSz : ℕ}

/-- A refused call of `grant_immediate` leaves the queue as it is. -/
def RefusesAtomically (config : ChannelConfig) (state : State) (maxSz : ℕ) : Prop :=
  ∀ error, (state.grantImmediate config maxSz).2 = .error error →
    (state.grantImmediate config maxSz).1.messages = state.messages

/-- Some of the oldest frames, none of which is being read, can be removed to make room. -/
def Evictable (config : ChannelConfig) (state : State) (maxSz : ℕ) : Prop :=
  ∃ gone kept, state.messages = gone ++ kept ∧
    (∀ header ∈ gone, header.readInProgress = false) ∧
    HasRoom config { state with messages := kept } maxSz

/-- The loop of `grant_immediate` stops at once when there is room, at an empty queue and at a frame
that is being read. -/
theorem evict_eq_self {messages : List Header}
    (stops : HasRoom config { state with messages := messages } maxSz ∨ messages = [] ∨
      ∃ front ∈ messages.head?, front.readInProgress = true) :
    (state.evict config maxSz messages).1 = messages := by
  cases messages with
  | nil => rfl
  | cons front rest =>
      simp only [evict]
      split
      · rename_i lacksRoom
        rcases stops with room | empty | ⟨oldest, first, reading⟩
        · exact absurd room (lacksRoom_iff.mp lacksRoom)
        · simp at empty
        · simp only [List.head?_cons, Option.mem_def, Option.some.injEq] at first
          subst first
          rw [if_pos reading]
      · rfl

/-- The loop goes on at a frame that is not being read when there is no room. -/
theorem evict_cons {front : Header} {rest : List Header}
    (lacksRoom : ¬HasRoom config { state with messages := front :: rest } maxSz)
    (idle : front.readInProgress = false) :
    state.evict config maxSz (front :: rest) = state.evict config maxSz rest := by
  simp only [evict]
  rw [if_pos (lacksRoom_iff.mpr lacksRoom), if_neg (by simp [idle])]

/-- The loop makes room when that is possible. -/
theorem evict_makes_room (state : State) {messages : List Header}
    (evictable : Evictable config { state with messages := messages } maxSz) :
    ∃ kept, state.evict config maxSz messages = (kept, .ok ()) ∧
      HasRoom config { state with messages := kept } maxSz := by
  induction messages with
  | nil =>
      rcases evictable with ⟨gone, kept, split_eq, _, room⟩
      rcases List.append_eq_nil_iff.mp split_eq.symm with ⟨_, rfl⟩
      exact ⟨[], rfl, room⟩
  | cons front rest ih =>
      by_cases room : HasRoom config { state with messages := front :: rest } maxSz
      · refine ⟨front :: rest, ?_, room⟩
        have enough := mt lacksRoom_iff.mp (not_not_intro room)
        simp only [evict]
        rw [if_neg enough]
      · rcases evictable with ⟨gone, kept, split_eq, idle, makesRoom⟩
        cases gone with
        | nil =>
            rw [List.nil_append] at split_eq
            subst split_eq
            exact absurd makesRoom room
        | cons first gone =>
            simp only [List.cons_append, List.cons.injEq] at split_eq
            rcases split_eq with ⟨rfl, split_eq⟩
            rw [evict_cons room (idle front (by simp))]
            apply ih
            refine ⟨gone, kept, split_eq, ?_, makesRoom⟩
            intro header header_mem
            exact idle header (by simp [header_mem])

theorem grantImmediate_of_error {error : Error} {kept : List Header}
    (evicted : state.evict config maxSz state.messages = (kept, .error error)) :
    state.grantImmediate config maxSz = ({ state with messages := kept }, .error error) := by
  simp only [grantImmediate, evicted]

theorem grantImmediate_of_ok {kept : List Header}
    (evicted : state.evict config maxSz state.messages = (kept, .ok ())) :
    state.grantImmediate config maxSz =
      grantWithContext config { state with messages := kept } maxSz none := by
  simp only [grantImmediate, evicted]

/-- After the eviction the call is given a grant when there is one to give. -/
theorem grantImmediate_of_grants
    (grants : Grants config
      { state with messages := (state.evict config maxSz state.messages).1 } maxSz) :
    state.grantImmediate config maxSz =
      grantWithContext config
        { state with messages := (state.evict config maxSz state.messages).1 } maxSz none := by
  rcases exists_evicted config state maxSz state.messages with ⟨gone, split_eq, idle⟩
  have evictable : state.Evictable config maxSz := ⟨gone, _, split_eq, idle, grants.2⟩
  rcases evict_makes_room state evictable with ⟨kept, evicted, _⟩
  rw [grantImmediate_of_ok evicted, evicted]

/-- After the eviction the call is refused when there is no grant to give. -/
theorem grantImmediate_of_not_grants
    (refused : ¬Grants config
      { state with messages := (state.evict config maxSz state.messages).1 } maxSz) :
    ∃ error, state.grantImmediate config maxSz =
      ({ state with messages := (state.evict config maxSz state.messages).1 }, .error error) := by
  rcases evicted : state.evict config maxSz state.messages with ⟨kept, result⟩
  rw [evicted] at refused
  cases result with
  | error error => exact ⟨error, grantImmediate_of_error evicted⟩
  | ok done =>
      rcases grantWithContext_of_not_grants refused none with ⟨error, called⟩
      exact ⟨error, by rw [grantImmediate_of_ok evicted, called]; rfl⟩

theorem messages_grantImmediate (config : ChannelConfig) (state : State) (maxSz : ℕ) :
    (state.grantImmediate config maxSz).1.messages =
      (state.evict config maxSz state.messages).1 := by
  rcases evicted : state.evict config maxSz state.messages with ⟨kept, result⟩
  cases result with
  | error error => rw [grantImmediate_of_error evicted]
  | ok done => rw [grantImmediate_of_ok evicted, messages_grantWithContext]

/-- When a call is refused although it removed frames, no removal would have made room or another
grant is out. -/
theorem exists_error_of_grantImmediate
    (refuses : state.writeInProgress = true ∨ ¬state.Evictable config maxSz) :
    ∃ error, (state.grantImmediate config maxSz).2 = .error error := by
  rcases evicted : state.evict config maxSz state.messages with ⟨kept, result⟩
  cases result with
  | error error => exact ⟨error, by rw [grantImmediate_of_error evicted]⟩
  | ok done =>
      have refused : ¬Grants config { state with messages := kept } maxSz := by
        intro grants
        rcases refuses with writing | notEvictable
        · have idle : state.writeInProgress = false := grants.1
          simp [writing] at idle
        · rcases exists_evicted config state maxSz state.messages with ⟨gone, split_eq, idle⟩
          rw [evicted] at split_eq
          exact notEvictable ⟨gone, kept, split_eq, idle, grants.2⟩
      rcases grantWithContext_of_not_grants refused none with ⟨error, called⟩
      exact ⟨error, by rw [grantImmediate_of_ok evicted, called]⟩

/-- A refused call of `grant_immediate` leaves the queue as it is exactly when it begins no eviction
or is not refused: there is room already, the queue is empty or its oldest frame is being read, or
no other grant is out and some of the oldest frames can be removed to make room. -/
theorem grantImmediate_atomic_iff (config : ChannelConfig) (state : State) (maxSz : ℕ) :
    state.RefusesAtomically config maxSz ↔
      state.HasRoom config maxSz ∨ state.messages = [] ∨
        (∃ front ∈ state.messages.head?, front.readInProgress = true) ∨
        state.writeInProgress = false ∧ state.Evictable config maxSz := by
  constructor
  · intro atomic
    by_contra otherwise
    simp only [not_or, not_and] at otherwise
    rcases otherwise with ⟨lacksRoom, nonempty, notReading, notEvictable⟩
    rcases List.exists_cons_of_ne_nil nonempty with ⟨front, rest, queue⟩
    have idle : front.readInProgress = false := by
      simpa [queue] using notReading
    have refuses : state.writeInProgress = true ∨ ¬state.Evictable config maxSz := by
      cases writing : state.writeInProgress with
      | true => exact .inl rfl
      | false => exact .inr (notEvictable writing)
    rcases exists_error_of_grantImmediate refuses with ⟨error, refused⟩
    have same := atomic error refused
    -- the front is gone, so the queue has become shorter
    rw [messages_grantImmediate, queue, evict_cons (by rwa [← queue]) idle] at same
    rcases exists_evicted config state maxSz rest with ⟨gone, split_eq, _⟩
    rw [same] at split_eq
    have lengths := congrArg List.length split_eq
    simp only [List.length_append, List.length_cons] at lengths
    omega
  · intro condition error refused
    rw [messages_grantImmediate]
    rcases condition with room | empty | reading | ⟨writing, evictable⟩
    · exact evict_eq_self (.inl room)
    · exact evict_eq_self (.inr (.inl empty))
    · exact evict_eq_self (.inr (.inr reading))
    · rcases evict_makes_room state evictable with ⟨kept, evicted, room⟩
      have grants : Grants config { state with messages := kept } maxSz := ⟨writing, room⟩
      rw [grantImmediate_of_ok evicted, grantWithContext_of_grants grants] at refused
      simp at refused

/-- A message that does not fit into the buffer at all costs the only queued frame. -/
theorem not_grantImmediate_atomic :
    ∃ world, runFrom ⟨4, 1⟩ 8 [.publisher, .subscriber, .grant 3 none, .commit 0 3] = some world ∧
      ¬world.inner.RefusesAtomically ⟨4, 1⟩ 9 := by
  rcases reached : runFrom ⟨4, 1⟩ 8 [.publisher, .subscriber, .grant 3 none, .commit 0 3]
    with _ | world
  · exact absurd reached (by decide)
  · refine ⟨world, rfl, ?_⟩
    cases reached
    intro atomic
    have kept := atomic .insufficientSize (by decide)
    exact absurd kept (by decide)

end State

end Mqttrust.Pubsub
