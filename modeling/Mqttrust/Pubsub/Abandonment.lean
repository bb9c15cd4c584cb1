import Mqttrust.Pubsub.Invariant

/-!
# Write grants that are dropped

A write grant that is dropped without a commit is documented to publish nothing.
It does commit: `FrameGrantW::drop` calls `commit_inner` with the length that
`to_commit` has set, which is zero then, and as long as there is a subscriber an
empty frame is queued. Only without a subscriber is the channel left as if the
grant had not been taken.

What a channel does from then on is compared by its runs. No operation reads what
was recorded before, so two channels that differ in their past only go on alike.
-/

namespace Mqttrust.Pubsub

namespace World

/-- The channel with an earlier history. -/
def after (earlier : List Event) (world : World) : World :=
  { world with history := world.history ++ earlier }

/-- The channel with an empty history. -/
def forget (world : World) : World := { world with history := [] }

/-- The channel with what was recorded since an earlier state of it. -/
def since (start world : World) : World :=
  { world with history := world.history.take (world.history.length - start.history.length) }

/-- The channel as if a write grant had not been taken. -/
def ungranted (world : World) (writer : ℕ) : World :=
  { world with
    inner := { world.inner with writeInProgress := false }
    writers := world.writers.remove writer }

/-- The channel goes on, whatever is done with it, as if the write grant had not been taken. -/
def Abandons (config : ChannelConfig) (world next : World) (writer : ℕ) : Prop :=
  next.inner = (world.ungranted writer).inner ∧
    ∀ later, (Execution.run (step config) next later).map (since next) =
      (Execution.run (step config) (world.ungranted writer) later).map
        (since (world.ungranted writer))

variable {config : ChannelConfig} {capacity : ℕ} {world next : World}

theorem reader?_after (earlier : List Event) (world : World) (reader : ℕ) :
    (world.after earlier).reader? reader = world.reader? reader := rfl

/-- No call reads the history. -/
theorem step_after (earlier : List Event) (world : World) (action : Action) :
    step config (world.after earlier) action =
      (step config world action).map (World.after earlier) := by
  cases action with
  | publisher =>
      rcases taken : world.inner.publisherTaken with _ | _
      · simp [step, World.publisher, after, taken]
      · simp [step, World.publisher, after, taken]
  | subscriber =>
      by_cases full : config.subs % 256 ≤ world.inner.subscriberCount
      · simp [step, World.subscriber, after, full]
      · simp [step, World.subscriber, after, full]
  | clear => rfl
  | dropPublisher =>
      rcases taken : world.inner.publisherTaken with _ | _
      · simp [step, after, taken]
      · simp [step, after, taken]
  | grant maxSz cx =>
      rcases taken : world.inner.publisherTaken with _ | _
      · simp [step, after, taken]
      · rcases called : world.inner.grantWithContext config maxSz cx with ⟨inner, _ | grant⟩
        · simp [step, World.grant, World.addWriter, after, taken, called]
        · simp [step, World.grant, World.addWriter, after, taken, called]
  | grantImmediate maxSz =>
      rcases taken : world.inner.publisherTaken with _ | _
      · simp [step, after, taken]
      · rcases called : world.inner.grantImmediate config maxSz with ⟨inner, _ | grant⟩
        · simp [step, World.grantImmediate, World.addWriter, after, taken, called]
        · simp [step, World.grantImmediate, World.addWriter, after, taken, called]
  | write writer offset byte =>
      rcases live : world.writers.get? writer with _ | grant
      · simp [step, after, live]
      · by_cases inside : offset < grant.len
        · simp [step, after, live, inside]
        · simp [step, after, live, inside]
  | setPid writer pid | toCommit writer amt =>
      rcases live : world.writers.get? writer with _ | grant
      · simp [step, after, live]
      · simp [step, after, live]
  | commit writer used | dropWriter writer =>
      rcases live : world.writers.get? writer with _ | grant
      · simp [step, after, live]
      · simp [step, World.commit, after, live]
  | read subscriber cx =>
      rcases live : world.subscribers.get? subscriber with _ | reader
      · simp [step, after, live]
      · rcases called : world.inner.readWithContext config reader cx with
          ⟨inner, reader', _ | grant⟩
        · simp [step, World.read, after, live, called]
        · simp [step, World.read, after, live, called]
  | autoRelease reader isAuto | release reader =>
      rcases live : world.reader? reader with _ | grant
      · simp [step, reader?_after, live]
      · simp [step, World.release, reader?_after, live]
        rfl
  | bufMut reader offset byte =>
      rcases live : world.reader? reader with _ | grant
      · simp [step, reader?_after, live]
      · by_cases inside : offset < grant.len
        · simp [step, reader?_after, live, inside]
          rfl
        · simp [step, reader?_after, live, inside]
  | dropReader reader =>
      rcases live : world.reader? reader with _ | grant
      · simp [step, reader?_after, live]
      · rcases isAuto : grant.autoRelease with _ | _
        · simp [step, World.dropReader, reader?_after, live, isAuto]
          rfl
        · simp [step, World.dropReader, World.release, reader?_after, live, isAuto]
          rfl
  | dropSubscriber subscriber =>
      rcases live : world.subscribers.get? subscriber with _ | reader
      · simp [step, after, live]
      · simp [step, World.dropSubscriber, after, live]

theorem run_after (earlier : List Event) (world : World) (actions : List Action) :
    Execution.run (step config) (world.after earlier) actions =
      (Execution.run (step config) world actions).map (World.after earlier) := by
  induction actions generalizing world with
  | nil => rfl
  | cons action rest ih =>
      rw [Execution.run_cons, Execution.run_cons, step_after, Option.map_bind, Option.bind_map]
      congr 1
      funext next
      exact ih next

theorem since_after (earlier : List Event) (start : World) (final : World) :
    since (start.after earlier) (final.after earlier) = since start final := by
  simp only [since, after, List.length_append, World.mk.injEq, true_and]
  rw [Nat.add_sub_add_right, List.take_append_of_le_length (Nat.sub_le _ _)]

/-- Channels that differ in their past only go on alike. -/
theorem run_since_congr {left right : World} (same : left.forget = right.forget)
    (later : List Action) :
    (Execution.run (step config) left later).map (since left) =
      (Execution.run (step config) right later).map (since right) := by
  have fresh : ∀ world : World, (Execution.run (step config) world later).map (since world) =
      (Execution.run (step config) world.forget later).map (since world.forget) := by
    intro world
    have restarted : Execution.run (step config) world later =
        (Execution.run (step config) world.forget later).map (World.after world.history) :=
      run_after world.history world.forget later
    rw [restarted, Option.map_map]
    congr 1
    funext final
    exact since_after world.history world.forget final
  rw [fresh left, fresh right, same]

/-- Dropping a write grant that was not committed leaves the channel as if the grant had not been
taken exactly when there is no subscriber. -/
theorem dropWriter_abandons_iff {actions : List Action} {writer : ℕ} {grant : FrameGrantW}
    (reached : runFrom config capacity actions = some world)
    (live : world.writers.get? writer = some grant) (uncommitted : grant.toCommit = 0)
    (stepped : step config world (.dropWriter writer) = some next) :
    Abandons config world next writer ↔ world.inner.subscriberCount = 0 := by
  have invariant := World.Invariant.of_runFrom reached
  have writing := invariant.writer_writes writer grant live
  simp only [step, live, Option.bind_eq_bind, Option.bind_some, Option.some.injEq,
    uncommitted] at stepped
  subst stepped
  rcases State.commitInner_cases grant 0 writing (invariant.room writing) with
    ⟨noneLeft, committed⟩ | ⟨someLeft, committed⟩
  · refine ⟨fun _ => noneLeft, fun _ => ⟨?_, ?_⟩⟩
    · simp only [World.commit, committed, ungranted]
    · apply run_since_congr
      simp only [World.commit, committed, ungranted, forget]
  · constructor
    · intro abandons
      have queue := congrArg (fun inner => inner.messages.length) abandons.1
      simp only [World.commit, committed, ungranted, List.length_append, List.length_singleton]
        at queue
      omega
    · intro noneLeft
      omega

/-- The channel has no subscriber when the write grant is dropped. -/
theorem dropWriter_abandons_iff_example :
    ∃ world next, runFrom ⟨4, 1⟩ 8 [.publisher, .grant 3 none, .write 0 1 7] = some world ∧
      step ⟨4, 1⟩ world (.dropWriter 0) = some next ∧ Abandons ⟨4, 1⟩ world next 0 := by
  rcases reached : runFrom ⟨4, 1⟩ 8 [.publisher, .grant 3 none, .write 0 1 7] with _ | world
  · exact absurd reached (by decide)
  · rcases stepped : step ⟨4, 1⟩ world (.dropWriter 0) with _ | next
    · cases reached
      exact absurd stepped (by decide)
    · refine ⟨world, next, rfl, stepped, ?_⟩
      have live : world.writers.get? 0 = some ⟨0, 3, 0, 0⟩ := by
        cases reached
        decide
      refine (dropWriter_abandons_iff reached live rfl stepped).mpr ?_
      cases reached
      decide

/-- A write grant that is dropped before anything was written queues an empty frame. -/
theorem not_dropWriter_abandons :
    ∃ world next, runFrom ⟨4, 1⟩ 8 [.publisher, .subscriber, .grant 3 none] = some world ∧
      world.writers.get? 0 = some ⟨0, 3, 0, 0⟩ ∧
      step ⟨4, 1⟩ world (.dropWriter 0) = some next ∧
      next.inner.messages = [⟨0, 0, 0, 1, false, 0⟩] ∧ next.inner.nextMessageId = 1 ∧
      ¬Abandons ⟨4, 1⟩ world next 0 := by
  rcases reached : runFrom ⟨4, 1⟩ 8 [.publisher, .subscriber, .grant 3 none] with _ | world
  · exact absurd reached (by decide)
  · rcases stepped : step ⟨4, 1⟩ world (.dropWriter 0) with _ | next
    · cases reached
      exact absurd stepped (by decide)
    · refine ⟨world, next, rfl, ?_, stepped, ?_⟩
      · cases reached
        decide
      · cases reached
        cases stepped
        refine ⟨by decide, by decide, ?_⟩
        intro abandons
        exact absurd (congrArg State.nextMessageId abandons.1) (by decide)

end World

end Mqttrust.Pubsub
