import Mqttrust.Pubsub.Pipe

/-!
# What a publisher hands to a channel

Everything that is committed is handed to the channel, whether there are
subscribers or not. The subscribers hand nothing to it, and they leave the write
grants alone.
-/

namespace Mqttrust.Pubsub

/-- Whether a call of the interface of a channel is one that a subscriber makes. -/
def Action.isSubscriber : Action → Bool
  | .subscriber | .read _ _ | .autoRelease _ _ | .bufMut _ _ _ | .release _ | .dropReader _
  | .dropSubscriber _ => true
  | _ => false

/-- The bytes that are handed to the channel. -/
def Event.handed? : Event → Option (List UInt8)
  | .committed frame => some frame.bytes
  | .discarded bytes => some bytes
  | _ => none

/-- What was committed, most recent first. -/
def handed (history : List Event) : List (List UInt8) := history.filterMap Event.handed?

namespace World

variable {config : ChannelConfig} {capacity : ℕ} {world next : World}

theorem handed_of_isSubscriber {action : Action} (isSubscriber : action.isSubscriber = true)
    (stepped : step config world action = some next) :
    handed next.history = handed world.history ∧ next.writers = world.writers := by
  cases World.call_of_step stepped with
  | subscriber =>
      unfold World.subscriber
      split <;> exact ⟨rfl, rfl⟩
  | read =>
      unfold World.read
      split <;> exact ⟨rfl, rfl⟩
  | autoRelease | bufMut | release | dropReader | leakReader | dropSubscriber =>
      exact ⟨rfl, rfl⟩
  | _ => simp [Action.isSubscriber] at isSubscriber

theorem handed_grantImmediate {maxSz : ℕ}
    (stepped : step config world (.grantImmediate maxSz) = some next) :
    handed next.history = handed world.history ∧
      ∀ grant, next.writers.get? world.writers.next = some grant →
        grant.len = maxSz ∧ grant.toCommit = 0 := by
  simp only [step, Option.ite_none_right_eq_some, Option.some.injEq] at stepped
  rcases stepped with ⟨_, rfl⟩
  rcases called : world.inner.grantImmediate config maxSz with ⟨inner, result⟩
  rcases State.grantImmediate_eq called with ⟨gone, kept, split, _, outcome⟩
  simp only [World.grantImmediate, called]
  refine ⟨rfl, ?_⟩
  intro grant live
  rcases outcome with ⟨rfl, error, rfl⟩ | granted
  · simp [addWriter] at live
  · cases result with
    | error error => simp [addWriter] at live
    | ok grant' =>
        rcases State.grantWithContext_eq_ok granted with ⟨_, _, _, _, rfl⟩
        have same : (world.writers.insert _).get? world.writers.next = some grant := live
        rw [Table.get?_insert_next, Option.some.injEq] at same
        subst same
        exact ⟨rfl, rfl⟩

theorem handed_commit {writer : ℕ} {grant : FrameGrantW} (invariant : world.Invariant config capacity)
    (live : world.writers.get? writer = some grant) (used : ℕ) :
    handed (world.commit config writer grant used).history =
      bytesAt world.buf ⟨grant.start, min grant.len used⟩ :: handed world.history := by
  have writing := invariant.writer_writes writer grant live
  rcases State.commitInner_cases grant used writing (invariant.room writing) with
    ⟨_, committed⟩ | ⟨_, committed⟩
  · simp only [World.commit, committed]
    rfl
  · simp only [World.commit, committed]
    rfl

/-- A message is stored into a grant of its length and committed. -/
theorem handed_of_stored {writer : ℕ} {grant : FrameGrantW} {bytes : List UInt8}
    (invariant : world.Invariant config capacity)
    (live : world.writers.get? writer = some grant) (length : bytes.length = grant.len)
    (ran : Execution.run (step config) world
      (stores writer 0 bytes ++ [.commit writer grant.len]) = some next) :
    next.Invariant config capacity ∧ handed next.history = bytes :: handed world.history := by
  refine ⟨Execution.invariant_of_run (World.Invariant config capacity)
    (fun invariant stepped => invariant.step stepped) invariant ran, ?_⟩
  rw [Execution.run_append, Publishes.run_stores config live (by omega), Option.bind_some,
    Execution.run_cons_eq_some] at ran
  rcases ran with ⟨after, committed, ended⟩
  rcases Option.some.inj ended with rfl
  rcases Option.bind_eq_some_iff.mp committed with ⟨grant', live', committed⟩
  rcases Option.some.inj (live.symm.trans live') with rfl
  rcases Option.some.inj committed with rfl
  have stored : World.Invariant config capacity
      { world with buf := fill world.buf (grant.start + 0) bytes } :=
    invariant.of_eq rfl rfl rfl rfl rfl rfl rfl
  rw [handed_commit stored live, Nat.min_self, Nat.add_zero, ← length, bytesAt_fill]

end World

end Mqttrust.Pubsub
