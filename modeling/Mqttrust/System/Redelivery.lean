import Mqttrust.System.ExactlyOnce

/-!
# Re-sent publishes of QoS 2

A broker that has not seen the PUBREC of a publish of QoS 2 sends it again. The
stack commits the payload of every PUBLISH to the RX channel before it looks at
`incoming_pub`, and ignores whether the identifier was there already, so each
copy is handed to the subscribers.

The runs are recorded: the log tells of each copy that was received whether it
was committed and whether it is answered.
-/

namespace Mqttrust.System

/-- What is recorded of the exchange of publishes of QoS 2 that the broker sends. -/
inductive Exchange where
  /-- A copy was received completely. -/
  | copy (pid : Pid) (committed answered : Bool)
  /-- The broker's PUBREL. -/
  | released (pid : Pid)
  /-- A connection without a session. -/
  | fresh
deriving DecidableEq, Repr

namespace Exchange

/-- The publishes that were committed and that the broker has not released. -/
def held : List Exchange → Finset ℕ
  | [] => ∅
  | .copy pid committed _ :: older => if committed then insert pid.val (held older) else held older
  | .released pid :: older => (held older).erase pid.val
  | .fresh :: _ => ∅

/-- A copy of a publish that is held is answered and not committed again. -/
def ExactlyOnce : List Exchange → Prop
  | [] => True
  | .copy pid committed answered :: older =>
      (pid.val ∈ held older → answered = true ∧ committed = false) ∧ ExactlyOnce older
  | _ :: older => ExactlyOnce older

end Exchange

/-- The identifier and the payload of a received PUBLISH of QoS 2. -/
def Action.copies? : Action → Option (Pid × Payload)
  | .receive (.partialPublish (.exactlyOnce pid) _ _) payload => some (pid, payload)
  | _ => none

variable {config : CrateConfig}

/-- A copy is recorded unless reading it failed. -/
def observedCopy (pid : Pid) (stack : StackPhase) : Payload → List Exchange
  | .failed _ => []
  | payload => [.copy pid (payload == .copied) (stack == .replying (.pubRec pid))]

/-- What is recorded of a step. -/
def observeExchange (_ : World config) (action : Action) (next : World config) : List Exchange :=
  match action with
  | .receive (.partialPublish (.exactlyOnce pid) _ _) payload => observedCopy pid next.stack payload
  | .receive (.pubRel packet) _ => [.released packet.pid]
  | .connected false => [.fresh]
  | _ => []

/-- The condition on a step: no publish that is held is received completely once more. -/
def NotResent (recorded : World config × List Exchange) (action : Action) : Prop :=
  (step recorded.1 action).isSome → ∀ copy ∈ action.copies?,
    (∀ error, copy.2 ≠ .failed error) → copy.1.val ∉ Exchange.held recorded.2

namespace Exchange.ExactlyOnce

theorem copy {pid : Pid} {payload : Payload} {stack : StackPhase} {log : List Exchange}
    (once : ExactlyOnce log)
    (notHeld : (∀ error, payload ≠ .failed error) → pid.val ∉ held log) :
    ExactlyOnce (observedCopy pid stack payload ++ log) := by
  cases payload with
  | failed error => exact once
  | copied =>
      refine ⟨?_, once⟩
      intro isHeld
      exact absurd isHeld (notHeld (by simp))
  | discarded =>
      refine ⟨?_, once⟩
      intro isHeld
      exact absurd isHeld (notHeld (by simp))

theorem other {world next : World config} {action : Action} {log : List Exchange}
    (once : ExactlyOnce log) (notCopy : action.copies? = none) :
    ExactlyOnce (observeExchange world action next ++ log) := by
  unfold observeExchange
  split
  · simp [Action.copies?] at notCopy
  · exact once
  · exact once
  · exact once

end Exchange.ExactlyOnce

/-- A received copy is committed and answered, discarded without an answer, or makes the stack
panic. -/
theorem stack_of_copy {world next : World config} {action : Action} {pid : Pid}
    {payload : Payload} (isCopy : action.copies? = some (pid, payload))
    (stepped : step world action = some next) :
    observeExchange world action next = observedCopy pid next.stack payload ∧
      (payload = .discarded → next.stack = .idle) := by
  unfold Action.copies? at isCopy
  split at isCopy
  · rename_i received topicName publish isPublish
    simp only [Option.some.injEq, Prod.mk.injEq] at isCopy
    rcases isCopy with ⟨rfl, rfl⟩
    refine ⟨rfl, ?_⟩
    rintro rfl
    cases (transition_of_step stepped).2 with
    | receive => rfl
  · simp at isCopy

/-- Every copy of a publish of QoS 2 is answered and only the first one is committed exactly when no
publish that is held is received completely once more. -/
theorem always_exactlyOnce_iff (config : CrateConfig) (actions : List Action) :
    Execution.Always (Execution.record step observeExchange)
        (fun recorded => Exchange.ExactlyOnce recorded.2) (World.new config, []) actions ↔
      Execution.Guarded (Execution.record step observeExchange) NotResent
        (World.new config, []) actions := by
  apply Execution.always_iff_guarded (fun _ _ => True) (fun _ => True)
  · intro recorded next action _ _ _
    trivial
  · intro recorded next action _ _ once notResent recordedStep
    rcases Execution.record_eq_some.mp recordedStep with ⟨stepped, log⟩
    rw [log]
    rcases isCopy : action.copies? with _ | ⟨pid, payload⟩
    · exact once.other isCopy
    · rw [(stack_of_copy isCopy stepped).1]
      apply once.copy
      exact notResent (by simp [stepped]) (pid, payload) isCopy
  · intro recorded next action _ once recordedStep after possible copy isCopy complete isHeld
    rcases Execution.record_eq_some.mp recordedStep with ⟨stepped, log⟩
    rcases copy with ⟨pid, payload⟩
    rcases stack_of_copy isCopy stepped with ⟨observed, idle⟩
    rw [log, observed] at after
    cases payload with
    | failed error => exact complete error rfl
    | copied =>
        have uncommitted := (after.1 isHeld).2
        simp at uncommitted
    | discarded =>
        have answered := (after.1 isHeld).1
        simp [idle rfl] at answered
  · intro recorded action impossible possible
    simp only [Execution.record, Option.map_eq_none_iff] at impossible
    simp [impossible] at possible
  · exact Execution.guarded_of_forall fun _ _ _ => trivial
  · trivial
  · trivial

/-- The broker sends a publish twice before it releases it, and both copies are committed. -/
theorem not_exactlyOnce_of_resent :
    ∃ recorded, Execution.run (Execution.record step observeExchange) (World.new twoInflight, [])
        [.connect, .connected false,
          .receive (inboundPublish ⟨7, by decide, by decide⟩) .copied, .replied,
          .receive (inboundPublish ⟨7, by decide, by decide⟩) .copied, .replied] =
        some recorded ∧
      ¬Exchange.ExactlyOnce recorded.2 := by
  refine ⟨_, rfl, ?_⟩
  intro once
  exact absurd (once.1 (by decide)).2 (by decide)

end Mqttrust.System
