import Mqttrust.Encoding.PropertiesIter
import Mqttrust.System.Pipeline

/-!
# Keep-alive

`select` waits for a frame, for a packet or until the keep-alive interval has passed
since the last network action, and then writes a PINGREQ. Each time it returns
without an error that action is set to the current time, whether it wrote something
or only received it.

A timed pipeline is a pipeline with a clock, which may advance between any two of its
actions. Instants and durations are numbers of ticks, and do not overflow. When the
last packet was written is recorded, and not read by any operation.
-/

namespace Mqttrust

/-- The keep-alive interval that `handle_connack` leaves: the broker may only lower it. -/
def ConnAck.keepaliveInterval (packet : ConnAck) (tickHz interval : ℕ) : ℕ :=
  (PropertiesIter.collect (packet.properties.getD [])).foldl (fun interval item =>
    match item with
    | .ok (.serverKeepAlive keepAlive) => min interval (keepAlive.toNat * tickHz)
    | _ => interval) interval

theorem ConnAck.keepaliveInterval_le (packet : ConnAck) (tickHz interval : ℕ) :
    packet.keepaliveInterval tickHz interval ≤ interval := by
  unfold ConnAck.keepaliveInterval
  induction PropertiesIter.collect (packet.properties.getD []) generalizing interval with
  | nil => exact le_rfl
  | cons item rest ih =>
      rw [List.foldl_cons]
      apply (ih _).trans
      split
      · exact min_le_left _ _
      · exact le_rfl

namespace System

variable {T : Type} {config : CrateConfig}

/-- Whether a packet is completely written and flushed with the action. -/
def PipelineAction.writesPacket : PipelineAction T → Bool
  | .link .greeted | .link (.write .flushed) | .link (.write .replied) => true
  | _ => false

/-- Whether `select` returns without an error with the action, after which the pipeline is the
given one. -/
def PipelineAction.endsSelect (next : Pipeline T config) : PipelineAction T → Bool
  | .skipped | .link (.write .transmitted) | .link (.write .replied) => true
  | .link (.receive _ _) => next.link.world.stack = .idle && next.link.world.panicked.isNone
  | _ => false

/-- Whether `last_network_action` is set with the action: after the CONNECT packet, and at the end
of `select`. -/
def PipelineAction.isNetworkAction (next : Pipeline T config) : PipelineAction T → Bool
  | .link .greeted => true
  | action => action.endsSelect next

/-- A pipeline and its clock. -/
structure Timed (T : Type) (config : CrateConfig) where
  pipeline : Pipeline T config
  now : ℕ
  lastNetworkAction : ℕ
  keepaliveInterval : ℕ
  /-- When the last control packet was written, if there was one. -/
  lastWrite : Option ℕ

/-- What happens to a timed pipeline. -/
inductive TimedAction (T : Type) where
  | tick (ticks : ℕ)
  | pipeline (action : PipelineAction T)

namespace Timed

/-- A new stack, with the interval of its configuration. -/
def new [Transport T] (config : CrateConfig) (capacity : ℕ) (transport : T) (now interval : ℕ) :
    Timed T config where
  pipeline := Pipeline.new config capacity transport
  now := now
  lastNetworkAction := now
  keepaliveInterval := interval
  lastWrite := none

variable (tickHz : ℕ) (timed : Timed T config)

/-- When the timer of `select` expires. -/
def deadline : ℕ := timed.lastNetworkAction + timed.keepaliveInterval

/-- What the pipeline may do at this time: the timer has to expire, and the CONNECT packet announces
the interval in seconds. -/
def allows : PipelineAction T → Bool
  | .link (.write .keepAlive) => timed.deadline ≤ timed.now
  | .opened connect => connect.keepAlive = UInt16.ofNat (timed.keepaliveInterval / tickHz)
  | _ => true

/-- The keep-alive interval after an action. -/
def intervalAfter : PipelineAction T → ℕ
  | .link (.recvConnAck socket) =>
      match timed.pipeline.link.reader.recv socket with
      | .returned (.ok (.connAck packet)) _ _ =>
          packet.keepaliveInterval tickHz timed.keepaliveInterval
      | _ => timed.keepaliveInterval
  | _ => timed.keepaliveInterval

/-- The pipeline has done something. -/
def goOn (action : PipelineAction T) (next : Pipeline T config) : Timed T config where
  pipeline := next
  now := timed.now
  lastNetworkAction :=
    if action.isNetworkAction next then timed.now else timed.lastNetworkAction
  keepaliveInterval := timed.intervalAfter tickHz action
  lastWrite := if action.writesPacket then some timed.now else timed.lastWrite

/-- The timer expires no later than one interval after the last packet was written. -/
def FromLastWrite : Prop :=
  ∀ written, timed.lastWrite = some written → timed.deadline ≤ written + timed.keepaliveInterval

variable {timed}

/-- Both sides count from the same interval, so the timer depends on when they begin. -/
theorem fromLastWrite_iff :
    timed.FromLastWrite ↔
      ∀ written, timed.lastWrite = some written → timed.lastNetworkAction ≤ written := by
  simp only [FromLastWrite, deadline, Nat.add_le_add_iff_right]

/-- A network action that writes nothing is the end of `select`. -/
theorem endsSelect_of_isNetworkAction {action : PipelineAction T} {after : Pipeline T config}
    (isNetworkAction : action.isNetworkAction after = true)
    (silent : action.writesPacket = false) : action.endsSelect after = true := by
  unfold PipelineAction.isNetworkAction at isNetworkAction
  split at isNetworkAction
  · simp [PipelineAction.writesPacket] at silent
  · exact isNetworkAction

end Timed

variable [Transport T]

/-- One action of a timed pipeline. -/
def timedStep (tickHz : ℕ) (timed : Timed T config) : TimedAction T → Option (Timed T config)
  | .tick ticks => some { timed with now := timed.now + ticks }
  | .pipeline action =>
      if timed.allows tickHz action then
        (pipelineStep timed.pipeline action).map (timed.goOn tickHz action)
      else none

/-- A run of a new stack and its client, with the clock. -/
abbrev timedRun (tickHz : ℕ) (config : CrateConfig) (capacity : ℕ) (transport : T)
    (now interval : ℕ) (actions : List (TimedAction T)) : Option (Timed T config) :=
  Execution.run (timedStep tickHz) (.new config capacity transport now interval) actions

/-- When `select` returns and has not just written something, the clock still shows when the last
packet was written. -/
def NoTimeSinceWrite (timed : Timed T config) : TimedAction T → Prop
  | .tick _ => True
  | .pipeline action =>
      ∀ next, pipelineStep timed.pipeline action = some next → action.endsSelect next = true →
        action.writesPacket = false → ∀ written, timed.lastWrite = some written →
        timed.now ≤ written

/-- What the actions of a timed pipeline are for the pipeline. -/
def TimedAction.pipeline? : TimedAction T → Option (PipelineAction T)
  | .tick _ => none
  | .pipeline action => some action

namespace Timed

variable {tickHz : ℕ} {timed next : Timed T config} {action : PipelineAction T}

theorem step_pipeline (stepped : timedStep tickHz timed (.pipeline action) = some next) :
    ∃ after, pipelineStep timed.pipeline action = some after ∧
      next = timed.goOn tickHz action after := by
  simp only [timedStep, Option.ite_none_right_eq_some, Option.map_eq_some_iff] at stepped
  rcases stepped with ⟨_, after, stepped, rfl⟩
  exact ⟨after, stepped, rfl⟩

theorem step_tick {ticks : ℕ} (stepped : timedStep tickHz timed (.tick ticks) = some next) :
    next = { timed with now := timed.now + ticks } :=
  (Option.some.inj stepped).symm

/-- A run of a timed pipeline is one of the pipeline. -/
theorem run_pipeline {actions : List (TimedAction T)}
    (run : Execution.run (timedStep tickHz) timed actions = some next) :
    Execution.run pipelineStep timed.pipeline (actions.filterMap TimedAction.pipeline?) =
      some next.pipeline := by
  induction actions generalizing timed with
  | nil =>
      rcases Option.some.inj run with rfl
      rfl
  | cons action rest ih =>
      rcases Execution.run_cons_eq_some.mp run with ⟨middle, stepped, continued⟩
      cases action with
      | tick ticks =>
          rcases step_tick stepped with rfl
          have later := ih continued
          exact later
      | pipeline action =>
          rcases step_pipeline stepped with ⟨after, followed, rfl⟩
          exact Execution.run_cons_eq_some.mpr ⟨after, followed, ih continued⟩

/-- The interval of the configuration is never exceeded. -/
theorem interval_le_of_step {interval : ℕ} {action : TimedAction T}
    (bounded : timed.keepaliveInterval ≤ interval)
    (stepped : timedStep tickHz timed action = some next) : next.keepaliveInterval ≤ interval := by
  cases action with
  | tick ticks =>
      rcases step_tick stepped with rfl
      exact bounded
  | pipeline action =>
      rcases step_pipeline stepped with ⟨after, _, rfl⟩
      apply le_trans _ bounded
      simp only [goOn, intervalAfter]
      split
      · split
        · exact ConnAck.keepaliveInterval_le _ _ _
        · exact le_rfl
      · exact le_rfl

/-- With a timer that counts from the last packet written, a PINGREQ is due when the interval of the
configuration has passed since. -/
theorem deadline_le_of_fromLastWrite {capacity start interval written : ℕ} {transport : T}
    {actions : List (TimedAction T)}
    (reached : timedRun tickHz config capacity transport start interval actions = some timed)
    (measured : timed.FromLastWrite) (wrote : timed.lastWrite = some written)
    (passed : written + interval ≤ timed.now) : timed.deadline ≤ timed.now := by
  have bounded := Execution.invariant_of_run
    (fun timed : Timed T config => timed.keepaliveInterval ≤ interval)
    (fun bounded stepped => interval_le_of_step bounded stepped) (Nat.le_refl interval) reached
  have due := measured written wrote
  omega

theorem lastNetworkAction_le_of_step {action : TimedAction T}
    (past : timed.lastNetworkAction ≤ timed.now)
    (stepped : timedStep tickHz timed action = some next) :
    next.lastNetworkAction ≤ next.now := by
  cases action with
  | tick ticks =>
      rcases step_tick stepped with rfl
      exact Nat.le_add_right_of_le past
  | pipeline action =>
      rcases step_pipeline stepped with ⟨after, _, rfl⟩
      simp only [goOn]
      split
      · exact le_rfl
      · exact past

theorem fromLastWrite_of_step {action : TimedAction T}
    (past : timed.lastNetworkAction ≤ timed.now) (measured : timed.FromLastWrite)
    (inTime : NoTimeSinceWrite timed action)
    (stepped : timedStep tickHz timed action = some next) : next.FromLastWrite := by
  cases action with
  | tick ticks =>
      rcases step_tick stepped with rfl
      exact measured
  | pipeline action =>
      rcases step_pipeline stepped with ⟨after, followed, rfl⟩
      apply fromLastWrite_iff.mpr
      intro written wrote
      by_cases writes : action.writesPacket = true
      · -- The packet is written now, and no network action lies in the future.
        simp only [goOn, writes, if_true, Option.some.injEq] at wrote ⊢
        split <;> omega
      · have silent := Bool.eq_false_of_not_eq_true writes
        simp only [goOn, silent, Bool.false_eq_true, if_false] at wrote ⊢
        split
        · rename_i isNetworkAction
          exact inTime after followed (endsSelect_of_isNetworkAction isNetworkAction silent) silent
            written wrote
        · exact fromLastWrite_iff.mp measured written wrote

theorem noTimeSinceWrite_of_step {action : TimedAction T}
    (stepped : timedStep tickHz timed action = some next) (measured : next.FromLastWrite) :
    NoTimeSinceWrite timed action := by
  cases action with
  | tick ticks => trivial
  | pipeline action =>
      intro after followed ends silent written wrote
      rcases step_pipeline stepped with ⟨other, also, rfl⟩
      rcases Option.some.inj (followed.symm.trans also) with rfl
      have isNetworkAction : action.isNetworkAction after = true := by
        unfold PipelineAction.isNetworkAction
        split
        · rfl
        · exact ends
      have begins := fromLastWrite_iff.mp measured written
      simp only [goOn, silent, isNetworkAction, Bool.false_eq_true, if_false, if_true] at begins
      exact begins wrote

/-- What is not possible meets the guard: only a PINGREQ or a CONNECT packet has to wait for more
than the pipeline, and neither is the end of `select`. -/
theorem noTimeSinceWrite_of_disabled {action : TimedAction T}
    (disabled : timedStep tickHz timed action = none) : NoTimeSinceWrite timed action := by
  cases action with
  | tick ticks => trivial
  | pipeline action =>
      intro after followed ends
      have allowed : timed.allows tickHz action = true := by
        unfold allows
        split
        · simp [PipelineAction.endsSelect] at ends
        · simp [PipelineAction.endsSelect] at ends
        · rfl
      simp [timedStep, allowed, followed] at disabled

end Timed

/-- In every state of a run the timer of `select` expires no later than one interval after the last
control packet was written, exactly when no time has passed since that packet each time that
`select` returns without an error and has not just written one: behind a frame of the TX channel,
an empty frame, a packet that is not answered, or an error that is not an I/O error. -/
theorem always_fromLastWrite_iff (tickHz : ℕ) (config : CrateConfig) (capacity : ℕ) (transport : T)
    (now interval : ℕ) (actions : List (TimedAction T)) :
    Execution.Always (timedStep tickHz) Timed.FromLastWrite
        (.new config capacity transport now interval) actions ↔
      Execution.Guarded (timedStep tickHz) NoTimeSinceWrite
        (.new config capacity transport now interval) actions := by
  apply Execution.always_iff_guarded (fun _ _ => True)
    (fun timed : Timed T config => timed.lastNetworkAction ≤ timed.now)
  · intro timed next action _ past stepped
    exact Timed.lastNetworkAction_le_of_step past stepped
  · intro timed next action _ past measured inTime stepped
    exact Timed.fromLastWrite_of_step past measured inTime stepped
  · intro timed next action _ _ stepped measured
    exact Timed.noTimeSinceWrite_of_step stepped measured
  · intro timed action disabled
    exact Timed.noTimeSinceWrite_of_disabled disabled
  · exact Execution.guarded_of_forall fun _ _ _ => trivial
  · exact le_rfl
  · intro written wrote
    simp [Timed.new] at wrote

/-- A client connects, and 30 seconds later a PINGRESP is received that it does not await. -/
def onlyReceives (connect : Connect) : List (TimedAction NalTransport) :=
  [.pipeline (.link .connect), .pipeline (.opened connect), .pipeline (.write 21),
    .pipeline (.link .greeted),
    .pipeline (.link (.recvConnAck (.full [0x20, 0x03, 0x00, 0x00, 0x00] .waiting))),
    .pipeline (.link .connected), .tick 30,
    .pipeline (.link (.receive (.full [0xD0, 0x00] .waiting) .copied))]

theorem not_always_fromLastWrite :
    ¬∀ (tickHz : ℕ) (config : CrateConfig) (capacity : ℕ) (now interval : ℕ)
      (actions : List (TimedAction NalTransport)),
      Execution.Always (timedStep tickHz) Timed.FromLastWrite
        (.new config capacity (NalTransport.mk none) now interval) actions := by
  intro claimed
  have postponed : (timedRun 1 (.default .mqttv5 true) 64 (NalTransport.mk none) 0 59
      (onlyReceives ⟨.mqtt5, .slice [.sessionExpiryInterval 600], 59, ⟨[0x61], by decide⟩, none,
        none, none, true⟩)).map (fun timed => (timed.deadline, timed.lastWrite,
          timed.keepaliveInterval)) = some (89, some 0, 59) := by decide +kernel
  rcases Option.map_eq_some_iff.mp postponed with ⟨timed, reached, postponed⟩
  simp only [Prod.mk.injEq] at postponed
  rcases postponed with ⟨deadline, wrote, interval⟩
  have due := (claimed _ _ _ _ _ _).of_run reached 0 wrote
  omega

end System

end Mqttrust
