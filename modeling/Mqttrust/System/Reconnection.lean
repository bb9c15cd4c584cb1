import Mqttrust.System.Link

/-!
# Connection attempts

When an attempt to connect fails, `MqttStack::run` passes the number of failed attempts
to the configured backoff algorithm. It waits for as long as that says and counts the
attempt, or returns when there is nothing to wait for. A connection, and a reset after
an error, start the count anew; dropping the future of `run` while it waits, and
calling it again, do not. The count is a `u8`.

The link below is left to itself but for `run`, which does not go on while it waits or
after it has returned. How often it has waited, and what was passed to the algorithm, is
recorded from the last connection or reset on; no operation reads it.
-/

namespace Mqttrust.System

variable {T : Type} {config : CrateConfig}

/-- Where `run` is. -/
inductive RunPhase where
  /-- At the link, or not called. -/
  | running
  /-- Waiting for the timer after a failed attempt. -/
  | backingOff
  | returned
deriving DecidableEq, Repr

/-- A link and the count of its stack. -/
structure Reconnecting (T : Type) (config : CrateConfig) where
  link : Link T config
  connectAttempts : UInt8
  phase : RunPhase
  /-- The increment of `connect_attempts` has overflowed. -/
  overflowed : Bool
  /-- How often the timer has expired. -/
  waits : ℕ
  /-- What was passed to the backoff algorithm, most recent first. -/
  attempts : List UInt8

/-- What happens to a link whose attempts are counted. -/
inductive ReconnectAction (T : Type) where
  | link (action : LinkAction T)
  /-- The timer expires. -/
  | elapsed
  /-- `MqttStack::reset`, while `run` is not running. -/
  | reset

namespace Reconnecting

/-- A new stack on a transport. -/
def new [Transport T] (config : CrateConfig) (transport : T) : Reconnecting T config where
  link := Link.new config transport
  connectAttempts := 0
  phase := .running
  overflowed := false
  waits := 0
  attempts := []

variable (backoffAlgo : UInt8 → Option ℕ) (state : Reconnecting T config)

/-- What the link may do: without `run`, there is only the client, and `run` can be called. -/
def allows : LinkAction T → Bool
  | .client _ | .drifts _ | .dropRun => true
  | _ => state.phase == .running

/-- The count starts anew. -/
def startOver : Reconnecting T config :=
  { state with connectAttempts := 0, waits := 0, attempts := [] }

/-- The number of failed attempts is passed to the backoff algorithm. -/
def fail : Reconnecting T config :=
  { state with
    phase := if (backoffAlgo state.connectAttempts).isSome then .backingOff else .returned
    attempts := state.connectAttempts :: state.attempts }

/-- The timer expires, and the attempt is counted. -/
def count : Reconnecting T config :=
  { state with
    connectAttempts := state.connectAttempts + 1
    phase := .running
    overflowed := state.overflowed || state.connectAttempts == 255
    waits := state.waits + 1 }

/-- What becomes of the count with an action of the link. -/
def follow (action : LinkAction T) (next : Link T config) : Reconnecting T config :=
  match action with
  | .connectFails => { state with link := next }.fail backoffAlgo
  | .recvConnAck _ =>
      match next.handshake with
      | .accepted _ => { state with link := next }.startOver
      | _ => { state with link := next }
  | .reset => { state with link := next }.startOver
  | .dropRun =>
      -- After an error the count is reset before `run` can be suspended.
      if state.link.world.stack = .failing then
        { state with link := next, phase := .running }.startOver
      else { state with link := next, phase := .running }
  | _ => { state with link := next }

/-- `MqttStack::reset`. -/
def reset : Reconnecting T config :=
  { state with
    link := { state.link with
      world := { state.link.world.resetShared state.link.world.stack with
        awaitingPingresp := false }
      reader := state.link.reader.reset } }.startOver

/-- The increment has not overflowed, and the numbers that were passed to the backoff algorithm do
not decrease. -/
structure Sound : Prop where
  notOverflowed : state.overflowed = false
  ascending : state.attempts.Pairwise fun later earlier => earlier ≤ later

end Reconnecting

namespace Reconnecting

variable {backoffAlgo : UInt8 → Option ℕ} {state next : Reconnecting T config}
  {action : ReconnectAction T} {last : UInt8}

/-- What a step does to the count. -/
inductive CountStep (backoffAlgo : UInt8 → Option ℕ) (state : Reconnecting T config) :
    ReconnectAction T → Reconnecting T config → Prop where
  /-- Nothing, or `run` is called again. -/
  | kept {action : ReconnectAction T} {next : Reconnecting T config}
      (phase : next.phase = state.phase ∨ next.phase = .running)
      (connectAttempts : next.connectAttempts = state.connectAttempts)
      (overflowed : next.overflowed = state.overflowed) (waits : next.waits = state.waits)
      (attempts : next.attempts = state.attempts) : CountStep backoffAlgo state action next
  | startedOver {action : ReconnectAction T} {next : Reconnecting T config}
      (phase : next.phase = .running) (connectAttempts : next.connectAttempts = 0)
      (overflowed : next.overflowed = state.overflowed) (waits : next.waits = 0)
      (attempts : next.attempts = []) : CountStep backoffAlgo state action next
  | failed {action : ReconnectAction T} {next : Reconnecting T config}
      (phase : next.phase = .backingOff → backoffAlgo state.connectAttempts ≠ none)
      (connectAttempts : next.connectAttempts = state.connectAttempts)
      (overflowed : next.overflowed = state.overflowed) (waits : next.waits = state.waits)
      (attempts : next.attempts = state.connectAttempts :: state.attempts) :
      CountStep backoffAlgo state action next
  | counted (backingOff : state.phase = .backingOff) :
      CountStep backoffAlgo state .elapsed state.count

theorem countStep_follow {action : LinkAction T} (allowed : state.allows action = true)
    (after : Link T config) :
    CountStep backoffAlgo state (.link action) (state.follow backoffAlgo action after) := by
  unfold follow
  split
  · refine .failed ?_ rfl rfl rfl rfl
    intro backingOff nothing
    simp [fail, nothing] at backingOff
  · have running : state.phase = .running := by simpa [allows] using allowed
    split
    · exact .startedOver running rfl rfl rfl rfl
    · exact .kept (.inl rfl) rfl rfl rfl rfl
  · have running : state.phase = .running := by simpa [allows] using allowed
    exact .startedOver running rfl rfl rfl rfl
  · split
    · exact .startedOver rfl rfl rfl rfl rfl
    · exact .kept (.inr rfl) rfl rfl rfl rfl
  · exact .kept (.inl rfl) rfl rfl rfl rfl

/-- While it has not overflowed, the count says how often the timer has expired, and no larger
number was passed to the backoff algorithm. -/
structure Counts (state : Reconnecting T config) : Prop where
  waits : state.connectAttempts.toNat = state.waits
  bounded : ∀ attempt ∈ state.attempts, attempt ≤ state.connectAttempts
  ascending : state.attempts.Pairwise fun later earlier => earlier ≤ later

namespace Counts

theorem kept (counts : state.Counts) (connectAttempts : next.connectAttempts = state.connectAttempts)
    (waits : next.waits = state.waits) (attempts : next.attempts = state.attempts) :
    next.Counts := by
  refine ⟨?_, ?_, ?_⟩
  · rw [connectAttempts, waits]
    exact counts.waits
  · rw [connectAttempts, attempts]
    exact counts.bounded
  · rw [attempts]
    exact counts.ascending

theorem startedOver (connectAttempts : next.connectAttempts = 0) (waits : next.waits = 0)
    (attempts : next.attempts = []) : next.Counts := by
  refine ⟨?_, ?_, ?_⟩
  · rw [connectAttempts, waits]
    rfl
  · rw [attempts]
    exact List.forall_mem_nil _
  · rw [attempts]
    exact .nil

theorem failed (counts : state.Counts)
    (connectAttempts : next.connectAttempts = state.connectAttempts)
    (waits : next.waits = state.waits)
    (attempts : next.attempts = state.connectAttempts :: state.attempts) : next.Counts := by
  refine ⟨?_, ?_, ?_⟩
  · rw [connectAttempts, waits]
    exact counts.waits
  · rw [connectAttempts, attempts, List.forall_mem_cons]
    exact ⟨UInt8.le_refl _, counts.bounded⟩
  · rw [attempts, List.pairwise_cons]
    exact ⟨counts.bounded, counts.ascending⟩

theorem counted (counts : state.Counts) (inRange : state.waits < 255) : state.count.Counts := by
  have value : (state.connectAttempts + 1).toNat = state.waits + 1 := by
    rw [UInt8.toNat_add, counts.waits]
    exact Nat.mod_eq_of_lt (by change state.waits + 1 < 256; omega)
  refine ⟨value, ?_, counts.ascending⟩
  intro attempt passed
  have before := UInt8.le_iff_toNat_le.mp (counts.bounded attempt passed)
  rw [counts.waits] at before
  apply UInt8.le_iff_toNat_le.mpr
  change attempt.toNat ≤ (state.connectAttempts + 1).toNat
  omega

end Counts

/-- The increment does not overflow if the timer has expired less than 255 times. -/
theorem overflowed_count_iff (counts : state.Counts) (notOverflowed : state.overflowed = false) :
    state.count.overflowed = false ↔ state.waits < 255 := by
  have bound := state.connectAttempts.toNat_lt
  have same : state.connectAttempts = 255 ↔ state.waits = 255 := by
    rw [← counts.waits, ← UInt8.toNat_inj]
    rfl
  rw [counts.waits] at bound
  rw [count, notOverflowed, Bool.false_or, beq_eq_false_iff_ne, ne_eq, same]
  omega

/-- No more than a number of attempts is counted, and none is on the way to be counted then. -/
structure Stops (last : UInt8) (state : Reconnecting T config) : Prop where
  sound : state.Sound
  counts : state.Counts
  bounded : state.connectAttempts ≤ last
  returned : state.phase = .backingOff → state.connectAttempts ≠ last

theorem Stops.lt (stops : state.Stops last) (backingOff : state.phase = .backingOff) :
    state.connectAttempts < last := by
  have bounded := UInt8.le_iff_toNat_le.mp stops.bounded
  have notLast := stops.returned backingOff
  rw [ne_eq, ← UInt8.toNat_inj] at notLast
  apply UInt8.lt_iff_toNat_lt.mpr
  omega

end Reconnecting

variable [Transport T]

/-- One action; with overflow checks, an overflow is a panic. -/
def reconnectStep (overflowChecks : Bool) (backoffAlgo : UInt8 → Option ℕ)
    (state : Reconnecting T config) (action : ReconnectAction T) : Option (Reconnecting T config) :=
  if overflowChecks && state.overflowed then none
  else
    match action with
    | .link action =>
        if state.allows action then
          (linkStep state.link action).map (state.follow backoffAlgo action)
        else none
    | .elapsed => if state.phase = .backingOff then some state.count else none
    | .reset =>
        if state.phase = .running ∧
            (state.link.world.stack = .idle ∨ state.link.world.stack = .disconnected) then
          some state.reset
        else none

/-- Before the timer expires, it has expired less than 255 times since the last connection or
reset. -/
def CountsInRange (overflowChecks : Bool) (backoffAlgo : UInt8 → Option ℕ)
    (state : Reconnecting T config) (action : ReconnectAction T) : Prop :=
  ∀ next, reconnectStep overflowChecks backoffAlgo state action = some next →
    action = .elapsed → state.waits < 255

namespace Reconnecting

variable {overflowChecks : Bool} {backoffAlgo : UInt8 → Option ℕ}
  {state next : Reconnecting T config} {action : ReconnectAction T}

/-- What is done by a step, and that only the timer counts. -/
theorem countStep_of_step
    (stepped : reconnectStep overflowChecks backoffAlgo state action = some next) :
    CountStep backoffAlgo state action next := by
  simp only [reconnectStep, Option.ite_none_left_eq_some] at stepped
  rcases stepped with ⟨_, stepped⟩
  cases action with
  | link action =>
      simp only [Option.ite_none_right_eq_some, Option.map_eq_some_iff] at stepped
      rcases stepped with ⟨allowed, after, _, rfl⟩
      exact countStep_follow allowed after
  | elapsed =>
      simp only [Option.ite_none_right_eq_some, Option.some.injEq] at stepped
      rcases stepped with ⟨backingOff, rfl⟩
      exact .counted backingOff
  | reset =>
      simp only [Option.ite_none_right_eq_some, Option.some.injEq] at stepped
      rcases stepped with ⟨⟨running, _⟩, rfl⟩
      exact .startedOver running rfl rfl rfl rfl

theorem step_link {action : LinkAction T} {after : Link T config}
    (notOverflowed : state.overflowed = false) (allowed : state.allows action = true)
    (followed : linkStep state.link action = some after) :
    reconnectStep overflowChecks backoffAlgo state (.link action) =
      some (state.follow backoffAlgo action after) := by
  simp [reconnectStep, notOverflowed, allowed, followed]

theorem step_elapsed (notOverflowed : state.overflowed = false)
    (backingOff : state.phase = .backingOff) :
    reconnectStep overflowChecks backoffAlgo state .elapsed = some state.count := by
  simp [reconnectStep, notOverflowed, backingOff]

theorem eq_count_of_elapsed
    (stepped : reconnectStep overflowChecks backoffAlgo state .elapsed = some next) :
    state.phase = .backingOff ∧ next = state.count := by
  simp only [reconnectStep, Option.ite_none_left_eq_some, Option.ite_none_right_eq_some,
    Option.some.injEq] at stepped
  exact ⟨stepped.2.1, stepped.2.2.symm⟩

/-- Each action of the link is one that it can take. -/
theorem linkStep_of_step {action : LinkAction T}
    (stepped : reconnectStep overflowChecks backoffAlgo state (.link action) = some next) :
    ∃ after, linkStep state.link action = some after ∧
      next = state.follow backoffAlgo action after := by
  simp only [reconnectStep, Option.ite_none_left_eq_some, Option.ite_none_right_eq_some,
    Option.map_eq_some_iff] at stepped
  rcases stepped with ⟨_, _, after, stepped, rfl⟩
  exact ⟨after, stepped, rfl⟩

/-- The count is right until it overflows. -/
theorem counts_of_step (counts : state.overflowed = false → state.Counts)
    (stepped : reconnectStep overflowChecks backoffAlgo state action = some next)
    (notOverflowed : next.overflowed = false) : next.Counts := by
  cases countStep_of_step stepped with
  | kept _ connectAttempts overflowed waits attempts =>
      exact (counts (overflowed ▸ notOverflowed)).kept connectAttempts waits attempts
  | startedOver _ connectAttempts _ waits attempts =>
      exact .startedOver connectAttempts waits attempts
  | failed _ connectAttempts overflowed waits attempts =>
      exact (counts (overflowed ▸ notOverflowed)).failed connectAttempts waits attempts
  | counted =>
      have before : state.overflowed = false := (Bool.or_eq_false_iff.mp notOverflowed).1
      have inRange := (overflowed_count_iff (counts before) before).mp notOverflowed
      exact (counts before).counted inRange

theorem sound_of_step (counts : state.Counts) (sound : state.Sound)
    (inRange : CountsInRange overflowChecks backoffAlgo state action)
    (stepped : reconnectStep overflowChecks backoffAlgo state action = some next) : next.Sound := by
  cases countStep_of_step stepped with
  | kept _ connectAttempts overflowed waits attempts =>
      exact ⟨overflowed ▸ sound.notOverflowed, attempts ▸ sound.ascending⟩
  | startedOver _ _ overflowed _ attempts =>
      exact ⟨overflowed ▸ sound.notOverflowed, attempts ▸ .nil⟩
  | failed _ _ overflowed _ attempts =>
      refine ⟨overflowed ▸ sound.notOverflowed, ?_⟩
      rw [attempts, List.pairwise_cons]
      exact ⟨counts.bounded, sound.ascending⟩
  | counted =>
      refine ⟨?_, sound.ascending⟩
      exact (overflowed_count_iff counts sound.notOverflowed).mpr (inRange _ stepped rfl)

end Reconnecting

/-- In every state of a run the increment has not overflowed and the numbers that were passed to the
backoff algorithm do not decrease, exactly when the timer expires at most 255 times between two
connections or resets. -/
theorem always_sound_iff_countsInRange (overflowChecks : Bool) (backoffAlgo : UInt8 → Option ℕ)
    (config : CrateConfig) (transport : T) (actions : List (ReconnectAction T)) :
    Execution.Always (reconnectStep overflowChecks backoffAlgo) Reconnecting.Sound
        (.new config transport) actions ↔
      Execution.Guarded (reconnectStep overflowChecks backoffAlgo)
        (CountsInRange overflowChecks backoffAlgo) (.new config transport) actions := by
  apply Execution.always_iff_guarded (fun _ _ => True)
    (fun state : Reconnecting T config => state.overflowed = false → state.Counts)
  · intro state next action _ counts stepped notOverflowed
    exact Reconnecting.counts_of_step counts stepped notOverflowed
  · intro state next action _ counts sound inRange stepped
    exact Reconnecting.sound_of_step (counts sound.notOverflowed) sound inRange stepped
  · rintro state next action counts sound stepped sound' _ _ rfl
    rcases Reconnecting.eq_count_of_elapsed stepped with ⟨_, rfl⟩
    exact (Reconnecting.overflowed_count_iff (counts sound.notOverflowed)
      sound.notOverflowed).mp sound'.notOverflowed
  · intro state action disabled next stepped
    rw [disabled] at stepped
    cases stepped
  · exact Execution.guarded_of_forall fun _ _ _ => trivial
  · intro _
    exact .startedOver rfl rfl rfl
  · exact ⟨rfl, .nil⟩

namespace Reconnecting

variable {overflowChecks : Bool} {backoffAlgo : UInt8 → Option ℕ}
  {state next : Reconnecting T config} {action : ReconnectAction T} {last : UInt8}

/-- An algorithm that gives up after some number of attempts bounds the count. -/
theorem stops_of_step (givesUp : backoffAlgo last = none) (stops : state.Stops last)
    (stepped : reconnectStep overflowChecks backoffAlgo state action = some next) :
    next.Stops last := by
  have inRange : CountsInRange overflowChecks backoffAlgo state action := by
    rintro next stepped rfl
    have below := UInt8.lt_iff_toNat_lt.mp (stops.lt (eq_count_of_elapsed stepped).1)
    have bound := last.toNat_lt
    rw [← stops.counts.waits]
    omega
  have sound := sound_of_step stops.counts stops.sound inRange stepped
  have counts := counts_of_step (fun _ => stops.counts) stepped sound.notOverflowed
  cases countStep_of_step stepped with
  | kept phase connectAttempts =>
      refine ⟨sound, counts, connectAttempts ▸ stops.bounded, ?_⟩
      intro backingOff
      rw [connectAttempts]
      rcases phase with same | running
      · exact stops.returned (same ▸ backingOff)
      · rw [running] at backingOff
        cases backingOff
  | startedOver running connectAttempts =>
      refine ⟨sound, counts, ?_, ?_⟩
      · rw [connectAttempts]
        exact UInt8.le_iff_toNat_le.mpr (Nat.zero_le _)
      · intro backingOff
        rw [running] at backingOff
        cases backingOff
  | failed goesOn connectAttempts =>
      refine ⟨sound, counts, connectAttempts ▸ stops.bounded, ?_⟩
      intro backingOff
      rw [connectAttempts]
      rintro rfl
      exact goesOn backingOff givesUp
  | counted backingOff =>
      refine ⟨sound, counts, ?_, ?_⟩
      · have below := UInt8.lt_iff_toNat_lt.mp (stops.lt backingOff)
        have after : (state.connectAttempts + 1).toNat = state.waits + 1 := counts.waits
        have before := stops.counts.waits
        apply UInt8.le_iff_toNat_le.mpr
        change (state.connectAttempts + 1).toNat ≤ last.toNat
        omega
      · intro running
        cases running

end Reconnecting

/-- An algorithm that gives up at some number of attempts keeps every run sound. -/
theorem always_sound_of_givesUp {overflowChecks : Bool} {backoffAlgo : UInt8 → Option ℕ}
    {attempt : UInt8} (givesUp : backoffAlgo attempt = none) (config : CrateConfig) (transport : T)
    (actions : List (ReconnectAction T)) :
    Execution.Always (reconnectStep overflowChecks backoffAlgo) Reconnecting.Sound
      (.new config transport) actions := by
  apply Execution.always_of_invariant (Reconnecting.Stops attempt)
  · intro state next action stops stepped
    exact Reconnecting.stops_of_step givesUp stops stepped
  · intro state stops
    exact stops.sound
  · refine ⟨⟨rfl, .nil⟩, .startedOver rfl rfl rfl, ?_, ?_⟩
    · exact UInt8.le_iff_toNat_le.mpr (Nat.zero_le _)
    · intro backingOff
      cases backingOff

/-- `DEFAULT_BACKOFF`, in milliseconds. -/
def defaultBackoff (attempt : UInt8) : Option ℕ :=
  if 10 ≤ attempt then none else some (min (3 * 60 * 1000) (500 * 2 ^ attempt.toNat))

theorem always_sound_defaultBackoff (overflowChecks : Bool) (config : CrateConfig) (transport : T)
    (actions : List (ReconnectAction T)) :
    Execution.Always (reconnectStep overflowChecks defaultBackoff) Reconnecting.Sound
      (.new config transport) actions :=
  always_sound_of_givesUp (rfl : defaultBackoff 10 = none) config transport actions

section Exhaustion

variable {overflowChecks : Bool} {backoffAlgo : UInt8 → Option ℕ}

/-- An attempt to connect that fails, and the time that is waited after it. -/
def failedAttempt : List (ReconnectAction NalTransport) :=
  [.link .connect, .link .connectFails, .elapsed]

theorem run_failedAttempt {state : Reconnecting NalTransport config}
    (goesOn : ∀ attempt, backoffAlgo attempt ≠ none)
    (link : state.link = Link.new config (NalTransport.mk none)) (running : state.phase = .running)
    (notOverflowed : state.overflowed = false) :
    Execution.run (reconnectStep overflowChecks backoffAlgo) state failedAttempt =
      some (state.fail backoffAlgo).count := by
  rcases state with ⟨_, connectAttempts, _, _, waits, attempts⟩
  dsimp only at link running notOverflowed
  subst link running notOverflowed
  have waiting : (backoffAlgo connectAttempts).isSome = true :=
    Option.isSome_iff_ne_none.mpr (goesOn connectAttempts)
  -- The world is that of a new stack again once the attempt has failed.
  have connecting : linkStep (Link.new config (NalTransport.mk none)) .connect =
      some { Link.new config (NalTransport.mk none) with
        world := (World.new config).connect } := rfl
  have failing : linkStep { Link.new config (NalTransport.mk none) with
      world := (World.new config).connect } .connectFails =
        some (Link.new config (NalTransport.mk none)) := rfl
  refine Execution.run_cons_eq_some.mpr ⟨_, Reconnecting.step_link rfl rfl connecting, ?_⟩
  refine Execution.run_cons_eq_some.mpr ⟨_, Reconnecting.step_link rfl rfl failing, ?_⟩
  exact Execution.run_cons_eq_some.mpr ⟨_, Reconnecting.step_elapsed rfl (if_pos waiting), rfl⟩

/-- An algorithm that never gives up lets the count go up to its maximum. -/
theorem exists_run_failedAttempts (overflowChecks : Bool) (config : CrateConfig)
    (goesOn : ∀ attempt, backoffAlgo attempt ≠ none) {count : ℕ} (small : count ≤ 255) :
    ∃ state, Execution.run (reconnectStep overflowChecks backoffAlgo)
        (.new config (NalTransport.mk none)) (List.replicate count failedAttempt).flatten =
          some state ∧
      state.link = Link.new config (NalTransport.mk none) ∧ state.phase = .running ∧
      state.overflowed = false ∧ state.Counts ∧ state.waits = count := by
  induction count with
  | zero => exact ⟨_, rfl, rfl, rfl, rfl, .startedOver rfl rfl rfl, rfl⟩
  | succ count ih =>
      rcases ih (by omega) with ⟨state, reached, link, running, notOverflowed, counts, waits⟩
      have failed : (state.fail backoffAlgo).Counts := counts.failed rfl rfl rfl
      have inRange : (state.fail backoffAlgo).waits < 255 := by
        change state.waits < 255
        omega
      refine ⟨(state.fail backoffAlgo).count, ?_, link, rfl, ?_, failed.counted inRange, ?_⟩
      · rw [List.replicate_succ', List.flatten_append, List.flatten_singleton,
          Execution.run_append, reached]
        exact run_failedAttempt goesOn link running notOverflowed
      · exact (Reconnecting.overflowed_count_iff failed notOverflowed).mpr inRange
      · change state.waits + 1 = count + 1
        omega

/-- After 256 attempts the count has overflowed. -/
theorem exists_run_overflowed (overflowChecks : Bool) (config : CrateConfig)
    (goesOn : ∀ attempt, backoffAlgo attempt ≠ none) :
    ∃ state, Execution.run (reconnectStep overflowChecks backoffAlgo)
        (.new config (NalTransport.mk none)) (List.replicate 256 failedAttempt).flatten =
          some state ∧ state.overflowed = true := by
  rcases exists_run_failedAttempts overflowChecks config goesOn (le_refl 255) with
    ⟨state, reached, link, running, notOverflowed, counts, waits⟩
  have failed : (state.fail backoffAlgo).Counts := counts.failed rfl rfl rfl
  refine ⟨(state.fail backoffAlgo).count, ?_, ?_⟩
  · rw [show (256 : ℕ) = 255 + 1 from rfl, List.replicate_succ', List.flatten_append,
      List.flatten_singleton, Execution.run_append, reached]
    exact run_failedAttempt goesOn link running notOverflowed
  · by_contra inRange
    have below := (Reconnecting.overflowed_count_iff failed notOverflowed).mp
      (Bool.not_eq_true _ ▸ inRange)
    change state.waits < 255 at below
    omega

end Exhaustion

/-- A run is sound exactly when the timer expires at most 255 times between two connections or
resets, and all runs are sound exactly when the backoff algorithm gives up at some number of
attempts. -/
theorem attempts_sound_iff (overflowChecks : Bool) (backoffAlgo : UInt8 → Option ℕ)
    (config : CrateConfig) :
    (∀ (T : Type) [Transport T] (transport : T) (actions : List (ReconnectAction T)),
      Execution.Always (reconnectStep overflowChecks backoffAlgo) Reconnecting.Sound
          (.new config transport) actions ↔
        Execution.Guarded (reconnectStep overflowChecks backoffAlgo)
          (CountsInRange overflowChecks backoffAlgo) (.new config transport) actions) ∧
    ((∀ (T : Type) [Transport T] (transport : T) (actions : List (ReconnectAction T)),
      Execution.Always (reconnectStep overflowChecks backoffAlgo) Reconnecting.Sound
        (.new config transport) actions) ↔
      ∃ attempt, backoffAlgo attempt = none) := by
  refine ⟨fun T _ transport actions => always_sound_iff_countsInRange _ _ _ transport actions, ?_⟩
  constructor
  · intro sound
    by_contra goesOn
    rcases exists_run_overflowed overflowChecks config (not_exists.mp goesOn) with
      ⟨state, reached, overflowed⟩
    have calm := ((sound NalTransport _ _).of_run reached).notOverflowed
    rw [calm] at overflowed
    cases overflowed
  · rintro ⟨attempt, givesUp⟩ T _ transport actions
    exact always_sound_of_givesUp givesUp config transport actions

/-- An algorithm that always waits half a second lets the increment overflow. -/
theorem not_attempts_sound :
    ¬∀ (overflowChecks : Bool) (backoffAlgo : UInt8 → Option ℕ) (config : CrateConfig)
      (actions : List (ReconnectAction NalTransport)),
      Execution.Always (reconnectStep overflowChecks backoffAlgo) Reconnecting.Sound
        (.new config (NalTransport.mk none)) actions := by
  intro claimed
  have goesOn : ∀ attempt : UInt8, (fun _ => some 500 : UInt8 → Option ℕ) attempt ≠ none := by
    intro attempt
    exact Option.some_ne_none 500
  rcases exists_run_overflowed true (.default .mqttv5 true) goesOn with
    ⟨state, reached, overflowed⟩
  have calm := ((claimed _ _ _ _).of_run reached).notOverflowed
  rw [calm] at overflowed
  cases overflowed

end Mqttrust.System
