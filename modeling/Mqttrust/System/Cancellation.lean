import Mqttrust.System.World

/-!
# Cancelled publishes

When the future of a publish is dropped while it waits, its packet identifier is to
be removed from `inflight_pub`, `outgoing_pid` and `outgoing_rel`. The first two are
removed by one short-circuiting expression: an identifier found in `inflight_pub` is
not looked for in `outgoing_pid`. A publish of QoS 1 or 2 that has not been transmitted
is in both sets, and stays in the second one.
-/

namespace Mqttrust.System

variable {config : CrateConfig}

namespace Shared

/-- The identifier is removed from the three sets of a publish, and nothing else changes. The set
`outgoing_rel` exists with the feature `qos2` only. -/
structure CleanedOf (shared next : Shared config) (pid : Pid) : Prop where
  inflightPub : next.inflightPub.elements = shared.inflightPub.elements.erase pid.val
  outgoingPid : next.outgoingPid.elements = shared.outgoingPid.elements.erase pid.val
  outgoingRel : config.qos2 = true →
    next.outgoingRel.elements = shared.outgoingRel.elements.erase pid.val
  ackStatus : next.ackStatus = shared.ackStatus
  incomingPub : next.incomingPub = shared.incomingPub
  lastPid : next.lastPid = shared.lastPid
  connected : next.connected = shared.connected
  cleanSessionCount : next.cleanSessionCount = shared.cleanSessionCount

variable {shared next : Shared config} {pid : Pid}

/-- The identifier is in none of the three sets. -/
theorem CleanedOf.notMem (cleaned : shared.CleanedOf next pid) :
    pid.val ∉ next.inflightPub.elements ∧ pid.val ∉ next.outgoingPid.elements ∧
      (config.qos2 = true → pid.val ∉ next.outgoingRel.elements) := by
  refine ⟨?_, ?_, ?_⟩
  · rw [cleaned.inflightPub]
    exact Finset.notMem_erase _ _
  · rw [cleaned.outgoingPid]
    exact Finset.notMem_erase _ _
  · intro qos2
    rw [cleaned.outgoingRel qos2]
    exact Finset.notMem_erase _ _

theorem outgoingPid_cleanPublish (shared : Shared config) (pid : Pid) :
    (shared.cleanPublish pid).outgoingPid.elements =
      if pid.val ∈ shared.inflightPub.elements then shared.outgoingPid.elements
      else shared.outgoingPid.elements.erase pid.val := by
  by_cases inflight : pid.val ∈ shared.inflightPub.elements <;>
    cases qos2 : config.qos2 <;>
    simp [cleanPublish, inflight, qos2]

theorem cleanedOf_cleanPublish (single : ¬(pid.val ∈ shared.inflightPub.elements ∧
    pid.val ∈ shared.outgoingPid.elements)) : shared.CleanedOf (shared.cleanPublish pid) pid := by
  have outgoingPid : (shared.cleanPublish pid).outgoingPid.elements =
      shared.outgoingPid.elements.erase pid.val := by
    rw [outgoingPid_cleanPublish]
    split
    · rename_i inflight
      exact (Finset.erase_eq_of_notMem fun outgoing => single ⟨inflight, outgoing⟩).symm
    · rfl
  by_cases inflight : pid.val ∈ shared.inflightPub.elements <;>
    cases qos2 : config.qos2 <;>
    constructor <;>
    first
    | exact outgoingPid
    | simp [cleanPublish, inflight, qos2]

end Shared

/-- A call that waits is cleaned up after. -/
theorem World.drop_of_waiting {world : World config} {handle : ℕ} {call : Call}
    (waits : call.isWaiting = true) (contended : Bool) :
    world.drop handle call contended =
      { world.setPhase handle call .dropped with
        shared := world.shared.clean call.packet call.pid contended } := by
  unfold Call.isWaiting at waits
  unfold World.drop
  split at waits
  · rename_i phase
    simp only [phase]
  · rename_i phase
    simp only [phase]
  · rename_i phase
    simp only [phase]
  · simp at waits

/-- The future of a publish that waits is dropped while the shared state is not locked: its
identifier is cleaned up exactly when it is not in `inflight_pub` and `outgoing_pid` at once. -/
theorem drop_cleansUp_iff {world next : World config} {handle : ℕ} {call : Call} {qos : QoS}
    (live : world.calls.get? handle = some call) (publish : call.packet = .publish qos)
    (waits : call.isWaiting = true) (stepped : step world (.drop handle false) = some next) :
    world.shared.CleanedOf next.shared call.pid ↔
      ¬(call.pid.val ∈ world.shared.inflightPub.elements ∧
        call.pid.val ∈ world.shared.outgoingPid.elements) := by
  have cleaned : next.shared = world.shared.cleanPublish call.pid := by
    unfold step at stepped
    split at stepped
    · simp at stepped
    · simp only [live, Option.bind_eq_bind, Option.bind_some, Option.some.injEq] at stepped
      rw [← stepped, World.drop_of_waiting waits, publish]
      rfl
  rw [cleaned]
  constructor
  · rintro cleaned ⟨inflight, outgoing⟩
    have kept := Shared.outgoingPid_cleanPublish world.shared call.pid
    rw [if_pos inflight] at kept
    rw [← kept] at outgoing
    exact cleaned.notMem.2.1 outgoing
  · exact Shared.cleanedOf_cleanPublish

/-- A publish of QoS 0 that has not been transmitted is dropped. -/
theorem drop_cleansUp_iff_example :
    ∃ (world next : World (CrateConfig.default .mqttv5 true)) (call : Call),
      runFrom _ [.send (.publish .atMostOnce), .lock 0, .grant 0 (.ok ()), .commit 0] =
        some world ∧
      step world (.drop 0 false) = some next ∧
      world.shared.outgoingPid.contains call.pid.val = true ∧
      world.shared.CleanedOf next.shared call.pid := by
  obtain ⟨world, next, call, reached, live, publish, waits, stepped, outgoing, absent⟩ :
      ∃ (world next : World (CrateConfig.default .mqttv5 true)) (call : Call),
        runFrom _ [.send (.publish .atMostOnce), .lock 0, .grant 0 (.ok ()), .commit 0] =
          some world ∧
        world.calls.get? 0 = some call ∧ call.packet = .publish .atMostOnce ∧
        call.isWaiting = true ∧ step world (.drop 0 false) = some next ∧
        world.shared.outgoingPid.contains call.pid.val = true ∧
        call.pid.val ∉ world.shared.inflightPub.elements :=
    ⟨_, _, _, rfl, rfl, rfl, rfl, rfl, by decide, by decide⟩
  refine ⟨world, next, call, reached, stepped, outgoing, ?_⟩
  exact (drop_cleansUp_iff live publish waits stepped).mpr fun both => absent both.1

/-- A publish of QoS 1 that has not been transmitted is dropped: its identifier stays in
`outgoing_pid`. -/
theorem not_drop_cleansUp :
    ¬∀ (config : CrateConfig) (actions : List Action) (world next : World config) (handle : ℕ)
      (call : Call) (qos : QoS), runFrom config actions = some world →
      world.calls.get? handle = some call → call.packet = .publish qos →
      call.isWaiting = true → step world (.drop handle false) = some next →
      world.shared.CleanedOf next.shared call.pid := by
  intro claimed
  have cleaned := claimed (CrateConfig.default .mqttv5 true)
    [.send (.publish .atLeastOnce), .lock 0, .grant 0 (.ok ()), .commit 0] _ _ 0 _ _ rfl rfl rfl
    rfl rfl
  exact cleaned.notMem.2.1 (by decide)

end Mqttrust.System
