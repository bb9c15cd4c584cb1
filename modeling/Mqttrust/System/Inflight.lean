import Mqttrust.System.Transition

/-!
# Room for the publishes in flight

`send` checks under one lock that `inflight_pub` has room for a publish of QoS 1
or 2, and relies on it when it inserts the identifier under a later one. The
check does not see the calls that have passed it and not yet inserted. The room
is there when every call that passes the check finds room for these calls too.
-/

namespace Mqttrust.System

variable {config : CrateConfig}

/-- The call has passed the check for a publish of QoS 1 or 2 and not yet inserted it. -/
def Call.reserves (call : Call) : Bool := call.isSending && call.packet.needsAck

/-- The number of publishes of QoS 1 and 2 that are still to be inserted. -/
def World.reserved (world : World config) : ℕ := world.calls.count Call.reserves

/-- The condition on a step: a publish of QoS 1 or 2 passes the check only when the publishes in
flight and those still to be inserted leave room for one more. -/
def FindsRoom (world : World config) (action : Action) : Prop :=
  ∀ packet ∈ action.sends?, packet.needsAck = true → world.shared.hasRoom packet = true →
    world.shared.inflightPub.len + world.reserved < config.maxInflight

instance (world : World config) (action : Action) : Decidable (FindsRoom world action) :=
  inferInstanceAs (Decidable (∀ packet ∈ action.sends?, _))

/-- The insertion into `inflight_pub` neither has panicked nor would if a call reached it next. -/
def World.InsertionFits (world : World config) : Prop :=
  world.panicked ≠ some .inflightPub ∧
    ∀ handle call, world.calls.get? handle = some call → call.phase = .granted →
      call.packet.needsAck = true → (world.shared.inflightPub.insert call.pid.val).isSome

/-- Every publish that is still to be inserted has its room. -/
structure World.RoomReserved (world : World config) : Prop where
  bounded : world.shared.inflightPub.len + world.reserved ≤ config.maxInflight
  running : world.panicked ≠ some .inflightPub

section SetPhase

variable {world : World config} {handle : ℕ} {call : Call}

theorem reserved_setPhase (live : world.calls.get? handle = some call) (phase : Phase) :
    (world.setPhase handle call phase).reserved =
      world.reserved - (if call.reserves then 1 else 0) +
        if ({ call with phase := phase } : Call).reserves then 1 else 0 :=
  Table.count_replace Call.reserves live _

theorem reserved_setPhase_of_isSending {phase : Phase}
    (live : world.calls.get? handle = some call) (before : call.isSending = true)
    (after : ({ call with phase := phase } : Call).isSending = true) :
    (world.setPhase handle call phase).reserved = world.reserved := by
  rw [reserved_setPhase live]
  have same : ({ call with phase := phase } : Call).reserves = call.reserves := by
    rw [Call.reserves, Call.reserves, before, after]
  rw [same]
  split
  · rename_i reserves
    have := Table.count_pos_of_get? Call.reserves live reserves
    unfold World.reserved
    omega
  · rfl

theorem reserved_setPhase_le (phase : Phase) (live : world.calls.get? handle = some call)
    (after : ({ call with phase := phase } : Call).isSending = false) :
    (world.setPhase handle call phase).reserved ≤ world.reserved := by
  have freed : ({ call with phase := phase } : Call).reserves = false := by
    rw [Call.reserves, after, Bool.false_and]
  rw [reserved_setPhase live, freed]
  simp

theorem reserved_setPhase_add_one (phase : Phase) (live : world.calls.get? handle = some call)
    (before : call.reserves = true)
    (after : ({ call with phase := phase } : Call).isSending = false) :
    (world.setPhase handle call phase).reserved + 1 = world.reserved := by
  have counted := Table.count_pos_of_get? Call.reserves live before
  have freed : ({ call with phase := phase } : Call).reserves = false := by
    rw [Call.reserves, after, Bool.false_and]
  rw [reserved_setPhase live, if_pos before, freed]
  simp only [World.reserved, Bool.false_eq_true, ↓reduceIte]
  omega

end SetPhase

namespace Transition

variable {world next : World config} {action : Action}

/-- Only the beginning of a call reserves room. -/
theorem reserved_le (transition : Transition world action next)
    (notSend : ∀ packet, action ≠ .send packet) : next.reserved ≤ world.reserved := by
  cases transition with
  | send packet => exact absurd rfl (notSend packet)
  | lock live phase =>
      exact (reserved_setPhase_of_isSending live (by simp [Call.isSending, phase]) rfl).le
  | grant result live phase =>
      cases result with
      | ok =>
          exact (reserved_setPhase_of_isSending live (by simp [Call.isSending, phase]) rfl).le
      | error => exact reserved_setPhase_le _ live rfl
  | commit live =>
      unfold World.commit
      split
      · exact reserved_setPhase_le _ live rfl
      · exact reserved_setPhase_le _ live rfl
      · exact le_rfl
  | waitTx live phase ready =>
      refine reserved_setPhase_le _ live ?_
      rcases (Shared.cases_of_waitTx ready).2 with ⟨_, rfl⟩ | ⟨_, rfl⟩
      · rfl
      · rfl
  | waitAck live phase publish ready =>
      refine reserved_setPhase_le _ live ?_
      rcases (Shared.cases_of_waitAck ready).2 with ⟨_, rfl⟩ | ⟨_, rfl⟩
      · rfl
      · rfl
  | waitRel live phase ready =>
      refine reserved_setPhase_le _ live ?_
      rcases (Shared.eq_of_waitRel ready).2 with rfl
      rfl
  | waitStatus contended live =>
      unfold World.finishStatus
      split
      · exact reserved_setPhase_le _ live rfl
      · exact reserved_setPhase_le _ live rfl
  | drop contended live =>
      unfold World.drop
      split
      all_goals first | exact reserved_setPhase_le _ live rfl | exact le_rfl
  | dropSubscription drop =>
      unfold World.dropSubscription
      grind [World.reserved]
  | receive payload =>
      unfold World.receive
      dsimp only
      split <;> exact le_rfl
  | receiveFails error => cases error <;> exact le_rfl
  | keepAlive =>
      unfold World.keepAlive
      split <;> exact le_rfl
  | connect | connectFails | connected | lost | read | written | flushed | transmitted
  | writeFails | replied | reset | dropRun | disconnect => exact le_rfl

end Transition

namespace World.RoomReserved

variable {world next : World config} {action : Action}

theorem new (config : CrateConfig) : (World.new config).RoomReserved :=
  ⟨Nat.zero_le _, by simp [World.new]⟩

/-- A call that still has to insert its publish finds the room it has reserved. -/
theorem insert_isSome (room : world.RoomReserved) {handle : ℕ} {call : Call}
    (live : world.calls.get? handle = some call) (reserves : call.reserves = true) :
    (world.shared.inflightPub.insert call.pid.val).isSome := by
  have counted : 0 < world.reserved := Table.count_pos_of_get? Call.reserves live reserves
  have bounded := room.bounded
  rw [Option.isSome_iff_ne_none]
  intro full
  have overfull := IndexSet.insert_eq_none_iff.mp full
  have grown := Finset.card_insert_le call.pid.val world.shared.inflightPub.elements
  unfold IndexSet.len at bounded
  omega

theorem insertionFits (room : world.RoomReserved) : world.InsertionFits := by
  refine ⟨room.running, ?_⟩
  intro handle call live phase needed
  exact room.insert_isSome live (by simp [Call.reserves, Call.isSending, phase, needed])

theorem step_send (room : world.RoomReserved) {packet : SendPacket}
    (finds : FindsRoom world (.send packet)) : (world.send packet).RoomReserved := by
  unfold World.send
  split
  · rename_i hasRoom
    refine ⟨?_, room.running⟩
    have bounded := room.bounded
    simp only [World.reserved, Table.count_insert] at bounded ⊢
    by_cases needed : packet.needsAck = true
    · have := finds packet rfl needed hasRoom
      simp only [World.reserved] at this
      simp [Call.reserves, Call.isSending, needed, Shared.takePid]
      omega
    · simp [Call.reserves, needed, Shared.takePid]
      omega
  · exact room

theorem step_commit (room : world.RoomReserved) {handle : ℕ} {call : Call}
    (live : world.calls.get? handle = some call) (phase : call.phase = .granted) :
    (world.commit handle call).RoomReserved := by
  have sending : call.isSending = true := by simp [Call.isSending, phase]
  have bounded := room.bounded
  unfold World.commit
  split
  · rename_i shared registered
    refine ⟨?_, room.running⟩
    change shared.inflightPub.len + (world.setPhase handle call .sent).reserved ≤ config.maxInflight
    have inserted := (Shared.registers_of_done registered).inflightPub
    unfold IndexSet.len at bounded ⊢
    by_cases needed : call.packet.needsAck = true
    · -- the new identifier takes the room that the call gives back
      have freed := reserved_setPhase_add_one .sent live
        (by simp [Call.reserves, sending, needed]) rfl
      have grown := Finset.card_insert_le call.pid.val world.shared.inflightPub.elements
      rw [if_pos needed] at inserted
      rw [inserted]
      omega
    · have freed := reserved_setPhase_le .sent live rfl
      rw [if_neg needed] at inserted
      rw [inserted]
      omega
  · rename_i shared registered
    refine ⟨?_, room.running⟩
    have freed := reserved_setPhase_le (.finished (.error .maxInflight)) live rfl
    rw [(Shared.eq_of_full registered).1]
    exact (Nat.add_le_add_left freed _).trans bounded
  · rename_i place registered
    rcases Shared.insert_eq_none_of_panicked registered with ⟨_, needed, full⟩
    have fits := room.insert_isSome live (by simp [Call.reserves, sending, needed])
    simp [full] at fits

theorem of_settles (room : world.RoomReserved) (settles : world.shared.Settles next.shared)
    (reserved : next.reserved ≤ world.reserved) (running : next.panicked ≠ some .inflightPub) :
    next.RoomReserved := by
  refine ⟨?_, running⟩
  have bounded := room.bounded
  have shrunk := Finset.card_le_card settles.inflightPub
  unfold IndexSet.len at bounded ⊢
  omega

theorem step (room : world.RoomReserved) (finds : FindsRoom world action)
    (stepped : System.step world action = some next) : next.RoomReserved := by
  rcases transition_of_step stepped with ⟨running, transition⟩
  by_cases isSend : ∃ packet, action = .send packet
  · rcases isSend with ⟨packet, rfl⟩
    cases transition with
    | send => exact room.step_send finds
  by_cases isCommit : ∃ handle, action = .commit handle
  · rcases isCommit with ⟨handle, rfl⟩
    cases transition with
    | commit live phase => exact room.step_commit live phase
  push Not at isSend isCommit
  refine room.of_settles (transition.settles isCommit) (transition.reserved_le isSend) ?_
  intro failed
  rcases transition.panicked running failed with ⟨handle, _, rfl, _⟩ | ⟨packet, payload, rfl, handled⟩
  · exact isCommit handle rfl
  · rcases Shared.insert_eq_none_of_handle handled with ⟨_, _, other, _⟩ | ⟨_, _, _, _, _, other, _⟩ <;>
      simp at other

end World.RoomReserved

/-- In every run in which each publish of QoS 1 or 2 finds room besides the publishes in flight and
those still to be inserted, the insertion into `inflight_pub` never panics. -/
theorem insertionFits_of_findsRoom {actions : List Action} {world : World config}
    (finds : Execution.Guarded step FindsRoom (World.new config) actions)
    (reached : runFrom config actions = some world) : world.InsertionFits :=
  (Execution.invariant_of_guarded World.RoomReserved (fun finds room stepped =>
    room.step finds stepped) finds (World.RoomReserved.new config) reached).insertionFits

/-- A configuration with `MAX_INFLIGHT` two. -/
def twoInflight : CrateConfig := { CrateConfig.default .mqttv5 true with maxInflight := 2 }

/-- Two publishes pass the check together; the second one is about to be inserted. -/
theorem insertionFits_of_findsRoom_example :
    ∃ world, runFrom twoInflight [.connect, .connected false, .send (.publish .atLeastOnce),
        .send (.publish .atLeastOnce), .lock 0, .grant 0 (.ok ()), .commit 0, .lock 1,
        .grant 1 (.ok ())] = some world ∧
      world.shared.inflightPub.len = 1 ∧
      (world.calls.get? 1).map Call.phase = some .granted ∧ world.InsertionFits := by
  rcases reached : runFrom twoInflight [.connect, .connected false, .send (.publish .atLeastOnce),
    .send (.publish .atLeastOnce), .lock 0, .grant 0 (.ok ()), .commit 0, .lock 1,
    .grant 1 (.ok ())] with _ | world
  · exact absurd reached (by decide)
  · refine ⟨world, rfl, ?_, ?_, insertionFits_of_findsRoom (by decide) reached⟩
    · cases reached
      decide
    · cases reached
      decide

/-- With one publish transmitted and not acknowledged, two more pass the check, and the insertion of
the second one panics. -/
theorem not_insertionFits_of_racing_sends :
    ∃ world, runFrom twoInflight [.connect, .connected false, .send (.publish .atLeastOnce),
        .lock 0, .grant 0 (.ok ()), .commit 0, .read, .written, .flushed, .transmitted,
        .send (.publish .atLeastOnce), .send (.publish .atLeastOnce), .lock 1, .grant 1 (.ok ()),
        .commit 1, .lock 2, .grant 2 (.ok ()), .commit 2] = some world ∧
      ¬world.InsertionFits :=
  ⟨_, rfl, fun fits => fits.1 (by decide)⟩

end Mqttrust.System
