import Mqttrust.System.World

/-!
# Transitions

What a step can do, action by action, and which steps add packet identifiers to
the sets of the shared state: the insertions of `send` do, and a received PUBLISH
of QoS 2. The invariants of runs are derived from these facts.
-/

namespace Mqttrust.System

variable {config : CrateConfig}

namespace Shared

/-- The publishes of which an acknowledgement is outstanding. -/
def unacked (shared : Shared config) : Finset ℕ :=
  shared.inflightPub.elements ∪ shared.outgoingRel.elements

/-- Publishes may have been acknowledged or forgotten; none was added. -/
structure Settles (shared next : Shared config) : Prop where
  inflightPub : next.inflightPub.elements ⊆ shared.inflightPub.elements
  unacked : next.unacked ⊆ shared.unacked

namespace Settles

variable {shared next last : Shared config}

theorem of_subset (inflightPub : next.inflightPub.elements ⊆ shared.inflightPub.elements)
    (outgoingRel : next.outgoingRel.elements ⊆ shared.outgoingRel.elements) :
    shared.Settles next :=
  ⟨inflightPub, Finset.union_subset_union inflightPub outgoingRel⟩

theorem of_eq (inflightPub : next.inflightPub = shared.inflightPub)
    (outgoingRel : next.outgoingRel = shared.outgoingRel) : shared.Settles next :=
  of_subset (by rw [inflightPub]) (by rw [outgoingRel])

theorem refl (shared : Shared config) : shared.Settles shared := of_eq rfl rfl

theorem trans (first : shared.Settles next) (second : next.Settles last) : shared.Settles last :=
  ⟨second.inflightPub.trans first.inflightPub, second.unacked.trans first.unacked⟩

end Settles

variable (shared : Shared config)

theorem settles_reset : shared.Settles shared.reset :=
  .of_subset (Finset.empty_subset _) (Finset.empty_subset _)

theorem settles_cleanPublish (pid : Pid) : shared.Settles (shared.cleanPublish pid) := by
  unfold cleanPublish
  refine .of_subset ?_ ?_
  · intro key key_mem
    split at key_mem <;> split at key_mem <;> simp_all
  · intro key key_mem
    split at key_mem <;> split at key_mem <;> simp_all

theorem settles_clean (packet : SendPacket) (pid : Pid) (contended : Bool) :
    shared.Settles (shared.clean packet pid contended) := by
  unfold clean
  split
  · exact .refl shared
  · cases packet with
    | publish qos => exact shared.settles_cleanPublish pid
    | subscribe => exact .of_eq rfl rfl
    | unsubscribe => exact .refl shared

variable {shared}

theorem settles_handle {next : Shared config} {payload : Payload} {packet : ReceivedPacket}
    {reply : Option Reply} (handled : shared.handle payload packet = .done next reply) :
    shared.Settles next := by
  cases packet with
  | pingResp | connAck | disconnect =>
      rcases Handled.done.inj handled with ⟨rfl, rfl⟩
      exact .refl shared
  | partialPublish qosPid topicName publish =>
      rcases cases_of_handlePublish handled with ⟨rfl, _⟩ | ⟨pid, incomingPub, _, _, _, rfl⟩
      · exact .refl _
      · exact .of_eq rfl rfl
  | pubAck packet =>
      rcases Handled.done.inj handled with ⟨rfl, rfl⟩
      exact .of_subset (Finset.erase_subset _ _) subset_rfl
  | pubRec packet =>
      rcases exists_of_handlePubRec handled with ⟨present, outgoingRel, inserted, rfl⟩
      refine ⟨Finset.erase_subset _ _, ?_⟩
      -- the identifier goes from one set to the other, so their union stays
      have added := IndexSet.elements_of_insert inserted
      intro key key_mem
      simp only [unacked, IndexSet.elements_remove, added] at key_mem ⊢
      grind
  | pubRel packet =>
      rcases eq_of_handlePubRel handled with rfl
      exact .of_eq rfl rfl
  | pubComp packet =>
      rcases Handled.done.inj handled with ⟨rfl, rfl⟩
      exact .of_subset subset_rfl (Finset.erase_subset _ _)
  | subAck packet =>
      rcases Handled.done.inj handled with ⟨rfl, rfl⟩
      unfold handleSubAck
      split <;> exact .of_eq rfl rfl
  | unsubAck packet =>
      rcases Handled.done.inj handled with ⟨rfl, rfl⟩
      unfold handleUnsubAck
      split <;> exact .of_eq rfl rfl

/-- The counter of packet identifiers and the connection status are left alone. -/
structure Steady (shared next : Shared config) : Prop where
  lastPid : next.lastPid = shared.lastPid
  connected : next.connected = shared.connected
  count : next.cleanSessionCount = shared.cleanSessionCount

theorem Steady.refl (shared : Shared config) : shared.Steady shared := ⟨rfl, rfl, rfl⟩

section Steady

variable {next : Shared config}

theorem steady_clean (shared : Shared config) (packet : SendPacket) (pid : Pid)
    (contended : Bool) : shared.Steady (shared.clean packet pid contended) := by
  unfold clean
  split
  · exact .refl shared
  · cases packet with
    | publish qos =>
        simp only [cleanPublish]
        split <;> split <;> exact ⟨rfl, rfl, rfl⟩
    | subscribe | unsubscribe => exact ⟨rfl, rfl, rfl⟩

theorem steady_waitStatus {pid : Pid} {codes : List UInt8}
    (ready : shared.waitStatus pid = some (next, codes)) : shared.Steady next := by
  rcases waitStatus_eq_some ready with ⟨_, rfl⟩
  exact ⟨rfl, rfl, rfl⟩

theorem steady_of_full {packet : SendPacket} {pid : Pid}
    (registered : shared.register packet pid = .full next) : shared.Steady next := by
  rw [(eq_of_full registered).1]
  exact ⟨rfl, rfl, rfl⟩

theorem steady_of_done {packet : SendPacket} {pid : Pid}
    (registered : shared.register packet pid = .done next) : shared.Steady next := by
  rcases cases_of_done registered with
    ⟨outgoingPid, _, ⟨_, rfl⟩ | ⟨inflightPub, _, _, rfl⟩ | ⟨status, ackStatus, _, _, rfl⟩⟩
  all_goals exact ⟨rfl, rfl, rfl⟩

theorem steady_handle {payload : Payload} {packet : ReceivedPacket} {reply : Option Reply}
    (handled : shared.handle payload packet = .done next reply) : shared.Steady next := by
  cases packet with
  | pingResp | connAck | disconnect | pubAck | pubComp =>
      rcases Handled.done.inj handled with ⟨rfl, rfl⟩
      exact ⟨rfl, rfl, rfl⟩
  | subAck packet =>
      rcases Handled.done.inj handled with ⟨rfl, rfl⟩
      unfold handleSubAck
      split <;> exact ⟨rfl, rfl, rfl⟩
  | unsubAck packet =>
      rcases Handled.done.inj handled with ⟨rfl, rfl⟩
      unfold handleUnsubAck
      split <;> exact ⟨rfl, rfl, rfl⟩
  | pubRec packet =>
      rcases exists_of_handlePubRec handled with ⟨_, outgoingRel, _, rfl⟩
      exact ⟨rfl, rfl, rfl⟩
  | pubRel packet =>
      rcases eq_of_handlePubRel handled with rfl
      exact ⟨rfl, rfl, rfl⟩
  | partialPublish qosPid topicName publish =>
      rcases cases_of_handlePublish handled with ⟨rfl, _⟩ | ⟨pid, incomingPub, _, _, _, rfl⟩
      · exact .refl _
      · exact ⟨rfl, rfl, rfl⟩

end Steady

/-- Handling a packet panics when a set of QoS 2 identifiers is full. -/
theorem insert_eq_none_of_handle {payload : Payload} {packet : ReceivedPacket} {place : Panic}
    (handled : shared.handle payload packet = .panicked place) :
    (∃ ack, packet = .pubRec ack ∧ place = .outgoingRel ∧
      ack.pid.val ∈ shared.inflightPub.elements ∧ shared.outgoingRel.insert ack.pid.val = none) ∨
    ∃ pid topicName publish, packet = .partialPublish (.exactlyOnce pid) topicName publish ∧
      payload = .copied ∧ place = .incomingPub ∧ shared.incomingPub.insert pid.val = none := by
  cases packet with
  | pubRec ack =>
      simp only [handle, handlePubRec] at handled
      split at handled
      · rename_i inflight
        split at handled
        · simp at handled
        · rename_i full
          exact .inl ⟨ack, rfl, (Handled.panicked.inj handled).symm,
            IndexSet.contains_iff.mp inflight, full⟩
      · simp at handled
  | pubRel ack =>
      simp only [handle, handlePubRel] at handled
      split at handled <;> simp at handled
  | partialPublish qosPid topicName publish =>
      simp only [handle, handlePublish] at handled
      split at handled
      · simp at handled
      · simp at handled
      · split at handled
        · simp at handled
        · simp at handled
        · rename_i pid
          split at handled
          · simp at handled
          · rename_i full
            exact .inr ⟨pid, topicName, publish, rfl, rfl, (Handled.panicked.inj handled).symm, full⟩
  | pingResp | connAck | disconnect | pubAck | pubComp | subAck | unsubAck => simp [handle] at handled

theorem settles_waitStatus {next : Shared config} {pid : Pid} {codes : List UInt8}
    (ready : shared.waitStatus pid = some (next, codes)) : shared.Settles next := by
  rcases waitStatus_eq_some ready with ⟨_, rfl⟩
  exact .of_eq rfl rfl

end Shared

/-- The ways in which a world that has not panicked goes on. -/
inductive Transition (world : World config) : Action → World config → Prop where
  | send (packet : SendPacket) (supported : packet.supported config = true) :
      Transition world (.send packet) (world.send packet)
  | lock {handle : ℕ} {call : Call} (live : world.calls.get? handle = some call)
      (phase : call.phase = .checked) (free : world.txPublisher = none) :
      Transition world (.lock handle) (world.lock handle call)
  | grant {handle : ℕ} {call : Call} (result : Except Error Unit)
      (live : world.calls.get? handle = some call) (phase : call.phase = .publishing) :
      Transition world (.grant handle result) (world.grant handle call result)
  | commit {handle : ℕ} {call : Call} (live : world.calls.get? handle = some call)
      (phase : call.phase = .granted) :
      Transition world (.commit handle) (world.commit handle call)
  | waitTx {handle : ℕ} {call : Call} {later : Phase} (live : world.calls.get? handle = some call)
      (phase : call.phase = .sent)
      (ready : world.shared.waitTx call.packet call.pid = some later) :
      Transition world (.waitTx handle) (world.setPhase handle call later)
  | waitAck {handle : ℕ} {call : Call} {later : Phase} {qos : QoS}
      (live : world.calls.get? handle = some call) (phase : call.phase = .transmitted)
      (publish : call.packet = .publish qos)
      (ready : world.shared.waitAck qos call.pid = some later) :
      Transition world (.waitAck handle) (world.setPhase handle call later)
  | waitRel {handle : ℕ} {call : Call} {later : Phase} (live : world.calls.get? handle = some call)
      (phase : call.phase = .acked) (ready : world.shared.waitRel call.pid = some later) :
      Transition world (.waitRel handle) (world.setPhase handle call later)
  | waitStatus {handle : ℕ} {call : Call} {shared : Shared config} {codes : List UInt8}
      (contended : Bool) (live : world.calls.get? handle = some call)
      (phase : call.phase = .transmitted) (notPublish : ∀ qos, call.packet ≠ .publish qos)
      (ready : world.shared.waitStatus call.pid = some (shared, codes)) :
      Transition world (.waitStatus handle contended)
        (world.finishStatus handle call shared codes contended)
  | drop {handle : ℕ} {call : Call} (contended : Bool)
      (live : world.calls.get? handle = some call) :
      Transition world (.drop handle contended) (world.drop handle call contended)
  | dropSubscription (drop : SubscriptionDrop) :
      Transition world (.dropSubscription drop) (world.dropSubscription drop)
  | connect (phase : world.stack = .disconnected) : Transition world .connect world.connect
  | connectFails (phase : world.stack = .connecting) :
      Transition world .connectFails { world with stack := .disconnected }
  | connected (sessionPresent : Bool) (phase : world.stack = .connecting) :
      Transition world (.connected sessionPresent) (world.connected sessionPresent)
  | lost (phase : world.stack = .idle) :
      Transition world .lost { world with stack := .disconnected }
  | read {frame : Frame} {rest : List Frame} (phase : world.stack = .idle)
      (first : world.frames = frame :: rest) :
      Transition world .read { world with stack := .writing frame, frames := rest }
  | written {frame : Frame} (phase : world.stack = .writing frame) :
      Transition world .written (world.written frame)
  | flushed {frame : Frame} (phase : world.stack = .flushing frame) :
      Transition world .flushed { world with stack := .transmitting frame }
  | transmitted {frame : Frame} (phase : world.stack = .transmitting frame) :
      Transition world .transmitted (world.transmitted frame)
  | writeFails : Transition world .writeFails { world with stack := .failing }
  | receive {packet : ReceivedPacket} (payload : Payload) (phase : world.stack = .idle)
      (supported : receivable config packet = true) :
      Transition world (.receive packet payload) (world.receive packet payload)
  | receiveFails (error : StateError) (phase : world.stack = .idle) :
      Transition world (.receiveFails error) (world.receiveFails error)
  | keepAlive (phase : world.stack = .idle) : Transition world .keepAlive world.keepAlive
  | replied : Transition world .replied { world with stack := .idle }
  | reset (isConnected : Bool) (phase : world.stack = .failing) :
      Transition world (.reset isConnected) (world.reset isConnected)
  | dropRun (isConnected : Bool) :
      Transition world (.dropRun isConnected)
        { world with stack := if isConnected then .idle else .disconnected }
  | disconnect (phase : world.stack = .idle) :
      Transition world .disconnect (world.resetShared .disconnected)

theorem transition_of_step {world next : World config} {action : Action}
    (stepped : step world action = some next) :
    world.panicked = none ∧ Transition world action next := by
  unfold step at stepped
  split at stepped
  · simp at stepped
  · rename_i running
    refine ⟨by simpa using running, ?_⟩
    cases action with
    | send packet =>
        simp only [Option.ite_none_right_eq_some, Option.some.injEq] at stepped
        exact stepped.2 ▸ .send packet stepped.1
    | lock handle =>
        simp only [Option.bind_eq_bind, Option.bind_eq_some_iff, Option.ite_none_right_eq_some,
          Option.some.injEq] at stepped
        rcases stepped with ⟨call, live, ⟨phase, free⟩, rfl⟩
        exact .lock live phase free
    | grant handle result =>
        simp only [Option.bind_eq_bind, Option.bind_eq_some_iff, Option.ite_none_right_eq_some,
          Option.some.injEq] at stepped
        rcases stepped with ⟨call, live, phase, rfl⟩
        exact .grant result live phase
    | commit handle =>
        simp only [Option.bind_eq_bind, Option.bind_eq_some_iff, Option.ite_none_right_eq_some,
          Option.some.injEq] at stepped
        rcases stepped with ⟨call, live, phase, rfl⟩
        exact .commit live phase
    | waitTx handle =>
        simp only [Option.bind_eq_bind, Option.bind_eq_some_iff, Option.ite_none_right_eq_some,
          Option.map_eq_some_iff] at stepped
        rcases stepped with ⟨call, live, phase, later, ready, rfl⟩
        exact .waitTx live phase ready
    | waitAck handle =>
        simp only [Option.bind_eq_bind, Option.bind_eq_some_iff] at stepped
        rcases stepped with ⟨call, live, stepped⟩
        split at stepped
        · rename_i qos phase publish
          rcases Option.map_eq_some_iff.mp stepped with ⟨later, ready, rfl⟩
          exact .waitAck live phase publish ready
        · simp at stepped
    | waitRel handle =>
        simp only [Option.bind_eq_bind, Option.bind_eq_some_iff, Option.ite_none_right_eq_some,
          Option.map_eq_some_iff] at stepped
        rcases stepped with ⟨call, live, phase, later, ready, rfl⟩
        exact .waitRel live phase ready
    | waitStatus handle contended =>
        simp only [Option.bind_eq_bind, Option.bind_eq_some_iff] at stepped
        rcases stepped with ⟨call, live, stepped⟩
        split at stepped
        all_goals
          simp only [Option.bind_eq_some_iff, Option.some.injEq, reduceCtorEq] at stepped
        all_goals
          rename_i phase packet
          rcases stepped with ⟨⟨shared, codes⟩, ready, rfl⟩
          exact .waitStatus contended live phase (by simp [packet]) ready
    | drop handle contended =>
        simp only [Option.bind_eq_bind, Option.bind_eq_some_iff, Option.some.injEq] at stepped
        rcases stepped with ⟨call, live, rfl⟩
        exact .drop contended live
    | dropSubscription drop =>
        simp only [Option.some.injEq] at stepped
        exact stepped ▸ .dropSubscription drop
    | connect =>
        simp only [Option.ite_none_right_eq_some, Option.some.injEq] at stepped
        exact stepped.2 ▸ .connect stepped.1
    | connectFails =>
        simp only [Option.ite_none_right_eq_some, Option.some.injEq] at stepped
        exact stepped.2 ▸ .connectFails stepped.1
    | connected sessionPresent =>
        simp only [Option.ite_none_right_eq_some, Option.some.injEq] at stepped
        exact stepped.2 ▸ .connected sessionPresent stepped.1
    | lost =>
        simp only [Option.ite_none_right_eq_some, Option.some.injEq] at stepped
        exact stepped.2 ▸ .lost stepped.1
    | read =>
        simp only at stepped
        split at stepped
        · rename_i frame rest phase first
          exact Option.some.inj stepped ▸ .read phase first
        · simp at stepped
    | written =>
        simp only at stepped
        split at stepped
        · rename_i frame phase
          exact Option.some.inj stepped ▸ .written phase
        · simp at stepped
    | flushed =>
        simp only at stepped
        split at stepped
        · rename_i frame phase
          exact Option.some.inj stepped ▸ .flushed phase
        · simp at stepped
    | transmitted =>
        simp only at stepped
        split at stepped
        · rename_i frame phase
          exact Option.some.inj stepped ▸ .transmitted phase
        · simp at stepped
    | writeFails =>
        simp only at stepped
        split at stepped
        · exact Option.some.inj stepped ▸ .writeFails
        · exact Option.some.inj stepped ▸ .writeFails
        · exact Option.some.inj stepped ▸ .writeFails
        · simp at stepped
    | receive packet payload =>
        simp only [Option.ite_none_right_eq_some, Option.some.injEq] at stepped
        exact stepped.2 ▸ .receive payload stepped.1.1 stepped.1.2
    | receiveFails error =>
        simp only [Option.ite_none_right_eq_some, Option.some.injEq] at stepped
        exact stepped.2 ▸ .receiveFails error stepped.1
    | keepAlive =>
        simp only [Option.ite_none_right_eq_some, Option.some.injEq] at stepped
        exact stepped.2 ▸ .keepAlive stepped.1
    | replied =>
        simp only at stepped
        split at stepped
        · exact Option.some.inj stepped ▸ .replied
        · simp at stepped
    | reset isConnected =>
        simp only [Option.ite_none_right_eq_some, Option.some.injEq] at stepped
        exact stepped.2 ▸ .reset isConnected stepped.1
    | dropRun isConnected =>
        simp only [Option.some.injEq] at stepped
        exact stepped ▸ .dropRun isConnected
    | disconnect =>
        simp only [Option.ite_none_right_eq_some, Option.some.injEq] at stepped
        exact stepped.2 ▸ .disconnect stepped.1

namespace Transition

variable {world next : World config} {action : Action}

/-- Only the insertions of `send` add a publish that is to be acknowledged. -/
theorem settles (transition : Transition world action next)
    (notCommit : ∀ handle, action ≠ .commit handle) : world.shared.Settles next.shared := by
  cases transition with
  | send packet =>
      unfold World.send
      split
      · exact .of_eq rfl rfl
      · exact .refl _
  | lock | waitTx | waitAck | waitRel | connectFails | lost | read | written | flushed
  | writeFails | replied | dropRun => exact .refl _
  | grant result =>
      cases result with
      | ok => exact .refl _
      | error => exact .refl _
  | @commit handle => exact absurd rfl (notCommit handle)
  | waitStatus contended live phase notPublish ready =>
      unfold World.finishStatus
      split
      · exact (Shared.settles_waitStatus ready).trans (Shared.settles_clean _ _ _ _)
      · exact Shared.settles_waitStatus ready
  | drop contended =>
      unfold World.drop
      split
      · exact .refl _
      all_goals first | exact .refl _ | exact Shared.settles_clean _ _ _ _
  | dropSubscription drop =>
      unfold World.dropSubscription
      refine .of_eq ?_ ?_ <;> grind [Shared.takePid]
  | connect | connected => exact .of_eq rfl rfl
  | transmitted =>
      unfold World.transmitted
      split
      · exact .of_eq rfl rfl
      · exact .refl _
  | receive payload =>
      unfold World.receive
      dsimp only
      split
      · rename_i handled
        exact Shared.settles_handle handled
      · exact .refl _
      · exact .refl _
  | receiveFails error =>
      cases error <;> exact .refl _
  | keepAlive =>
      unfold World.keepAlive
      split <;> exact .refl _
  | reset | disconnect => exact Shared.settles_reset _

theorem panicked (transition : Transition world action next) (running : world.panicked = none)
    {place : Panic} (failed : next.panicked = some place) :
    (∃ handle call, action = .commit handle ∧ world.calls.get? handle = some call ∧
      call.phase = .granted ∧ world.shared.register call.packet call.pid = .panicked place) ∨
    ∃ packet payload, action = .receive packet payload ∧
      world.shared.handle payload packet = .panicked place := by
  cases transition with
  | @commit handle call live phase =>
      refine .inl ⟨handle, call, rfl, live, phase, ?_⟩
      unfold World.commit at failed
      split at failed
      · simp [World.setPhase, running] at failed
      · simp [World.setPhase, running] at failed
      · rename_i registered
        rw [registered, ← Option.some.inj failed]
  | @receive packet payload =>
      refine .inr ⟨packet, payload, rfl, ?_⟩
      unfold World.receive at failed
      dsimp only at failed
      split at failed
      · simp [running] at failed
      · simp [running] at failed
      · rename_i handled
        rw [handled, ← Option.some.inj failed]
  | send packet =>
      unfold World.send at failed
      split at failed <;> simp [running] at failed
  | grant result =>
      cases result <;> simp [World.grant, World.setPhase, running] at failed
  | waitStatus =>
      unfold World.finishStatus at failed
      split at failed <;> simp [World.setPhase, running] at failed
  | drop =>
      unfold World.drop at failed
      split at failed <;> simp [World.setPhase, running] at failed
  | dropSubscription =>
      unfold World.dropSubscription at failed
      dsimp only at failed
      split at failed <;> simp [running] at failed
  | receiveFails error => cases error <;> simp [World.receiveFails, running] at failed
  | keepAlive =>
      unfold World.keepAlive at failed
      split at failed <;> simp [running] at failed
  | lock | waitTx | waitAck | waitRel | connect | connectFails | connected | lost | read | written
  | flushed | transmitted | writeFails | replied | reset | dropRun | disconnect =>
      exact absurd (failed.symm.trans running) (by simp)

end Transition

end Mqttrust.System
