import Mqttrust.System.Transition

/-!
# The client's frames on their way to the socket

A frame that was committed is queued in the TX channel, is then being written and
was at last written. In this order, the written frames first, they are the
outbound frames. No step changes their order: it appends a frame that is
committed, or it loses one that was being written.
-/

namespace Mqttrust.System

variable {config : CrateConfig}

/-- The frame whose complete transmission an event records. -/
def Event.written? : Event → Option Frame
  | .written frame => some frame
  | _ => none

/-- The frame that the stack is writing. -/
def StackPhase.unwritten? : StackPhase → Option Frame
  | .writing frame => some frame
  | _ => none

/-- The call that committed a frame. -/
def Frame.call? : Frame → Option ℕ
  | .send call _ _ => some call
  | .dropped _ => none

/-- The call does nothing more. -/
def Call.isOver (call : Call) : Bool :=
  match call.phase with
  | .finished _ | .dropped => true
  | _ => false

namespace World

/-- The frames that were completely written, oldest first. -/
def transmissions (world : World config) : List Frame :=
  (world.history.filterMap Event.written?).reverse

/-- The frames that were written, are being written or are queued. -/
def outbound (world : World config) : List Frame :=
  world.transmissions ++ (world.stack.unwritten?.toList ++ world.frames)

/-- No outbound frame is of the call. -/
def Unsent (world : World config) (handle : ℕ) : Prop :=
  ∀ frame ∈ world.outbound, frame.call? ≠ some handle

instance (world : World config) (handle : ℕ) : Decidable (world.Unsent handle) :=
  inferInstanceAs (Decidable (∀ frame ∈ world.outbound, _))

end World

@[simp]
theorem outbound_new (config : CrateConfig) : (World.new config).outbound = [] := rfl

namespace Transition

variable {world next : World config} {action : Action}

theorem outbound_sublist_of_eq
    (history : next.history.filterMap Event.written? = world.history.filterMap Event.written?)
    (stack : next.stack.unwritten? = none ∨ next.stack.unwritten? = world.stack.unwritten?)
    (frames : next.frames = world.frames) : next.outbound.Sublist world.outbound := by
  simp only [World.outbound, World.transmissions, history, frames]
  apply List.Sublist.append (List.Sublist.refl _)
  rcases stack with lost | kept
  · rw [lost]
    exact List.sublist_append_right _ _
  · rw [kept]

theorem written?_receivedEvents (payload : Payload) (packet : ReceivedPacket) :
    (receivedEvents payload packet).filterMap Event.written? = [] := by
  unfold receivedEvents
  split
  · rfl
  · rfl
  · rfl
  · rfl
  · split <;> rfl
  · rfl

/-- A frame that a step commits: that of a call that was granted, or that of a subscription that is
dropped. -/
inductive Commits (world next : World config) : Action → Frame → Prop where
  | call {handle : ℕ} {call : Call} (live : world.calls.get? handle = some call)
      (phase : call.phase = .granted)
      (sent : next.calls.get? handle = some { call with phase := .sent }) :
      Commits world next (.commit handle) (.send handle call.packet call.pid)
  | dropped (drop : SubscriptionDrop) (pid : Pid) :
      Commits world next (.dropSubscription drop) (.dropped pid)

/-- A step appends a frame that it commits to the outbound ones, or loses some of them. -/
theorem outbound (transition : Transition world action next) :
    next.outbound.Sublist world.outbound ∨
      ∃ frame, Commits world next action frame ∧ next.outbound = world.outbound ++ [frame] := by
  cases transition with
  | send packet =>
      left
      unfold World.send
      split
      · exact outbound_sublist_of_eq rfl (.inr rfl) rfl
      · exact List.Sublist.refl _
  | grant result =>
      left
      cases result <;> exact outbound_sublist_of_eq rfl (.inr rfl) rfl
  | @commit handle call live phase =>
      unfold World.commit
      split
      · right
        refine ⟨_, .call live phase ?_, ?_⟩
        · simp only [World.setPhase, Table.get?_replace live, if_true]
        simp only [World.outbound, World.setPhase, List.append_assoc]
        rfl
      · exact .inl (outbound_sublist_of_eq rfl (.inr rfl) rfl)
      · exact .inl (outbound_sublist_of_eq rfl (.inr rfl) rfl)
  | waitStatus =>
      left
      unfold World.finishStatus
      split <;> exact outbound_sublist_of_eq rfl (.inr rfl) rfl
  | drop =>
      left
      unfold World.drop
      split <;> exact outbound_sublist_of_eq rfl (.inr rfl) rfl
  | dropSubscription drop =>
      unfold World.dropSubscription
      dsimp only
      split
      · by_cases encoded : drop.encoded = true
        · right
          refine ⟨_, .dropped drop (if drop.pidLocked then world.shared.nextPid else Pid.new), ?_⟩
          simp only [World.outbound, encoded, if_true, List.append_assoc]
          rfl
        · left
          refine outbound_sublist_of_eq rfl (.inr rfl) ?_
          simp [encoded]
      · exact .inl (outbound_sublist_of_eq rfl (.inr rfl) rfl)
  | read phase first =>
      left
      simp [World.outbound, World.transmissions, StackPhase.unwritten?, phase, first]
  | written phase =>
      left
      simp [World.outbound, World.transmissions, World.written, Event.written?,
        StackPhase.unwritten?, phase]
  | transmitted =>
      left
      exact outbound_sublist_of_eq rfl (.inl rfl) rfl
  | receive payload phase =>
      left
      unfold World.receive
      dsimp only
      split
      · rename_i shared reply handled
        refine outbound_sublist_of_eq ?_ ?_ rfl
        · simp only [List.filterMap_append, written?_receivedEvents, List.nil_append]
        · cases reply <;> exact .inl rfl
      · refine outbound_sublist_of_eq ?_ (.inl rfl) rfl
        simp only [List.filterMap_append, written?_receivedEvents, List.nil_append]
      · refine outbound_sublist_of_eq ?_ (.inr rfl) rfl
        simp only [List.filterMap_append, written?_receivedEvents, List.nil_append]
  | receiveFails error phase =>
      left
      cases error with
      | io kind => exact outbound_sublist_of_eq rfl (.inl rfl) rfl
      | _ => exact List.Sublist.refl _
  | keepAlive =>
      left
      unfold World.keepAlive
      split <;> exact outbound_sublist_of_eq rfl (.inl rfl) rfl
  | reset isConnected | dropRun isConnected =>
      left
      cases isConnected <;> exact outbound_sublist_of_eq rfl (.inl rfl) rfl
  | connect | connectFails | connected | lost | flushed | writeFails | replied | disconnect =>
      left
      exact outbound_sublist_of_eq rfl (.inl rfl) rfl
  | lock | waitTx | waitAck | waitRel =>
      left
      exact outbound_sublist_of_eq rfl (.inr rfl) rfl

/-- A call that goes on keeps its packet and its identifier, does not send again, and does nothing
more once it is over. -/
structure GoesOn (call call' : Call) : Prop where
  packet : call'.packet = call.packet
  pid : call'.pid = call.pid
  notSending : call.isSending = false → call'.isSending = false
  isOver : call.isOver = true → call' = call

theorem GoesOn.refl (call : Call) : GoesOn call call := ⟨rfl, rfl, id, fun _ => rfl⟩

theorem notSending_of_waitTx {shared : Shared config} {packet : SendPacket} {pid : Pid}
    {later : Phase} (ready : shared.waitTx packet pid = some later) (call : Call) :
    ({ call with phase := later } : Call).isSending = false := by
  rcases (Shared.cases_of_waitTx ready).2 with ⟨_, rfl⟩ | ⟨_, rfl⟩
  · rfl
  · rfl

theorem notSending_of_waitAck {shared : Shared config} {qos : QoS} {pid : Pid}
    {later : Phase} (ready : shared.waitAck qos pid = some later) (call : Call) :
    ({ call with phase := later } : Call).isSending = false := by
  rcases (Shared.cases_of_waitAck ready).2 with ⟨_, rfl⟩ | ⟨_, rfl⟩
  · rfl
  · rfl

theorem notSending_of_waitRel {shared : Shared config} {pid : Pid} {later : Phase}
    (ready : shared.waitRel pid = some later) (call : Call) :
    ({ call with phase := later } : Call).isSending = false := by
  rcases (Shared.eq_of_waitRel ready).2 with rfl
  rfl

/-- The call behind a handle goes on in the next world. -/
def CallGoesOn (next : World config) (handle : ℕ) (call : Call) : Prop :=
  ∃ call', next.calls.get? handle = some call' ∧ GoesOn call call'

theorem callGoesOn_of_eq {handle : ℕ} {call : Call}
    (live : world.calls.get? handle = some call) (calls : next.calls = world.calls) :
    CallGoesOn next handle call :=
  ⟨call, calls ▸ live, .refl call⟩

theorem callGoesOn_of_replace {handle other : ℕ} {call old : Call} {phase later : Phase}
    (live : world.calls.get? handle = some call) (old_live : world.calls.get? other = some old)
    (current : old.phase = phase) (going : ({ old with phase := phase } : Call).isOver = false)
    (notSending : ({ old with phase := phase } : Call).isSending = false →
      ({ old with phase := later } : Call).isSending = false)
    (calls : next.calls = world.calls.replace other { old with phase := later }) :
    CallGoesOn next handle call := by
  subst current
  unfold CallGoesOn
  rw [calls, Table.get?_replace old_live]
  split
  · rename_i same
    subst same
    rcases Option.some.inj (old_live.symm.trans live) with rfl
    refine ⟨_, rfl, rfl, rfl, notSending, ?_⟩
    intro isOver
    simp [isOver] at going
  · exact ⟨call, live, .refl call⟩

/-- What a step does to the calls: it may change the phase of one of them, or begin one. -/
theorem callGoesOn (transition : Transition world action next) {handle : ℕ} {call : Call}
    (live : world.calls.get? handle = some call) : CallGoesOn next handle call := by
  cases transition with
  | send packet =>
      unfold World.send
      split
      · exact ⟨call, Table.get?_insert_of_get? live _, .refl call⟩
      · exact callGoesOn_of_eq live rfl
  | lock old_live phase =>
      exact callGoesOn_of_replace live old_live phase rfl (by simp [Call.isSending]) rfl
  | grant result old_live phase =>
      cases result with
      | ok => exact callGoesOn_of_replace live old_live phase rfl (by simp [Call.isSending]) rfl
      | error => exact callGoesOn_of_replace live old_live phase rfl (fun _ => rfl) rfl
  | commit old_live phase =>
      unfold World.commit
      split
      · exact callGoesOn_of_replace live old_live phase rfl (fun _ => rfl) rfl
      · exact callGoesOn_of_replace live old_live phase rfl (fun _ => rfl) rfl
      · exact callGoesOn_of_eq live rfl
  | waitTx old_live phase ready =>
      exact callGoesOn_of_replace live old_live phase rfl
        (fun _ => notSending_of_waitTx ready _) rfl
  | waitAck old_live phase publish ready =>
      exact callGoesOn_of_replace live old_live phase rfl
        (fun _ => notSending_of_waitAck ready _) rfl
  | waitRel old_live phase ready =>
      exact callGoesOn_of_replace live old_live phase rfl
        (fun _ => notSending_of_waitRel ready _) rfl
  | waitStatus contended old_live phase =>
      unfold World.finishStatus
      split
      · exact callGoesOn_of_replace live old_live phase rfl (fun _ => rfl) rfl
      · exact callGoesOn_of_replace live old_live phase rfl (fun _ => rfl) rfl
  | @drop other old contended old_live =>
      unfold World.drop
      split
      all_goals
        first
        | exact callGoesOn_of_eq live rfl
        | exact callGoesOn_of_replace live old_live (by assumption) rfl (fun _ => rfl) rfl
  | dropSubscription drop =>
      unfold World.dropSubscription
      dsimp only
      split <;> exact callGoesOn_of_eq live rfl
  | receive payload =>
      unfold World.receive
      dsimp only
      split <;> exact callGoesOn_of_eq live rfl
  | receiveFails error => cases error <;> exact callGoesOn_of_eq live rfl
  | keepAlive =>
      unfold World.keepAlive
      split <;> exact callGoesOn_of_eq live rfl
  | connect | connectFails | connected | lost | read | written | flushed | transmitted
  | writeFails | replied | reset | dropRun | disconnect => exact callGoesOn_of_eq live rfl

end Transition

/-- Every outbound frame of a call is the one that it committed, and there is at most one of them. -/
structure World.OnceEach (world : World config) : Prop where
  own : ∀ frame ∈ world.outbound, ∀ handle, frame.call? = some handle →
    ∃ call, world.calls.get? handle = some call ∧ call.isSending = false ∧
      frame = .send handle call.packet call.pid
  once : ∀ handle, world.outbound.countP (fun frame => frame.call? == some handle) ≤ 1

namespace World.OnceEach

variable {world next : World config} {action : Action}

theorem new (config : CrateConfig) : (World.new config).OnceEach :=
  ⟨by simp, by simp⟩

/-- A call that has not committed its frame has no outbound one. -/
theorem unsent (onceEach : world.OnceEach) {handle : ℕ} {call : Call}
    (live : world.calls.get? handle = some call) (sending : call.isSending = true) :
    world.Unsent handle := by
  intro frame frame_mem same
  rcases onceEach.own frame frame_mem handle same with ⟨owner, owner_live, notSending, _⟩
  rcases Option.some.inj (live.symm.trans owner_live) with rfl
  rw [sending] at notSending
  simp at notSending

theorem ownNext (onceEach : world.OnceEach) (transition : Transition world action next) :
    ∀ frame ∈ world.outbound, ∀ handle, frame.call? = some handle →
      ∃ call, next.calls.get? handle = some call ∧ call.isSending = false ∧
        frame = .send handle call.packet call.pid := by
  intro frame frame_mem handle same
  rcases onceEach.own frame frame_mem handle same with ⟨call, live, notSending, rfl⟩
  rcases transition.callGoesOn live with ⟨call', live', goesOn⟩
  refine ⟨call', live', goesOn.notSending notSending, ?_⟩
  rw [goesOn.packet, goesOn.pid]

theorem step (onceEach : world.OnceEach) (stepped : System.step world action = some next) :
    next.OnceEach := by
  have transition := (transition_of_step stepped).2
  rcases transition.outbound with lost | ⟨frame, commits, appended⟩
  · constructor
    · intro frame frame_mem
      exact onceEach.ownNext transition frame (lost.subset frame_mem)
    · intro handle
      exact (lost.countP_le).trans (onceEach.once handle)
  · constructor
    · intro frame' frame_mem handle same
      rw [appended] at frame_mem
      rcases List.mem_append.mp frame_mem with old | newest
      · exact onceEach.ownNext transition frame' old handle same
      · rcases List.mem_singleton.mp newest with rfl
        cases commits with
        | call live phase sent =>
            rcases Option.some.inj same with rfl
            exact ⟨_, sent, rfl, rfl⟩
        | dropped drop pid => simp [Frame.call?] at same
    · intro handle
      rw [appended, List.countP_append, List.countP_singleton]
      cases commits with
      | @call committer call live phase sent =>
          by_cases same : committer = handle
          · subst same
            have unsent := onceEach.unsent live (by simp [Call.isSending, phase])
            have none_before : world.outbound.countP
                (fun frame => frame.call? == some committer) = 0 := by
              apply List.countP_eq_zero.mpr
              intro frame frame_mem
              simpa using unsent frame frame_mem
            rw [none_before]
            split <;> omega
          · have other := onceEach.once handle
            simpa [Frame.call?, same] using other
      | dropped drop pid =>
          have other := onceEach.once handle
          simpa [Frame.call?] using other

end World.OnceEach

end Mqttrust.System
