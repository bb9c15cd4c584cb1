import Mqttrust.System.Tracking

/-!
# Whose frames and answers these are

An identifier that is committed while nothing else uses it stays with its call:
as long as the call waits, no other call, no other frame and no other debt of the
broker carries it.
-/

namespace Mqttrust.System

variable {config : CrateConfig}

/-- The frames that are not released: those in the TX channel and the one the stack is writing. -/
def World.unreleasedFrames (world : World config) : List Frame :=
  world.stack.frame?.toList ++ world.frames

/-- A call that waits uses the identifier, or a frame that is not released, or a publish that the
broker has not answered. -/
def World.uses (world : World config) (pid : Pid) : Bool :=
  world.calls.count (fun call => call.isWaiting && call.pid == pid) != 0 ||
    world.unreleasedFrames.any (fun frame => frame.txPid == pid.val) ||
    world.broker.unanswered.any fun entry => entry.1 == pid

/-- The condition on a step: an identifier that is committed is not in use, and the shared state is
not reset while it has the identifier of a publish that waits for it. -/
def KeepsWaiting (world : World config) (action : Action) : Prop :=
  (∀ handle ∈ action.commits?, ∀ call ∈ world.calls.get? handle, world.uses call.pid = false) ∧
    (action.resets = true → world.calls.count (fun call => call.awaits world.shared) = 0)

instance (world : World config) (action : Action) : Decidable (KeepsWaiting world action) :=
  inferInstanceAs (Decidable (_ ∧ _))

/-- What every frame and every unanswered publish belongs to, as far as the calls that wait are
concerned: no two of them share an identifier, a frame that carries the identifier of one is its
frame, and the broker owes its identifier only the acknowledgement of its frame, which was written. -/
structure World.Attributed (world : World config) : Prop where
  distinct : ∀ handle other call call', world.calls.get? handle = some call →
    world.calls.get? other = some call' → call.isWaiting = true → call'.isWaiting = true →
      call.pid = call'.pid → handle = other
  frames : ∀ frame ∈ world.unreleasedFrames, ∀ handle call, world.calls.get? handle = some call →
    call.isWaiting = true → frame.txPid = call.pid.val → frame = call.frame handle
  written : ∀ frame, world.stack = .flushing frame ∨ world.stack = .transmitting frame →
    .written frame ∈ world.history
  answered : ∀ pid qos, (pid, qos) ∈ world.broker.unanswered → ∀ handle call,
    world.calls.get? handle = some call → call.isWaiting = true → call.pid = pid →
      call.packet = .publish qos ∧ .written (call.frame handle) ∈ world.history

namespace Broker

variable {broker : Broker} {entry : Pid × QoS}

theorem mem_receive {frame : Frame} (owed : entry ∈ (broker.receive frame).unanswered) :
    entry ∈ broker.unanswered ∨ ∃ handle, frame = .send handle (.publish entry.2) entry.1 := by
  unfold receive at owed
  split at owed
  · rcases List.mem_cons.mp owed with rfl | old
    · exact .inr ⟨_, rfl⟩
    · exact .inl old
  · rcases List.mem_cons.mp owed with rfl | old
    · exact .inr ⟨_, rfl⟩
    · exact .inl old
  · exact .inl owed

theorem mem_of_mem_send {packet : ReceivedPacket} (owed : entry ∈ (broker.send packet).unanswered) :
    entry ∈ broker.unanswered := by
  unfold send at owed
  split at owed
  · exact List.mem_of_mem_erase owed
  · exact owed

end Broker

namespace Transition

variable {world next : World config} {action : Action}

theorem history_sublist (transition : Transition world action next) :
    world.history.Sublist next.history := by
  cases transition with
  | send packet =>
      unfold World.send
      split <;> exact List.Sublist.refl _
  | grant result => cases result <;> exact List.Sublist.refl _
  | commit =>
      unfold World.commit
      split <;> exact List.Sublist.refl _
  | waitStatus =>
      unfold World.finishStatus
      split <;> exact List.Sublist.refl _
  | drop =>
      unfold World.drop
      split <;> exact List.Sublist.refl _
  | dropSubscription drop =>
      unfold World.dropSubscription
      dsimp only
      split <;> exact List.Sublist.refl _
  | written | reset | disconnect => exact List.sublist_cons_self _ _
  | receive payload =>
      unfold World.receive
      dsimp only
      split <;> exact List.sublist_append_right _ _
  | receiveFails error => cases error <;> exact List.Sublist.refl _
  | keepAlive =>
      unfold World.keepAlive
      split <;> exact List.Sublist.refl _
  | lock | waitTx | waitAck | waitRel | connect | connectFails | connected | lost | read | flushed
  | transmitted | writeFails | replied | dropRun => exact List.Sublist.refl _

/-- A call that waits has waited before, with the same packet and identifier. -/
def WaitedBefore (world next : World config) : Prop :=
  ∀ handle call, next.calls.get? handle = some call → call.isWaiting = true →
    ∃ old, world.calls.get? handle = some old ∧ old.isWaiting = true ∧
      old.packet = call.packet ∧ old.pid = call.pid

theorem WaitedBefore.of_calls (same : next.calls = world.calls) : WaitedBefore world next := by
  intro handle call live waiting
  exact ⟨call, same ▸ live, waiting, rfl, rfl⟩

theorem WaitedBefore.setPhase {handle : ℕ} {call : Call} {phase : Phase}
    (live : world.calls.get? handle = some call)
    (calls : next.calls = (world.setPhase handle call phase).calls)
    (before : ({ call with phase := phase } : Call).isWaiting = true → call.isWaiting = true) :
    WaitedBefore world next := by
  intro other call' live' waiting
  rw [calls, World.setPhase, Table.get?_replace live] at live'
  split at live'
  · rename_i same
    rcases Option.some.inj live' with rfl
    exact ⟨call, same ▸ live, before waiting, rfl, rfl⟩
  · exact ⟨call', live', waiting, rfl, rfl⟩

/-- Only the commit makes a call wait. -/
theorem waitedBefore (transition : Transition world action next)
    (notCommit : ∀ handle, action ≠ .commit handle) : WaitedBefore world next := by
  cases transition with
  | send packet =>
      unfold World.send
      split
      · intro handle call live waiting
        dsimp only at live
        rw [Table.get?_insert] at live
        split at live
        · rcases Option.some.inj live with rfl
          simp [Call.isWaiting] at waiting
        · exact ⟨call, live, waiting, rfl, rfl⟩
      · exact .of_calls rfl
  | lock live => exact .setPhase live rfl (by simp [Call.isWaiting])
  | grant result live =>
      cases result with
      | ok => exact .setPhase live rfl (by simp [Call.isWaiting])
      | error => exact .setPhase live rfl (by simp [Call.isWaiting])
  | @commit handle => exact absurd rfl (notCommit handle)
  | waitTx live phase | waitAck live phase | waitRel live phase =>
      exact .setPhase live rfl fun _ => by simp [Call.isWaiting, phase]
  | waitStatus contended live phase =>
      unfold World.finishStatus
      split
      · exact .setPhase live rfl (by simp [Call.isWaiting])
      · exact .setPhase live rfl (by simp [Call.isWaiting])
  | drop contended live =>
      unfold World.drop
      split
      all_goals first
        | exact .of_calls rfl
        | exact .setPhase live rfl (by simp [Call.isWaiting])
  | dropSubscription drop =>
      unfold World.dropSubscription
      dsimp only
      split <;> exact .of_calls rfl
  | receive payload =>
      unfold World.receive
      dsimp only
      split <;> exact .of_calls rfl
  | receiveFails error => cases error <;> exact .of_calls rfl
  | keepAlive =>
      unfold World.keepAlive
      split <;> exact .of_calls rfl
  | connect | connectFails | connected | lost | read | written | flushed | transmitted
  | writeFails | replied | reset | dropRun | disconnect => exact .of_calls rfl

/-- Besides the commit, only a dropped subscription adds a frame, which carries no identifier. -/
theorem unreleasedFrames (transition : Transition world action next)
    (notCommit : ∀ handle, action ≠ .commit handle) :
    ∀ frame ∈ next.unreleasedFrames, frame ∈ world.unreleasedFrames ∨ frame.txPid = 0 := by
  have queued : ∀ frame, frame ∈ world.frames → frame ∈ world.unreleasedFrames :=
    fun frame queued => List.mem_append_right _ queued
  cases transition with
  | send packet =>
      unfold World.send
      split <;> exact fun _ frame_mem => .inl frame_mem
  | grant result => cases result <;> exact fun _ frame_mem => .inl frame_mem
  | @commit handle => exact absurd rfl (notCommit handle)
  | waitStatus =>
      unfold World.finishStatus
      split <;> exact fun _ frame_mem => .inl frame_mem
  | drop =>
      unfold World.drop
      split <;> exact fun _ frame_mem => .inl frame_mem
  | dropSubscription drop =>
      intro frame frame_mem
      unfold World.dropSubscription at frame_mem
      dsimp only at frame_mem
      split at frame_mem
      · rcases List.mem_append.mp frame_mem with taken | added
        · exact .inl (List.mem_append_left _ taken)
        · dsimp only at added
          split at added
          · rcases List.mem_append.mp added with old | new
            · exact .inl (queued frame old)
            · rw [List.mem_singleton.mp new]
              exact .inr rfl
          · exact .inl (queued frame added)
      · exact .inl frame_mem
  | read phase first =>
      intro frame frame_mem
      refine .inl (queued frame ?_)
      rw [first]
      simpa [World.unreleasedFrames, StackPhase.frame?] using frame_mem
  | written phase | flushed phase =>
      intro frame frame_mem
      left
      simpa [World.unreleasedFrames, World.written, StackPhase.frame?, phase] using frame_mem
  | receive payload phase =>
      intro frame frame_mem
      refine .inl (queued frame ?_)
      unfold World.receive at frame_mem
      dsimp only at frame_mem
      split at frame_mem
      · rename_i shared reply handled
        cases reply <;> simpa [World.unreleasedFrames, StackPhase.frame?] using frame_mem
      · simpa [World.unreleasedFrames, StackPhase.frame?] using frame_mem
      · simpa [World.unreleasedFrames, StackPhase.frame?, phase] using frame_mem
  | receiveFails error phase =>
      intro frame frame_mem
      refine .inl (queued frame ?_)
      cases error <;>
        simpa [World.unreleasedFrames, StackPhase.frame?, World.receiveFails, phase] using frame_mem
  | keepAlive =>
      intro frame frame_mem
      refine .inl (queued frame ?_)
      unfold World.keepAlive at frame_mem
      split at frame_mem <;>
        simpa [World.unreleasedFrames, StackPhase.frame?] using frame_mem
  | reset isConnected | dropRun isConnected =>
      intro frame frame_mem
      refine .inl (queued frame ?_)
      cases isConnected <;>
        simpa [World.unreleasedFrames, StackPhase.frame?, World.reset, World.resetShared]
          using frame_mem
  | connect | connectFails | connected | lost | transmitted | writeFails | replied | disconnect =>
      exact fun frame frame_mem => .inl (queued frame frame_mem)
  | lock | waitTx | waitAck | waitRel => exact fun _ frame_mem => .inl frame_mem

theorem written_of_flushing (transition : Transition world action next)
    (before : ∀ frame, world.stack = .flushing frame ∨ world.stack = .transmitting frame →
      .written frame ∈ world.history) :
    ∀ frame, next.stack = .flushing frame ∨ next.stack = .transmitting frame →
      .written frame ∈ next.history := by
  cases transition with
  | send packet =>
      unfold World.send
      split <;> exact before
  | grant result => cases result <;> exact before
  | commit =>
      unfold World.commit
      split <;> exact before
  | waitStatus =>
      unfold World.finishStatus
      split <;> exact before
  | drop =>
      unfold World.drop
      split <;> exact before
  | dropSubscription drop =>
      unfold World.dropSubscription
      dsimp only
      split <;> exact before
  | written phase =>
      rintro frame (same | same)
      · rcases StackPhase.flushing.inj same with rfl
        exact List.mem_cons_self
      · simp [World.written] at same
  | flushed phase =>
      rintro frame (same | same)
      · simp at same
      · rcases StackPhase.transmitting.inj same with rfl
        exact before _ (.inl phase)
  | receive payload phase =>
      intro frame flushing
      unfold World.receive at flushing
      dsimp only at flushing
      split at flushing
      · rename_i shared reply handled
        cases reply <;> simp at flushing
      · simp at flushing
      · simp [phase] at flushing
  | receiveFails error phase =>
      intro frame flushing
      cases error <;> simp [World.receiveFails, phase] at flushing
  | keepAlive =>
      intro frame flushing
      unfold World.keepAlive at flushing
      split at flushing <;> simp at flushing
  | reset isConnected | dropRun isConnected =>
      intro frame flushing
      cases isConnected <;> simp [World.reset, World.resetShared] at flushing
  | connect | connectFails | connected | lost | read | transmitted | writeFails | replied
  | disconnect => simp [World.connect, World.connected, World.transmitted, World.resetShared]
  | lock | waitTx | waitAck | waitRel => exact before

/-- The broker owes answers to the frames that were written. -/
theorem unanswered (transition : Transition world action next) :
    ∀ entry ∈ next.broker.unanswered, entry ∈ world.broker.unanswered ∨
      ∃ handle, .send handle (.publish entry.2) entry.1 ∈ world.unreleasedFrames ∧
        .written (.send handle (.publish entry.2) entry.1) ∈ next.history := by
  cases transition with
  | send packet =>
      unfold World.send
      split <;> exact fun _ owed => .inl owed
  | grant result => cases result <;> exact fun _ owed => .inl owed
  | commit =>
      unfold World.commit
      split <;> exact fun _ owed => .inl owed
  | waitStatus =>
      unfold World.finishStatus
      split <;> exact fun _ owed => .inl owed
  | drop =>
      unfold World.drop
      split <;> exact fun _ owed => .inl owed
  | dropSubscription drop =>
      unfold World.dropSubscription
      dsimp only
      split <;> exact fun _ owed => .inl owed
  | connected sessionPresent =>
      intro entry owed
      cases sessionPresent
      · simp [World.connected] at owed
      · exact .inl owed
  | @written frame phase =>
      intro entry owed
      have writing : frame ∈ world.unreleasedFrames := by
        simp [World.unreleasedFrames, StackPhase.frame?, phase]
      rcases Broker.mem_receive owed with old | ⟨handle, rfl⟩
      · exact .inl old
      · exact .inr ⟨handle, writing, List.mem_cons_self⟩
  | receive payload =>
      intro entry owed
      left
      unfold World.receive at owed
      dsimp only at owed
      split at owed <;> exact Broker.mem_of_mem_send owed
  | receiveFails error => cases error <;> exact fun _ owed => .inl owed
  | keepAlive =>
      unfold World.keepAlive
      split <;> exact fun _ owed => .inl owed
  | lock | waitTx | waitAck | waitRel | connect | connectFails | lost | read | flushed | transmitted
  | writeFails | replied | reset | dropRun | disconnect => exact fun _ owed => .inl owed

end Transition

namespace World.Attributed

variable {world next : World config} {action : Action}

theorem new (config : CrateConfig) : (World.new config).Attributed where
  distinct := by simp [World.new]
  frames := by simp [World.new]
  written := by simp [World.new]
  answered := by simp [World.new]

theorem of_waitedBefore (attributed : world.Attributed) (transition : Transition world action next)
    (waitedBefore : Transition.WaitedBefore world next)
    (frames : ∀ frame ∈ next.unreleasedFrames,
      frame ∈ world.unreleasedFrames ∨ frame.txPid = 0) :
    next.Attributed := by
  constructor
  · intro handle other call call' live live' waiting waiting' same
    rcases waitedBefore handle call live waiting with ⟨old, oldLive, oldWaiting, _, pid⟩
    rcases waitedBefore other call' live' waiting' with ⟨old', oldLive', oldWaiting', _, pid'⟩
    exact attributed.distinct handle other old old' oldLive oldLive' oldWaiting oldWaiting'
      (pid.trans (same.trans pid'.symm))
  · intro frame frame_mem handle call live waiting same
    rcases waitedBefore handle call live waiting with ⟨old, oldLive, oldWaiting, packet, pid⟩
    rcases frames frame frame_mem with before | none
    · have own := attributed.frames frame before handle old oldLive oldWaiting (pid ▸ same)
      rw [own, Call.frame, Call.frame, packet, pid]
    · have positive := call.pid.pos
      omega
  · exact transition.written_of_flushing attributed.written
  · intro pid qos owed handle call live waiting same
    rcases waitedBefore handle call live waiting with ⟨old, oldLive, oldWaiting, packet, oldPid⟩
    have sameFrame : old.frame handle = call.frame handle := by
      rw [Call.frame, Call.frame, packet, oldPid]
    rcases transition.unanswered (pid, qos) owed with before | ⟨sender, unreleased, written⟩
    · have answered := attributed.answered pid qos before handle old oldLive oldWaiting
        (oldPid.trans same)
      exact ⟨packet ▸ answered.1, transition.history_sublist.subset (sameFrame ▸ answered.2)⟩
    · -- the broker has just received the frame of the call that waits
      have carries : (Frame.send sender (.publish qos) pid).txPid = old.pid.val := by
        rw [oldPid, same]
        rfl
      have own := attributed.frames _ unreleased handle old oldLive oldWaiting carries
      refine ⟨?_, ?_⟩
      · rw [← packet]
        exact (Frame.send.inj own).2.1.symm
      · rw [← sameFrame, ← own]
        exact written

theorem of_uses_eq_false {pid : Pid} (unused : world.uses pid = false) :
    (∀ handle call, world.calls.get? handle = some call → call.isWaiting = true →
      call.pid ≠ pid) ∧
    (∀ frame ∈ world.unreleasedFrames, frame.txPid ≠ pid.val) ∧
    ∀ entry ∈ world.broker.unanswered, entry.1 ≠ pid := by
  simp only [uses, Bool.or_eq_false_iff, bne_eq_false_iff_eq, List.any_eq_false,
    beq_iff_eq] at unused
  rcases unused with ⟨⟨noCall, noFrame⟩, noEntry⟩
  refine ⟨?_, noFrame, noEntry⟩
  intro handle call live waiting same
  have absent := Table.get?_eq_none_of_count_eq_zero noCall live
  simp [waiting, same] at absent

theorem step_commit (attributed : world.Attributed) {handle : ℕ} {call : Call}
    (live : world.calls.get? handle = some call) (phase : call.phase = .granted)
    (unused : world.uses call.pid = false) : (world.commit handle call).Attributed := by
  have transition : Transition world (.commit handle) (world.commit handle call) :=
    .commit live phase
  rcases of_uses_eq_false unused with ⟨noCall, noFrame, noEntry⟩
  rcases registered : world.shared.register call.packet call.pid with shared | shared | place
  · have committed := World.commit_of_done handle registered
    -- a call that waits is the new one or waited before, with another identifier
    have split : ∀ other call', (world.commit handle call).calls.get? other = some call' →
        call'.isWaiting = true →
        other = handle ∧ call' = { call with phase := .sent } ∨
          other ≠ handle ∧ world.calls.get? other = some call' ∧ call'.pid ≠ call.pid := by
      intro other call' live' waiting
      rw [committed] at live'
      simp only [World.setPhase, Table.get?_replace live] at live'
      split at live'
      · rename_i same
        exact .inl ⟨same, (Option.some.inj live').symm⟩
      · rename_i different
        exact .inr ⟨different, live', noCall other call' live' waiting⟩
    constructor
    · intro first second call' call'' live' live'' waiting waiting' same
      rcases split first call' live' waiting with ⟨rfl, rfl⟩ | ⟨_, old, other⟩
      · rcases split second call'' live'' waiting' with ⟨rfl, rfl⟩ | ⟨_, _, other'⟩
        · rfl
        · exact absurd same.symm other'
      · rcases split second call'' live'' waiting' with ⟨rfl, rfl⟩ | ⟨_, old', _⟩
        · exact absurd same other
        · exact attributed.distinct first second call' call'' old old' waiting waiting' same
    · intro frame frame_mem other call' live' waiting same
      have cases : frame ∈ world.unreleasedFrames ∨ frame = call.frame handle := by
        rw [committed] at frame_mem
        simpa [World.unreleasedFrames, World.setPhase, or_assoc] using frame_mem
      rcases split other call' live' waiting with ⟨rfl, rfl⟩ | ⟨_, old, different⟩
      · rcases cases with before | rfl
        · exact absurd same (noFrame frame before)
        · rfl
      · rcases cases with before | rfl
        · exact attributed.frames frame before other call' old waiting same
        · exact absurd (Pid.ext same).symm different
    · exact transition.written_of_flushing attributed.written
    · intro pid qos owed other call' live' waiting same
      have before : (pid, qos) ∈ world.broker.unanswered := by
        rw [committed] at owed
        exact owed
      have grown := transition.history_sublist
      rcases split other call' live' waiting with ⟨rfl, rfl⟩ | ⟨_, old, _⟩
      · exact absurd same.symm (noEntry _ before)
      · have answered := attributed.answered pid qos before other call' old waiting same
        exact ⟨answered.1, grown.subset answered.2⟩
  · have committed := World.commit_of_full handle registered
    refine attributed.of_waitedBefore transition ?_ ?_
    · exact .setPhase live (by rw [committed]) (by simp [Call.isWaiting])
    · rw [committed]
      exact fun _ frame_mem => .inl frame_mem
  · have committed := World.commit_of_panicked handle registered
    refine attributed.of_waitedBefore transition ?_ ?_
    · exact .of_calls (by rw [committed])
    · rw [committed]
      exact fun _ frame_mem => .inl frame_mem

theorem step (attributed : world.Attributed) (keeps : KeepsWaiting world action)
    (transition : Transition world action next) : next.Attributed := by
  by_cases isCommit : ∃ handle, action = .commit handle
  · rcases isCommit with ⟨handle, rfl⟩
    cases transition with
    | commit live phase => exact attributed.step_commit live phase (keeps.1 handle rfl _ live)
  · push Not at isCommit
    exact attributed.of_waitedBefore transition (transition.waitedBefore isCommit)
      (transition.unreleasedFrames isCommit)

end World.Attributed

end Mqttrust.System
