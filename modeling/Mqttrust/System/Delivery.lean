import Mqttrust.System.Attribution

/-!
# What the success of a publish means

A publish infers its transmission and its acknowledgements from the absence of
its identifier in the sets of the shared state. This is right as long as nothing
else takes the identifier out: no reset while the publish waits for it, and no
other use of it. Then a publish that succeeds was written, and its
acknowledgements were received after that, in order.
-/

namespace Mqttrust.System

variable {config : CrateConfig}

/-- Every publish that succeeded was completely written, and for QoS 1 and 2 the acknowledgements
were received after that. -/
def World.SuccessesDelivered (world : World config) : Prop :=
  ∀ handle call qos, world.calls.get? handle = some call → call.packet = .publish qos →
    call.phase = .finished (.ok ()) → (call.milestones handle qos).Sublist world.history

/-- The broker answers each publish that it received with an acknowledgement of its quality of
service. -/
def BrokerAnswers (world : World config) (action : Action) : Prop :=
  ∀ packet ∈ action.receives?, ∀ entry ∈ answers? packet, entry ∈ world.broker.unanswered

instance (world : World config) (action : Action) : Decidable (BrokerAnswers world action) :=
  inferInstanceAs (Decidable (∀ packet ∈ action.receives?, _))

/-- Every publish is tracked. -/
def World.Follows (world : World config) : Prop :=
  ∀ handle call qos, world.calls.get? handle = some call → call.packet = .publish qos →
    call.Tracked handle qos world.shared world.history

namespace World.Follows

variable {world next : World config} {action : Action}

theorem new (config : CrateConfig) : (World.new config).Follows := by
  intro handle call qos live
  simp [World.new] at live

theorem of_calls (follows : world.Follows) (calls : next.calls = world.calls)
    (grown : world.history.Sublist next.history)
    (keeps : ∀ key, world.shared.Keeps next.shared key) : next.Follows := by
  intro handle call qos live publish
  rw [calls] at live
  exact (follows handle call qos live publish).mono grown fun _ => keeps _

theorem of_setPhase (follows : world.Follows) {handle : ℕ} {call : Call} (phase : Phase)
    (live : world.calls.get? handle = some call)
    (calls : next.calls = (world.setPhase handle call phase).calls)
    (grown : world.history.Sublist next.history)
    (others : ∀ other call', other ≠ handle → world.calls.get? other = some call' →
      call'.isWaiting = true → world.shared.Keeps next.shared call'.pid.val)
    (own : ∀ qos, call.packet = .publish qos →
      call.Tracked handle qos world.shared world.history →
        ({ call with phase := phase } : Call).Tracked handle qos next.shared next.history) :
    next.Follows := by
  intro other call' qos live' publish
  rw [calls, World.setPhase, Table.get?_replace live] at live'
  split at live'
  · rename_i same
    subst same
    rcases Option.some.inj live' with rfl
    exact own qos publish (follows other call qos live publish)
  · rename_i different
    exact (follows other call' qos live' publish).mono grown (others other call' different live')

theorem setPhase (follows : world.Follows) {handle : ℕ} {call : Call} {phase : Phase}
    (live : world.calls.get? handle = some call)
    (own : ∀ qos, call.packet = .publish qos →
      call.Tracked handle qos world.shared world.history →
        ({ call with phase := phase } : Call).Tracked handle qos world.shared world.history) :
    (world.setPhase handle call phase).Follows :=
  follows.of_setPhase phase live rfl (List.Sublist.refl _) (fun _ _ _ _ _ => .of_eq rfl rfl rfl) own

/-- The cleanup of a call that waits does no harm to the others, which have other identifiers. -/
theorem of_clean (follows : world.Follows) (attributed : world.Attributed) {handle : ℕ}
    {call : Call} {phase : Phase} {shared : Shared config} {contended : Bool}
    (live : world.calls.get? handle = some call) (waiting : call.isWaiting = true)
    (kept : ∀ key, world.shared.Keeps shared key)
    (calls : next.calls = (world.setPhase handle call phase).calls)
    (grown : world.history.Sublist next.history)
    (cleaned : next.shared = shared.clean call.packet call.pid contended)
    (quiet : ({ call with phase := phase } : Call).isWaiting = false)
    (unsuccessful : phase ≠ .finished (.ok ())) : next.Follows := by
  refine follows.of_setPhase phase live calls grown ?_ ?_
  · intro other call' different live' waiting'
    have otherPid : call'.pid.val ≠ call.pid.val := fun same =>
      different (attributed.distinct other handle call' call live' live waiting' waiting
        (Pid.ext same))
    rw [cleaned]
    exact (kept _).trans (.clean otherPid _ _)
  · exact fun qos _ _ => Call.tracked_of_phase phase quiet unsuccessful

theorem step_commit (follows : world.Follows) {handle : ℕ} {call : Call}
    (live : world.calls.get? handle = some call) (phase : call.phase = .granted) :
    (world.commit handle call).Follows := by
  have transition : Transition world (.commit handle) (world.commit handle call) :=
    .commit live phase
  rcases registered : world.shared.register call.packet call.pid with shared | shared | place
  · have committed := World.commit_of_done handle registered
    have registers := Shared.registers_of_done registered
    refine follows.of_setPhase .sent live (by rw [committed])
      transition.history_sublist ?_ ?_
    · intro other call' _ _ _
      rw [committed]
      exact .registers registers
    · intro qos publish _
      rw [committed]
      refine ⟨.inl ?_, ?_⟩
      · change call.pid.val ∈ shared.outgoingPid.elements
        rw [registers.outgoingPid]
        exact Finset.mem_insert_self _ _
      · change Call.Acknowledged _ _ shared _ qos
        cases qos with
        | atMostOnce => trivial
        | atLeastOnce | exactlyOnce =>
            refine Call.acknowledged_of_mem ?_
            rw [registers.inflightPub, publish]
            exact Finset.mem_insert_self _ _
  · have committed := World.commit_of_full handle registered
    rcases Shared.eq_of_full registered with ⟨same, grown, _⟩
    refine follows.of_setPhase (.finished (.error .maxInflight)) live (by rw [committed])
      transition.history_sublist ?_ ?_
    · intro other call' _ _ _
      rw [committed]
      change world.shared.Keeps shared _
      rw [same]
      exact ⟨fun present => grown present, id, id⟩
    · exact fun qos _ _ => Call.tracked_of_phase _ rfl (by simp)
  · have committed := World.commit_of_panicked handle registered
    rw [committed]
    exact follows

theorem step_transmitted (follows : world.Follows) (attributed : world.Attributed)
    {frame : Frame} (phase : world.stack = .transmitting frame) :
    (world.transmitted frame).Follows := by
  intro handle call qos live publish
  have tracked := follows handle call qos live publish
  unfold World.transmitted
  dsimp only
  split
  · refine tracked.removeOutgoing frame.txPid fun waiting same => ?_
    have unreleased : frame ∈ world.unreleasedFrames := by
      simp [World.unreleasedFrames, StackPhase.frame?, phase]
    rw [← attributed.frames frame unreleased handle call live waiting same.symm]
    exact attributed.written frame (.inr phase)
  · exact tracked

theorem step_reset (follows : world.Follows)
    (idle : world.calls.count (fun call => call.awaits world.shared) = 0) (stack : StackPhase) :
    (world.resetShared stack).Follows := by
  intro handle call qos live publish
  exact (follows handle call qos live publish).reset publish
    (Table.get?_eq_none_of_count_eq_zero idle live)

theorem step_receive (follows : world.Follows) (attributed : world.Attributed)
    {packet : ReceivedPacket} {payload : Payload}
    (answers : BrokerAnswers world (.receive packet payload)) :
    (world.receive packet payload).Follows := by
  intro handle call qos live publish
  have same : world.calls.get? handle = some call := by
    unfold World.receive at live
    dsimp only at live
    split at live <;> exact live
  have tracked := follows handle call qos same publish
  have grown : world.history.Sublist (receivedEvents payload packet ++ world.history) :=
    List.sublist_append_right _ _
  -- the broker answers the publish with the acknowledgement of its quality of service
  have attribution : ∀ pid answered, answers? packet = some (pid, answered) →
      call.isWaiting = true → call.pid = pid →
        qos = answered ∧ .written (call.frame handle) ∈ world.history := by
    intro pid answered isAnswer waiting samePid
    have owed := answers packet rfl (pid, answered) isAnswer
    rcases attributed.answered pid answered owed handle call same waiting samePid with
      ⟨packet_eq, written⟩
    exact ⟨SendPacket.publish.inj (publish.symm.trans packet_eq), written⟩
  unfold World.receive
  dsimp only
  split
  · rename_i shared reply handled
    cases packet with
    | pubAck ack =>
        rcases Handled.done.inj handled with ⟨rfl, rfl⟩
        exact tracked.pubAck ack.pid (attribution ack.pid .atLeastOnce rfl)
    | pubRec ack => exact tracked.pubRec handled (attribution ack.pid .exactlyOnce rfl)
    | pubComp ack =>
        rcases Handled.done.inj handled with ⟨rfl, rfl⟩
        exact tracked.pubComp ack.pid
    | partialPublish | pubRel | subAck | unsubAck | pingResp | connAck | disconnect =>
        exact tracked.mono grown fun _ => Shared.keeps_of_handle (by simp [answers?]) (by simp) handled
  · exact tracked.mono grown fun _ => .of_eq rfl rfl rfl
  · exact tracked.mono grown fun _ => .of_eq rfl rfl rfl

theorem step (follows : world.Follows) (attributed : world.Attributed)
    (answers : BrokerAnswers world action) (keeps : KeepsWaiting world action)
    (transition : Transition world action next) : next.Follows := by
  have grown := transition.history_sublist
  cases transition with
  | send packet =>
      unfold World.send
      split
      · intro handle call qos live publish
        dsimp only at live
        rw [Table.get?_insert] at live
        split at live
        · rcases Option.some.inj live with rfl
          exact trivial
        · exact (follows handle call qos live publish).mono (List.Sublist.refl _)
            fun _ => .of_eq rfl rfl rfl
      · exact follows
  | lock live => exact follows.setPhase live fun _ _ _ => trivial
  | grant result live =>
      cases result with
      | ok => exact follows.setPhase live fun _ _ _ => trivial
      | error => exact follows.setPhase live fun _ _ _ => trivial
  | commit live phase => exact follows.step_commit live phase
  | waitTx live phase ready =>
      exact follows.setPhase live fun qos publish tracked => tracked.waitTx publish phase ready
  | waitAck live phase publish ready =>
      refine follows.setPhase live fun qos publish' tracked => ?_
      rcases SendPacket.publish.inj (publish.symm.trans publish') with rfl
      exact tracked.waitAck phase ready
  | waitRel live phase ready =>
      exact follows.setPhase live fun qos publish tracked => tracked.waitRel phase ready
  | @waitStatus handle call shared codes contended live phase notPublish ready =>
      have waiting : call.isWaiting = true := by simp [Call.isWaiting, phase]
      unfold World.finishStatus
      split
      · exact follows.of_clean attributed live waiting (fun _ => .waitStatus ready) rfl
          (List.Sublist.refl _) rfl rfl (by simp)
      · refine follows.of_setPhase (.finished (.ok ())) live rfl (List.Sublist.refl _) ?_ ?_
        · exact fun _ _ _ _ _ => .waitStatus ready
        · exact fun qos publish _ => absurd publish (notPublish qos)
  | @drop handle call contended live =>
      have unchanged : ∀ key, world.shared.Keeps world.shared key := fun _ => .of_eq rfl rfl rfl
      unfold World.drop
      split
      · exact follows.setPhase live fun _ _ _ => trivial
      · exact follows.setPhase live fun _ _ _ => trivial
      · exact follows.setPhase live fun _ _ _ => trivial
      all_goals first
        | exact follows
        | exact follows.of_clean attributed live (by simp_all [Call.isWaiting]) unchanged rfl
            (List.Sublist.refl _) rfl rfl (by simp)
  | dropSubscription drop =>
      refine follows.of_calls ?_ grown fun _ => .of_eq ?_ ?_ ?_ <;>
        grind [World.dropSubscription, Shared.takePid]
  | connect | connected => exact follows.of_calls rfl grown fun _ => .of_eq rfl rfl rfl
  | transmitted phase => exact follows.step_transmitted attributed phase
  | receive payload => exact follows.step_receive attributed answers
  | receiveFails error => cases error <;> exact follows
  | keepAlive =>
      unfold World.keepAlive
      split <;> exact follows
  | reset isConnected => exact follows.step_reset (keeps.2 rfl) (if isConnected then .idle else .disconnected)
  | disconnect => exact follows.step_reset (keeps.2 rfl) .disconnected
  | written => exact follows.of_calls rfl grown fun _ => .of_eq rfl rfl rfl
  | connectFails | lost | read | flushed | writeFails | replied | dropRun => exact follows

end World.Follows

/-- In every run with a broker that answers each publish with the acknowledgement of its quality of
service, in which no identifier in use is committed again and no reset takes the identifier of a
publish away that waits for it, the publishes that succeed were delivered. -/
theorem successesDelivered_of_keepsWaiting {actions : List Action} {world : World config}
    (answers : Execution.Guarded step BrokerAnswers (World.new config) actions)
    (keeps : Execution.Guarded step KeepsWaiting (World.new config) actions)
    (reached : runFrom config actions = some world) : world.SuccessesDelivered := by
  have invariant := Execution.invariant_of_guarded
    (fun world => world.Attributed ∧ world.Follows)
    (fun guard invariant stepped =>
      have transition := (transition_of_step stepped).2
      ⟨invariant.1.step guard.2 transition,
        invariant.2.step invariant.1 guard.1 guard.2 transition⟩)
    (answers.and keeps) ⟨.new config, .new config⟩ reached
  intro handle call qos live publish succeeded
  have tracked := invariant.2 handle call qos live publish
  unfold Call.Tracked at tracked
  simpa only [succeeded] using tracked

/-- A publish of QoS 1 is written and acknowledged, and succeeds. -/
theorem successesDelivered_of_keepsWaiting_example :
    ∃ world, runFrom twoInflight [.connect, .connected false, .send (.publish .atLeastOnce),
        .lock 0, .grant 0 (.ok ()), .commit 0, .read, .written, .flushed, .transmitted,
        .receive (.pubAck ⟨⟨2, by decide, by decide⟩, some (0x00, [])⟩) .copied, .waitTx 0,
        .waitAck 0] = some world ∧
      (world.calls.get? 0).map Call.phase = some (.finished (.ok ())) ∧
      world.SuccessesDelivered := by
  rcases reached : runFrom twoInflight [.connect, .connected false, .send (.publish .atLeastOnce),
    .lock 0, .grant 0 (.ok ()), .commit 0, .read, .written, .flushed, .transmitted,
    .receive (.pubAck ⟨⟨2, by decide, by decide⟩, some (0x00, [])⟩) .copied, .waitTx 0,
    .waitAck 0] with _ | world
  · exact absurd reached (by decide)
  · refine ⟨world, rfl, ?_, successesDelivered_of_keepsWaiting (by decide) (by decide) reached⟩
    cases reached
    decide

/-- The connection fails after a publish of QoS 1 was committed: the reset empties the sets, and the
publish succeeds without having been written. -/
theorem not_successesDelivered_after_reset :
    Execution.Guarded step BrokerAnswers (World.new twoInflight) [.connect, .connected false,
        .send (.publish .atLeastOnce), .lock 0, .grant 0 (.ok ()), .commit 0,
        .receiveFails (.io .other), .reset false, .waitTx 0, .waitAck 0] ∧
      ∃ world, runFrom twoInflight [.connect, .connected false, .send (.publish .atLeastOnce),
          .lock 0, .grant 0 (.ok ()), .commit 0, .receiveFails (.io .other), .reset false,
          .waitTx 0, .waitAck 0] = some world ∧ ¬world.SuccessesDelivered := by
  refine ⟨by decide, _, rfl, ?_⟩
  intro delivered
  have recorded := delivered 0 ⟨.publish .atLeastOnce, ⟨2, by decide, by decide⟩,
    .finished (.ok ())⟩ .atLeastOnce (by decide) rfl rfl
  exact absurd recorded (by decide)

end Mqttrust.System
