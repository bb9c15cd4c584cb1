import Mqttrust.System.Transition

/-!
# What a step makes of the calls

A step changes at most one call. It begins a call, or takes the call that it belongs
to from one phase to another; all other calls are left as they are.
-/

namespace Mqttrust.System

variable {config : CrateConfig}

/-- The call has a packet identifier and is neither over nor dropped. -/
def Call.isPending (call : Call) : Bool := call.isSending || call.isWaiting

/-- How an action takes a call from one phase to another. -/
inductive Call.Advances (call : Call) (handle : ℕ) (shared : Shared config) :
    Action → Phase → Prop where
  | lock (phase : call.phase = .checked) : Advances call handle shared (.lock handle) .publishing
  | granted (phase : call.phase = .publishing) :
      Advances call handle shared (.grant handle (.ok ())) .granted
  | refused (error : Error) (phase : call.phase = .publishing) :
      Advances call handle shared (.grant handle (.error error)) (.finished (.error error))
  | committed {next : Shared config} (phase : call.phase = .granted)
      (registered : shared.register call.packet call.pid = .done next) :
      Advances call handle shared (.commit handle) .sent
  | full {next : Shared config} (phase : call.phase = .granted)
      (registered : shared.register call.packet call.pid = .full next) :
      Advances call handle shared (.commit handle) (.finished (.error .maxInflight))
  | waitTx {later : Phase} (phase : call.phase = .sent)
      (ready : shared.waitTx call.packet call.pid = some later) :
      Advances call handle shared (.waitTx handle) later
  | waitAck {later : Phase} {qos : QoS} (phase : call.phase = .transmitted)
      (publish : call.packet = .publish qos) (ready : shared.waitAck qos call.pid = some later) :
      Advances call handle shared (.waitAck handle) later
  | waitRel {later : Phase} (phase : call.phase = .acked)
      (ready : shared.waitRel call.pid = some later) :
      Advances call handle shared (.waitRel handle) later
  | waitStatus {next : Shared config} {codes : List UInt8} (contended : Bool)
      (phase : call.phase = .transmitted) (notPublish : ∀ qos, call.packet ≠ .publish qos)
      (ready : shared.waitStatus call.pid = some (next, codes)) :
      Advances call handle shared (.waitStatus handle contended)
        (.finished (if codes.any fun code => 0x80 ≤ code then .error .badTopicFilter else .ok ()))
  | dropped (contended : Bool) (pending : call.isPending = true) :
      Advances call handle shared (.drop handle contended) .dropped

/-- Where a call of the world after a step comes from. -/
inductive Call.Origin (world : World config) (action : Action) (handle : ℕ) : Call → Prop where
  | same {call : Call} (live : world.calls.get? handle = some call) :
      Origin world action handle call
  | begun (packet : SendPacket) (send : action = .send packet)
      (room : world.shared.hasRoom packet = true) (fresh : handle = world.calls.next) :
      Origin world action handle ⟨packet, world.shared.nextPid, .checked⟩
  | advanced {call : Call} {phase : Phase} (live : world.calls.get? handle = some call)
      (advances : call.Advances handle world.shared action phase) :
      Origin world action handle { call with phase := phase }

namespace Call.Origin

variable {world next : World config} {action : Action} {handle : ℕ} {call : Call}

theorem of_calls (calls : next.calls = world.calls) (live : next.calls.get? handle = some call) :
    Origin world action handle call :=
  .same (calls ▸ live)

/-- Only the call of the action has gone on. -/
theorem of_setPhase {other : ℕ} {old : Call} {phase : Phase}
    (before : world.calls.get? other = some old)
    (advances : old.Advances other world.shared action phase)
    (calls : next.calls = (world.setPhase other old phase).calls)
    (live : next.calls.get? handle = some call) : Origin world action handle call := by
  rw [calls, World.setPhase, Table.get?_replace before] at live
  split at live
  · rename_i same
    subst same
    rcases Option.some.inj live with rfl
    exact .advanced before advances
  · exact .same live

end Call.Origin

namespace Transition

variable {world next : World config} {action : Action} {handle : ℕ} {call : Call}

theorem origin (transition : Transition world action next)
    (live : next.calls.get? handle = some call) : Call.Origin world action handle call := by
  cases transition with
  | send packet =>
      unfold World.send at live
      split at live
      · rename_i room
        dsimp only at live
        rw [Table.get?_insert] at live
        split at live
        · rename_i fresh
          rcases Option.some.inj live with rfl
          exact .begun packet rfl room fresh
        · exact .same live
      · exact .same live
  | lock before phase => exact .of_setPhase before (.lock phase) rfl live
  | grant result before phase =>
      cases result with
      | ok => exact .of_setPhase before (.granted phase) rfl live
      | error error => exact .of_setPhase before (.refused error phase) rfl live
  | commit before phase =>
      unfold World.commit at live
      split at live
      · rename_i registered
        exact .of_setPhase before (.committed phase registered) rfl live
      · rename_i registered
        exact .of_setPhase before (.full phase registered) rfl live
      · exact .same live
  | waitTx before phase ready => exact .of_setPhase before (.waitTx phase ready) rfl live
  | waitAck before phase publish ready =>
      exact .of_setPhase before (.waitAck phase publish ready) rfl live
  | waitRel before phase ready => exact .of_setPhase before (.waitRel phase ready) rfl live
  | @waitStatus other old _ _ contended before phase notPublish ready =>
      have advances : old.Advances other world.shared _ _ :=
        .waitStatus contended phase notPublish ready
      unfold World.finishStatus at live
      split at live
      · rename_i failed
        rw [if_pos failed] at advances
        exact .of_setPhase before advances rfl live
      · rename_i succeeded
        rw [if_neg succeeded] at advances
        exact .of_setPhase before advances rfl live
  | drop contended before =>
      unfold World.drop at live
      split at live
      all_goals
        rename_i phase
        first
        | exact .of_setPhase before
            (.dropped contended (by simp [Call.isPending, Call.isSending, Call.isWaiting, phase]))
            rfl live
        | exact .same live
  | dropSubscription drop =>
      unfold World.dropSubscription at live
      dsimp only at live
      split at live <;> exact .same live
  | receive payload =>
      unfold World.receive at live
      dsimp only at live
      split at live <;> exact .same live
  | receiveFails error => cases error <;> exact .same live
  | keepAlive =>
      unfold World.keepAlive at live
      split at live <;> exact .same live
  | connect | connectFails | connected | lost | read | written | flushed | transmitted
  | writeFails | replied | reset | dropRun | disconnect => exact .same live

end Transition

end Mqttrust.System
