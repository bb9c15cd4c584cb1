import Mqttrust.Encoding.PublishGrammar
import Mqttrust.System.Advance
import Mqttrust.System.OutboundStream

/-!
# What the broker reads

A packet that a call hands to `send` is encoded into the call's grant, waits in the TX
channel and is written by the stack. A sender is a pipeline that records these packets:
the one that was encoded last, and those that were committed.
-/

namespace Mqttrust.System

open Parsing (parse)
open Pubsub (bytesAt commitsAfter readsOf)
open Pubsub.World (Pipe Publishes)

/-- Some bytes are an encoding of the packet. -/
def Encodes {Packet : Type} [MqttEncode Packet] (config : CrateConfig) (bytes : List UInt8)
    (packet : Packet) : Prop :=
  ∃ buf, encodePacket config buf packet = .ok bytes

namespace ClientPacket

/-- The packet identifier of a packet. -/
def pid : ClientPacket → Option Pid
  | publish packet => packet.pid
  | subscribe packet => packet.pid
  | unsubscribe packet => packet.pid

@[simp]
theorem pid_setPid (pid : Pid) (packet : ClientPacket) : (packet.setPid pid).pid = some pid := by
  cases packet <;> rfl

@[simp]
theorem kind_setPid (pid : Pid) (packet : ClientPacket) : (packet.setPid pid).kind = packet.kind := by
  cases packet <;> rfl

/-- The fields that a packet has on the wire. Properties are given as lists, a payload as a slice,
and strings have lengths that can be represented. -/
inductive HasFields (config : CrateConfig) : ClientPacket → Grammar.ClientFields → Prop where
  | publish {packet : Publish} {qosPid : QosPid} {payload : List UInt8}
      (plain : packet.Plain config qosPid payload)
      (representable : config.protocol = .mqttv5 → ∀ property ∈ packet.properties.toList,
        property.Representable) :
      HasFields config (.publish packet) (.publish (packet.fields config.protocol payload))
  | subscribe {packet : Subscribe} (valid : (ClientRequest.subscribe packet).Valid config) :
      HasFields config (.subscribe packet)
        (.request ((ClientRequest.subscribe packet).fields config))
  | unsubscribe {packet : Unsubscribe} (valid : (ClientRequest.unsubscribe packet).Valid config) :
      HasFields config (.unsubscribe packet)
        (.request ((ClientRequest.unsubscribe packet).fields config))

variable {config : CrateConfig} {packet : ClientPacket} {fields : Grammar.ClientFields}
  {bytes : List UInt8}

theorem HasFields.parse_eq (has : packet.HasFields config fields)
    (encodes : Encodes config bytes packet) :
    parse (Grammar.clientPacket config.protocol) bytes = some fields := by
  rcases encodes with ⟨buf, encoded⟩
  cases has with
  | publish plain representable => exact plain.parse_of_encodePacket representable encoded
  | @subscribe packet valid =>
      exact @ClientRequest.parse_of_encode config (.subscribe packet) buf bytes valid encoded
  | @unsubscribe packet valid =>
      exact @ClientRequest.parse_of_encode config (.unsubscribe packet) buf bytes valid encoded

end ClientPacket

/-- A write grant holds an encoding of the packet. -/
def Contains {Packet : Type} [MqttEncode Packet] (config : CrateConfig) (tx : Pubsub.World)
    (writer used : ℕ) (packet : Packet) : Prop :=
  ∃ grant, tx.writers.get? writer = some grant ∧ used ≤ grant.len ∧
    Encodes config (bytesAt tx.buf ⟨grant.start, used⟩) packet

section Acquire

variable {Packet : Type} [MqttEncode Packet] {config : CrateConfig} {capacity : ℕ}
  {tx next : Pubsub.World} {packet : Packet}

theorem contains_of_stores {writer : ℕ} {grant : Pubsub.FrameGrantW} {encoder : MqttEncoder}
    (live : tx.writers.get? writer = some grant)
    (written : MqttEncode.toBuffer config packet
      (MqttEncoder.new (bytesAt tx.buf grant.region)) = .ok () encoder)
    (stored : Execution.run (Pubsub.step (txConfig config)) tx
      (Pubsub.stores writer 0 encoder.buf) = some next) :
    Contains config next writer encoder.usedSize packet := by
  have encoded := encoded_of_toBuffer written
  have length : encoder.buf.length = grant.len := by
    rw [encoded.length, Pubsub.length_bytesAt, Pubsub.FrameGrantW.region]
  rw [Publishes.run_stores _ live (by omega), Option.some.injEq] at stored
  subst stored
  have inside : encoder.offset ≤ grant.len := length ▸ encoded.inside
  refine ⟨grant, live, inside, bytesAt tx.buf grant.region, ?_⟩
  have bytes : bytesAt (Pubsub.fill tx.buf grant.start encoder.buf)
      ⟨grant.start, encoder.offset⟩ = encoder.intoPacketBytes := by
    rw [Pubsub.bytesAt_take _ inside, ← length, Pubsub.bytesAt_fill, MqttEncoder.intoPacketBytes,
      encoded.headerStart, List.drop_zero]
  rw [encodePacket, written]
  exact congrArg Except.ok bytes.symm

theorem contains_of_encodeInto {writer writer' used : ℕ} {grant : Pubsub.FrameGrantW}
    (live : tx.writers.get? writer = some grant)
    (encoded : encodeInto config tx writer grant packet = some (next, .encoded writer' used)) :
    Contains config next writer' used packet := by
  simp only [encodeInto] at encoded
  split at encoded
  · rename_i encoder written
    rcases Option.map_eq_some_iff.mp encoded with ⟨after, stored, same⟩
    rcases Prod.mk.inj same with ⟨rfl, acquired⟩
    rcases Acquired.encoded.inj acquired with ⟨rfl, rfl⟩
    exact contains_of_stores live written stored
  · simp at encoded
  · simp at encoded

theorem contains_of_acquire (pipe : tx.Pipe (txConfig config) capacity) {size writer used : ℕ}
    {cx : Option Pubsub.Waker}
    (asked : acquire config tx size cx packet = some (next, .encoded writer used)) :
    Contains config next writer used packet := by
  rcases Option.bind_eq_some_iff.mp asked with ⟨middle, stepped, asked⟩
  cases pipe.flow_of_step rfl stepped with
  | refused inner => simp [Table.get?_next] at asked
  | granted inner grant alone fresh =>
      simp only [Table.get?_insert_next] at asked
      exact contains_of_encodeInto (Table.get?_insert_next _ _) asked
  | commit inner grant used live isCommit => simp at isCommit
  | release inner grant live isRelease => simp at isRelease

theorem eq_of_refused (pipe : tx.Pipe (txConfig config) capacity) {size : ℕ}
    {cx : Option Pubsub.Waker} (asked : acquire config tx size cx packet = some (next, .refused)) :
    next.writers = tx.writers ∧ next.buf = tx.buf := by
  rcases Option.bind_eq_some_iff.mp asked with ⟨middle, stepped, asked⟩
  cases pipe.flow_of_step rfl stepped with
  | refused inner =>
      simp only [Table.get?_next, Option.some.injEq, Prod.mk.injEq, and_true] at asked
      subst asked
      exact ⟨rfl, rfl⟩
  | granted inner grant alone fresh =>
      simp only [Table.get?_insert_next, encodeInto] at asked
      split at asked <;> simp at asked
  | commit inner grant used live isCommit => simp at isCommit
  | release inner grant live isRelease => simp at isRelease

/-- The packet of a grant is committed as it is. -/
theorem publishes_of_contains (pipe : tx.Pipe (txConfig config) capacity) {writer used : ℕ}
    (contains : Contains config tx writer used packet)
    (stepped : Pubsub.step (txConfig config) tx (.commit writer used) = some next) :
    ∃ frame : Pubsub.Frame, Encodes config frame.bytes packet ∧ Publishes tx [frame] next := by
  rcases contains with ⟨grant, live, inside, encodes⟩
  have publishes := Publishes.of_commit pipe live stepped
  rw [Nat.min_eq_right inside] at publishes
  exact ⟨_, encodes, publishes⟩

theorem publishes_of_setPid (small : capacity ≤ 65535) (pipe : tx.Pipe (txConfig config) capacity)
    {writer used pid : ℕ} (contains : Contains config tx writer used packet)
    (ran : Execution.run (Pubsub.step (txConfig config)) tx
      [.setPid writer pid, .commit writer used] = some next) :
    ∃ frame : Pubsub.Frame, Encodes config frame.bytes packet ∧ Publishes tx [frame] next := by
  rcases Execution.run_cons_eq_some.mp ran with ⟨middle, stepped, ran⟩
  rcases Execution.run_cons_eq_some.mp ran with ⟨last, committed, ran⟩
  rw [Execution.run_nil, Option.some.injEq] at ran
  subst ran
  have publishes := Publishes.of_isFilling pipe rfl stepped
  have kept : Contains config middle writer used packet := by
    rcases contains with ⟨grant, live, inside, encodes⟩
    simp only [Pubsub.step, live, Option.bind_eq_bind, Option.bind_some,
      Option.some.injEq] at stepped
    subst stepped
    refine ⟨{ grant with pid := pid }, ?_, inside, encodes⟩
    rw [Table.get?_replace live, if_pos rfl]
  rcases publishes_of_contains (pipe.step small rfl stepped) kept committed with
    ⟨frame, encodes, publishes'⟩
  exact ⟨frame, encodes, publishes.trans publishes'⟩

end Acquire

/-- The call holds the lock `tx_publisher`. -/
def Call.locks (call : Call) : Bool :=
  match call.phase with
  | .publishing | .granted => true
  | _ => false

/-- Only the call that `tx_publisher` names has the lock. -/
def World.Locked {config : CrateConfig} (world : World config) : Prop :=
  ∀ handle call, world.calls.get? handle = some call → call.locks = true →
    world.txPublisher = some handle

namespace World.Locked

variable {config : CrateConfig} {world next : World config} {handle : ℕ} {call : Call}

theorem new (config : CrateConfig) : (World.new config).Locked := by
  intro handle call live
  simp [World.new] at live

theorem of_eq (locked : world.Locked) (calls : next.calls = world.calls)
    (publisher : next.txPublisher = world.txPublisher) : next.Locked := by
  intro handle call live locks
  rw [publisher]
  exact locked handle call (calls ▸ live) locks

/-- A call that does not take the lock goes on. -/
theorem setPhase (locked : world.Locked) (live : world.calls.get? handle = some call)
    {phase : Phase} (notLocks : ({ call with phase := phase } : Call).locks = false)
    (calls : next.calls = (world.setPhase handle call phase).calls)
    (publisher : next.txPublisher = world.txPublisher) : next.Locked := by
  intro other call' live' locks
  rw [calls, World.setPhase, Table.get?_replace live] at live'
  split at live'
  · rcases Option.some.inj live' with rfl
    simp [notLocks] at locks
  · rw [publisher]
    exact locked other call' live' locks

/-- The call that has the lock gives it back. -/
theorem unlock (locked : world.Locked) (live : world.calls.get? handle = some call)
    (locks : call.locks = true) {phase : Phase}
    (notLocks : ({ call with phase := phase } : Call).locks = false)
    (calls : next.calls = (world.setPhase handle call phase).calls) : next.Locked := by
  intro other call' live' locks'
  rw [calls, World.setPhase, Table.get?_replace live] at live'
  split at live'
  · rcases Option.some.inj live' with rfl
    simp [notLocks] at locks'
  · rename_i different
    have same := (locked other call' live' locks').symm.trans (locked handle call live locks)
    exact absurd (Option.some.inj same) different

theorem step (locked : world.Locked) {action : Action} (transition : Transition world action next) :
    next.Locked := by
  cases transition with
  | send packet =>
      unfold World.send
      split
      · intro handle call live locks
        dsimp only at live ⊢
        rw [Table.get?_insert] at live
        split at live
        · rcases Option.some.inj live with rfl
          simp [Call.locks] at locks
        · exact locked handle call live locks
      · exact locked
  | @lock handle call live phase free =>
      intro other call' live' locks
      rw [World.lock, World.setPhase] at live' ⊢
      dsimp only at live' ⊢
      rw [Table.get?_replace live] at live'
      split at live'
      · rename_i same
        rw [same]
      · have other_locks := locked other call' live' locks
        simp [free] at other_locks
  | grant result live phase =>
      cases result with
      | ok =>
          intro other call' live' locks
          rw [World.grant, World.setPhase] at live' ⊢
          dsimp only at live' ⊢
          rw [Table.get?_replace live] at live'
          split at live'
          · rename_i same
            rw [same]
            exact locked _ _ live (by simp [Call.locks, phase])
          · exact locked other call' live' locks
      | error error => exact locked.unlock live (by simp [Call.locks, phase]) rfl rfl
  | @commit handle call live phase =>
      have locks : call.locks = true := by simp [Call.locks, phase]
      unfold World.commit
      split
      · exact locked.unlock live locks rfl rfl
      · exact locked.unlock live locks rfl rfl
      · exact locked
  | waitTx live phase ready =>
      rcases Shared.cases_of_waitTx ready with ⟨_, ⟨_, rfl⟩ | ⟨_, rfl⟩⟩
      · exact locked.setPhase live rfl rfl rfl
      · exact locked.setPhase live rfl rfl rfl
  | waitAck live phase publish ready =>
      rcases Shared.cases_of_waitAck ready with ⟨_, ⟨_, rfl⟩ | ⟨_, rfl⟩⟩
      · exact locked.setPhase live rfl rfl rfl
      · exact locked.setPhase live rfl rfl rfl
  | waitRel live phase ready =>
      rcases Shared.eq_of_waitRel ready with ⟨_, rfl⟩
      exact locked.setPhase live rfl rfl rfl
  | waitStatus contended live phase notPublish ready =>
      unfold World.finishStatus
      split
      · exact locked.setPhase live rfl rfl rfl
      · exact locked.setPhase live rfl rfl rfl
  | @drop handle call contended live =>
      unfold World.drop
      split
      · exact locked.setPhase live rfl rfl rfl
      · rename_i phase
        exact locked.unlock live (by simp [Call.locks, phase]) rfl rfl
      · rename_i phase
        exact locked.unlock live (by simp [Call.locks, phase]) rfl rfl
      all_goals
        first
        | exact locked.setPhase live rfl rfl rfl
        | exact locked
  | dropSubscription drop =>
      unfold World.dropSubscription
      dsimp only
      split
      · exact locked.of_eq rfl rfl
      · exact locked.of_eq rfl rfl
  | receive payload =>
      unfold World.receive
      dsimp only
      split <;> exact locked.of_eq rfl rfl
  | receiveFails error => cases error <;> exact locked.of_eq rfl rfl
  | keepAlive =>
      unfold World.keepAlive
      split <;> exact locked.of_eq rfl rfl
  | connect | connectFails | connected | lost | read | written | flushed | transmitted
  | writeFails | replied | reset | dropRun | disconnect => exact locked.of_eq rfl rfl

end World.Locked

/-- A call that is past `send` stays so. -/
theorem Call.Advances.notSending {config : CrateConfig} {call : Call} {handle : ℕ}
    {shared : Shared config} {action : Action} {phase : Phase}
    (advances : call.Advances handle shared action phase) (past : call.isSending = false) :
    ({ call with phase := phase } : Call).isSending = false := by
  cases advances with
  | lock before => simp [Call.isSending, before] at past
  | granted before => simp [Call.isSending, before] at past
  | refused error before => simp [Call.isSending, before] at past
  | committed before registered => simp [Call.isSending, before] at past
  | full before registered => simp [Call.isSending, before] at past
  | waitTx before ready =>
      rcases Shared.cases_of_waitTx ready with ⟨_, ⟨_, rfl⟩ | ⟨_, rfl⟩⟩
      · rfl
      · rfl
  | waitAck before publish ready =>
      rcases Shared.cases_of_waitAck ready with ⟨_, ⟨_, rfl⟩ | ⟨_, rfl⟩⟩
      · rfl
      · rfl
  | waitRel before ready =>
      rcases Shared.eq_of_waitRel ready with ⟨_, rfl⟩
      rfl
  | waitStatus | dropped => rfl

/-- A call is begun, a call goes on, or the calls stay as they are. -/
theorem Transition.calls_cases {config : CrateConfig} {world next : World config} {action : Action}
    (transition : Transition world action next) :
    next.calls = world.calls ∨ (∃ call, next.calls = world.calls.insert call) ∨
      ∃ handle old call, world.calls.get? handle = some old ∧
        next.calls = world.calls.replace handle call := by
  cases transition with
  | send packet =>
      unfold World.send
      split
      · exact .inr (.inl ⟨_, rfl⟩)
      · exact .inl rfl
  | grant result live => cases result <;> exact .inr (.inr ⟨_, _, _, live, rfl⟩)
  | commit live =>
      unfold World.commit
      split
      · exact .inr (.inr ⟨_, _, _, live, rfl⟩)
      · exact .inr (.inr ⟨_, _, _, live, rfl⟩)
      · exact .inl rfl
  | waitStatus contended live =>
      unfold World.finishStatus
      split <;> exact .inr (.inr ⟨_, _, _, live, rfl⟩)
  | drop contended live =>
      unfold World.drop
      split
      all_goals
        first
        | exact .inr (.inr ⟨_, _, _, live, rfl⟩)
        | exact .inl rfl
  | lock live | waitTx live | waitAck live | waitRel live => exact .inr (.inr ⟨_, _, _, live, rfl⟩)
  | dropSubscription drop =>
      unfold World.dropSubscription
      dsimp only
      split <;> exact .inl rfl
  | receive payload =>
      unfold World.receive
      dsimp only
      split <;> exact .inl rfl
  | receiveFails error => cases error <;> exact .inl rfl
  | keepAlive =>
      unfold World.keepAlive
      split <;> exact .inl rfl
  | connect | connectFails | connected | lost | read | written | flushed | transmitted
  | writeFails | replied | reset | dropRun | disconnect => exact .inl rfl

theorem Transition.remains {config : CrateConfig} {world next : World config} {action : Action}
    {handle : ℕ} {call : Call} (transition : Transition world action next)
    (live : world.calls.get? handle = some call) :
    ∃ later, next.calls.get? handle = some later := by
  rcases transition.calls_cases with same | ⟨begun, same⟩ | ⟨other, old, later, live', same⟩
  · exact ⟨call, same ▸ live⟩
  · exact ⟨call, same ▸ Table.get?_insert_of_get? live begun⟩
  · rw [same, Table.get?_replace live']
    split
    · exact ⟨later, rfl⟩
    · exact ⟨call, live⟩

/-- A packet that was put into the TX channel, and the call that did; `Subscription::drop` is none. -/
structure Request where
  caller : Option ℕ
  packet : ClientPacket

/-- The packet is one that the call was made with. -/
def Request.IsOf (request : Request) (call : Call) : Prop :=
  request.packet.kind = call.packet ∧ request.packet.pid = some call.pid

/-- The requests that were committed belong to different calls, which are past `send`; the packet
that was encoded belongs to the call that is granted. -/
structure Attributed {config : CrateConfig} (world : World config) (encoding : Option Request)
    (requests : List Request) : Prop where
  locked : world.Locked
  encoding : ∀ handle call, world.calls.get? handle = some call → call.phase = .granted →
    ∃ request, encoding = some request ∧ request.caller = some handle ∧ request.IsOf call
  committed : ∀ request ∈ requests, ∀ handle, request.caller = some handle →
    ∃ call, world.calls.get? handle = some call ∧ call.isSending = false ∧ request.IsOf call
  distinct : (requests.filterMap Request.caller).Nodup

namespace Attributed

variable {config : CrateConfig} {world next : World config} {encoding later : Option Request}
  {requests : List Request} {handle : ℕ} {call : Call}

theorem new (config : CrateConfig) : Attributed (World.new config) none [] where
  locked := .new config
  encoding := by simp [World.new]
  committed := by simp
  distinct := .nil

theorem of_eq (attributed : Attributed world encoding requests)
    (calls : next.calls = world.calls) (publisher : next.txPublisher = world.txPublisher) :
    Attributed next encoding requests where
  locked := attributed.locked.of_eq calls publisher
  encoding := fun handle call live => attributed.encoding handle call (calls ▸ live)
  committed := fun request mem handle caller => calls ▸ attributed.committed request mem handle caller
  distinct := attributed.distinct

/-- A call that is past `send` stays so, and keeps its packet and its identifier. -/
theorem committed_of_transition (attributed : Attributed world encoding requests)
    {action : Action} (transition : Transition world action next) :
    ∀ request ∈ requests, ∀ handle, request.caller = some handle →
      ∃ call, next.calls.get? handle = some call ∧ call.isSending = false ∧ request.IsOf call := by
  intro request mem handle caller
  rcases attributed.committed request mem handle caller with ⟨call, live, past, isOf⟩
  rcases transition.remains live with ⟨later, live'⟩
  refine ⟨later, live', ?_⟩
  cases transition.origin live' with
  | same live'' =>
      rcases Option.some.inj (live.symm.trans live'')
      exact ⟨past, isOf⟩
  | begun packet send room fresh =>
      have before := Table.lt_next_of_get? live
      omega
  | advanced live'' advances =>
      rcases Option.some.inj (live.symm.trans live'')
      exact ⟨advances.notSending past, isOf⟩

theorem step (attributed : Attributed world encoding requests) {action : Action}
    (notGrants : ∀ handle, action ≠ .grant handle (.ok ()))
    (transition : Transition world action next) : Attributed next encoding requests where
  locked := attributed.locked.step transition
  encoding := by
    intro handle call live phase
    cases transition.origin live with
    | same live => exact attributed.encoding handle call live phase
    | begun packet => simp at phase
    | advanced live advances =>
        dsimp only at phase
        subst phase
        cases advances with
        | granted => exact absurd rfl (notGrants handle)
        | waitTx before ready =>
            rcases Shared.cases_of_waitTx ready with ⟨_, ⟨_, later⟩ | ⟨_, later⟩⟩ <;> simp at later
        | waitAck before publish ready =>
            rcases Shared.cases_of_waitAck ready with ⟨_, ⟨_, later⟩ | ⟨_, later⟩⟩ <;> simp at later
        | waitRel before ready =>
            rcases Shared.eq_of_waitRel ready with ⟨_, later⟩
            simp at later
  committed := attributed.committed_of_transition transition
  distinct := attributed.distinct

/-- No packet needs to be kept while no call is granted. -/
theorem recode (attributed : Attributed world encoding requests)
    (noneGranted : ∀ handle call, world.calls.get? handle = some call → call.phase ≠ .granted)
    (later : Option Request) : Attributed world later requests :=
  ⟨attributed.locked, fun handle call live phase => absurd phase (noneGranted handle call live),
    attributed.committed, attributed.distinct⟩

/-- The call that has the lock is granted. -/
theorem grant (attributed : Attributed world encoding requests)
    (live : world.calls.get? handle = some call) (phase : call.phase = .publishing)
    {request : Request} (caller : request.caller = some handle) (isOf : request.IsOf call)
    (transition : Transition world (.grant handle (.ok ())) next) :
    Attributed next (some request) requests where
  locked := attributed.locked.step transition
  encoding := by
    intro other call' live' granted
    have locks := attributed.locked handle call live (by simp [Call.locks, phase])
    cases transition.origin live' with
    | same before =>
        have locks' := attributed.locked other call' before (by simp [Call.locks, granted])
        rcases Option.some.inj (locks.symm.trans locks')
        rcases Option.some.inj (live.symm.trans before)
        simp [phase] at granted
    | begun packet => simp at granted
    | advanced before advances =>
        cases advances with
        | granted phase' =>
            rcases Option.some.inj (live.symm.trans before)
            exact ⟨request, rfl, caller, isOf⟩
  committed := attributed.committed_of_transition transition
  distinct := attributed.distinct

/-- The packet of the call that is granted is committed. -/
theorem commit {request : Request} (attributed : Attributed world (some request) requests)
    (live : world.calls.get? handle = some call) (phase : call.phase = .granted)
    {shared : Shared config} (registered : world.shared.register call.packet call.pid = .done shared)
    (transition : Transition world (.commit handle) next) :
    Attributed next (some request) (requests ++ [request]) where
  locked := attributed.locked.step transition
  encoding := (attributed.step (by simp) transition).encoding
  committed := by
    intro other mem handle' caller
    rcases List.mem_append.mp mem with earlier | newest
    · exact attributed.committed_of_transition transition other earlier handle' caller
    · rcases List.mem_singleton.mp newest
      rcases attributed.encoding handle call live phase with ⟨_, same, caller', isOf⟩
      rcases Option.some.inj same
      rcases Option.some.inj (caller.symm.trans caller')
      cases transition with
      | commit live' phase' =>
          rcases Option.some.inj (live.symm.trans live')
          refine ⟨{ call with phase := .sent }, ?_, rfl, isOf⟩
          simp only [World.commit, registered, World.setPhase]
          rw [Table.get?_replace live, if_pos rfl]
  distinct := by
    rcases attributed.encoding handle call live phase with ⟨_, same, caller, isOf⟩
    rcases Option.some.inj same
    rw [List.filterMap_append, List.nodup_append]
    refine ⟨attributed.distinct, by simp [caller], ?_⟩
    intro first earlier second newest equal
    subst equal
    rcases List.mem_filterMap.mp earlier with ⟨other, mem, caller'⟩
    simp only [List.filterMap_cons, caller, List.filterMap_nil, List.mem_singleton] at newest
    subst newest
    rcases attributed.committed other mem first caller' with ⟨call', live', past, _⟩
    rcases Option.some.inj (live.symm.trans live')
    simp [Call.isSending, phase] at past

/-- A packet of no call is committed. -/
theorem append (attributed : Attributed world encoding requests) {request : Request}
    (noCaller : request.caller = none) : Attributed world encoding (requests ++ [request]) where
  locked := attributed.locked
  encoding := attributed.encoding
  committed := by
    intro other mem handle caller
    rcases List.mem_append.mp mem with earlier | newest
    · exact attributed.committed other earlier handle caller
    · rcases List.mem_singleton.mp newest
      simp [noCaller] at caller
  distinct := by
    rw [List.filterMap_append, List.filterMap_cons, noCaller]
    simpa using attributed.distinct

end Attributed

/-- Whether an action is one of the client's. -/
def PipelineAction.isClient {T : Type} : PipelineAction T → Bool
  | .pollGrant _ _ _ | .dropSubscription _ _ _ | .link (.client _) => true
  | _ => false

section Apart

variable {config : CrateConfig}

/-- What the stack and the broker do leaves the calls alone. -/
theorem World.calls_of_step {world next : World config} {action : Action}
    (notClient : action.isClient = false) (stepped : step world action = some next) :
    next.calls = world.calls ∧ next.txPublisher = world.txPublisher := by
  cases (transition_of_step stepped).2 with
  | receive payload =>
      unfold World.receive
      dsimp only
      split <;> exact ⟨rfl, rfl⟩
  | receiveFails error => cases error <;> exact ⟨rfl, rfl⟩
  | keepAlive =>
      unfold World.keepAlive
      split <;> exact ⟨rfl, rfl⟩
  | connect | connectFails | connected | lost | read | written | flushed | transmitted
  | writeFails | replied | reset | dropRun | disconnect => exact ⟨rfl, rfl⟩
  | _ => simp [Action.isClient] at notClient

variable {T : Type} [Transport T]

theorem Link.calls_of_linkStep {link next : Link T config} {action : LinkAction T}
    (notClient : action.isClient = false) (stepped : linkStep link action = some next) :
    next.world.calls = link.world.calls ∧ next.world.txPublisher = link.world.txPublisher := by
  cases transition_of_linkStep stepped with
  | opened phase =>
      unfold Link.connectTransport
      dsimp only
      split <;> exact ⟨rfl, rfl⟩
  | client isClient inner => simp [LinkAction.isClient] at notClient
  | @write _ action _ socket isWrite inner =>
      have notClient : action.isClient = false := by
        cases action <;> simp_all [Action.isWrite, Action.isClient]
      exact World.calls_of_step notClient inner
  | connect isLost inner => exact World.calls_of_step rfl inner
  | connected accepted inner => exact World.calls_of_step rfl inner
  | connectFails notAccepted inner => exact World.calls_of_step rfl inner
  | receive socket returned inner => exact World.calls_of_step rfl inner
  | receiveFails socket returned inner => exact World.calls_of_step rfl inner
  | socketFails noSocket inner => exact World.calls_of_step rfl inner
  | lost isLost inner => exact World.calls_of_step rfl inner
  | reset inner => exact World.calls_of_step rfl inner
  | dropRun notRefused inner =>
      have same := World.calls_of_step (by rfl) inner
      exact same
  | disconnect socket inner =>
      have same := World.calls_of_step (by rfl) inner
      exact same
  | greeted | recvConnAck | pending | drifts | disconnectFails => exact ⟨rfl, rfl⟩

/-- What the client has to do with stays as it is. -/
structure Pipeline.Apart (pipeline next : Pipeline T config) : Prop where
  calls : next.link.world.calls = pipeline.link.world.calls
  publisher : next.link.world.txPublisher = pipeline.link.world.txPublisher
  granted : next.granted = pipeline.granted
  writers : next.tx.writers = pipeline.tx.writers
  buf : next.tx.buf = pipeline.tx.buf
  commits : commitsAfter 0 next.tx.history = commitsAfter 0 pipeline.tx.history

/-- The subscriber's side of the TX channel. -/
theorem readerSide_of_step {capacity : ℕ} {tx next : Pubsub.World}
    (pipe : tx.Pipe (txConfig config) capacity) {action : Pubsub.Action}
    (isReader : (∃ cx, action = .read 0 cx) ∨
      ∃ reader, action = .release reader ∨ action = .dropReader reader)
    (stepped : Pubsub.step (txConfig config) tx action = some next) :
    next.writers = tx.writers ∧ next.buf = tx.buf ∧
      commitsAfter 0 next.history = commitsAfter 0 tx.history := by
  have isFlow : action.isFlow = true := by
    rcases isReader with ⟨cx, rfl⟩ | ⟨reader, rfl | rfl⟩ <;> rfl
  cases pipe.flow_of_step isFlow stepped with
  | waits inner reader => exact ⟨rfl, rfl, rfl⟩
  | read inner reader grant auto => exact ⟨rfl, rfl, rfl⟩
  | release inner grant live isRelease => exact ⟨rfl, rfl, rfl⟩
  | commit inner grant used live isCommit =>
      rcases isReader with ⟨cx, rfl⟩ | ⟨reader, rfl | rfl⟩ <;> simp at isCommit
  | _ => simp at isReader

variable {pipeline next : Pipeline T config} {link : Link T config} {capacity : ℕ}

namespace Pipeline.Apart

omit [Transport T] in
theorem release (pipe : pipeline.tx.Pipe (txConfig config) capacity)
    (calls : link.world.calls = pipeline.link.world.calls)
    (publisher : link.world.txPublisher = pipeline.link.world.txPublisher)
    {call : ℕ → Pubsub.Action}
    (isRelease : ∀ reader, call reader = .release reader ∨ call reader = .dropReader reader)
    (stepped : pipeline.release link call = some next) : pipeline.Apart next := by
  simp only [Pipeline.release, Option.bind_eq_bind, Option.bind_eq_some_iff,
    Option.some.injEq] at stepped
  rcases stepped with ⟨reader, _, tx, released, rfl⟩
  have side := readerSide_of_step pipe (.inr ⟨reader, isRelease reader⟩) released
  exact ⟨calls, publisher, rfl, side.1, side.2.1, side.2.2⟩

theorem pollRead (pipe : pipeline.tx.Pipe (txConfig config) capacity) {waker : Pubsub.Waker}
    (stepped : pipeline.pollRead waker = some next) : pipeline.Apart next := by
  simp only [Pipeline.pollRead, Option.bind_eq_bind, Option.bind_eq_some_iff,
    Option.ite_none_right_eq_some] at stepped
  rcases stepped with ⟨connection, _, _, tx, read, stepped⟩
  have side := readerSide_of_step pipe (.inl ⟨_, rfl⟩) read
  simp only [afterRead] at stepped
  split at stepped
  · rcases Option.some.inj stepped
    exact ⟨rfl, rfl, rfl, side.1, side.2.1, side.2.2⟩
  · split at stepped
    · rcases Option.some.inj stepped
      exact ⟨rfl, rfl, rfl, side.1, side.2.1, side.2.2⟩
    · simp only [Option.bind_eq_bind, Option.bind_eq_some_iff, Option.some.injEq] at stepped
      rcases stepped with ⟨link, stepped, rfl⟩
      have same := Link.calls_of_linkStep (by rfl) stepped
      exact ⟨same.1, same.2, rfl, side.1, side.2.1, side.2.2⟩

/-- What a step of the stack alone comes to. -/
theorem follow (pipe : pipeline.tx.Pipe (txConfig config) capacity) {action : LinkAction T}
    (notClient : action.isClient = false) (linked : linkStep pipeline.link action = some link)
    (stepped : pipeline.follow link action = some next) : pipeline.Apart next := by
  have same := Link.calls_of_linkStep notClient linked
  have completes (stepped : pipeline.complete link = some next) : pipeline.Apart next := by
    simp only [Pipeline.complete, Option.ite_none_right_eq_some, Option.some.injEq] at stepped
    rcases stepped with ⟨_, rfl⟩
    exact ⟨same.1, same.2, rfl, rfl, rfl, rfl⟩
  have answers (stepped : pipeline.answer link = some next) : pipeline.Apart next := by
    simp only [Pipeline.answer] at stepped
    split at stepped
    · split at stepped
      · rcases Option.some.inj stepped
        exact ⟨same.1, same.2, rfl, rfl, rfl, rfl⟩
      · rcases Option.some.inj stepped
        exact ⟨same.1, same.2, rfl, rfl, rfl, rfl⟩
      · simp at stepped
    · rcases Option.some.inj stepped
      exact ⟨same.1, same.2, rfl, rfl, rfl, rfl⟩
  cases action with
  | client action => simp [LinkAction.isClient] at notClient
  | greeted => exact completes stepped
  | receive received payload => exact answers stepped
  | connectFails =>
      rcases Option.some.inj stepped
      exact ⟨same.1, same.2, rfl, rfl, rfl, rfl⟩
  | write action =>
      cases action with
      | read => simp [Pipeline.follow] at stepped
      | written => exact completes stepped
      | replied => exact completes stepped
      | keepAlive => exact answers stepped
      | transmitted => exact release pipe same.1 same.2 (fun _ => .inl rfl) stepped
      | writeFails =>
          simp only [Pipeline.follow, Pipeline.writeFails] at stepped
          split at stepped
          · simp only [Option.bind_eq_bind, Option.bind_eq_some_iff, Option.some.injEq] at stepped
            rcases stepped with ⟨tx, released, rfl⟩
            have side := readerSide_of_step pipe (.inr ⟨_, .inr rfl⟩) released
            exact ⟨same.1, same.2, rfl, side.1, side.2.1, side.2.2⟩
          · rcases Option.some.inj stepped
            exact ⟨same.1, same.2, rfl, rfl, rfl, rfl⟩
      | _ =>
          rcases Option.some.inj stepped
          exact ⟨same.1, same.2, rfl, rfl, rfl, rfl⟩
  | opened | dropRun | disconnect => simp [Pipeline.follow] at stepped
  | _ =>
      rcases Option.some.inj stepped
      exact ⟨same.1, same.2, rfl, rfl, rfl, rfl⟩

theorem step (sound : pipeline.Sound capacity) {action : PipelineAction T}
    (notClient : action.isClient = false) (stepped : pipelineStep pipeline action = some next) :
    pipeline.Apart next := by
  simp only [pipelineStep, Option.ite_none_left_eq_some] at stepped
  rcases stepped with ⟨_, stepped⟩
  have pipe := sound.tx.pipe
  cases action with
  | pollGrant | dropSubscription => simp [PipelineAction.isClient] at notClient
  | pollRead waker => exact pollRead pipe stepped
  | skipped =>
      simp only [Pipeline.skip, Option.bind_eq_bind, Option.bind_eq_some_iff,
        Option.ite_none_right_eq_some] at stepped
      rcases stepped with ⟨reader, _, grant, _, phase, stepped⟩
      exact release pipe (by rfl) (by rfl) (fun _ => .inl rfl) stepped
  | skipFails =>
      simp only [Pipeline.skipFails, Option.bind_eq_bind, Option.bind_eq_some_iff] at stepped
      rcases stepped with ⟨world, failed, stepped⟩
      have same := World.calls_of_step (by rfl) failed
      exact release pipe same.1 same.2 (fun _ => .inr rfl) stepped
  | opened connect =>
      simp only [Pipeline.opened, Option.bind_eq_bind, Option.bind_eq_some_iff] at stepped
      rcases stepped with ⟨link, opens, stepped⟩
      have same := Link.calls_of_linkStep (by rfl) opens
      split at stepped
      · rcases Option.some.inj stepped
        exact ⟨same.1, same.2, rfl, rfl, rfl, rfl⟩
      · rcases Option.some.inj stepped
        exact ⟨same.1, same.2, rfl, rfl, rfl, rfl⟩
      · rcases Option.some.inj stepped
        exact ⟨same.1, same.2, rfl, rfl, rfl, rfl⟩
      · simp at stepped
  | write count =>
      simp only [Pipeline.write, Option.bind_eq_bind, Option.bind_eq_some_iff,
        Option.ite_none_right_eq_some, Option.some.injEq] at stepped
      rcases stepped with ⟨connection, _, _, rfl⟩
      exact ⟨rfl, rfl, rfl, rfl, rfl, rfl⟩
  | link action =>
      simp only [Option.ite_none_left_eq_some, Option.bind_eq_some_iff] at stepped
      rcases stepped with ⟨_, link, linked, stepped⟩
      refine follow pipe ?_ linked stepped
      cases action <;> simp_all [PipelineAction.isClient, LinkAction.isClient]

end Pipeline.Apart

end Apart

/-- A broker takes those packets off a connection that were written to their ends. -/
theorem Pipeline.Sound.wholePackets_stream {T : Type} [Transport T] {config : CrateConfig}
    {capacity : ℕ} {pipeline : Pipeline T config} (sound : pipeline.Sound capacity)
    (connection : ℕ) :
    Grammar.wholePackets (pipeline.transcript.stream connection) =
      ((pipeline.transcript.on connection).filter fun sent =>
        sent.written = sent.symbols).map Sent.symbols := by
  have framed := sound.recorded.framed
  rcases sound.transcript.stream_split connection with ⟨rest, stream, isPart⟩
  rw [stream, List.flatMap_def]
  apply Grammar.wholePackets_flatten
  · intro bytes mem
    rcases List.mem_map.mp mem with ⟨sent, sent_mem, rfl⟩
    have isOn := (List.mem_filter.mp sent_mem).1
    exact framed sent (pipeline.transcript.mem_of_mem_on isOn).1
  · rcases isPart with rfl | ⟨sent, isOn, count, short, rfl⟩
    · rfl
    · exact Grammar.wholePacket_of_part
        (framed sent (pipeline.transcript.mem_of_mem_on isOn).1) short

/-- A pipeline, with what was asked of it. -/
structure Sender (T : Type) (config : CrateConfig) where
  pipeline : Pipeline T config
  /-- The packet that was to be encoded last, while no call was granted. -/
  encoding : Option Request
  /-- The packets that were committed, in this order. -/
  requests : List Request

/-- The number of packets that were committed to the TX channel. -/
def Pipeline.committed {T : Type} {config : CrateConfig} (pipeline : Pipeline T config) : ℕ :=
  (contents (commitsAfter 0 pipeline.tx.history)).length

namespace Sender

variable {T : Type} [Transport T] {config : CrateConfig}

/-- A new sender. -/
def new (config : CrateConfig) (capacity : ℕ) (transport : T) : Sender T config :=
  ⟨.new config capacity transport, none, []⟩

variable (sender : Sender T config)

/-- The packet that is to be encoded when an action is over: while no call is granted, a call that
asks for a grant brings its own, and a dropped subscription its UNSUBSCRIBE. -/
def encodes : PipelineAction T → Option Request
  | .pollGrant handle packet _ =>
      if sender.pipeline.granted = none then
        (sender.pipeline.link.world.calls.get? handle).map fun call =>
          ⟨some handle, packet.setPid call.pid⟩
      else sender.encoding
  | .dropSubscription pidLocked _ topics =>
      if sender.pipeline.granted = none ∧ sender.pipeline.link.world.txPublisher = none then
        let pid := if pidLocked then sender.pipeline.link.world.shared.nextPid else Pid.new
        some ⟨none, .unsubscribe ⟨some pid, .slice [], topics⟩⟩
      else sender.encoding
  | _ => sender.encoding

/-- What is recorded of an action. -/
def record (action : PipelineAction T) (next : Pipeline T config) : Sender T config where
  pipeline := next
  encoding := sender.encodes action
  requests :=
    if sender.pipeline.committed < next.committed then
      sender.requests ++ (sender.encodes action).toList
    else sender.requests

end Sender

variable {T : Type} [Transport T] {config : CrateConfig} {capacity : ℕ}

/-- One action of a sender. -/
def senderStep (sender : Sender T config) (action : PipelineAction T) : Option (Sender T config) :=
  (pipelineStep sender.pipeline action).map (sender.record action)

/-- A run of a new sender. -/
abbrev senderRun (config : CrateConfig) (capacity : ℕ) (transport : T)
    (actions : List (PipelineAction T)) : Option (Sender T config) :=
  Execution.run senderStep (Sender.new config capacity transport) actions

namespace Sender

/-- The invariant of a sender. -/
structure Sound (capacity : ℕ) (sender : Sender T config) : Prop where
  pipeline : sender.pipeline.Sound capacity
  /-- The packets that were committed encode the requests. -/
  listed : List.Forall₂ (fun (frame : Pubsub.Frame) (request : Request) =>
    Encodes config frame.bytes request.packet)
    (contents (commitsAfter 0 sender.pipeline.tx.history)) sender.requests
  holds : ∀ writer used, sender.pipeline.granted = some (writer, used) →
    ∃ request, sender.encoding = some request ∧
      Contains config sender.pipeline.tx writer used request.packet
  attributed : Attributed sender.pipeline.link.world sender.encoding sender.requests

namespace Sound

variable {sender : Sender T config} {next : Pipeline T config} {action : PipelineAction T}

/-- A step that commits nothing with a packet. -/
theorem of_uncommitted (sound : next.Sound capacity) (before : sender.Sound capacity)
    (commits : contents (commitsAfter 0 next.tx.history) =
      contents (commitsAfter 0 sender.pipeline.tx.history))
    (holds : ∀ writer used, next.granted = some (writer, used) →
      ∃ request, sender.encodes action = some request ∧
        Contains config next.tx writer used request.packet)
    (attributed : Attributed next.link.world (sender.encodes action) sender.requests) :
    (sender.record action next).Sound capacity := by
  have requests : (sender.record action next).requests = sender.requests := by
    simp [record, Pipeline.committed, commits]
  refine ⟨sound, ?_, holds, ?_⟩
  · rw [requests]
    exact commits ▸ before.listed
  · rw [requests]
    exact attributed

/-- A step that commits a packet. -/
theorem of_committed (sound : next.Sound capacity) (before : sender.Sound capacity)
    {request : Request} {frame : Pubsub.Frame} (encodes : Encodes config frame.bytes request.packet)
    (commits : commitsAfter 0 next.tx.history =
      commitsAfter 0 sender.pipeline.tx.history ++ [frame])
    (encoding : sender.encodes action = some request) (granted : next.granted = none)
    (attributed : Attributed next.link.world (some request) (sender.requests ++ [request])) :
    (sender.record action next).Sound capacity := by
  rcases encodes with ⟨buf, encoded⟩
  have added : contents (commitsAfter 0 next.tx.history) =
      contents (commitsAfter 0 sender.pipeline.tx.history) ++ [frame] := by
    rw [commits, contents_append, contents_of_framed (framed_of_encodePacket encoded)]
  have requests : (sender.record action next).requests = sender.requests ++ [request] := by
    simp [record, Pipeline.committed, added, encoding]
  refine ⟨sound, ?_, ?_, ?_⟩
  · rw [requests]
    change List.Forall₂ _ (contents (commitsAfter 0 next.tx.history)) _
    rw [added]
    exact List.rel_append before.listed (.cons ⟨buf, encoded⟩ .nil)
  · intro writer used isGranted
    simp [record, granted] at isGranted
  · rw [requests]
    change Attributed next.link.world (sender.encodes action) _
    rwa [encoding]

theorem of_apart (sound : next.Sound capacity) (before : sender.Sound capacity)
    (apart : sender.pipeline.Apart next) (encoding : sender.encodes action = sender.encoding) :
    (sender.record action next).Sound capacity := by
  refine of_uncommitted sound before (by rw [apart.commits]) ?_ ?_
  · intro writer used isGranted
    rcases before.holds writer used (apart.granted ▸ isGranted) with
      ⟨request, same, grant, live, inside, encodes⟩
    exact ⟨request, encoding.trans same, grant, apart.writers ▸ live, inside, apart.buf ▸ encodes⟩
  · rw [encoding]
    exact before.attributed.of_eq apart.calls apart.publisher

theorem commit (small : capacity ≤ 65535) (before : sender.Sound capacity) {handle : ℕ}
    {link : Link T config}
    (client : linkStep sender.pipeline.link (.client (.commit handle)) = some link)
    (stepped : sender.pipeline.commit link handle = some next) (sound : next.Sound capacity) :
    (sender.record (.link (.client (.commit handle))) next).Sound capacity := by
  simp only [Pipeline.commit, Option.bind_eq_bind, Option.bind_eq_some_iff] at stepped
  rcases stepped with ⟨call, live, ⟨writer, used⟩, granted, stepped⟩
  rcases before.holds writer used granted with ⟨request, encoding, contains⟩
  have attributed := before.attributed
  cases Link.transition_of_linkStep client with
  | client isClient inner =>
      have transition := (transition_of_step inner).2
      have phase : call.phase = .granted := by
        cases transition with
        | commit live' phase =>
            rcases Option.some.inj (live.symm.trans live')
            exact phase
      split at stepped
      · rename_i shared registered
        simp only [Option.bind_eq_some_iff, Option.some.injEq] at stepped
        rcases stepped with ⟨tx, ran, rfl⟩
        rcases publishes_of_setPid small before.pipeline.tx.pipe contains ran with
          ⟨frame, encodes, publishes⟩
        rw [encoding] at attributed
        exact of_committed sound before encodes publishes.commits encoding rfl
          (attributed.commit live phase registered transition)
      · rename_i shared registered
        simp only [Option.bind_eq_some_iff, Option.some.injEq] at stepped
        rcases stepped with ⟨tx, dropped, rfl⟩
        have publishes := Publishes.of_dropWriter before.pipeline.tx.pipe dropped
        refine of_uncommitted sound before ?_ (by simp) (attributed.step (by simp) transition)
        rw [publishes.commits, contents_append, contents_of_empty rfl, List.append_nil]
      · rename_i place registered
        rw [Option.some.injEq] at stepped
        subst stepped
        refine of_uncommitted sound before rfl ?_ (attributed.step (by simp) transition)
        exact before.holds

theorem drop (before : sender.Sound capacity) {handle : ℕ} {contended : Bool} {link : Link T config}
    (client : linkStep sender.pipeline.link (.client (.drop handle contended)) = some link)
    (stepped : sender.pipeline.drop link handle = some next) (sound : next.Sound capacity) :
    (sender.record (.link (.client (.drop handle contended))) next).Sound capacity := by
  simp only [Pipeline.drop, Option.bind_eq_bind, Option.bind_eq_some_iff] at stepped
  rcases stepped with ⟨call, _, stepped⟩
  cases Link.transition_of_linkStep client with
  | client isClient inner =>
      have attributed := before.attributed.step (by simp) (transition_of_step inner).2
      split at stepped
      · simp only [Option.bind_eq_some_iff, Option.some.injEq] at stepped
        rcases stepped with ⟨⟨writer, used⟩, _, tx, dropped, rfl⟩
        have publishes := Publishes.of_dropWriter before.pipeline.tx.pipe dropped
        refine of_uncommitted sound before ?_ (by simp) attributed
        rw [publishes.commits, contents_append, contents_of_empty rfl, List.append_nil]
      · rw [Option.some.injEq] at stepped
        subst stepped
        exact of_uncommitted sound before rfl before.holds attributed

theorem pollGrant (small : capacity ≤ 65535) (before : sender.Sound capacity) {handle : ℕ}
    {packet : ClientPacket} {waker : Pubsub.Waker}
    (stepped : sender.pipeline.pollGrant handle packet waker = some next)
    (sound : next.Sound capacity) :
    (sender.record (.pollGrant handle packet waker) next).Sound capacity := by
  simp only [Pipeline.pollGrant, Option.bind_eq_bind, Option.bind_eq_some_iff,
    Option.ite_none_right_eq_some] at stepped
  rcases stepped with ⟨call, live, ⟨phase, kind⟩, size, _, ⟨tx, acquired⟩, asked, stepped⟩
  rcases before.pipeline.tx.acquire small asked with ⟨publishes, acquires⟩
  have commits : contents (commitsAfter 0 tx.history) =
      contents (commitsAfter 0 sender.pipeline.tx.history) := by
    rw [publishes.commits, List.append_nil]
  have pipe := before.pipeline.tx.pipe
  -- the call has the lock, so no other call is granted
  have noneGranted : ∀ other call', sender.pipeline.link.world.calls.get? other = some call' →
      call'.phase ≠ .granted := by
    intro other call' live' granted
    have locks := before.attributed.locked handle call live (by simp [Call.locks, phase])
    have locks' := before.attributed.locked other call' live' (by simp [Call.locks, granted])
    rcases Option.some.inj (locks.symm.trans locks')
    rcases Option.some.inj (live.symm.trans live')
    simp [phase] at granted
  have encodes (free : sender.pipeline.granted = none) :
      sender.encodes (.pollGrant handle packet waker) =
        some ⟨some handle, packet.setPid call.pid⟩ := by
    simp only [Sender.encodes, if_pos free, live, Option.map_some]
  cases acquires with
  | refused txSound =>
      simp only [Pipeline.afterGrant, Option.some.injEq] at stepped
      subst stepped
      have same := eq_of_refused pipe asked
      refine of_uncommitted sound before commits ?_ (before.attributed.recode noneGranted _)
      intro writer used isGranted
      rcases before.holds writer used isGranted with
        ⟨request, encoding, grant, live, inside, encodes⟩
      refine ⟨request, ?_, grant, same.1 ▸ live, inside, same.2 ▸ encodes⟩
      have taken : sender.pipeline.granted ≠ none := by
        rw [show sender.pipeline.granted = some (writer, used) from isGranted]
        simp
      rw [Sender.encodes, if_neg taken, encoding]
  | @encoded writer used free txSound =>
      simp only [Pipeline.afterGrant, Option.bind_eq_bind, Option.bind_eq_some_iff,
        Option.some.injEq] at stepped
      rcases stepped with ⟨link, stepped, rfl⟩
      cases Link.transition_of_linkStep stepped with
      | client isClient inner =>
          refine of_uncommitted sound before commits ?_ ?_
          · intro writer' used' isGranted
            rcases Prod.mk.inj (Option.some.inj isGranted) with ⟨rfl, rfl⟩
            exact ⟨_, encodes free, contains_of_acquire pipe asked⟩
          · rw [encodes free]
            exact before.attributed.grant live phase rfl ⟨by simp [kind], by simp⟩
              (transition_of_step inner).2
  | failed free txSound =>
      simp only [Pipeline.afterGrant, Option.bind_eq_bind, Option.bind_eq_some_iff,
        Option.some.injEq] at stepped
      rcases stepped with ⟨link, stepped, tx', dropped, rfl⟩
      have publishes' := Publishes.of_dropWriter txSound.pipe dropped
      cases Link.transition_of_linkStep stepped with
      | client isClient inner =>
          refine of_uncommitted sound before ?_ (by simp [free]) ?_
          · rw [publishes'.commits, contents_append, contents_of_empty rfl, List.append_nil, commits]
          · exact (before.attributed.recode noneGranted _).step (by simp) (transition_of_step inner).2

theorem dropSubscription (small : capacity ≤ 65535) (before : sender.Sound capacity)
    {pidLocked statusLocked : Bool} {topics : List Utf8}
    (stepped : sender.pipeline.dropSubscription pidLocked statusLocked topics = some next)
    (sound : next.Sound capacity) :
    (sender.record (.dropSubscription pidLocked statusLocked topics) next).Sound capacity := by
  simp only [Pipeline.dropSubscription, Option.ite_none_left_eq_some] at stepped
  rcases stepped with ⟨_, stepped⟩
  split at stepped
  · rename_i taken
    simp only [Pipeline.afterDropGrant, Option.bind_eq_bind, Option.bind_eq_some_iff,
      Option.some.injEq] at stepped
    rcases stepped with ⟨link, stepped, rfl⟩
    have encoding : sender.encodes (.dropSubscription pidLocked statusLocked topics) =
        sender.encoding := by
      rw [Sender.encodes, if_neg (fun free => taken free.2)]
    cases Link.transition_of_linkStep stepped with
    | client isClient inner =>
        refine of_uncommitted sound before rfl ?_ ?_
        · rw [encoding]
          exact before.holds
        · rw [encoding]
          exact before.attributed.step (by simp) (transition_of_step inner).2
  rename_i free
  have noneGranted : ∀ other call', sender.pipeline.link.world.calls.get? other = some call' →
      call'.phase ≠ .granted := by
    intro other call' live' granted
    have locks := before.attributed.locked other call' live' (by simp [Call.locks, granted])
    exact free (by simp [locks])
  have encodes (alone : sender.pipeline.granted = none) :
      sender.encodes (.dropSubscription pidLocked statusLocked topics) = some ⟨none, .unsubscribe
        ⟨some (if pidLocked then sender.pipeline.link.world.shared.nextPid else Pid.new),
          .slice [], topics⟩⟩ := by
    rw [Sender.encodes, if_pos ⟨alone, not_not.mp free⟩]
  simp only [Option.bind_eq_bind, Option.bind_eq_some_iff] at stepped
  rcases stepped with ⟨size, _, ⟨tx, acquired⟩, asked, stepped⟩
  rcases before.pipeline.tx.acquire small asked with ⟨publishes, acquires⟩
  have pipe := before.pipeline.tx.pipe
  have commits : contents (commitsAfter 0 tx.history) =
      contents (commitsAfter 0 sender.pipeline.tx.history) := by
    rw [publishes.commits, List.append_nil]
  cases acquires with
  | refused txSound =>
      simp only [Pipeline.afterDropGrant, Option.bind_eq_bind, Option.bind_eq_some_iff,
        Option.some.injEq] at stepped
      rcases stepped with ⟨link, stepped, rfl⟩
      have same := eq_of_refused pipe asked
      cases Link.transition_of_linkStep stepped with
      | client isClient inner =>
          refine of_uncommitted sound before commits ?_
            ((before.attributed.recode noneGranted _).step (by simp) (transition_of_step inner).2)
          intro writer used isGranted
          rcases before.holds writer used isGranted with
            ⟨request, encoding, grant, live, inside, encodes⟩
          refine ⟨request, ?_, grant, same.1 ▸ live, inside, same.2 ▸ encodes⟩
          have taken : ¬(sender.pipeline.granted = none ∧
              sender.pipeline.link.world.txPublisher = none) := by
            rw [show sender.pipeline.granted = some (writer, used) from isGranted]
            simp
          rw [Sender.encodes, if_neg taken, encoding]
  | @encoded writer used alone txSound =>
      simp only [Pipeline.afterDropGrant, Option.bind_eq_bind, Option.bind_eq_some_iff,
        Option.some.injEq] at stepped
      rcases stepped with ⟨link, stepped, tx', committed, rfl⟩
      rcases publishes_of_contains txSound.pipe (contains_of_acquire pipe asked) committed with
        ⟨frame, encoded, publishes'⟩
      cases Link.transition_of_linkStep stepped with
      | client isClient inner =>
          refine of_committed sound before encoded ?_ (encodes alone) alone ?_
          · rw [publishes'.commits, publishes.commits, List.append_nil]
          · exact ((before.attributed.recode noneGranted _).step (by simp)
              (transition_of_step inner).2).append rfl
  | failed alone txSound =>
      simp only [Pipeline.afterDropGrant, Option.bind_eq_bind, Option.bind_eq_some_iff,
        Option.some.injEq] at stepped
      rcases stepped with ⟨link, stepped, tx', dropped, rfl⟩
      have publishes' := Publishes.of_dropWriter txSound.pipe dropped
      cases Link.transition_of_linkStep stepped with
      | client isClient inner =>
          refine of_uncommitted sound before ?_ (by simp [alone]) ?_
          · rw [publishes'.commits, contents_append, contents_of_empty rfl, List.append_nil, commits]
          · exact (before.attributed.recode noneGranted _).step (by simp) (transition_of_step inner).2

/-- A call of the client that neither asks for a grant nor commits or drops one. -/
theorem calling (before : sender.Sound capacity) {action : Action} {link : Link T config}
    (client : linkStep sender.pipeline.link (.client action) = some link)
    (notGrants : ∀ handle, action ≠ .grant handle (.ok ()))
    (same : next = { sender.pipeline with link := link }) (sound : next.Sound capacity) :
    (sender.record (.link (.client action)) next).Sound capacity := by
  subst same
  cases Link.transition_of_linkStep client with
  | client isClient inner =>
      exact of_uncommitted sound before rfl before.holds
        (before.attributed.step notGrants (transition_of_step inner).2)

theorem step [ClosingTransport T] (small : capacity ≤ 65535) {later : Sender T config}
    (before : sender.Sound capacity) (stepped : senderStep sender action = some later) :
    later.Sound capacity := by
  rcases Option.map_eq_some_iff.mp stepped with ⟨next, inner, rfl⟩
  have sound := before.pipeline.step small inner
  cases isClient : action.isClient with
  | false =>
      refine of_apart sound before (.step before.pipeline isClient inner) ?_
      cases action <;> simp_all [PipelineAction.isClient, Sender.encodes]
  | true =>
      simp only [pipelineStep, Option.ite_none_left_eq_some] at inner
      rcases inner with ⟨_, inner⟩
      cases action with
      | pollGrant handle packet waker => exact before.pollGrant small inner sound
      | dropSubscription pidLocked statusLocked topics =>
          exact before.dropSubscription small inner sound
      | link action =>
          simp only [Option.ite_none_left_eq_some, Option.bind_eq_some_iff] at inner
          rcases inner with ⟨_, link, linked, inner⟩
          cases action with
          | client action =>
              cases action with
              | commit handle => exact before.commit small linked inner sound
              | drop handle contended => exact before.drop linked inner sound
              | grant | dropSubscription => simp [Pipeline.follow] at inner
              | _ => exact before.calling linked (by simp) (Option.some.inj inner).symm sound
          | _ => simp [PipelineAction.isClient] at isClient
      | _ => simp [PipelineAction.isClient] at isClient

theorem new (small : capacity ≤ 65535) (config : CrateConfig) (transport : T) :
    (Sender.new config capacity transport).Sound capacity where
  pipeline := .new small config transport
  listed := by
    have subs : 0 < (txConfig config).subs % 256 := Nat.one_pos
    have nothing : contents (commitsAfter 0
        (Sender.new config capacity transport).pipeline.tx.history) = [] := by
      simp [Sender.new, Pipeline.new, Pubsub.World.Pipe.newPipe_eq subs, commitsAfter, contents]
    rw [nothing]
    exact .nil
  holds := by simp [Sender.new, Pipeline.new]
  attributed := (Attributed.new config).of_eq rfl rfl

theorem of_run [ClosingTransport T] (small : capacity ≤ 65535) {transport : T}
    {actions : List (PipelineAction T)}
    (reached : senderRun config capacity transport actions = some sender) :
    sender.Sound capacity :=
  Execution.invariant_of_run (Sound capacity) (fun sound stepped => sound.step small stepped)
    (new small config transport) reached

end Sound

/-- The packets of the client that were begun on the connections, in this order. -/
def packets (sender : Sender T config) : List (List UInt8) :=
  (sender.pipeline.transcript.sent.reverse.filter fun sent => sent.label.isSome).map Sent.symbols

theorem map_symbols_eq {sent : List (Sent (Option Pubsub.Frame) UInt8)}
    (frames : ∀ packet ∈ sent, ∀ frame, packet.label = some frame →
      packet.symbols = frame.bytes) :
    (sent.filter fun packet => packet.label.isSome).map Sent.symbols =
      (sent.filterMap Sent.label).map Pubsub.Frame.bytes := by
  induction sent with
  | nil => rfl
  | cons packet rest ih =>
      have later := ih fun other mem => frames other (List.mem_cons_of_mem _ mem)
      cases label : packet.label with
      | none => simp [label, later]
      | some frame => simp [label, later, frames packet List.mem_cons_self frame label]

/-- The packets of the client that were begun are those that were committed first. -/
theorem Sound.packets_encode {sender : Sender T config} (sound : sender.Sound capacity) :
    List.Forall₂ (fun bytes (request : Request) => Encodes config bytes request.packet)
      sender.packets (sender.requests.take sender.packets.length) := by
  have recorded := sound.pipeline.recorded
  rcases sound.pipeline.tx.pipe.delivered with ⟨_, _, delivered⟩
  have listed := sound.listed
  rw [← delivered, contents_append, ← recorded.order] at listed
  have packets : sender.packets =
      (sender.pipeline.transcript.sent.reverse.filterMap Sent.label).map Pubsub.Frame.bytes :=
    map_symbols_eq fun packet mem => recorded.frames packet (List.mem_reverse.mp mem)
  have first := List.forall₂_take sender.packets.length listed
  rw [List.take_left' (by rw [packets, List.length_map])] at first
  rw [packets, List.forall₂_map_left_iff]
  rwa [packets] at first

end Sender

/-- With a TX buffer of at most 65535 bytes and a transport whose `disconnect` closes its
connection, in any run whose future is not dropped: a broker takes exactly those packets off the
bytes of a connection that were written to their ends. The client's packets among those that were
begun are the first ones that were committed, in the order of the commits, and where they have
fields on the wire, a broker reads those that they were committed with. Each belongs to a call of
its own, with the call's packet identifier, or to a dropped subscription. -/
theorem packets_of_senderRun {T : Type} [Transport T] [ClosingTransport T] {config : CrateConfig}
    {capacity : ℕ} (small : capacity ≤ 65535) {transport : T} {actions : List (PipelineAction T)}
    {sender : Sender T config}
    (reached : senderRun config capacity transport actions = some sender) :
    (∀ connection,
      Grammar.wholePackets (sender.pipeline.transcript.stream connection) =
        ((sender.pipeline.transcript.on connection).filter fun sent =>
          sent.written = sent.symbols).map Sent.symbols) ∧
      List.Forall₂ (fun bytes (request : Request) =>
        ∀ fields, request.packet.HasFields config fields →
          parse (Grammar.clientPacket config.protocol) bytes = some fields)
        sender.packets (sender.requests.take sender.packets.length) ∧
      (sender.requests.filterMap Request.caller).Nodup ∧
      ∀ request ∈ sender.requests, ∀ handle, request.caller = some handle →
        ∃ call, sender.pipeline.link.world.calls.get? handle = some call ∧
          call.isSending = false ∧ request.IsOf call := by
  have sound := Sender.Sound.of_run small reached
  refine ⟨sound.pipeline.wholePackets_stream, ?_, sound.attributed.distinct,
    sound.attributed.committed⟩
  exact sound.packets_encode.imp fun bytes request encodes fields has => has.parse_eq encodes

/-- A publish and a subscribe are committed; writing the second packet fails. -/
def twoRequests (publish : Publish) (subscribe : Subscribe) : List (PipelineAction NalTransport) :=
  [.link (.client (.send (.publish .atMostOnce))), .link (.client (.lock 0)),
    .pollGrant 0 (.publish publish) 0, .link (.client (.commit 0)),
    .link (.client (.send .subscribe)), .link (.client (.lock 1)),
    .pollGrant 1 (.subscribe subscribe) 0, .link (.client (.commit 1)), .pollRead 0, .write 5,
    .write 3, .link (.write .written), .link (.write .flushed), .link (.write .transmitted),
    .pollRead 0, .write 6, .link (.write .writeFails)]

theorem packets_of_senderRun_example :
    ∃ sender,
      senderRun (.default .mqttv5 true) 64 ⟨some 0⟩ (twoRequests
        ⟨false, .atMostOnce, false, none, ⟨[0x77], by decide⟩, .ofSlice [1, 2], .slice []⟩
        ⟨none, .slice [],
          [⟨⟨[0x77], by decide⟩, .atLeastOnce, false, false, .sendAtSubscribeTime⟩]⟩) =
        some sender ∧
      sender.pipeline.transcript.stream 0 = [0x30, 6, 0, 1, 0x77, 0, 1, 2, 0x82, 7, 0, 3, 0, 0] ∧
      Grammar.wholePackets (sender.pipeline.transcript.stream 0) =
        [[0x30, 6, 0, 1, 0x77, 0, 1, 2]] ∧
      sender.requests.filterMap Request.caller = [0, 1] ∧
      List.Forall₂ (fun bytes (request : Request) =>
        ∀ fields, request.packet.HasFields (.default .mqttv5 true) fields →
          parse (Grammar.clientPacket .mqttv5) bytes = some fields)
        [[0x30, 6, 0, 1, 0x77, 0, 1, 2], [0x82, 7, 0, 3, 0, 0, 1, 0x77, 1]] sender.requests := by
  have facts : (senderRun (.default .mqttv5 true) 64 ⟨some 0⟩ (twoRequests
      ⟨false, .atMostOnce, false, none, ⟨[0x77], by decide⟩, .ofSlice [1, 2], .slice []⟩
      ⟨none, .slice [],
        [⟨⟨[0x77], by decide⟩, .atLeastOnce, false, false, .sendAtSubscribeTime⟩]⟩)).map
      (fun sender => (sender.pipeline.transcript.stream 0,
        ((sender.pipeline.transcript.on 0).filter fun sent =>
          sent.written = sent.symbols).map Sent.symbols,
        sender.requests.filterMap Request.caller, sender.requests.length, sender.packets)) =
      some ([0x30, 6, 0, 1, 0x77, 0, 1, 2, 0x82, 7, 0, 3, 0, 0],
        [[0x30, 6, 0, 1, 0x77, 0, 1, 2]], [0, 1], 2,
        [[0x30, 6, 0, 1, 0x77, 0, 1, 2], [0x82, 7, 0, 3, 0, 0, 1, 0x77, 1]]) := by decide +kernel
  rcases Option.map_eq_some_iff.mp facts with ⟨sender, reached, facts⟩
  simp only [Prod.mk.injEq] at facts
  rcases facts with ⟨stream, whole, callers, length, packets⟩
  rcases packets_of_senderRun (by decide) reached with ⟨split, encode, _, _⟩
  rw [packets, List.take_of_length_le (by simp [length])] at encode
  exact ⟨sender, reached, stream, (split 0).trans whole, callers, encode⟩

end Mqttrust.System
