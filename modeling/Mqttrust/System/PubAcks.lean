import Mqttrust.System.Answers

/-!
# Which publishes are acknowledged

In every run the stack acknowledges exactly the publishes of QoS 1 whose packets it
has committed to the RX channel, each once and in the order in which they were
received. So a PUBLISH is not acknowledged while its payload is read, and not at
all if there was no grant for it or its payload was cut off.
-/

namespace Mqttrust.System

open Pubsub (bytesAt handed)

section Stack

variable {config : CrateConfig} {world next : World config} {action : Action} {pid : Pid}

/-- Only a PUBLISH of QoS 1 that was copied is answered with PUBACK. -/
theorem Shared.pubAck_of_handle {shared after : Shared config} {payload : Payload}
    {packet : ReceivedPacket}
    (handled : shared.handle payload packet = .done after (some (.pubAck pid))) :
    payload = .copied ∧
      ∃ topicName publish, packet = .partialPublish (.atLeastOnce pid) topicName publish := by
  rcases Shared.cases_of_handle handled with
    ⟨_, topicName, publish, copied, isPublish, isPubAck⟩ | ⟨_, _, _, _, _, isPubRec⟩ |
      ⟨_, _, isPubRel, _⟩ | ⟨_, _, isPubComp⟩
  · rcases Reply.pubAck.inj isPubAck with rfl
    exact ⟨copied, topicName, publish, isPublish⟩
  · simp at isPubRec
  · simp at isPubRel
  · simp at isPubComp

theorem pubAck_of_step (stepped : step world action = some next) (idle : world.stack = .idle)
    (replying : next.stack = .replying (.pubAck pid)) :
    ∃ topicName publish,
      action = .receive (.partialPublish (.atLeastOnce pid) topicName publish) .copied := by
  rcases reply_of_step stepped idle replying with
    ⟨_, impossible⟩ | ⟨packet, payload, shared, rfl, handled⟩
  · simp at impossible
  · rcases Shared.pubAck_of_handle handled with ⟨rfl, topicName, publish, rfl⟩
    exact ⟨topicName, publish, rfl⟩

theorem stack_of_copied {topicName : Utf8} {publish : PartialPublish}
    (stepped : step world (.receive (.partialPublish (.atLeastOnce pid) topicName publish) .copied) =
      some next) : world.stack = .idle ∧ next.stack = .replying (.pubAck pid) := by
  cases (transition_of_step stepped).2 with
  | receive _ phase => exact ⟨phase, rfl⟩

end Stack

namespace Reception

/-- The identifier with which a PUBLISH is acknowledged by PUBACK: its packet was committed. -/
def pubAck? (reception : Reception) : Option Pid :=
  match reception.qosPid, reception.fate with
  | .atLeastOnce pid, .committed _ => some pid
  | _, _ => none

/-- What was handed to the RX channel; a grant that is dropped hands over an empty message. -/
def handed? (reception : Reception) : Option (List UInt8) :=
  match reception.fate with
  | .committed frame => some frame
  | .cut => some []
  | _ => none

/-- What was committed is the complete packet. -/
def Whole (reception : Reception) : Prop :=
  ∀ frame, reception.fate = .committed frame →
    frame.length = reception.publish.packetLen ∧ reception.publish.buf <+: frame

end Reception

/-- What has become of a PUBLISH does not change any more, once its payload is not read. -/
def KeepsFates (before after : List Reception) : Prop :=
  ∀ (index : ℕ) (reception : Reception), before.reverse[index]? = some reception →
    reception.fate ≠ .granted → after.reverse[index]? = some reception

namespace KeepsFates

variable {before middle after : List Reception}

theorem refl (before : List Reception) : KeepsFates before before := fun _ _ found _ => found

theorem trans (first : KeepsFates before middle) (second : KeepsFates middle after) :
    KeepsFates before after :=
  fun index reception found settled => second index reception (first index reception found settled)
    settled

theorem cons (reception : Reception) (before : List Reception) :
    KeepsFates before (reception :: before) := by
  intro index other found _
  rw [List.reverse_cons, List.getElem?_append_left (List.getElem?_eq_some_iff.mp found).1]
  exact found

theorem settle {newest : Reception} {earlier : List Reception} (granted : newest.fate = .granted)
    (fate : Fate) : KeepsFates (newest :: earlier) (settle fate (newest :: earlier)) := by
  intro index other found settled
  rw [List.reverse_cons] at found
  rw [System.settle, List.reverse_cons]
  rcases Nat.lt_or_ge index earlier.reverse.length with before | behind
  · rw [List.getElem?_append_left before] at found ⊢
    exact found
  · rw [List.getElem?_append_right behind, List.getElem?_singleton] at found
    split at found
    · rcases Option.some.inj found with rfl
      exact absurd granted settled
    · simp at found

end KeepsFates

/-- The RX channel and the publishes that were received. -/
structure Accounts (config : CrateConfig) (capacity : ℕ) (rx : Pubsub.World)
    (receptions : List Reception) : Prop where
  channel : rx.Invariant (rxConfig config) capacity
  whole : ∀ reception ∈ receptions, reception.Whole
  /-- What was handed to the channel comes from the publishes, in their order. -/
  handed : handed rx.history = receptions.filterMap Reception.handed?

namespace Accounts

variable {config : CrateConfig} {capacity : ℕ} {rx next : Pubsub.World}
  {receptions earlier : List Reception}

theorem subscriber (accounts : Accounts config capacity rx receptions) {action : Pubsub.Action}
    (isSubscriber : action.isSubscriber = true)
    (stepped : Pubsub.step (rxConfig config) rx action = some next) :
    Accounts config capacity next receptions where
  channel := accounts.channel.step stepped
  whole := accounts.whole
  handed := (Pubsub.World.handed_of_isSubscriber isSubscriber stepped).1.trans accounts.handed

theorem received (accounts : Accounts config capacity rx receptions) {maxSz : ℕ}
    (stepped : Pubsub.step (rxConfig config) rx (.grantImmediate maxSz) = some next)
    (reception : Reception) (fate : reception.fate = .granted ∨ reception.fate = .refused) :
    Accounts config capacity next (reception :: receptions) where
  channel := accounts.channel.step stepped
  whole := by
    intro other listed
    rcases List.mem_cons.mp listed with rfl | older
    · intro frame committed
      rcases fate with granted | refused
      · simp [granted] at committed
      · simp [refused] at committed
    · exact accounts.whole other older
  handed := by
    have nothing : reception.handed? = none := by
      rcases fate with granted | refused
      · simp [Reception.handed?, granted]
      · simp [Reception.handed?, refused]
    rw [(Pubsub.World.handed_grantImmediate stepped).1, List.filterMap_cons, nothing]
    exact accounts.handed

variable {newest : Reception} {writer : ℕ} {grant : Pubsub.FrameGrantW}

theorem handed_of_granted (accounts : Accounts config capacity rx (newest :: earlier))
    (granted : newest.fate = .granted) :
    Pubsub.handed rx.history = earlier.filterMap Reception.handed? := by
  have nothing : newest.handed? = none := by simp [Reception.handed?, granted]
  rw [accounts.handed, List.filterMap_cons, nothing]

theorem committed (accounts : Accounts config capacity rx (newest :: earlier))
    (granted : newest.fate = .granted) (live : rx.writers.get? writer = some grant)
    {frame : List UInt8} (length : frame.length = grant.len)
    (whole : Reception.Whole { newest with fate := .committed frame })
    (ran : Execution.run (Pubsub.step (rxConfig config)) rx
      (Pubsub.stores writer 0 frame ++ [.commit writer grant.len]) = some next) :
    Accounts config capacity next (settle (.committed frame) (newest :: earlier)) := by
  rcases Pubsub.World.handed_of_stored accounts.channel live length ran with ⟨invariant, handed⟩
  refine ⟨invariant, ?_, ?_⟩
  · intro other listed
    rcases List.mem_cons.mp listed with rfl | older
    · exact whole
    · exact accounts.whole other (List.mem_cons_of_mem _ older)
  · rw [handed, accounts.handed_of_granted granted]
    rfl

theorem cut (accounts : Accounts config capacity rx (newest :: earlier))
    (granted : newest.fate = .granted) (live : rx.writers.get? writer = some grant)
    (nothing : grant.toCommit = 0)
    (stepped : Pubsub.step (rxConfig config) rx (.dropWriter writer) = some next) :
    Accounts config capacity next (settle .cut (newest :: earlier)) := by
  refine ⟨accounts.channel.step stepped, ?_, ?_⟩
  · intro other listed
    rcases List.mem_cons.mp listed with rfl | older
    · intro frame impossible
      simp at impossible
    · exact accounts.whole other (List.mem_cons_of_mem _ older)
  · rcases Option.bind_eq_some_iff.mp stepped with ⟨grant', live', stepped⟩
    rcases Option.some.inj (live.symm.trans live') with rfl
    rcases Option.some.inj stepped with rfl
    rw [Pubsub.World.handed_commit accounts.channel live, nothing, Nat.min_zero,
      accounts.handed_of_granted granted]
    rfl

end Accounts

variable {T : Type} {config : CrateConfig}

namespace Inbound

variable {inbound next : Inbound T config} {link : Link T config}

/-- What encoding a packet changes: the PUBACKs with these identifiers were begun. -/
structure Writes (inbound next : Inbound T config) (pids : List Pid) : Prop where
  rx : next.rx = inbound.rx
  publishing : next.publishing = inbound.publishing
  receptions : next.receptions = inbound.receptions
  writeBuf : next.writeBuf.length = inbound.writeBuf.length
  written : next.written.filter isPubAck =
    pids.map pubAckBytes ++ inbound.written.filter isPubAck

theorem writes_encode {Packet : Type} [MqttEncode Packet] {packet : Packet}
    {encoded failed : Link T config}
    (fits : ∃ encoder, MqttEncode.toBuffer config packet (MqttEncoder.new inbound.writeBuf) =
      .ok () encoder)
    (notPubAck : ∀ encoder, MqttEncode.toBuffer config packet
      (MqttEncoder.new inbound.writeBuf) = .ok () encoder →
        isPubAck encoder.intoPacketBytes = false)
    (stepped : inbound.encode packet encoded failed = some next) : inbound.Writes next [] := by
  rcases exists_of_encode fits stepped with ⟨encoder, written, length, rfl⟩
  refine ⟨rfl, rfl, rfl, length, ?_⟩
  rw [List.filter_cons_of_neg (by simp [notPubAck encoder written])]
  rfl

/-- No PUBACK is begun unless the link begins one. -/
theorem writes_goOn (length : inbound.writeBuf.length = 32)
    (notPubAck : inbound.link.world.stack = .idle → ∀ pid,
      link.world.stack ≠ .replying (.pubAck pid))
    (stepped : inbound.goOn link = some next) : inbound.Writes next [] := by
  unfold goOn at stepped
  split at stepped
  · rename_i reply idle replying
    refine writes_encode (reply.exists_toBuffer config length) ?_ stepped
    intro encoder written
    apply Reply.isPubAck_of_ne _ written
    rintro pid rfl
    exact notPubAck idle pid replying
  · rcases Option.some.inj stepped with rfl
    exact ⟨rfl, rfl, rfl, rfl, rfl⟩

theorem writes_pubAck {pid : Pid} (length : inbound.writeBuf.length = 32)
    (idle : inbound.link.world.stack = .idle)
    (replying : link.world.stack = .replying (.pubAck pid))
    (stepped : inbound.goOn link = some next) : inbound.Writes next [pid] := by
  unfold goOn at stepped
  rw [idle, replying] at stepped
  rcases exists_of_encode ((Reply.pubAck pid).exists_toBuffer config length) stepped with
    ⟨encoder, written, kept, rfl⟩
  have bytes := Reply.pubAck_bytes length written
  refine ⟨rfl, rfl, rfl, kept, ?_⟩
  rw [List.filter_cons_of_pos, bytes]
  · rfl
  · rw [isPubAck_of_toBuffer written, Reply.first_eq, Reply.firstByte]
    decide

end Inbound

variable [Transport T]

/-- A link begins to write a PUBACK only when it has received a PUBLISH of QoS 1. -/
theorem Link.pubAck_of_linkStep {link next : Link T config} {action : LinkAction T} {pid : Pid}
    (stepped : linkStep link action = some next) (idle : link.world.stack = .idle)
    (replying : next.world.stack = .replying (.pubAck pid)) :
    ∃ socket payload reader rest topicName publish, action = .receive socket payload ∧
      link.reader.recv socket =
        .returned (.ok (.partialPublish (.atLeastOnce pid) topicName publish)) reader rest := by
  rcases Link.reply_of_linkStep stepped idle replying with
    ⟨_, impossible⟩ | ⟨socket, payload, packet, reader, rest, shared, rfl, returned, handled⟩
  · simp at impossible
  · rcases Shared.pubAck_of_handle handled with ⟨rfl, topicName, publish, rfl⟩
    exact ⟨socket, .copied, reader, rest, topicName, publish, rfl, returned⟩

/-- The PUBACK that follows a PUBLISH. -/
def acks : QosPid → Payload → List Pid
  | .atLeastOnce pid, .copied => [pid]
  | _, _ => []

theorem pubAcks_granted (qosPid : QosPid) (publish : PartialPublish) (earlier : List Reception) :
    (⟨qosPid, publish, .granted⟩ :: earlier).filterMap Reception.pubAck? =
      earlier.filterMap Reception.pubAck? := by
  cases qosPid <;> rfl

theorem pubAcks_committed (qosPid : QosPid) (publish : PartialPublish) (frame : List UInt8)
    (earlier : List Reception) :
    (⟨qosPid, publish, .committed frame⟩ :: earlier).filterMap Reception.pubAck? =
      acks qosPid .copied ++ earlier.filterMap Reception.pubAck? := by
  cases qosPid <;> rfl

theorem pubAcks_cut (qosPid : QosPid) (publish : PartialPublish) (earlier : List Reception) :
    (⟨qosPid, publish, .cut⟩ :: earlier).filterMap Reception.pubAck? =
      earlier.filterMap Reception.pubAck? := by
  cases qosPid <;> rfl

namespace Inbound

variable {inbound middle next : Inbound T config} {capacity : ℕ} {publishing : InboundPublish}
  {writer : ℕ}

/-- What is known while `select` handles a PUBLISH. -/
inductive Handling (inbound : Inbound T config) (publishing : InboundPublish) : Prop where
  | copying {writer : ℕ} {grant : Pubsub.FrameGrantW} {earlier : List Reception}
      (stage : publishing.stage = .copying writer)
      (live : inbound.rx.writers.get? writer = some grant)
      (length : grant.len = publishing.publish.packetLen) (nothing : grant.toCommit = 0)
      (newest : inbound.receptions =
        ⟨publishing.qosPid, publishing.publish, .granted⟩ :: earlier) : Handling inbound publishing
  | discarding (stage : publishing.stage = .discarding) : Handling inbound publishing
  | committed {pid : Pid} (stage : publishing.stage = .committed)
      (qos : publishing.qosPid = .exactlyOnce pid) : Handling inbound publishing

/-- What was written agrees with what was received. -/
structure Balanced (capacity : ℕ) (inbound : Inbound T config) : Prop where
  accounts : Accounts config capacity inbound.rx inbound.receptions
  writeBuf : inbound.writeBuf.length = 32
  /-- The PUBACKs that were begun are those of the publishes of QoS 1 that were committed. -/
  pubAcks : inbound.written.filter isPubAck =
    (inbound.receptions.filterMap Reception.pubAck?).map pubAckBytes

/-- The invariant of a run. -/
structure Disciplined (capacity : ℕ) (inbound : Inbound T config) : Prop
    extends Balanced capacity inbound where
  handling : ∀ publishing, inbound.publishing = some publishing → inbound.Handling publishing

namespace Disciplined

theorem new (config : CrateConfig) (capacity : ℕ) (transport : T) :
    (Inbound.new config capacity transport).Disciplined capacity where
  accounts :=
    { channel := (Pubsub.World.Invariant.new _ capacity).of_eq rfl rfl rfl rfl rfl rfl rfl
      whole := by simp [Inbound.new]
      handed := rfl }
  writeBuf := rfl
  handling := by simp [Inbound.new]
  pubAcks := rfl

omit [Transport T] in
theorem of_writes {pids : List Pid} (writes : middle.Writes next pids)
    (accounts : Accounts config capacity middle.rx middle.receptions)
    (writeBuf : middle.writeBuf.length = 32) (idle : middle.publishing = none)
    (pubAcks : pids.map pubAckBytes ++ middle.written.filter isPubAck =
      (middle.receptions.filterMap Reception.pubAck?).map pubAckBytes) :
    next.Disciplined capacity where
  accounts := by
    rw [writes.rx, writes.receptions]
    exact accounts
  writeBuf := writes.writeBuf.trans writeBuf
  handling := by
    intro publishing active
    rw [writes.publishing, idle] at active
    simp at active
  pubAcks := by rw [writes.written, pubAcks, writes.receptions]

omit [Transport T] in
theorem quiet (disciplined : inbound.Disciplined capacity) (idle : inbound.publishing = none)
    (writes : inbound.Writes next []) : next.Disciplined capacity :=
  of_writes writes disciplined.accounts disciplined.writeBuf idle disciplined.pubAcks

end Disciplined

theorem writes_proceed {payload : Payload} (length : inbound.writeBuf.length = 32)
    (stepped : inbound.proceed publishing payload = some next) :
    Writes { inbound with publishing := none } next (acks publishing.qosPid payload) := by
  simp only [proceed, Option.bind_eq_bind, Option.bind_eq_some_iff] at stepped
  rcases stepped with ⟨connection, _, world, received, stepped⟩
  have quiet : (∀ pid, publishing.qosPid = .atLeastOnce pid → payload ≠ .copied) →
      Writes { inbound with publishing := none } next [] := by
    intro notAnswered
    refine writes_goOn length ?_ stepped
    intro idle pid replying
    rcases pubAck_of_step received idle replying with ⟨topicName, publish, isReceive⟩
    rcases Action.receive.inj isReceive with ⟨packet, copied⟩
    exact notAnswered pid (ReceivedPacket.partialPublish.inj packet).1 copied
  rcases publishing with ⟨qosPid, topicName, publish, socket, stage⟩
  cases qosPid with
  | atLeastOnce pid =>
      cases payload with
      | copied =>
          rcases stack_of_copied received with ⟨idle, replying⟩
          exact writes_pubAck length idle replying stepped
      | discarded | failed => exact quiet (by simp)
  | atMostOnce | exactlyOnce => exact quiet (by simp)

/-- What an operation comes to: the invariant holds, and no fate changes any more. -/
structure Advances (capacity : ℕ) (inbound next : Inbound T config) : Prop where
  disciplined : next.Disciplined capacity
  keeps : KeepsFates inbound.receptions next.receptions

namespace Disciplined

omit [Transport T] in
theorem grantImmediate (disciplined : inbound.Disciplined capacity) {qosPid : QosPid}
    {topicName : Utf8} {publish : PartialPublish} {reader : PacketReader config} {socket : Socket}
    (stepped : inbound.grantImmediate qosPid topicName publish reader socket = some next) :
    inbound.Advances capacity next := by
  simp only [Inbound.grantImmediate, Option.bind_eq_bind, Option.bind_eq_some_iff] at stepped
  rcases stepped with ⟨rx, granted, stepped⟩
  split at stepped
  · rename_i grant live
    rcases Option.some.inj stepped with rfl
    rcases (Pubsub.World.handed_grantImmediate granted).2 grant live with ⟨length, nothing⟩
    have accounts := disciplined.accounts.received granted ⟨qosPid, publish, .granted⟩ (Or.inl rfl)
    refine ⟨⟨⟨accounts, disciplined.writeBuf, ?_⟩, ?_⟩, .cons _ _⟩
    · rw [pubAcks_granted]
      exact disciplined.pubAcks
    · intro publishing active
      rcases Option.some.inj active with rfl
      exact .copying rfl live length nothing rfl
  · rcases Option.some.inj stepped with rfl
    have accounts := disciplined.accounts.received granted ⟨qosPid, publish, .refused⟩ (Or.inr rfl)
    refine ⟨⟨⟨accounts, disciplined.writeBuf, ?_⟩, ?_⟩, .cons _ _⟩
    · rw [disciplined.pubAcks]
      cases qosPid <;> rfl
    · intro publishing active
      rcases Option.some.inj active with rfl
      exact .discarding rfl

omit [Transport T] in
/-- While a packet is copied, its grant is live and its reception the newest. -/
theorem exists_grant (disciplined : inbound.Disciplined capacity)
    (active : inbound.publishing = some publishing) (stage : publishing.stage = .copying writer) :
    ∃ grant earlier, inbound.rx.writers.get? writer = some grant ∧
      grant.len = publishing.publish.packetLen ∧ grant.toCommit = 0 ∧
      inbound.receptions = ⟨publishing.qosPid, publishing.publish, .granted⟩ :: earlier := by
  cases disciplined.handling publishing active with
  | copying stage' live length nothing newest =>
      rcases PublishStage.copying.inj (stage.symm.trans stage') with rfl
      exact ⟨_, _, live, length, nothing, newest⟩
  | discarding stage' => simp [stage] at stage'
  | committed stage' => simp [stage] at stage'

theorem commit (disciplined : inbound.Disciplined capacity)
    (active : inbound.publishing = some publishing) (stage : publishing.stage = .copying writer)
    {grant : Pubsub.FrameGrantW} {frame : List UInt8} {rest : Socket}
    (live : inbound.rx.writers.get? writer = some grant)
    (copied : publishing.publish.copyInto (bytesAt inbound.rx.buf grant.region)
      publishing.socket = .done frame rest)
    (stepped : inbound.commit publishing writer frame = some next) :
    inbound.Advances capacity next := by
  rcases disciplined.exists_grant active stage with ⟨grant', earlier, live', length, _, newest⟩
  rcases Option.some.inj (live.symm.trans live') with rfl
  simp only [Inbound.commit, Option.bind_eq_bind, Option.bind_eq_some_iff] at stepped
  rcases stepped with ⟨rx, ran, stepped⟩
  have room : (bytesAt inbound.rx.buf grant.region).length = publishing.publish.packetLen := by
    rw [Pubsub.length_bytesAt]
    exact length
  have complete := PartialPublish.length_of_copied _ room copied
  have whole : Reception.Whole ⟨publishing.qosPid, publishing.publish, .committed frame⟩ := by
    intro other same
    rcases Fate.committed.inj same with rfl
    exact complete
  have accounts := disciplined.accounts
  have pubAcks := disciplined.pubAcks
  rw [newest] at accounts pubAcks
  rw [pubAcks_granted] at pubAcks
  rw [← length] at ran complete
  have accounts' := accounts.committed rfl live complete.1 whole ran
  rw [← newest] at accounts'
  have keeps : KeepsFates inbound.receptions (settle (.committed frame) inbound.receptions) := by
    rw [newest]
    exact .settle rfl _
  have acked : (acks publishing.qosPid .copied).map pubAckBytes ++
      inbound.written.filter isPubAck =
        ((settle (.committed frame) inbound.receptions).filterMap
          Reception.pubAck?).map pubAckBytes := by
    rw [newest, settle, pubAcks_committed, List.map_append, pubAcks]
  split at stepped
  · rename_i pid qos
    rcases Option.some.inj stepped with rfl
    rw [qos] at acked
    refine ⟨⟨⟨accounts', disciplined.writeBuf, acked⟩, ?_⟩, keeps⟩
    intro publishing' active'
    rcases Option.some.inj active' with rfl
    exact .committed rfl qos
  · have writes := writes_proceed (by exact disciplined.writeBuf) stepped
    refine ⟨of_writes writes accounts' disciplined.writeBuf rfl acked, ?_⟩
    rw [writes.receptions]
    exact keeps

omit [Transport T] in
theorem cut (disciplined : inbound.Disciplined capacity)
    (active : inbound.publishing = some publishing) (stage : publishing.stage = .copying writer)
    (stepped : inbound.cut writer = some next) :
    next.Balanced capacity ∧ KeepsFates inbound.receptions next.receptions := by
  rcases disciplined.exists_grant active stage with ⟨grant, earlier, live, _, nothing, newest⟩
  simp only [Inbound.cut, Option.bind_eq_bind, Option.bind_eq_some_iff,
    Option.some.injEq] at stepped
  rcases stepped with ⟨rx, dropped, rfl⟩
  have accounts := disciplined.accounts
  have pubAcks := disciplined.pubAcks
  rw [newest] at accounts pubAcks
  rw [pubAcks_granted] at pubAcks
  refine ⟨⟨?_, disciplined.writeBuf, ?_⟩, ?_⟩
  · rw [newest]
    exact accounts.cut rfl live nothing dropped
  · rw [newest, settle, pubAcks_cut]
    exact pubAcks
  · rw [newest]
    exact .settle rfl _

/-- `select` goes on without having committed anything. -/
theorem proceed {payload : Payload} (balanced : inbound.Balanced capacity)
    (notAnswered : acks publishing.qosPid payload = [])
    (stepped : inbound.proceed publishing payload = some next) :
    inbound.Advances capacity next := by
  have writes := writes_proceed balanced.writeBuf stepped
  rw [notAnswered] at writes
  refine ⟨of_writes writes balanced.accounts balanced.writeBuf rfl balanced.pubAcks, ?_⟩
  rw [writes.receptions]
  exact .refl _

theorem copyAll (disciplined : inbound.Disciplined capacity)
    (stepped : inbound.copyAll = some next) : inbound.Advances capacity next := by
  simp only [Inbound.copyAll, Option.bind_eq_bind, Option.bind_eq_some_iff] at stepped
  rcases stepped with ⟨publishing, active, stepped⟩
  split at stepped
  · rename_i writer stage
    rcases Option.bind_eq_some_iff.mp stepped with ⟨grant, live, stepped⟩
    split at stepped
    · rename_i frame rest copied
      exact disciplined.commit active stage live copied stepped
    · rename_i kind failed
      rcases Option.bind_eq_some_iff.mp stepped with ⟨after, dropped, stepped⟩
      rcases disciplined.cut active stage dropped with ⟨balanced, keeps⟩
      have notAnswered : acks publishing.qosPid (.failed (.io kind)) = [] := by
        cases publishing.qosPid <;> rfl
      rcases proceed balanced notAnswered stepped with ⟨disciplined', keeps'⟩
      exact ⟨disciplined', keeps.trans keeps'⟩
    · simp at stepped
    · simp at stepped
  · simp at stepped

theorem discard (disciplined : inbound.Disciplined capacity)
    (stepped : inbound.discard = some next) : inbound.Advances capacity next := by
  simp only [Inbound.discard, Option.bind_eq_bind, Option.bind_eq_some_iff] at stepped
  rcases stepped with ⟨publishing, active, stepped⟩
  split at stepped
  · split at stepped
    · refine proceed disciplined.toBalanced ?_ stepped
      cases publishing.qosPid <;> rfl
    · refine proceed disciplined.toBalanced ?_ stepped
      cases publishing.qosPid <;> rfl
    · simp at stepped
  · simp at stepped

theorem insert (disciplined : inbound.Disciplined capacity)
    (stepped : inbound.insert = some next) : inbound.Advances capacity next := by
  simp only [Inbound.insert, Option.bind_eq_bind, Option.bind_eq_some_iff] at stepped
  rcases stepped with ⟨publishing, active, stepped⟩
  split at stepped
  · rename_i stage
    cases disciplined.handling publishing active with
    | committed _ qos =>
        refine proceed disciplined.toBalanced ?_ stepped
        rw [qos]
        rfl
    | copying stage' => simp [stage] at stage'
    | discarding stage' => simp [stage] at stage'
  · simp at stepped

omit [Transport T] in
theorem dropRun (disciplined : inbound.Disciplined capacity)
    (active : inbound.publishing = some publishing) {link : Link T config}
    (stepped : inbound.dropRun publishing link = some next) : inbound.Advances capacity next := by
  unfold Inbound.dropRun at stepped
  split at stepped
  · rename_i writer stage
    rcases Option.map_eq_some_iff.mp stepped with ⟨after, dropped, rfl⟩
    rcases disciplined.cut active stage dropped with ⟨balanced, keeps⟩
    exact ⟨⟨⟨balanced.accounts, balanced.writeBuf, balanced.pubAcks⟩, by simp⟩, keeps⟩
  · rcases Option.some.inj stepped with rfl
    exact ⟨⟨⟨disciplined.accounts, disciplined.writeBuf, disciplined.pubAcks⟩, by simp⟩, .refl _⟩

omit [Transport T] in
theorem advances_of_writes (disciplined : inbound.Disciplined capacity)
    (idle : inbound.publishing = none) (writes : inbound.Writes next []) :
    inbound.Advances capacity next := by
  refine ⟨disciplined.quiet idle writes, ?_⟩
  rw [writes.receptions]
  exact .refl _

theorem follow (disciplined : inbound.Disciplined capacity) {action : LinkAction T}
    {link : Link T config} (linked : linkStep inbound.link action = some link)
    (stepped : inbound.follow action link = some next) : inbound.Advances capacity next := by
  unfold Inbound.follow at stepped
  split at stepped
  · rename_i publishing active action
    rcases Option.some.inj stepped with rfl
    refine ⟨⟨⟨disciplined.accounts, disciplined.writeBuf, disciplined.pubAcks⟩, ?_⟩, .refl _⟩
    intro publishing' active'
    cases disciplined.handling publishing' active' with
    | copying stage live length nothing newest => exact .copying stage live length nothing newest
    | discarding stage => exact .discarding stage
    | committed stage qos => exact .committed stage qos
  · rename_i publishing active
    exact disciplined.dropRun active stepped
  · simp at stepped
  · simp at stepped
  · rename_i idle
    apply disciplined.advances_of_writes idle
    exact writes_encode (exists_toBuffer_disconnectPacket config disciplined.writeBuf)
      (fun _ => isPubAck_disconnectPacket) stepped
  · rename_i idle notReceive _
    apply disciplined.advances_of_writes idle
    refine writes_goOn disciplined.writeBuf ?_ stepped
    intro phase pid replying
    rcases Link.pubAck_of_linkStep linked phase replying with ⟨socket, payload, _, _, _, _, rfl, _⟩
    exact notReceive socket payload rfl

theorem recv (disciplined : inbound.Disciplined capacity) {socket : Socket}
    (stepped : inbound.recv socket = some next) : inbound.Advances capacity next := by
  simp only [Inbound.recv, Option.bind_eq_bind, Option.bind_eq_some_iff,
    Option.ite_none_left_eq_some, not_or, Bool.not_eq_true, Option.isSome_eq_false_iff,
    Option.isNone_iff_eq_none] at stepped
  rcases stepped with ⟨connection, _, ⟨idle, _⟩, stepped⟩
  split at stepped
  · exact disciplined.grantImmediate stepped
  · rename_i notPublish
    rcases Option.bind_eq_some_iff.mp stepped with ⟨link, linked, stepped⟩
    apply disciplined.advances_of_writes idle
    refine writes_goOn disciplined.writeBuf ?_ stepped
    intro phase pid replying
    rcases Link.pubAck_of_linkStep linked phase replying with
      ⟨socket', payload, reader, rest, topicName, publish, isReceive, returned⟩
    rcases LinkAction.receive.inj isReceive with ⟨rfl, _⟩
    exact notPublish _ _ _ _ _ returned

theorem step (disciplined : inbound.Disciplined capacity) {action : InboundAction T}
    (stepped : inboundStep inbound action = some next) : inbound.Advances capacity next := by
  unfold inboundStep at stepped
  split at stepped
  · simp at stepped
  · cases action with
    | recv socket => exact disciplined.recv stepped
    | copyAll => exact disciplined.copyAll stepped
    | discard => exact disciplined.discard stepped
    | insert => exact disciplined.insert stepped
    | subscriber action =>
        simp only [Option.ite_none_right_eq_some, Option.map_eq_some_iff] at stepped
        rcases stepped with ⟨isSubscriber, rx, used, rfl⟩
        have accounts := disciplined.accounts.subscriber isSubscriber used
        refine ⟨⟨⟨accounts, disciplined.writeBuf, disciplined.pubAcks⟩, ?_⟩, .refl _⟩
        intro publishing active
        have writers := (Pubsub.World.handed_of_isSubscriber isSubscriber used).2
        cases disciplined.handling publishing active with
        | copying stage live length nothing newest =>
            exact .copying stage (writers ▸ live) length nothing newest
        | discarding stage => exact .discarding stage
        | committed stage qos => exact .committed stage qos
    | link action =>
        rcases Option.bind_eq_some_iff.mp stepped with ⟨link, linked, stepped⟩
        exact disciplined.follow linked stepped

end Disciplined

/-- The PUBACKs that were begun to be written, in order. -/
def pubAcks (inbound : Inbound T config) : List (List UInt8) :=
  inbound.written.reverse.filter isPubAck

end Inbound

/-- The PUBACK of a PUBLISH of QoS 1 whose complete packet was committed. -/
def Acknowledges (bytes : List UInt8) (reception : Reception) : Prop :=
  ∃ pid frame, reception.qosPid = .atLeastOnce pid ∧ bytes = pubAckBytes pid ∧
    reception.fate = .committed frame ∧ frame.length = reception.publish.packetLen ∧
    reception.publish.buf <+: frame

theorem Reception.acknowledges_of_pubAck {reception : Reception} {pid : Pid}
    (whole : reception.Whole) (answered : reception.pubAck? = some pid) :
    Acknowledges (pubAckBytes pid) reception := by
  rcases reception with ⟨qosPid, publish, fate⟩
  cases qosPid with
  | atLeastOnce own =>
      cases fate with
      | committed frame =>
          rcases Option.some.inj answered with rfl
          rcases whole frame rfl with ⟨length, front⟩
          exact ⟨own, frame, rfl, rfl, rfl, length, front⟩
      | granted | refused | cut => simp [pubAck?] at answered
  | atMostOnce | exactlyOnce => simp [pubAck?] at answered

theorem forall₂_acknowledges {receptions : List Reception}
    (whole : ∀ reception ∈ receptions, reception.Whole) :
    List.Forall₂ Acknowledges ((receptions.filterMap Reception.pubAck?).map pubAckBytes)
      (receptions.filter fun reception => reception.pubAck?.isSome) := by
  induction receptions with
  | nil => exact .nil
  | cons reception rest ih =>
      have others := ih fun other listed => whole other (List.mem_cons_of_mem _ listed)
      cases answered : reception.pubAck? with
      | none =>
          rw [List.filterMap_cons_none answered, List.filter_cons_of_neg (by simp [answered])]
          exact others
      | some pid =>
          rw [List.filterMap_cons_some answered, List.filter_cons_of_pos (by simp [answered])]
          have acknowledges :=
            reception.acknowledges_of_pubAck (whole reception List.mem_cons_self) answered
          exact .cons acknowledges others

theorem Inbound.advances_of_run {capacity : ℕ} {inbound next : Inbound T config}
    {actions : List (InboundAction T)} (disciplined : inbound.Disciplined capacity)
    (reached : Execution.run inboundStep inbound actions = some next) :
    inbound.Advances capacity next := by
  refine Execution.invariant_of_run (fun next => inbound.Advances capacity next) ?_
    ⟨disciplined, .refl _⟩ reached
  intro middle after action advances stepped
  rcases advances.disciplined.step stepped with ⟨disciplined', keeps⟩
  exact ⟨disciplined', advances.keeps.trans keeps⟩

/-- In every run, the PUBACKs that the stack has begun to write are, in order and one each, those of
some of the received publishes of QoS 1, each with its complete packet committed; the RX channel was
given exactly these packets and empty messages for those that were cut off; and a PUBLISH that was
refused or cut off, and so not acknowledged, remains so in every continuation. -/
theorem pubAcks_disciplined {capacity : ℕ} {transport : T} {actions : List (InboundAction T)}
    {inbound : Inbound T config}
    (reached : inboundRun config capacity transport actions = some inbound) :
    (∃ answered, answered.Sublist inbound.receptions.reverse ∧
      List.Forall₂ Acknowledges inbound.pubAcks answered) ∧
    handed inbound.rx.history = inbound.receptions.filterMap Reception.handed? ∧
    ∀ later next, Execution.run inboundStep inbound later = some next →
      KeepsFates inbound.receptions next.receptions := by
  have disciplined := (Inbound.advances_of_run (.new config capacity transport) reached).disciplined
  let answered := inbound.receptions.reverse.filter fun reception => reception.pubAck?.isSome
  refine ⟨⟨answered, List.filter_sublist, ?_⟩, disciplined.accounts.handed, ?_⟩
  · have pubAcks : inbound.pubAcks =
        (inbound.receptions.reverse.filterMap Reception.pubAck?).map pubAckBytes := by
      rw [Inbound.pubAcks, List.filter_reverse, disciplined.pubAcks, List.filterMap_reverse,
        List.map_reverse]
    rw [pubAcks]
    apply forall₂_acknowledges
    intro reception listed
    exact disciplined.accounts.whole reception (List.mem_reverse.mp listed)
  · intro later next continued
    exact (Inbound.advances_of_run disciplined continued).keeps

/-- A PUBLISH is committed and acknowledged, and another one is cut off. -/
def oneOfTwoPublishes : List (InboundAction NalTransport) :=
  [.recv (.full [0x32, 0x08, 0x00, 0x01, 0x61, 0x00, 0x07, 0x00, 0xD0, 0xD1] .waiting), .copyAll,
    .link (.write .replied),
    .recv (.full [0x32, 0x0B, 0x00, 0x01, 0x61, 0x00, 0x08, 0x00, 0xD0] .closed), .copyAll]

theorem pubAcks_disciplined_example :
    ∃ inbound : Inbound NalTransport (.default .mqttv5 true),
      inboundRun _ 64 ⟨some 0⟩ oneOfTwoPublishes = some inbound ∧
        ∃ answered, answered.Sublist inbound.receptions.reverse ∧
          List.Forall₂ Acknowledges [[0x40, 0x02, 0x00, 0x07]] answered := by
  have pubAcks : (inboundRun (.default .mqttv5 true) 64 (⟨some 0⟩ : NalTransport)
      oneOfTwoPublishes).map Inbound.pubAcks = some [[0x40, 0x02, 0x00, 0x07]] := by
    decide +kernel
  rcases Option.map_eq_some_iff.mp pubAcks with ⟨inbound, reached, pubAcks⟩
  refine ⟨inbound, reached, ?_⟩
  rw [← pubAcks]
  exact (pubAcks_disciplined reached).1

end Mqttrust.System
