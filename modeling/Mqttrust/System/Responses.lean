import Mqttrust.Encoding.ResponseGrammar
import Mqttrust.System.Answers

/-!
# The responses of the stack

Every packet that the stack encodes into `write_buf`, other than DISCONNECT, is a
response: to the packet that it handles, or to the keep-alive timer. It is always
encoded, and it is in the grammar of the responses with the packet identifier of what
it answers, unless it is a PUBREL. The fixed header of a PUBREL has the flags
`0b0010`, as that of a SUBSCRIBE and of an UNSUBSCRIBE, but the encoder overrides them
for the latter two only.
-/

namespace Mqttrust.System

open Grammar (ResponseFields)
open Parsing (parse)

/-- What the stack answers. -/
inductive Answered where
  | packet (packet : ReceivedPacket)
  | keepAlive

/-- The response that is required. -/
def required : Answered → Option ResponseFields
  | .packet (.partialPublish (.atLeastOnce pid) _ _) => some (.ack .pubAck pid 0x00 [])
  | .packet (.partialPublish (.exactlyOnce pid) _ _) => some (.ack .pubRec pid 0x00 [])
  | .packet (.pubRec packet) => some (.ack .pubRel packet.pid 0x00 [])
  | .packet (.pubRel packet) => some (.ack .pubComp packet.pid 0x00 [])
  | .packet _ => none
  | .keepAlive => some .pingReq

namespace Reply

/-- The fields of an answer. -/
def fields : Reply → ResponseFields
  | pubAck pid => .ack .pubAck pid 0x00 []
  | pubRec pid => .ack .pubRec pid 0x00 []
  | pubRel pid => .ack .pubRel pid 0x00 []
  | pubComp pid => .ack .pubComp pid 0x00 []
  | pingReq => .pingReq

variable {config : CrateConfig} {reply : Reply} {buf : List UInt8} {encoder : MqttEncoder}

theorem parse_eq (length : buf.length = 32)
    (encoded : MqttEncode.toBuffer config reply (MqttEncoder.new buf) = .ok () encoder) :
    parse (Grammar.response config.protocol) encoder.intoPacketBytes =
      parse (Grammar.responseBody config.protocol reply.firstByte)
        (Write.allBytes reply.writes) := by
  have short := reply.length_writes
  rw [Reply.bytes_eq length encoded, Grammar.parse_response (by omega)]

/-- Every answer but PUBREL is the response with its fields. -/
theorem parse_eq_some (length : buf.length = 32) (notPubRel : ∀ pid, reply ≠ .pubRel pid)
    (encoded : MqttEncode.toBuffer config reply (MqttEncoder.new buf) = .ok () encoder) :
    parse (Grammar.response config.protocol) encoder.intoPacketBytes = some reply.fields := by
  have body : ∀ pid : Pid, Write.allBytes [.checked pid.bytes] = pid.bytes := by
    intro pid
    exact List.append_nil _
  rw [parse_eq length encoded]
  cases reply with
  | pubAck pid => exact (congrArg _ (body pid)).trans (Grammar.parse_ack _ .pubAck pid)
  | pubRec pid => exact (congrArg _ (body pid)).trans (Grammar.parse_ack _ .pubRec pid)
  | pubRel pid => exact absurd rfl (notPubRel pid)
  | pubComp pid => exact (congrArg _ (body pid)).trans (Grammar.parse_ack _ .pubComp pid)
  | pingReq => rfl

/-- A PUBREL is refused: the flags of its fixed header are `0b0000`. -/
theorem parse_pubRel {pid : Pid} (length : buf.length = 32)
    (encoded : MqttEncode.toBuffer config (Reply.pubRel pid) (MqttEncoder.new buf) =
      .ok () encoder) :
    parse (Grammar.response config.protocol) encoder.intoPacketBytes = none := by
  rw [parse_eq length encoded]
  rfl

end Reply

namespace Shared

variable {config : CrateConfig} {shared after : Shared config} {payload : Payload}
  {packet : ReceivedPacket} {reply : Reply}

/-- The answer to a packet is the response to it; it is PUBREL when a publish is released. -/
theorem required_of_handle (handled : shared.handle payload packet = .done after (some reply)) :
    required (.packet packet) = some reply.fields ∧ ∀ pid, reply = .pubRel pid →
      ∃ ack, packet = .pubRec ack ∧ ack.pid.val ∈ shared.inflightPub.elements ∧
        (shared.outgoingRel.insert ack.pid.val).isSome = true := by
  rcases cases_of_handle handled with
    ⟨pid, topicName, publish, _, rfl, rfl⟩ | ⟨pid, topicName, publish, _, rfl, rfl⟩ |
      ⟨ack, rfl, rfl, inflight, inserted⟩ | ⟨ack, rfl, rfl⟩
  · exact ⟨rfl, by simp⟩
  · exact ⟨rfl, by simp⟩
  · exact ⟨rfl, fun _ _ => ⟨ack, rfl, inflight, inserted⟩⟩
  · exact ⟨rfl, by simp⟩

end Shared

/-- A response that was begun to be written: what it answers, and the packet. -/
abbrev Response := Option Answered × List UInt8

/-- The packet is the response that is required. -/
def Response.Conforms (version : Protocol) (response : Response) : Prop :=
  ∃ fields, response.1.bind required = some fields ∧
    parse (Grammar.response version) response.2 = some fields

variable {T : Type} {config : CrateConfig}

/-- What an action answers. -/
def answered? (inbound : Inbound T config) : InboundAction T → Option Answered
  | .recv socket =>
      match inbound.link.reader.recv socket with
      | .returned (.ok packet) _ _ => some (.packet packet)
      | _ => none
  | .copyAll | .discard | .insert =>
      inbound.publishing.map fun publishing => .packet publishing.packet
  | .link (.write .keepAlive) => some .keepAlive
  | _ => none

/-- The responses that a step begins to write: all packets but DISCONNECT. -/
def responses (inbound : Inbound T config) (action : InboundAction T) (next : Inbound T config) :
    List Response :=
  match action with
  | .link (.disconnect _) => []
  | _ =>
      (next.written.take (next.written.length - inbound.written.length)).map fun bytes =>
        (answered? inbound action, bytes)

/-- A PUBREC is received for a publish in flight, which is released. -/
def ReleasesPublish (inbound : Inbound T config) (action : InboundAction T) : Prop :=
  ∃ socket ack reader rest, action = .recv socket ∧
    inbound.link.reader.recv socket = .returned (.ok (.pubRec ack)) reader rest ∧
    ack.pid.val ∈ inbound.link.world.shared.inflightPub.elements ∧
    (inbound.link.world.shared.outgoingRel.insert ack.pid.val).isSome = true

/-- What a step means for the packets that are written. -/
inductive Begins (inbound : Inbound T config) (action : InboundAction T)
    (next : Inbound T config) : Prop where
  | nothing (writeBuf : next.writeBuf = inbound.writeBuf)
      (written : next.written = inbound.written) : Begins inbound action next
  | response {answered : Answered} {reply : Reply} {encoder : MqttEncoder}
      (answers : answered? inbound action = some answered)
      (fields : required answered = some reply.fields)
      (releases : ∀ pid, reply = .pubRel pid → ReleasesPublish inbound action)
      (encoded : MqttEncode.toBuffer config reply (MqttEncoder.new inbound.writeBuf) =
        .ok () encoder)
      (writeBuf : next.writeBuf.length = inbound.writeBuf.length)
      (written : next.written = encoder.intoPacketBytes :: inbound.written) :
      Begins inbound action next
  | disconnect {written : Bool} (isDisconnect : action = .link (.disconnect written))
      (writeBuf : next.writeBuf.length = inbound.writeBuf.length) : Begins inbound action next

namespace Inbound

variable {inbound next : Inbound T config} {link : Link T config} {publishing : InboundPublish}
  {payload : Payload} {action : InboundAction T}

/-- An answer of the link is encoded; otherwise nothing is. -/
theorem cases_goOn (length : inbound.writeBuf.length = 32)
    (stepped : inbound.goOn link = some next) :
    next.writeBuf = inbound.writeBuf ∧ next.written = inbound.written ∨
      ∃ reply encoder, inbound.link.world.stack = .idle ∧ link.world.stack = .replying reply ∧
        MqttEncode.toBuffer config reply (MqttEncoder.new inbound.writeBuf) = .ok () encoder ∧
        next.writeBuf.length = inbound.writeBuf.length ∧
        next.written = encoder.intoPacketBytes :: inbound.written := by
  unfold goOn at stepped
  split at stepped
  · rename_i reply idle replying
    rcases exists_of_encode (reply.exists_toBuffer config length) stepped with
      ⟨encoder, encoded, kept, rfl⟩
    exact .inr ⟨reply, encoder, idle, replying, encoded, kept, rfl⟩
  · rcases Option.some.inj stepped with rfl
    exact .inl ⟨rfl, rfl⟩

variable [Transport T]

/-- `select` goes on with a packet; meanwhile nothing was written. -/
theorem begins_proceed {start : Inbound T config} (length : start.writeBuf.length = 32)
    (answers : answered? start action = some (.packet publishing.packet))
    (stepped : inbound.proceed publishing payload = some next)
    (writeBuf : inbound.writeBuf = start.writeBuf) (written : inbound.written = start.written) :
    Begins start action next := by
  simp only [proceed, Option.bind_eq_bind, Option.bind_eq_some_iff] at stepped
  rcases stepped with ⟨connection, _, world, received, stepped⟩
  rw [← writeBuf] at length
  rcases cases_goOn (by exact length) stepped with
    ⟨kept, nothing⟩ | ⟨reply, encoder, idle, replying, encoded, kept, began⟩
  · exact .nothing (kept.trans writeBuf) (nothing.trans written)
  · rcases reply_of_step received idle replying with
      ⟨impossible, _⟩ | ⟨packet, payload', shared, isReceive, handled⟩
    · simp at impossible
    · rcases Action.receive.inj isReceive with ⟨rfl, rfl⟩
      rcases Shared.required_of_handle handled with ⟨fields, released⟩
      have encodedAtStart : MqttEncode.toBuffer config reply (MqttEncoder.new start.writeBuf) =
          .ok () encoder := writeBuf ▸ encoded
      refine .response answers fields ?_ encodedAtStart ?_ ?_
      · intro pid isPubRel
        rcases released pid isPubRel with ⟨ack, isPubRec, _⟩
        simp [InboundPublish.packet] at isPubRec
      · rw [kept, ← writeBuf]
      · rw [began, ← written]

theorem begins_copyAll (length : inbound.writeBuf.length = 32)
    (stepped : inbound.copyAll = some next) : Begins inbound .copyAll next := by
  simp only [copyAll, Option.bind_eq_bind, Option.bind_eq_some_iff] at stepped
  rcases stepped with ⟨publishing, active, stepped⟩
  have answers : answered? inbound .copyAll = some (.packet publishing.packet) := by
    simp only [answered?, active, Option.map_some]
  split at stepped
  · rename_i writer stage
    rcases Option.bind_eq_some_iff.mp stepped with ⟨grant, live, stepped⟩
    split at stepped
    · simp only [commit, Option.bind_eq_bind, Option.bind_eq_some_iff] at stepped
      rcases stepped with ⟨rx, ran, stepped⟩
      split at stepped
      · rcases Option.some.inj stepped with rfl
        exact .nothing rfl rfl
      · exact begins_proceed length answers stepped rfl rfl
    · simp only [cut, Option.bind_eq_bind, Option.bind_eq_some_iff, Option.some.injEq] at stepped
      rcases stepped with ⟨after, ⟨rx, dropped, rfl⟩, stepped⟩
      exact begins_proceed length answers stepped rfl rfl
    · simp at stepped
    · simp at stepped
  · simp at stepped

theorem begins_discard (length : inbound.writeBuf.length = 32)
    (stepped : inbound.discard = some next) : Begins inbound .discard next := by
  simp only [discard, Option.bind_eq_bind, Option.bind_eq_some_iff] at stepped
  rcases stepped with ⟨publishing, active, stepped⟩
  have answers : answered? inbound .discard = some (.packet publishing.packet) := by
    simp only [answered?, active, Option.map_some]
  split at stepped
  · split at stepped
    · exact begins_proceed length answers stepped rfl rfl
    · exact begins_proceed length answers stepped rfl rfl
    · simp at stepped
  · simp at stepped

theorem begins_insert (length : inbound.writeBuf.length = 32)
    (stepped : inbound.insert = some next) : Begins inbound .insert next := by
  simp only [insert, Option.bind_eq_bind, Option.bind_eq_some_iff] at stepped
  rcases stepped with ⟨publishing, active, stepped⟩
  have answers : answered? inbound .insert = some (.packet publishing.packet) := by
    simp only [answered?, active, Option.map_some]
  split at stepped
  · exact begins_proceed length answers stepped rfl rfl
  · simp at stepped

theorem begins_recv {socket : Socket} (length : inbound.writeBuf.length = 32)
    (stepped : inbound.recv socket = some next) : Begins inbound (.recv socket) next := by
  simp only [recv, Option.bind_eq_bind, Option.bind_eq_some_iff,
    Option.ite_none_left_eq_some] at stepped
  rcases stepped with ⟨connection, _, _, stepped⟩
  split at stepped
  · simp only [grantImmediate, Option.bind_eq_bind, Option.bind_eq_some_iff] at stepped
    rcases stepped with ⟨rx, granted, stepped⟩
    split at stepped
    all_goals
      rcases Option.some.inj stepped with rfl
      exact .nothing rfl rfl
  · rcases Option.bind_eq_some_iff.mp stepped with ⟨link, linked, stepped⟩
    rcases cases_goOn length stepped with
      ⟨kept, nothing⟩ | ⟨reply, encoder, idle, replying, encoded, kept, began⟩
    · exact .nothing kept nothing
    · rcases Link.reply_of_linkStep linked idle replying with
        ⟨impossible, _⟩ | ⟨socket', payload, packet, reader, rest, shared, isReceive, returned,
          handled⟩
      · simp at impossible
      · rcases LinkAction.receive.inj isReceive with ⟨rfl, rfl⟩
        rcases Shared.required_of_handle handled with ⟨fields, released⟩
        have answers : answered? inbound (.recv socket) = some (.packet packet) := by
          simp only [answered?, returned]
        refine .response answers fields ?_ encoded kept began
        intro pid isPubRel
        rcases released pid isPubRel with ⟨ack, rfl, inflight, room⟩
        exact ⟨socket, ack, reader, rest, rfl, returned, inflight, room⟩

theorem begins_follow {linkAction : LinkAction T} (length : inbound.writeBuf.length = 32)
    (linked : linkStep inbound.link linkAction = some link)
    (stepped : inbound.follow linkAction link = some next) :
    Begins inbound (.link linkAction) next := by
  unfold follow at stepped
  split at stepped
  · rcases Option.some.inj stepped with rfl
    exact .nothing rfl rfl
  · rename_i publishing _
    unfold dropRun at stepped
    split at stepped
    · simp only [cut, Option.bind_eq_bind, Option.map_eq_some_iff, Option.bind_eq_some_iff,
        Option.some.injEq] at stepped
      rcases stepped with ⟨_, ⟨rx, _, rfl⟩, rfl⟩
      exact .nothing rfl rfl
    · rcases Option.some.inj stepped with rfl
      exact .nothing rfl rfl
  · simp at stepped
  · simp at stepped
  · rename_i written _
    rcases exists_of_encode (exists_toBuffer_disconnectPacket config length) stepped with
      ⟨encoder, _, kept, rfl⟩
    exact .disconnect rfl kept
  · rename_i notReceive _
    rcases cases_goOn length stepped with
      ⟨kept, nothing⟩ | ⟨reply, encoder, idle, replying, encoded, kept, began⟩
    · exact .nothing kept nothing
    · rcases Link.reply_of_linkStep linked idle replying with
        ⟨rfl, rfl⟩ | ⟨socket, payload, _, _, _, _, rfl, _⟩
      · have answers : answered? inbound (.link (.write .keepAlive)) = some .keepAlive := rfl
        exact .response answers rfl (by simp) encoded kept began
      · exact absurd rfl (notReceive socket payload)

/-- What any step of the stack means for the packets that are written. -/
theorem begins_of_step (length : inbound.writeBuf.length = 32)
    (stepped : inboundStep inbound action = some next) : Begins inbound action next := by
  unfold inboundStep at stepped
  split at stepped
  · simp at stepped
  · cases action with
    | recv socket => exact begins_recv length stepped
    | copyAll => exact begins_copyAll length stepped
    | discard => exact begins_discard length stepped
    | insert => exact begins_insert length stepped
    | subscriber action =>
        simp only [Option.ite_none_right_eq_some, Option.map_eq_some_iff] at stepped
        rcases stepped with ⟨_, rx, _, rfl⟩
        exact .nothing rfl rfl
    | link action =>
        rcases Option.bind_eq_some_iff.mp stepped with ⟨link, linked, stepped⟩
        exact begins_follow length linked stepped

/-- A publish that is released is answered with PUBREL. -/
theorem exists_pubRel (length : inbound.writeBuf.length = 32)
    (releases : ReleasesPublish inbound action) (stepped : inboundStep inbound action = some next) :
    ∃ pid encoder, answered? inbound action ≠ none ∧
      MqttEncode.toBuffer config (Reply.pubRel pid) (MqttEncoder.new inbound.writeBuf) =
        .ok () encoder ∧
      next.written = encoder.intoPacketBytes :: inbound.written := by
  rcases releases with ⟨socket, ack, reader, rest, rfl, returned, inflight, room⟩
  rcases Option.isSome_iff_exists.mp room with ⟨outgoingRel, inserted⟩
  have handled : ∃ shared, inbound.link.world.shared.handle .copied (.pubRec ack) =
      .done shared (some (.pubRel ack.pid)) := by
    simp only [Shared.handle, Shared.handlePubRec, IndexSet.contains_iff.mpr inflight, inserted,
      if_true]
    exact ⟨_, rfl⟩
  rcases handled with ⟨shared, handled⟩
  unfold inboundStep at stepped
  split at stepped
  · simp at stepped
  · simp only [recv, returned, linkStep, Option.bind_eq_bind, Option.bind_eq_some_iff,
      Option.ite_none_left_eq_some, Option.map_eq_some_iff] at stepped
    rcases stepped with ⟨_, _, _, link, ⟨connection, _, world, received, rfl⟩, stepped⟩
    cases (transition_of_step received).2 with
    | receive _ idle =>
        have replying : (inbound.link.world.receive (.pubRec ack) .copied).stack =
            .replying (.pubRel ack.pid) := by
          unfold World.receive
          dsimp only
          rw [handled]
          rfl
        unfold goOn Link.goOn at stepped
        dsimp only at stepped
        rw [idle, replying] at stepped
        rcases exists_of_encode ((Reply.pubRel ack.pid).exists_toBuffer config length) stepped with
          ⟨encoder, encoded, _, rfl⟩
        refine ⟨ack.pid, encoder, ?_, encoded, rfl⟩
        simp [answered?, returned]

end Inbound

section Log

variable {inbound next : Inbound T config} {action : InboundAction T} {bytes : List UInt8}

theorem responses_of_nothing (written : next.written = inbound.written) :
    responses inbound action next = [] := by
  unfold responses
  split
  · rfl
  · rw [written, Nat.sub_self]
    rfl

theorem responses_of_written (answers : answered? inbound action ≠ none)
    (written : next.written = bytes :: inbound.written) :
    responses inbound action next = [(answered? inbound action, bytes)] := by
  unfold responses
  split
  · exact absurd rfl answers
  · rw [written, List.length_cons, Nat.add_sub_cancel_left]
    rfl

end Log

/-- Every answer can be encoded, and every response so far is the one that is required. -/
structure Responsive (recorded : Inbound T config × List Response) : Prop where
  encodes : ∀ reply : Reply, ∃ encoder,
    MqttEncode.toBuffer config reply (MqttEncoder.new recorded.1.writeBuf) = .ok () encoder
  conform : ∀ response ∈ recorded.2, response.Conforms config.protocol

/-- A stack together with its responses. -/
abbrev respondingStep [Transport T] (recorded : Inbound T config × List Response)
    (action : InboundAction T) : Option (Inbound T config × List Response) :=
  Execution.record inboundStep responses recorded action

section Step

variable [Transport T] {recorded next : Inbound T config × List Response}
  {action : InboundAction T}

theorem length_of_step (length : recorded.1.writeBuf.length = 32)
    (stepped : respondingStep recorded action = some next) : next.1.writeBuf.length = 32 := by
  rcases Execution.record_eq_some.mp stepped with ⟨went, _⟩
  cases Inbound.begins_of_step length went with
  | nothing writeBuf => rw [writeBuf, length]
  | response _ _ _ _ writeBuf => exact writeBuf.trans length
  | disconnect _ writeBuf => exact writeBuf.trans length

/-- A step that releases no publish writes the response that is required. -/
theorem Responsive.step (length : recorded.1.writeBuf.length = 32)
    (responsive : Responsive recorded) (kept : ¬ ReleasesPublish recorded.1 action)
    (stepped : respondingStep recorded action = some next) : Responsive next := by
  have encodes : ∀ reply : Reply, ∃ encoder,
      MqttEncode.toBuffer config reply (MqttEncoder.new next.1.writeBuf) = .ok () encoder := by
    intro reply
    exact reply.exists_toBuffer config (length_of_step length stepped)
  rcases Execution.record_eq_some.mp stepped with ⟨went, log⟩
  refine ⟨encodes, ?_⟩
  rw [log]
  cases Inbound.begins_of_step length went with
  | nothing _ written =>
      rw [responses_of_nothing written]
      exact responsive.conform
  | @response answered reply encoder answers fields releases encoded _ written =>
      rw [responses_of_written (by simp [answers]) written, answers]
      intro response listed
      rcases List.mem_cons.mp listed with rfl | older
      · refine ⟨reply.fields, fields, Reply.parse_eq_some length ?_ encoded⟩
        rintro pid rfl
        exact kept (releases pid rfl)
      · exact responsive.conform response older
  | disconnect isDisconnect =>
      subst isDisconnect
      exact responsive.conform

/-- A step that releases a publish writes a packet that is no response. -/
theorem Responsive.keeps (length : recorded.1.writeBuf.length = 32)
    (stepped : respondingStep recorded action = some next) (responsive : Responsive next) :
    ¬ ReleasesPublish recorded.1 action := by
  intro releases
  rcases Execution.record_eq_some.mp stepped with ⟨went, log⟩
  rcases Inbound.exists_pubRel length releases went with ⟨pid, encoder, answers, encoded, written⟩
  rw [responses_of_written answers written] at log
  have listed : (answered? recorded.1 action, encoder.intoPacketBytes) ∈ next.2 := by
    rw [log]
    exact List.mem_cons_self
  rcases responsive.conform _ listed with ⟨fields, _, parsed⟩
  rw [Reply.parse_pubRel length encoded] at parsed
  simp at parsed

end Step

/-- In every run, every answer can be encoded and is the response that is required of what it
answers, if and only if no publish in flight is released by a PUBREC: PUBREL is written with flags
that are not those of a PUBREL. -/
theorem responses_conform_iff [Transport T] (config : CrateConfig) (capacity : ℕ) (transport : T)
    (actions : List (InboundAction T)) :
    Execution.Always respondingStep Responsive (Inbound.new config capacity transport, []) actions ↔
      Execution.Guarded respondingStep
        (fun recorded action =>
          inboundStep recorded.1 action ≠ none → ¬ ReleasesPublish recorded.1 action)
        (Inbound.new config capacity transport, []) actions := by
  have initial : Responsive (Inbound.new config capacity transport, []) := by
    constructor
    · intro reply
      exact reply.exists_toBuffer config rfl
    · simp
  apply Execution.always_iff_guarded (fun _ _ => True)
    (fun recorded => recorded.1.writeBuf.length = 32)
  · intro recorded next action _ length stepped
    exact length_of_step length stepped
  · intro recorded next action _ length responsive guarded stepped
    have went := (Execution.record_eq_some.mp stepped).1
    exact responsive.step length (guarded (by simp [went])) stepped
  · intro recorded next action length _ stepped responsive _
    exact responsive.keeps length stepped
  · intro recorded action disabled possible
    exact absurd (Option.map_eq_none_iff.mp disabled) possible
  · exact Execution.guarded_of_forall fun _ _ _ => trivial
  · rfl
  · exact initial

/-- A publish of QoS 2 is transmitted, and PUBREC is received for it. -/
def releasedPublish : List (InboundAction NalTransport) :=
  [.link (.client (.send (.publish .exactlyOnce))), .link (.client (.lock 0)),
    .link (.client (.grant 0 (.ok ()))), .link (.client (.commit 0)), .link (.write .read),
    .link (.write .written), .link (.write .flushed), .link (.write .transmitted),
    .recv (.full [0x50, 0x02, 0x00, 0x02] .waiting)]

theorem not_responses_conform :
    ¬ Execution.Always respondingStep Responsive
      (Inbound.new (.default .mqttv5 true) 64 (⟨some 0⟩ : NalTransport), []) releasedPublish := by
  have written : (Execution.run respondingStep
      (Inbound.new (.default .mqttv5 true) 64 (⟨some 0⟩ : NalTransport), []) releasedPublish).map
      (fun recorded => recorded.2.map Prod.snd) = some [[0x60, 0x02, 0x00, 0x02]] := by
    decide +kernel
  intro always
  rcases Option.map_eq_some_iff.mp written with ⟨recorded, reached, written⟩
  rcases List.map_eq_cons_iff.mp written with ⟨response, _, listed, bytes, _⟩
  have responsive := always.of_run reached
  rcases responsive.conform response (listed ▸ List.mem_cons_self) with ⟨fields, _, parsed⟩
  rw [bytes] at parsed
  have refused : parse (Grammar.response .mqttv5) [0x60, 0x02, 0x00, 0x02] = none := rfl
  exact absurd (refused.symm.trans parsed) (by simp)

end Mqttrust.System
