import Mqttrust.Encoding.PacketWrites
import Mqttrust.System.Inbound

/-!
# The packets of the stack's own

Every answer of the stack, PINGREQ and DISCONNECT fit into `write_buf`, and the
first byte tells which of them is a PUBACK.
-/

namespace Mqttrust

open MqttEncoder

/-- Whether a packet is a PUBACK: the upper half of its first byte tells. -/
def isPubAck : List UInt8 → Bool
  | first :: _ => first &&& 0xF0 == 0x40
  | [] => false

/-- The PUBACK with an identifier. -/
def pubAckBytes (pid : Pid) : List UInt8 := packetBytes 0x40 pid.bytes

section Encoding

variable {Packet : Type} [MqttEncode Packet] {config : CrateConfig} {packet : Packet}
  {buf : List UInt8} {encoder : MqttEncoder}

theorem isPubAck_of_toBuffer
    (encoded : MqttEncode.toBuffer config packet (MqttEncoder.new buf) = .ok () encoder) :
    isPubAck encoder.intoPacketBytes =
      (((MqttEncode.packetType packet).toByte ||| MqttEncode.flags packet) &&& 0xF0 == 0x40) := by
  rcases Encode.bind_eq_ok.mp encoded with ⟨_, body, written, finalizes⟩
  have advanced := MqttEncode.advances config packet written
  have finalized := finalized_of_finalizeFixedHeader advanced.headerStart finalizes
  rw [MqttEncoder.intoPacketBytes, finalized.headerStart, List.drop_zero, finalized.packet]
  rfl

end Encoding

namespace System

/-- What the stack answers to a packet: only a PUBLISH that was copied, PUBREC and PUBREL are
answered. -/
theorem Shared.cases_of_handle {config : CrateConfig} {shared next : Shared config}
    {payload : Payload} {packet : ReceivedPacket} {reply : Reply}
    (handled : shared.handle payload packet = .done next (some reply)) :
    (∃ pid topicName publish, payload = .copied ∧
        packet = .partialPublish (.atLeastOnce pid) topicName publish ∧ reply = .pubAck pid) ∨
      (∃ pid topicName publish, payload = .copied ∧
        packet = .partialPublish (.exactlyOnce pid) topicName publish ∧ reply = .pubRec pid) ∨
      (∃ ack, packet = .pubRec ack ∧ reply = .pubRel ack.pid ∧
        ack.pid.val ∈ shared.inflightPub.elements ∧
        (shared.outgoingRel.insert ack.pid.val).isSome = true) ∨
      ∃ ack, packet = .pubRel ack ∧ reply = .pubComp ack.pid := by
  cases packet with
  | partialPublish qosPid topicName publish =>
      simp only [handle, handlePublish] at handled
      split at handled
      · simp at handled
      · simp at handled
      · split at handled
        · simp at handled
        · rcases Option.some.inj (Handled.done.inj handled).2 with rfl
          exact .inl ⟨_, topicName, publish, rfl, rfl, rfl⟩
        · split at handled
          · rcases Option.some.inj (Handled.done.inj handled).2 with rfl
            exact .inr (.inl ⟨_, topicName, publish, rfl, rfl, rfl⟩)
          · simp at handled
  | pubRec ack =>
      rcases exists_of_handlePubRec handled with ⟨inflight, outgoingRel, inserted, _⟩
      simp only [handle, handlePubRec, IndexSet.contains_iff.mpr inflight, inserted,
        if_true] at handled
      rcases Option.some.inj (Handled.done.inj handled).2 with rfl
      exact .inr (.inr (.inl ⟨ack, rfl, rfl, inflight, by simp [inserted]⟩))
  | pubRel ack =>
      simp only [handle, handlePubRel] at handled
      split at handled
      · rcases Option.some.inj (Handled.done.inj handled).2 with rfl
        exact .inr (.inr (.inr ⟨ack, rfl, rfl⟩))
      · simp at handled
  | pubAck | pubComp | subAck | unsubAck | pingResp | connAck | disconnect =>
      simp [handle] at handled

/-- How an answer of the stack is written. -/
def Reply.writes (reply : Reply) : List Write :=
  match reply.ack? with
  | some packet => [.checked packet.pid.bytes]
  | none => []

theorem Reply.performs (config : CrateConfig) (reply : Reply) :
    Performs (MqttEncode.writeBody config reply) reply.writes := by
  have ack : ∀ kind pid, Performs (MqttEncode.writeBody config (AckPacket.success kind pid))
      [.checked pid.bytes] := by
    intro kind pid
    have encodable : (AckPacket.success kind pid).properties.Encodable :=
      { varintFits := fun _ impossible => absurd impossible List.not_mem_nil
        short := fun _ impossible => absurd impossible List.not_mem_nil }
    have performs : Performs (MqttEncode.writeBody config (AckPacket.success kind pid))
        ((AckPacket.success kind pid).writes config) := AckPacket.performs fun _ => encodable
    have writes : (AckPacket.success kind pid).writes config = [.checked pid.bytes] := by
      unfold AckPacket.writes AckPacket.detailWrites
      cases config.protocol <;> rfl
    rwa [writes] at performs
  cases reply with
  | pubAck pid => exact ack .pubAck pid
  | pubRec pid => exact ack .pubRec pid
  | pubRel pid => exact ack .pubRel pid
  | pubComp pid => exact ack .pubComp pid
  | pingReq => exact Performs.pure

theorem Reply.length_writes (reply : Reply) : (Write.allBytes reply.writes).length ≤ 2 := by
  cases reply with
  | pingReq => exact Nat.zero_le _
  | pubAck pid | pubRec pid | pubRel pid | pubComp pid => exact Nat.le_refl _

theorem Reply.exists_toBuffer (config : CrateConfig) (reply : Reply) {buf : List UInt8}
    (length : buf.length = 32) :
    ∃ encoder, MqttEncode.toBuffer config reply (MqttEncoder.new buf) = .ok () encoder := by
  have header : maxMqttHeaderLen ≤ buf.length := by
    rw [length]
    decide
  have short := reply.length_writes
  have header_eq : maxMqttHeaderLen = 5 := rfl
  rw [exists_toBuffer_iff (reply.performs config) header, Write.fits_iff_of_lt (by omega)]
  omega

/-- The first byte of an answer. -/
def Reply.firstByte : Reply → UInt8
  | .pubAck _ => 0x40
  | .pubRec _ => 0x50
  | .pubRel _ => 0x60
  | .pubComp _ => 0x70
  | .pingReq => 0xC0

theorem Reply.first_eq (reply : Reply) :
    (MqttEncode.packetType reply).toByte ||| MqttEncode.flags reply = reply.firstByte := by
  cases reply with
  | pubAck =>
      change (0x40 ||| 0x00 : UInt8) = 0x40
      decide
  | pubRec =>
      change (0x50 ||| 0x00 : UInt8) = 0x50
      decide
  | pubRel =>
      change (0x60 ||| 0x00 : UInt8) = 0x60
      decide
  | pubComp =>
      change (0x70 ||| 0x00 : UInt8) = 0x70
      decide
  | pingReq =>
      change (0xC0 ||| 0x00 : UInt8) = 0xC0
      decide

/-- An answer on the wire. -/
theorem Reply.bytes_eq {config : CrateConfig} {reply : Reply} {buf : List UInt8}
    {encoder : MqttEncoder} (length : buf.length = 32)
    (encoded : MqttEncode.toBuffer config reply (MqttEncoder.new buf) = .ok () encoder) :
    encoder.intoPacketBytes = packetBytes reply.firstByte (Write.allBytes reply.writes) := by
  have header : maxMqttHeaderLen ≤ buf.length := by
    rw [length]
    decide
  rw [intoPacketBytes_of_toBuffer (reply.performs config) header encoded, first_eq]

theorem Reply.pubAck_bytes {config : CrateConfig} {pid : Pid} {buf : List UInt8}
    {encoder : MqttEncoder} (length : buf.length = 32)
    (encoded : MqttEncode.toBuffer config (Reply.pubAck pid) (MqttEncoder.new buf) =
      .ok () encoder) : encoder.intoPacketBytes = pubAckBytes pid := by
  have body : Write.allBytes (Reply.pubAck pid).writes = pid.bytes := List.append_nil _
  rw [Reply.bytes_eq length encoded, body]
  rfl

theorem Reply.isPubAck_of_ne {config : CrateConfig} {reply : Reply} {buf : List UInt8}
    {encoder : MqttEncoder} (notPubAck : ∀ pid, reply ≠ .pubAck pid)
    (encoded : MqttEncode.toBuffer config reply (MqttEncoder.new buf) = .ok () encoder) :
    isPubAck encoder.intoPacketBytes = false := by
  rw [isPubAck_of_toBuffer encoded, first_eq]
  cases reply with
  | pubAck pid => exact absurd rfl (notPubAck pid)
  | pubRec | pubRel | pubComp | pingReq =>
      simp only [firstByte]
      decide

variable {config : CrateConfig}

theorem encodable_disconnectPacket (v5 : config.protocol = .mqttv5) :
    (disconnectPacket config).properties.Encodable := by
  have properties : (disconnectPacket config).properties = .slice [.sessionExpiryInterval 0] := by
    unfold disconnectPacket
    rw [v5]
  rw [properties]
  constructor
  · intro property listed
    rcases List.mem_singleton.mp listed with rfl
    trivial
  · intro property listed
    rcases List.mem_singleton.mp listed with rfl
    decide

theorem exists_toBuffer_disconnectPacket (config : CrateConfig) {buf : List UInt8}
    (length : buf.length = 32) :
    ∃ encoder, MqttEncode.toBuffer config (disconnectPacket config) (MqttEncoder.new buf) =
      .ok () encoder := by
  have header : maxMqttHeaderLen ≤ buf.length := by
    rw [length]
    decide
  rw [exists_toBuffer_iff (DisconnectPacket.performs encodable_disconnectPacket) header, length]
  -- what is written depends on the protocol alone
  rcases config with ⟨_, _, _, _, _, protocol, _⟩
  cases protocol with
  | mqttv3 =>
      let config := CrateConfig.default .mqttv3 false
      change Write.Fits (32 - maxMqttHeaderLen) ((disconnectPacket config).writes config) ∧
        (Write.allBytes ((disconnectPacket config).writes config)).length < 2 ^ 28
      decide
  | mqttv5 =>
      let config := CrateConfig.default .mqttv5 false
      change Write.Fits (32 - maxMqttHeaderLen) ((disconnectPacket config).writes config) ∧
        (Write.allBytes ((disconnectPacket config).writes config)).length < 2 ^ 28
      decide

theorem isPubAck_disconnectPacket {buf : List UInt8} {encoder : MqttEncoder}
    (encoded : MqttEncode.toBuffer config (disconnectPacket config) (MqttEncoder.new buf) =
      .ok () encoder) : isPubAck encoder.intoPacketBytes = false := by
  rw [isPubAck_of_toBuffer encoded]
  change ((0xE0 ||| 0x00) &&& 0xF0 == (0x40 : UInt8)) = false
  decide

section Encode

variable {T : Type} {inbound next : Inbound T config}

/-- A packet that fits is encoded. -/
theorem Inbound.exists_of_encode {Packet : Type} [MqttEncode Packet] {packet : Packet}
    {encoded failed : Link T config}
    (fits : ∃ encoder, MqttEncode.toBuffer config packet (MqttEncoder.new inbound.writeBuf) =
      .ok () encoder)
    (stepped : inbound.encode packet encoded failed = some next) :
    ∃ encoder, MqttEncode.toBuffer config packet (MqttEncoder.new inbound.writeBuf) =
        .ok () encoder ∧ encoder.buf.length = inbound.writeBuf.length ∧
      next = { inbound with
        link := encoded
        writeBuf := encoder.buf
        written := encoder.intoPacketBytes :: inbound.written } := by
  rcases fits with ⟨encoder, written⟩
  refine ⟨encoder, written, (encoded_of_toBuffer written).length, ?_⟩
  unfold Inbound.encode at stepped
  rw [written] at stepped
  exact (Option.some.inj stepped).symm

end Encode

section Origin

variable {world next : World config} {action : Action} {reply : Reply}

/-- The stack answers a packet that it handles, or sends PINGREQ. -/
theorem reply_of_step (stepped : step world action = some next) (idle : world.stack = .idle)
    (replying : next.stack = .replying reply) :
    action = .keepAlive ∧ reply = .pingReq ∨
      ∃ packet payload shared, action = .receive packet payload ∧
        world.shared.handle payload packet = .done shared (some reply) := by
  by_cases isClient : action.isClient = true
  · rw [(stack_of_isClient isClient stepped).1, idle] at replying
    simp at replying
  · cases (transition_of_step stepped).2 with
    | @receive packet payload =>
        unfold World.receive at replying
        dsimp only at replying
        split at replying
        · rename_i shared answer handled
          cases answer with
          | none => simp at replying
          | some answer =>
              rcases StackPhase.replying.inj replying with rfl
              exact .inr ⟨packet, payload, shared, rfl, handled⟩
        · simp at replying
        · simp [idle] at replying
    | receiveFails error => cases error <;> simp [World.receiveFails, idle] at replying
    | keepAlive =>
        unfold World.keepAlive at replying
        split at replying
        · simp at replying
        · exact .inl ⟨rfl, (StackPhase.replying.inj replying).symm⟩
    | reset isConnected => cases isConnected <;> simp [World.reset, World.resetShared] at replying
    | dropRun isConnected => cases isConnected <;> simp at replying
    | connect | connectFails | connected | lost | read | written | flushed | transmitted
    | writeFails | replied | disconnect =>
        simp [World.connect, World.connected, World.written, World.transmitted,
          World.resetShared] at replying
    | _ => simp [Action.isClient] at isClient

end Origin

section Link

variable {T : Type} [Transport T] {link next : Link T config} {action : LinkAction T}
  {reply : Reply}

/-- A link answers a packet that it has received, or sends PINGREQ. -/
theorem Link.reply_of_linkStep (stepped : linkStep link action = some next)
    (idle : link.world.stack = .idle) (replying : next.world.stack = .replying reply) :
    action = .write .keepAlive ∧ reply = .pingReq ∨
      ∃ socket payload packet reader rest shared, action = .receive socket payload ∧
        link.reader.recv socket = .returned (.ok packet) reader rest ∧
        link.world.shared.handle payload packet = .done shared (some reply) := by
  have unchanged : next.world = link.world → False := by
    intro same
    rw [same, idle] at replying
    simp at replying
  have other : ∀ {action : Action} {world : World config}, step link.world action = some world →
      world.stack = .replying reply → action ≠ .keepAlive →
      (∀ packet payload, action ≠ .receive packet payload) → False := by
    intro action world stepped replying notKeepAlive notReceive
    rcases reply_of_step stepped idle replying with
      ⟨isKeepAlive, _⟩ | ⟨packet, payload, _, isReceive, _⟩
    · exact notKeepAlive isKeepAlive
    · exact notReceive packet payload isReceive
  cases transition_of_linkStep stepped with
  | receive _ returned received =>
      rcases reply_of_step received idle replying with
        ⟨isKeepAlive, _⟩ | ⟨packet, payload, shared, isReceive, handled⟩
      · simp at isKeepAlive
      · rcases Action.receive.inj isReceive with ⟨rfl, rfl⟩
        exact .inr ⟨_, _, _, _, _, shared, rfl, returned, handled⟩
  | connect _ went | connected _ went | connectFails _ went | receiveFails _ _ went
  | socketFails _ went | lost _ went | reset went | dropRun _ went =>
      exact (other went replying (by simp) (by simp)).elim
  | client isClient went =>
      refine (other went replying ?_ ?_).elim
      · rintro rfl
        simp [Action.isClient] at isClient
      · rintro packet payload rfl
        simp [Action.isClient] at isClient
  | write _ isWrite went =>
      rcases reply_of_step went idle replying with
        ⟨rfl, isPingReq⟩ | ⟨packet, payload, _, rfl, _⟩
      · exact .inl ⟨rfl, isPingReq⟩
      · simp [Action.isWrite] at isWrite
  | opened =>
      refine (unchanged ?_).elim
      unfold connectTransport
      dsimp only
      split <;> rfl
  | greeted | recvConnAck | pending | drifts | disconnectFails => exact (unchanged rfl).elim
  | disconnect =>
      simp only [Link.disconnect] at replying
      split at replying <;> simp at replying

end Link

end System

end Mqttrust
