import Mqttrust.Reader.Delivery

/-!
# From the stream to the subscriber

A PUBLISH is received in two stages: its front is in the buffer of the reader, and
the rest is read from the socket when it is copied into a grant or discarded. The
front ends wherever a single read has ended. For every such split, the grant gets
the bytes of the packet, and the stream is left behind its last byte.
-/

namespace Mqttrust

/-- What `copy_all` does to the slice that it is given. -/
inductive Copied where
  | done (slice : List UInt8) (socket : Socket)
  | failed (kind : ErrorKind)
  | panicked
  | pending

namespace PartialPublish

variable (publish : PartialPublish) (slice : List UInt8) (socket : Socket)

/-- `PartialPublish::copy_all`. -/
def copyInto : Copied :=
  if slice.length < publish.buf.length then .panicked
  else if publish.buf.length < publish.packetLen then
    if slice.length < publish.packetLen then .panicked
    else
      match socket.readExact (publish.packetLen - publish.buf.length) with
      | .ready bytes socket => .done (publish.buf ++ bytes ++ slice.drop publish.packetLen) socket
      | .closed => .failed .brokenPipe
      | .failed kind => .failed kind
      | .pending => .pending
  else .done (publish.buf ++ slice.drop publish.buf.length) socket

/-- What `copy_all` does to a slice of the length of the packet. -/
def Consumed.toCopied : Consumed → Copied
  | .done frame socket => .done frame socket
  | .failed kind => .failed kind
  | .pending => .pending

variable {publish} {slice}

theorem copyInto_of_length (room : slice.length = publish.packetLen)
    (fits : publish.buf.length ≤ publish.packetLen) :
    publish.copyInto slice socket = Consumed.toCopied (publish.copyAll socket) := by
  have inside : ¬slice.length < publish.buf.length := by omega
  have whole : ¬slice.length < publish.packetLen := by omega
  have nothing : slice.drop publish.packetLen = [] := List.drop_of_length_le (by omega)
  unfold copyInto copyAll
  rw [if_neg inside]
  by_cases short : publish.buf.length < publish.packetLen
  · rw [if_pos short, if_pos short, if_neg whole]
    cases socket.readExact (publish.packetLen - publish.buf.length) with
    | ready bytes rest => simp only [nothing, List.append_nil, consumed, Consumed.toCopied]
    | closed => rfl
    | failed kind => rfl
    | pending => rfl
  · have same : publish.buf.length = publish.packetLen := by omega
    rw [if_neg short, if_neg short, same, nothing, List.append_nil]
    rfl

/-- A copy that is complete has the announced length, and begins with what `recv` had read. -/
theorem length_of_copied {frame : List UInt8} {rest : Socket} (room : slice.length = publish.packetLen)
    (copied : publish.copyInto slice socket = .done frame rest) :
    frame.length = publish.packetLen ∧ publish.buf <+: frame := by
  unfold copyInto at copied
  split at copied
  · simp at copied
  · rename_i inside
    split at copied
    · rename_i short
      rw [if_neg (by omega)] at copied
      unfold Socket.readExact at copied
      by_cases available : publish.packetLen - publish.buf.length ≤ socket.bytes.length
      · rw [if_pos available] at copied
        rcases Copied.done.inj copied with ⟨rfl, _⟩
        refine ⟨?_, ⟨_, (List.append_assoc _ _ _).symm⟩⟩
        simp only [List.length_append, List.length_take, List.length_drop, room]
        omega
      · rw [if_neg available] at copied
        cases ending : socket.ending <;> simp [ending] at copied
    · rcases Copied.done.inj copied with ⟨rfl, _⟩
      refine ⟨?_, List.prefix_append _ _⟩
      simp only [List.length_append, List.length_drop, room]
      omega

end PartialPublish

namespace PacketReader

variable {config : CrateConfig} {reader : PacketReader config}

theorem start_of_boundary (boundary : reader.packetLen.isSome ∨ reader.buf = []) :
    reader.start = holding config [] := by
  rcases boundary with known | empty
  · exact start_of_known known
  · have buf : reader.start.buf = [] := by
      unfold start
      split
      · rfl
      · exact empty
    rw [eq_holding reader.start_packetLen, buf]

end PacketReader

/-- Between two packets, a PUBLISH is received such that `copy_all` fills a grant of its length with
its bytes, and that both `copy_all` and `discard` leave exactly what follows it in the stream. -/
theorem publish_reaches_grant {config : CrateConfig} {packet : ServerPacket} {dup retain : Bool}
    {qosPid : QosPid} {topicName : Utf8} {properties payload more : List UInt8}
    (isPublish : packet = .publish dup retain qosPid topicName properties payload)
    (wellFormed : packet.WellFormed config)
    (topic : topicName.bytes.length ≤ config.maxTopicLen)
    (behind : 2 ≤ (ServerPacket.afterTopic config qosPid properties payload).length)
    {reader : PacketReader config} (boundary : reader.packetLen.isSome ∨ reader.buf = [])
    {socket : Socket} (stream : socket.bytes = packet.bytes config ++ more) :
    ∃ publish next rest,
      reader.recv socket = .returned (.ok (.partialPublish qosPid topicName publish)) next rest ∧
      next.packetLen.isSome ∧ publish.packetLen = (packet.bytes config).length ∧
      (∀ slice : List UInt8, slice.length = publish.packetLen →
        ∃ after, publish.copyInto slice rest = .done (packet.bytes config) after ∧
          after.bytes = more) ∧
      ∃ frame after, publish.discard rest = .done frame after ∧ after.bytes = more := by
  have receivable : packet.Receivable config := by
    rw [isPublish]
    exact ⟨topic, behind⟩
  have begun : reader.Begun socket (packet.bytes config ++ more) 0 :=
    { held := PacketReader.start_of_boundary boundary
      unread := stream }
  rcases PacketReader.exists_recv_partialPublish isPublish wellFormed receivable begun
    (Nat.zero_le _) with ⟨held, next, _, inside, known, received⟩
  have left : (socket.skip (held - 0)).bytes = (packet.bytes config).drop held ++ more := by
    rw [Socket.bytes_skip, stream, Nat.sub_zero, List.drop_append_of_le_length inside]
  have consumed := bytes_skip_of_split left
  refine ⟨_, next, _, received, known, rfl, ?_, ?_⟩
  · intro slice room
    rcases PartialPublish.consume_of_split inside left .copyAll with ⟨frame, done, copied⟩
    refine ⟨_, ?_, consumed⟩
    rw [PartialPublish.copyInto_of_length _ room (List.length_take_le' _ _)]
    rw [PartialPublish.consume] at done
    rw [done, copied rfl]
    rfl
  · rcases PartialPublish.consume_of_split inside left .discard with ⟨frame, done, _⟩
    exact ⟨frame, _, done, consumed⟩

theorem publish_reaches_grant_example :
    ∃ publish next rest,
      (PacketReader.new (.default .mqttv5 false)).recv
          ⟨[[0x32], [0x0B, 0x00, 0x01], [0x61, 0x00, 0x01, 0x03, 0x23], [0x00, 0x07, 0x01],
            [0x02, 0xD0]], .waiting, by decide⟩ =
        .returned (.ok (.partialPublish (.atLeastOnce .new) ⟨[0x61], rfl⟩ publish)) next rest ∧
      next.packetLen.isSome ∧ publish.packetLen = 13 ∧
      (∀ slice : List UInt8, slice.length = publish.packetLen →
        ∃ after, publish.copyInto slice rest =
            .done [0x32, 0x0B, 0x00, 0x01, 0x61, 0x00, 0x01, 0x03, 0x23, 0x00, 0x07, 0x01, 0x02]
              after ∧
          after.bytes = [0xD0]) ∧
      ∃ frame after, publish.discard rest = .done frame after ∧ after.bytes = [0xD0] :=
  @publish_reaches_grant (.default .mqttv5 false) _ false false _ _ [0x23, 0x00, 0x07]
    [0x01, 0x02] _ rfl ⟨⟨by decide, (by decide : ([0x61] : List UInt8).length < 65536)⟩, by decide⟩
    (by decide) (by decide) _ (Or.inr rfl) _ rfl

end Mqttrust
