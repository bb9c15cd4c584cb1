import Mqttrust.Encoding.Message

/-!
# The fields of received packets

Which bytes the decoder takes for the properties, for a packet identifier and for the
quality of service of a PUBLISH: it reads a field exactly when the bytes start with one.
-/

namespace Mqttrust

/-- A block of properties: its length, in at most four bytes, and as many bytes. There is none with
feature `mqttv3`. -/
def PropertyBlock : Protocol → List UInt8 → Prop
  | .mqttv3, block => block = []
  | .mqttv5, block => ∃ len properties,
      block = len ++ properties ∧ Varint.decode len = .done properties.length len.length

theorem Pid.val_of_tryFrom {raw : ℕ} {pid : Pid} (converted : Pid.tryFrom raw = .ok pid) :
    pid.val = raw := by
  unfold Pid.tryFrom at converted
  split at converted
  · simp only [Except.ok.injEq] at converted
    rw [← converted]
  · simp at converted

namespace MqttDecoder

variable {decoder next : MqttDecoder} {protocol : Protocol} {block rest : List UInt8}

theorem readProperties_of_block (isBlock : PropertyBlock .mqttv5 block)
    (split : decoder.rest = block ++ rest) :
    ∃ properties, decoder.readProperties = .ok (properties, decoder.advance block.length) := by
  rcases isBlock with ⟨len, properties, rfl, decoded⟩
  have decided : Varint.decode decoder.rest = .done properties.length len.length := by
    rw [split, List.append_assoc, Varint.decode_append _ (by simp [decoded]), decoded]
  refine ⟨properties, ?_⟩
  unfold readProperties readVarint
  rw [decided]
  dsimp only
  rw [readBytes_eq_ok_iff]
  refine ⟨?_, ?_, ?_⟩
  · simp [advance, split]
  · simp [advance, split]
  · simp [advance, Nat.add_assoc]

theorem exists_of_readProperties_eq_ok {properties : List UInt8}
    (read : decoder.readProperties = .ok (properties, next)) :
    ∃ block, PropertyBlock .mqttv5 block ∧ decoder.rest = block ++ next.rest := by
  unfold readProperties readVarint at read
  cases decoded : Varint.decode decoder.rest with
  | incomplete => simp [decoded, fail] at read
  | tooLong => simp [decoded, fail] at read
  | done value count =>
      rw [decoded] at read
      rcases readBytes_eq_ok_iff.mp read with ⟨enough, rfl, rfl⟩
      rcases Varint.exists_of_decode_done decoded with ⟨used, left, split, rfl, _, same⟩
      have behind : (decoder.advance used.length).rest = left := by simp [advance, split]
      rw [behind] at enough
      have alone := same []
      rw [List.append_nil] at alone
      refine ⟨used ++ left.take value, ⟨used, left.take value, rfl, ?_⟩, ?_⟩
      · rw [List.length_take_of_le enough, alone]
      · simp [advance, split]

theorem readProperties?_of_block (isBlock : PropertyBlock protocol block)
    (split : decoder.rest = block ++ rest) :
    ∃ properties, decoder.readProperties? protocol =
      .ok (properties, decoder.advance block.length) := by
  cases protocol with
  | mqttv3 =>
      have empty : block = [] := isBlock
      refine ⟨none, ?_⟩
      simp [readProperties?, advance, empty]
  | mqttv5 =>
      rcases readProperties_of_block isBlock split with ⟨properties, read⟩
      refine ⟨some properties, ?_⟩
      simp [readProperties?, read, bind, Except.bind]

theorem exists_of_readProperties?_eq_ok {properties : Option (List UInt8)}
    (read : decoder.readProperties? protocol = .ok (properties, next)) :
    ∃ block, PropertyBlock protocol block ∧ decoder.rest = block ++ next.rest := by
  cases protocol with
  | mqttv3 =>
      simp only [readProperties?, Except.ok.injEq, Prod.mk.injEq] at read
      exact ⟨[], rfl, by rw [read.2, List.nil_append]⟩
  | mqttv5 =>
      rcases exists_of_bind_eq_ok read with ⟨⟨block, after⟩, block_eq, same⟩
      simp only [Except.ok.injEq, Prod.mk.injEq] at same
      rw [← same.2]
      exact exists_of_readProperties_eq_ok block_eq

theorem rest_of_readPid_eq_ok {pid : Pid} (read : decoder.readPid = .ok (pid, next)) :
    decoder.rest = pid.bytes ++ next.rest := by
  rcases decoder with ⟨_ | ⟨high, _ | ⟨low, rest⟩⟩, offset, headerLen, header⟩
  · simp [readPid, readU16, bind, Except.bind, fail] at read
  · simp [readPid, readU16, bind, Except.bind, fail] at read
  · simp only [readPid, readU16_cons, bind, Except.bind] at read
    cases converted : Pid.tryFrom (high.toNat * 256 + low.toNat) with
    | error error => simp [converted, fail] at read
    | ok value =>
        simp only [converted, Except.ok.injEq, Prod.mk.injEq] at read
        rcases read with ⟨rfl, rfl⟩
        rw [Pid.bytes, Pid.val_of_tryFrom converted, PropertiesIter.u16Bytes_add]
        rfl

/-- The quality of service of the header decides whether there is a packet identifier. -/
theorem exists_of_readQosPid_eq_ok {qosPid : QosPid} (read : decoder.readQosPid = .ok (qosPid, next)) :
    decoder.rest = qosPid.bytes ++ next.rest ∧ decoder.fixedHeader.qos = qosPid.qos := by
  have identified {build : Pid → QosPid}
      (found : (decoder.readPid >>= fun result => .ok (build result.1, result.2)) =
        .ok (qosPid, next)) :
      ∃ pid, build pid = qosPid ∧ decoder.rest = pid.bytes ++ next.rest := by
    rcases exists_of_bind_eq_ok found with ⟨⟨pid, after⟩, pid_eq, same⟩
    simp only [Except.ok.injEq, Prod.mk.injEq] at same
    exact ⟨pid, same.1, same.2 ▸ rest_of_readPid_eq_ok pid_eq⟩
  unfold readQosPid at read
  cases level : decoder.fixedHeader.qos with
  | atMostOnce =>
      simp only [level, Except.ok.injEq, Prod.mk.injEq] at read
      rcases read with ⟨rfl, rfl⟩
      exact ⟨rfl, rfl⟩
  | atLeastOnce =>
      rw [level] at read
      rcases identified read with ⟨pid, rfl, split⟩
      exact ⟨split, rfl⟩
  | exactlyOnce =>
      rw [level] at read
      rcases identified read with ⟨pid, rfl, split⟩
      exact ⟨split, rfl⟩

/-- The decoder of a received packet and that of a message read the same identifier. -/
theorem exists_readQosPid_of_fromDecoder {qosPid : QosPid}
    (read : QosPid.fromDecoder decoder = .ok qosPid) :
    ∃ next, decoder.readQosPid = .ok (qosPid, next) := by
  unfold QosPid.fromDecoder at read
  unfold readQosPid
  cases level : decoder.fixedHeader.qos with
  | atMostOnce =>
      simp only [level, Except.ok.injEq] at read
      exact ⟨decoder, by rw [read]⟩
  | atLeastOnce | exactlyOnce =>
      rw [level] at read
      rcases exists_of_bind_eq_ok read with ⟨⟨pid, after⟩, pid_eq, same⟩
      simp only [Except.ok.injEq] at same
      exact ⟨after, by simp only [pid_eq, bind, Except.bind, same]⟩

end MqttDecoder

end Mqttrust
