import Mqttrust.Encoding.PacketSteps

/-!
# Encoding into a buffer that is too short

Only some of the encoder's writes are preceded by a check of the remaining space.
Where a buffer ends decides whether the encoding of a packet is refused or panics:
it is refused when the first write that does not fit is one that is checked.
-/

namespace Mqttrust

open MqttEncoder

namespace EncodeStep

/-- Every store that is reached without a failed check fits. -/
def Guarded : ℕ → List EncodeStep → Prop
  | _, [] => True
  | room, check len :: rest => len ≤ room % 2 ^ 32 → Guarded room rest
  | room, put bytes :: rest => bytes.length ≤ room ∧ Guarded (room - bytes.length) rest
  | _, fail fault :: _ => fault ≠ .panic

instance decidableGuarded : (room : ℕ) → (steps : List EncodeStep) → Decidable (Guarded room steps)
  | _, [] => inferInstanceAs (Decidable True)
  | room, check len :: rest =>
      have := decidableGuarded room rest
      inferInstanceAs (Decidable (len ≤ room % 2 ^ 32 → Guarded room rest))
  | room, put bytes :: rest =>
      have := decidableGuarded (room - bytes.length) rest
      inferInstanceAs (Decidable (bytes.length ≤ room ∧ Guarded (room - bytes.length) rest))
  | _, fail fault :: _ => inferInstanceAs (Decidable (fault ≠ .panic))

theorem fault_ne_panic_iff {room : ℕ} {steps : List EncodeStep} :
    fault room steps ≠ some .panic ↔ Guarded room steps := by
  induction steps generalizing room with
  | nil => simp [fault, Guarded]
  | cons step rest ih =>
      cases step with
      | check len =>
          rw [fault, Guarded]
          by_cases short : room % 2 ^ 32 < len
          · rw [if_pos short]
            exact iff_of_true (by simp) fun enough => absurd short (Nat.not_lt.mpr enough)
          · rw [if_neg short, ih]
            exact ⟨fun guarded _ => guarded, fun guarded => guarded (Nat.not_lt.mp short)⟩
      | put stored =>
          by_cases fits : stored.length ≤ room
          · simp [fault, Guarded, fits, ih]
          · simp [fault, Guarded, fits]
      | fail fault => simp [EncodeStep.fault, Guarded]

/-- No error but the lack of space is returned. -/
def OnlyBufferSize (steps : List EncodeStep) : Prop :=
  ∀ error, fail (.error error) ∈ steps → error = .bufferSize

theorem OnlyBufferSize.append {first second : List EncodeStep} (left : OnlyBufferSize first)
    (right : OnlyBufferSize second) : OnlyBufferSize (first ++ second) := by
  intro error mem
  rcases List.mem_append.mp mem with mem | mem
  · exact left error mem
  · exact right error mem

theorem OnlyBufferSize.of_fault {room : ℕ} {steps : List EncodeStep} {error : EncodeError}
    (only : OnlyBufferSize steps) (failed : fault room steps = some (.error error)) :
    error = .bufferSize := by
  induction steps generalizing room with
  | nil => simp [fault] at failed
  | cons step rest ih =>
      have later : OnlyBufferSize rest := fun error mem => only error (List.mem_cons_of_mem _ mem)
      cases step with
      | check len =>
          simp only [fault] at failed
          split at failed
          · simp only [Option.some.injEq, EncodeFault.error.injEq] at failed
            exact failed.symm
          · exact ih later failed
      | put stored =>
          simp only [fault] at failed
          split at failed
          · exact ih later failed
          · simp at failed
      | fail fault =>
          simp only [EncodeStep.fault, Option.some.injEq] at failed
          exact only error (failed ▸ List.mem_cons_self)

theorem onlyBufferSize_allSteps (writes : List Write) : OnlyBufferSize (Write.allSteps writes) := by
  intro error mem
  rcases List.mem_flatMap.mp mem with ⟨write, _, mem⟩
  cases write with
  | plain | checked => simp [Write.steps] at mem

end EncodeStep

open EncodeStep (OnlyBufferSize onlyBufferSize_allSteps)

theorem Properties.onlyBufferSize (properties : Properties) : OnlyBufferSize properties.steps := by
  unfold steps
  split
  · intro error mem
    simp at mem
  · exact onlyBufferSize_allSteps _

theorem Properties.onlyBufferSize_v5 (config : CrateConfig) (properties : Properties) :
    OnlyBufferSize (properties.v5Steps config) := by
  unfold v5Steps
  split
  · exact nofun
  · exact properties.onlyBufferSize

namespace EncodablePacket

/-- The packet identifier is set where one is required. -/
def PidSet : EncodablePacket → Prop
  | publish packet => packet.qos ≠ .atMostOnce → packet.pid.isSome
  | subscribe packet => packet.pid.isSome
  | unsubscribe packet => packet.pid.isSome
  | _ => True

/-- The serializer of the payload returns, and takes at most what it is given. -/
def PayloadBounded (packet : EncodablePacket) : Prop :=
  ∀ rest, match packet.payloadLength rest with
    | .ok count => count ≤ rest.length
    | .error fault => fault ≠ .panic

/-- The packet is encoded, or refused for lack of space. -/
def FailsCleanly (config : CrateConfig) (packet : EncodablePacket) (buf : List UInt8) : Prop :=
  (∃ encoder, packet.toBuffer config (MqttEncoder.new buf) = .ok () encoder) ∨
    ∃ encoder, packet.toBuffer config (MqttEncoder.new buf) = .error (.error .bufferSize) encoder

/-- Where the buffer ends nothing is written without a check. -/
structure SpaceGuarded (config : CrateConfig) (packet : EncodablePacket) (buf : List UInt8) :
    Prop where
  /-- The longest fixed header fits. -/
  header : maxMqttHeaderLen ≤ buf.length
  /-- The first field that does not fit is one that is checked. -/
  fields : EncodeStep.Guarded (buf.length - maxMqttHeaderLen) (packet.steps config)
  /-- The serializer of the payload has no other reason to fail. -/
  payload : EncodeStep.Fits (buf.length - maxMqttHeaderLen) (packet.steps config) →
    ∀ error, packet.payloadLength (packet.rest config buf) = .error (.error error) →
      error = .bufferSize
  /-- The remaining length can be announced. -/
  announced : EncodeStep.Fits (buf.length - maxMqttHeaderLen) (packet.steps config) →
    ∀ count, packet.payloadLength (packet.rest config buf) = .ok count →
      (packet.headBytes config).length + count < 2 ^ 28

variable {config : CrateConfig} {packet : EncodablePacket} {buf : List UInt8}

theorem onlyBufferSize_steps (config : CrateConfig) (pidSet : packet.PidSet) :
    OnlyBufferSize (packet.steps config) := by
  cases packet with
  | connect packet =>
      have will : OnlyBufferSize (Connect.willSteps config packet.lastWill) := by
        cases packet.lastWill with
        | none => exact nofun
        | some lastWill =>
            exact (lastWill.properties.onlyBufferSize_v5 config).append
              (onlyBufferSize_allSteps _)
      exact (((((onlyBufferSize_allSteps _).append
        (packet.properties.onlyBufferSize_v5 config)).append (onlyBufferSize_allSteps _)).append
          will).append (onlyBufferSize_allSteps _)).append (onlyBufferSize_allSteps _)
  | connAck packet =>
      exact (onlyBufferSize_allSteps _).append (packet.properties.onlyBufferSize_v5 config)
  | publish packet =>
      have pid : OnlyBufferSize packet.pidSteps := by
        unfold Publish.pidSteps
        cases qos : packet.qos with
        | atMostOnce => exact nofun
        | atLeastOnce | exactlyOnce =>
            rcases Option.isSome_iff_exists.mp (pidSet (by simp [qos])) with ⟨pid, found⟩
            simp only [found]
            exact onlyBufferSize_allSteps _
      exact ((onlyBufferSize_allSteps _).append pid).append
        (packet.properties.onlyBufferSize_v5 config)
  | ack packet =>
      refine (onlyBufferSize_allSteps _).append ?_
      have full : OnlyBufferSize (.put [packet.reasonCode] :: packet.properties.steps) :=
        (onlyBufferSize_allSteps [.plain [packet.reasonCode]]).append
          packet.properties.onlyBufferSize
      unfold AckPacket.detailSteps
      split
      · exact nofun
      · split
        · exact full
        · split
          · simp [OnlyBufferSize]
          · exact nofun
          · exact full
  | subscribe packet =>
      refine ((onlyBufferSize_allSteps _).append
        (packet.properties.onlyBufferSize_v5 config)).append ?_
      intro error mem
      rcases List.mem_flatMap.mp mem with ⟨topic, _, mem⟩
      exact onlyBufferSize_allSteps _ error mem
  | codesAck packet =>
      exact ((onlyBufferSize_allSteps _).append
        (packet.properties.onlyBufferSize_v5 config)).append (onlyBufferSize_allSteps _)
  | unsubscribe packet =>
      refine ((onlyBufferSize_allSteps _).append
        (packet.properties.onlyBufferSize_v5 config)).append ?_
      intro error mem
      rcases List.mem_flatMap.mp mem with ⟨topic, _, mem⟩
      exact onlyBufferSize_allSteps _ error mem
  | pingReq packet => exact nofun
  | pingResp packet => exact nofun
  | disconnect packet =>
      have code : OnlyBufferSize packet.codeSteps := by
        unfold DisconnectPacket.codeSteps
        split
        · simp [OnlyBufferSize]
        · exact nofun
      have normal : OnlyBufferSize packet.normalSteps := by
        unfold DisconnectPacket.normalSteps
        split
        · simp [OnlyBufferSize]
        · split
          · simp [OnlyBufferSize]
          · exact nofun
      refine code.append ?_
      split
      · exact nofun
      · exact normal.append packet.properties.onlyBufferSize

end EncodablePacket

namespace Encode

/-- The operation panics. -/
def Panics {Value : Type} (operation : Encode Value) (before : MqttEncoder) : Prop :=
  ∃ after, operation before = .error .panic after

variable {Value Value' : Type} {before : MqttEncoder}

theorem Panics.bind {first : Encode Value} {second : Value → Encode Value'}
    (panics : Panics first before) : Panics (first >>= second) before := by
  rcases panics with ⟨after, failed⟩
  exact ⟨after, bind_eq_error failed⟩

section Short

variable {buf : List UInt8} (short : buf.length < maxMqttHeaderLen)

include short

theorem panics_checkRemaining (len : ℕ) : Panics (checkRemaining len) (MqttEncoder.new buf) :=
  ⟨_, if_pos short⟩

theorem panics_writeU8 (byte : UInt8) : Panics (writeU8 byte) (MqttEncoder.new buf) :=
  ⟨_, if_neg (Nat.not_lt.mpr (Nat.le_of_lt short))⟩

theorem panics_writeVarint (len : ℕ) : Panics (writeVarint len) (MqttEncoder.new buf) := by
  rw [writeVarint, writeVarintLoop]
  by_cases last : len / 128 = 0
  · simp only [last, if_true]
    exact panics_writeU8 short _
  · simp only [last, if_false]
    exact (panics_writeU8 short _).bind

theorem panics_writeProperties (properties : Properties) :
    Panics (writeProperties properties) (MqttEncoder.new buf) := by
  unfold writeProperties
  split
  · exact ⟨_, rfl⟩
  · exact (panics_writeVarint short _).bind

/-- The fixed header of a packet without a body needs the whole gap. -/
theorem panics_finalizeFixedHeader (typ : PacketType) (flags : UInt8) :
    Panics (finalizeFixedHeader typ flags) (MqttEncoder.new buf) := by
  have five : maxMqttHeaderLen = 5 := rfl
  have opens : openHeader (MqttEncoder.new buf) = .ok 0 ⟨buf, 3, 3⟩ := rfl
  unfold Panics
  rw [finalizeFixedHeader, bind_of_ok opens]
  by_cases enough : 3 < buf.length
  · have names : writeU8 (typ.toByte ||| flags) ⟨buf, 3, 3⟩ =
        .ok () ⟨overwrite buf 3 [typ.toByte ||| flags], 4, 3⟩ := if_pos enough
    have length : (overwrite buf 3 [typ.toByte ||| flags]).length = buf.length :=
      length_overwrite enough
    have panics : Panics (writeVarint 0) ⟨overwrite buf 3 [typ.toByte ||| flags], 4, 3⟩ := by
      refine ⟨_, if_neg ?_⟩
      dsimp only
      omega
    rw [bind_of_ok names]
    exact panics.bind
  · have panics : Panics (writeU8 (typ.toByte ||| flags)) ⟨buf, 3, 3⟩ := ⟨_, if_neg enough⟩
    exact panics.bind

theorem panics_disconnect (config : CrateConfig) (packet : DisconnectPacket) :
    Panics (MqttEncode.toBuffer config packet) (MqttEncoder.new buf) := by
  change Panics ((packet.writeCode >>= fun _ => packet.writeDetail config) >>= fun _ =>
    finalizeFixedHeader .disconnect 0) (MqttEncoder.new buf)
  by_cases normal : packet.reasonCode = DisconnectReasonCode.normal
  · have nothing : packet.writeCode (MqttEncoder.new buf) = .ok () (MqttEncoder.new buf) := by
      rw [DisconnectPacket.writeCode, if_neg (not_not_intro normal)]
      rfl
    have detail : Panics (packet.writeDetail config >>= fun _ =>
        finalizeFixedHeader .disconnect 0) (MqttEncoder.new buf) := by
      unfold DisconnectPacket.writeDetail
      cases config.protocol with
      | mqttv3 => exact panics_finalizeFixedHeader short _ _
      | mqttv5 =>
          apply Panics.bind
          unfold DisconnectPacket.writeNormal
          rcases packet.properties.size with _ | size
          · exact ⟨_, rfl⟩
          · dsimp only
            split
            · exact (panics_writeU8 short _).bind
            · exact panics_writeProperties short _
    rcases detail with ⟨after, failed⟩
    refine ⟨after, ?_⟩
    simp only [bind_assoc]
    rw [bind_of_ok nothing]
    exact failed
  · have code : Panics packet.writeCode (MqttEncoder.new buf) := by
      rw [DisconnectPacket.writeCode, if_pos normal]
      exact panics_writeU8 short _
    exact code.bind.bind

/-- A buffer that the longest fixed header does not fit into is too short for every packet. -/
theorem panics_toBuffer (config : CrateConfig) (packet : EncodablePacket) :
    Panics (packet.toBuffer config) (MqttEncoder.new buf) := by
  cases packet with
  | connect packet => exact (panics_checkRemaining short _).bind.bind.bind
  | publish packet => exact (panics_checkRemaining short _).bind.bind.bind
  | connAck packet => exact (panics_writeU8 short _).bind.bind
  | ack packet => exact (panics_checkRemaining short _).bind.bind.bind
  | subscribe packet => exact (panics_checkRemaining short _).bind.bind.bind
  | codesAck packet => exact (panics_checkRemaining short _).bind.bind.bind
  | unsubscribe packet => exact (panics_checkRemaining short _).bind.bind.bind
  | pingReq packet => exact panics_finalizeFixedHeader short _ _
  | pingResp packet => exact panics_finalizeFixedHeader short _ _
  | disconnect packet => exact panics_disconnect short config packet

end Short

end Encode

namespace EncodablePacket

variable {config : CrateConfig} {packet : EncodablePacket} {buf : List UInt8}

theorem failsCleanly_iff_fault (header : maxMqttHeaderLen ≤ buf.length) :
    packet.FailsCleanly config buf ↔
      packet.fault config buf = none ∨ packet.fault config buf = some (.error .bufferSize) := by
  have meets := packet.toBuffer_meets config header
  exact or_congr meets.exists_ok_iff meets.exists_error_iff

/-- Where all fields fit, the payload decides. -/
theorem spaceGuarded_iff_of_fits (header : maxMqttHeaderLen ≤ buf.length)
    (bounded : packet.PayloadBounded)
    (outcome : EncodeStep.fault (buf.length - maxMqttHeaderLen) (packet.steps config) = none) :
    packet.fault config buf = none ∨ packet.fault config buf = some (.error .bufferSize) ↔
      packet.SpaceGuarded config buf := by
  have returns := bounded (packet.rest config buf)
  have restLength : (packet.rest config buf).length =
      buf.length - (maxMqttHeaderLen + (packet.headBytes config).length) := List.length_drop
  have fits := EncodeStep.fault_eq_none_iff.mp outcome
  have guarded := EncodeStep.fault_ne_panic_iff.mp (by rw [outcome]; simp)
  have short : (packet.headBytes config).length ≤ _ := EncodeStep.length_le_of_fault outcome
  unfold fault
  rw [outcome]
  rcases returned : packet.payloadLength (packet.rest config buf) with fault | count
  · rw [returned] at returns
    constructor
    · rintro (impossible | failed)
      · simp at impossible
      · refine ⟨header, guarded, fun _ error failed' => ?_, fun _ count done => ?_⟩
        · simp only [returned, Except.error.injEq] at failed'
          simpa [failed'] using failed
        · simp [returned] at done
    · intro space
      cases fault with
      | error error => exact .inr (by rw [space.payload fits error returned])
      | panic => exact absurd rfl returns
  · rw [returned] at returns
    have inside : maxMqttHeaderLen + ((packet.headBytes config).length + count) ≤ buf.length := by
      dsimp only at returns
      omega
    simp only [inside, true_and]
    constructor
    · intro clean
      refine ⟨header, guarded, fun _ error failed => ?_, fun _ count' done => ?_⟩
      · simp [returned] at failed
      · simp only [returned, Except.ok.injEq] at done
        subst done
        by_contra large
        rw [if_neg large] at clean
        simp at clean
    · intro space
      rw [if_pos (space.announced fits count returned)]
      exact .inl rfl

/-- Where a field does not fit, the first one decides. -/
theorem spaceGuarded_iff_of_fault (header : maxMqttHeaderLen ≤ buf.length)
    (pidSet : packet.PidSet) {early : EncodeFault}
    (outcome : EncodeStep.fault (buf.length - maxMqttHeaderLen) (packet.steps config) =
      some early) :
    packet.fault config buf = none ∨ packet.fault config buf = some (.error .bufferSize) ↔
      packet.SpaceGuarded config buf := by
  have only := packet.onlyBufferSize_steps config pidSet
  have refused : ¬EncodeStep.Fits (buf.length - maxMqttHeaderLen) (packet.steps config) := by
    rw [← EncodeStep.fault_eq_none_iff, outcome]
    simp
  have guarded_iff :
      EncodeStep.fault (buf.length - maxMqttHeaderLen) (packet.steps config) ≠ some .panic ↔
        EncodeStep.Guarded (buf.length - maxMqttHeaderLen) (packet.steps config) :=
    EncodeStep.fault_ne_panic_iff
  rw [outcome] at guarded_iff
  unfold fault
  rw [outcome]
  constructor
  · rintro (impossible | failed)
    · simp at impossible
    · exact ⟨header, guarded_iff.mp (by simp [failed]), fun fits => absurd fits refused,
        fun fits => absurd fits refused⟩
  · intro space
    cases early with
    | error error => exact .inr (by rw [only.of_fault outcome])
    | panic => exact absurd rfl (guarded_iff.mpr space.fields)

theorem spaceGuarded_iff_fault (header : maxMqttHeaderLen ≤ buf.length) (pidSet : packet.PidSet)
    (bounded : packet.PayloadBounded) :
    packet.fault config buf = none ∨ packet.fault config buf = some (.error .bufferSize) ↔
      packet.SpaceGuarded config buf := by
  cases outcome : EncodeStep.fault (buf.length - maxMqttHeaderLen) (packet.steps config) with
  | none => exact spaceGuarded_iff_of_fits header bounded outcome
  | some early => exact spaceGuarded_iff_of_fault header pidSet outcome

/-- The encoding of a packet fails cleanly exactly in the buffers that end where it checks. -/
theorem toBuffer_failsCleanly_iff (config : CrateConfig) (packet : EncodablePacket)
    (buf : List UInt8) (pidSet : packet.PidSet) (bounded : packet.PayloadBounded) :
    packet.FailsCleanly config buf ↔ packet.SpaceGuarded config buf := by
  rcases Nat.lt_or_ge buf.length maxMqttHeaderLen with short | header
  · -- Not even the fixed header fits.
    rcases Encode.panics_toBuffer short config packet with ⟨encoder, panicked⟩
    refine iff_of_false ?_ fun guarded => Nat.not_le.mpr short guarded.header
    rintro (⟨_, done⟩ | ⟨_, failed⟩)
    · rw [panicked] at done
      simp at done
    · rw [panicked] at failed
      simp at failed
  · rw [failsCleanly_iff_fault header]
    exact spaceGuarded_iff_fault header pidSet bounded

/-- Without a payload there is no other error. -/
theorem fault_subscribe {packet : Subscribe} (pidSet : packet.pid.isSome = true)
    {error : EncodeError} (failed : (subscribe packet).fault config buf = some (.error error)) :
    error = .bufferSize := by
  have only := (subscribe packet).onlyBufferSize_steps config pidSet
  unfold fault at failed
  split at failed
  · rename_i early outcome
    rcases Option.some.inj failed with rfl
    exact only.of_fault outcome
  · simp only [payloadLength] at failed
    split at failed <;> simp at failed

/-- The encoding of a SUBSCRIBE panics in the other buffers. -/
theorem panics_subscribe_iff {packet : Subscribe} (header : maxMqttHeaderLen ≤ buf.length)
    (pidSet : packet.pid.isSome = true) :
    Encode.Panics (MqttEncode.toBuffer config packet) (MqttEncoder.new buf) ↔
      ¬ (subscribe packet).SpaceGuarded config buf := by
  have meets := (subscribe packet).toBuffer_meets config header
  have guarded_iff : (subscribe packet).fault config buf = none ∨
      (subscribe packet).fault config buf = some (.error .bufferSize) ↔
        (subscribe packet).SpaceGuarded config buf :=
    spaceGuarded_iff_fault header pidSet fun rest => Nat.zero_le rest.length
  rw [← guarded_iff]
  apply meets.exists_error_iff.trans
  constructor
  · intro panicked
    simp [panicked]
  · intro notClean
    cases outcome : (subscribe packet).fault config buf with
    | none => exact absurd (Or.inl outcome) notClean
    | some early =>
        cases early with
        | panic => rfl
        | error error =>
            rcases fault_subscribe pidSet outcome with rfl
            exact absurd (Or.inr outcome) notClean

theorem payloadBounded_ofSlice {publish : Publish} {bytes : List UInt8}
    (slice : publish.payload = .ofSlice bytes) :
    (EncodablePacket.publish publish).PayloadBounded := by
  intro rest
  simp only [payloadLength, slice, ToPayload.ofSlice]
  by_cases short : rest.length < bytes.length
  · simp [short]
  · simp only [short, if_false]
    exact Nat.not_lt.mp short

/-- The packet identifier does not fit, and is checked. -/
theorem toBuffer_failsCleanly_iff_example :
    (EncodablePacket.publish ⟨false, .atLeastOnce, true, some .new, ⟨[0x61], rfl⟩, .ofSlice [1, 2],
      .slice []⟩).FailsCleanly (.default .mqttv5 true) [0, 0, 0, 0, 0, 0, 0, 0, 0] := by
  apply (toBuffer_failsCleanly_iff _ _ _ ?_ ?_).mpr
  · exact ⟨by decide, by decide, fun fits => absurd fits.2.2.1 (by decide),
      fun fits => absurd fits.2.2.1 (by decide)⟩
  · exact fun _ => rfl
  · exact payloadBounded_ofSlice rfl

/-- The reason code of an acknowledgement does not fit, and is not checked. -/
theorem not_toBuffer_failsCleanly :
    ∃ (packet : EncodablePacket) (buf : List UInt8), packet.Representable (.default .mqttv5 true) ∧
      packet.PidSet ∧ packet.PayloadBounded ∧
      (∃ encoder, packet.toBuffer (.default .mqttv5 true) (MqttEncoder.new buf) =
        .error .panic encoder) ∧
      ¬packet.FailsCleanly (.default .mqttv5 true) buf := by
  have panicked : ∃ encoder, (EncodablePacket.ack ⟨.pubAck, .new, 0x10, .slice []⟩).toBuffer
      (.default .mqttv5 true) (MqttEncoder.new [0, 0, 0, 0, 0, 0, 0]) =
        .error .panic encoder := ⟨_, rfl⟩
  refine ⟨.ack ⟨.pubAck, .new, 0x10, .slice []⟩, [0, 0, 0, 0, 0, 0, 0], ?_, trivial,
    fun _ => Nat.zero_le _, panicked, ?_⟩
  · exact ⟨fun _ => nofun, by decide⟩
  · rcases panicked with ⟨encoder, panicked⟩
    rintro (⟨_, done⟩ | ⟨_, failed⟩)
    · rw [panicked] at done
      simp at done
    · rw [panicked] at failed
      simp at failed

end EncodablePacket

end Mqttrust
