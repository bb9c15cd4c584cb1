import Mqttrust.Encoding.Writes

/-!
# How the encoder fails

An operation of the encoder goes through some steps: it checks the remaining space
for some bytes, it stores bytes without looking, or it gives up. Its steps say when
it succeeds, and otherwise whether it returns an error or panics, for every value
that can be given to it and every room that is left in the buffer.
-/

namespace Mqttrust

open MqttEncoder

/-- A step of an operation of the encoder. -/
inductive EncodeStep where
  /-- `check_remaining`; the remaining space is cut to 32 bits there. -/
  | check (len : ℕ)
  /-- Bytes are stored behind the offset. -/
  | put (bytes : List UInt8)
  /-- The operation fails. -/
  | fail (fault : EncodeFault)

namespace EncodeStep

/-- The bytes that a step stores. -/
def bytes : EncodeStep → List UInt8
  | put bytes => bytes
  | check _ | fail _ => []

/-- The bytes that some steps store. -/
def allBytes (steps : List EncodeStep) : List UInt8 := steps.flatMap bytes

/-- How some steps fail with some room left, if they do. -/
def fault : ℕ → List EncodeStep → Option EncodeFault
  | _, [] => none
  | room, check len :: rest =>
      if room % 2 ^ 32 < len then some (.error .bufferSize) else fault room rest
  | room, put bytes :: rest =>
      if bytes.length ≤ room then fault (room - bytes.length) rest else some .panic
  | _, fail fault :: _ => some fault

@[simp]
theorem allBytes_nil : allBytes [] = [] := rfl

@[simp]
theorem allBytes_cons (first : EncodeStep) (rest : List EncodeStep) :
    allBytes (first :: rest) = first.bytes ++ allBytes rest := List.flatMap_cons

@[simp]
theorem allBytes_append (first second : List EncodeStep) :
    allBytes (first ++ second) = allBytes first ++ allBytes second := List.flatMap_append

/-- The second steps are only reached when the first ones succeed. -/
theorem fault_append (room : ℕ) (first second : List EncodeStep) :
    fault room (first ++ second) =
      (fault room first).or (fault (room - (allBytes first).length) second) := by
  induction first generalizing room with
  | nil => rfl
  | cons step first ih =>
      cases step with
      | check len =>
          simp only [List.cons_append, fault, allBytes_cons, bytes, List.nil_append]
          split
          · rfl
          · exact ih room
      | put stored =>
          simp only [List.cons_append, fault, allBytes_cons, bytes, List.length_append,
            ← Nat.sub_sub]
          split
          · exact ih (room - stored.length)
          · rfl
      | fail fault => rfl

theorem length_le_of_fault {room : ℕ} {steps : List EncodeStep} (succeeds : fault room steps = none) :
    (allBytes steps).length ≤ room := by
  induction steps generalizing room with
  | nil => exact Nat.zero_le _
  | cons step rest ih =>
      cases step with
      | check len =>
          simp only [fault] at succeeds
          split at succeeds
          · simp at succeeds
          · exact ih succeeds
      | put stored =>
          simp only [fault] at succeeds
          split at succeeds
          · rename_i fits
            have others := ih succeeds
            rw [allBytes_cons, List.length_append, bytes]
            omega
          · simp at succeeds
      | fail fault => simp [EncodeStep.fault] at succeeds

/-- All steps succeed with some room left. -/
def Fits : ℕ → List EncodeStep → Prop
  | _, [] => True
  | room, check len :: rest => len ≤ room % 2 ^ 32 ∧ Fits room rest
  | room, put bytes :: rest => bytes.length ≤ room ∧ Fits (room - bytes.length) rest
  | _, fail _ :: _ => False

theorem fault_eq_none_iff {room : ℕ} {steps : List EncodeStep} :
    fault room steps = none ↔ Fits room steps := by
  induction steps generalizing room with
  | nil => simp [fault, Fits]
  | cons step rest ih =>
      cases step with
      | check len =>
          rw [fault, Fits]
          by_cases short : room % 2 ^ 32 < len
          · rw [if_pos short]
            exact iff_of_false (Option.some_ne_none _) fun both => Nat.not_le.mpr short both.1
          · rw [if_neg short, ih]
            exact ⟨fun fits => ⟨Nat.not_lt.mp short, fits⟩, And.right⟩
      | put stored =>
          by_cases fits : stored.length ≤ room
          · simp [fault, Fits, fits, ih]
          · simp [fault, Fits, fits]
      | fail fault => simp [EncodeStep.fault, Fits]

end EncodeStep

/-- The steps of a write; the length that is checked is cut to 32 bits, too. -/
def Write.steps : Write → List EncodeStep
  | plain bytes => [.put bytes]
  | checked bytes => [.check (bytes.length % 2 ^ 32), .put bytes]

/-- The steps of a series of writes. -/
def Write.allSteps (writes : List Write) : List EncodeStep := writes.flatMap steps

@[simp]
theorem Write.allBytes_allSteps (writes : List Write) :
    EncodeStep.allBytes (allSteps writes) = allBytes writes := by
  induction writes with
  | nil => rfl
  | cons write rest ih =>
      rw [allSteps, List.flatMap_cons, EncodeStep.allBytes_append, allBytes_cons]
      cases write with
      | plain stored | checked stored =>
          simp only [steps, EncodeStep.allBytes_cons, EncodeStep.bytes, EncodeStep.allBytes_nil,
            List.append_nil, List.nil_append, bytes]
          exact congrArg _ ih

@[simp]
theorem Write.allSteps_append (first second : List Write) :
    allSteps (first ++ second) = allSteps first ++ allSteps second := List.flatMap_append

namespace Encode

/-- An operation goes through some steps. -/
structure Follows (operation : Encode Unit) (steps : List EncodeStep) : Prop where
  succeeds : ∀ before : MqttEncoder, before.offset ≤ before.buf.length →
    EncodeStep.fault before.room steps = none →
      ∃ after, operation before = .ok () after ∧ before.Wrote (EncodeStep.allBytes steps) after
  fails : ∀ (before : MqttEncoder) (fault : EncodeFault), before.offset ≤ before.buf.length →
    EncodeStep.fault before.room steps = some fault →
      ∃ after, operation before = .error fault after

theorem bind_eq_error {Value Value' : Type} {first : Encode Value}
    {second : Value → Encode Value'} {before after : MqttEncoder} {fault : EncodeFault}
    (failed : first before = .error fault after) :
    (first >>= second) before = .error fault after := by
  simp only [bind, EStateM.bind, failed]

theorem bind_of_ok {Value Value' : Type} {first : Encode Value} {second : Value → Encode Value'}
    {before middle : MqttEncoder} {value : Value} (done : first before = .ok value middle) :
    (first >>= second) before = second value middle := by
  simp only [bind, EStateM.bind, done]

namespace Follows

variable {first second : Encode Unit} {left right : List EncodeStep}

theorem pure : Follows (Pure.pure ()) [] where
  succeeds before inside _ := ⟨before, rfl, .nil inside⟩
  fails _ _ _ failed := by simp [EncodeStep.fault] at failed

theorem throw (fault : EncodeFault) : Follows (throw fault) [.fail fault] where
  succeeds _ _ done := by simp [EncodeStep.fault] at done
  fails before fault' _ failed := by
    simp only [EncodeStep.fault, Option.some.injEq] at failed
    exact ⟨before, failed ▸ rfl⟩

theorem bind (follows : Follows first left) (follows' : Follows second right) :
    Follows (first >>= fun _ => second) (left ++ right) where
  succeeds before inside done := by
    rw [EncodeStep.fault_append, Option.or_eq_none_iff] at done
    rcases follows.succeeds before inside done.1 with ⟨middle, ended, wrote⟩
    rcases follows'.succeeds middle wrote.inside (by rw [wrote.room_eq]; exact done.2) with
      ⟨after, ended', wrote'⟩
    refine ⟨after, ?_, ?_⟩
    · rw [bind_of_ok ended]
      exact ended'
    · rw [EncodeStep.allBytes_append]
      exact wrote.append wrote'
  fails before fault inside failed := by
    rw [EncodeStep.fault_append] at failed
    rcases done : EncodeStep.fault before.room left with _ | early
    · rw [done, Option.none_or] at failed
      rcases follows.succeeds before inside done with ⟨middle, ended, wrote⟩
      rcases follows'.fails middle fault wrote.inside (by rw [wrote.room_eq]; exact failed) with
        ⟨after, ended'⟩
      refine ⟨after, ?_⟩
      rw [bind_of_ok ended]
      exact ended'
    · rw [done, Option.some_or, Option.some.injEq] at failed
      rcases follows.fails before early inside done with ⟨after, ended⟩
      exact ⟨after, failed ▸ bind_eq_error ended⟩

theorem forM {Value : Type} {operation : Value → Encode Unit} {steps : Value → List EncodeStep}
    (each : ∀ value, Follows (operation value) (steps value)) (values : List Value) :
    Follows (values.forM operation) (values.flatMap steps) := by
  induction values with
  | nil => exact pure
  | cons value rest ih =>
      rw [List.flatMap_cons]
      exact (each value).bind ih

theorem checkRemaining (len : ℕ) : Follows (MqttEncoder.checkRemaining len) [.check len] where
  succeeds before inside done := by
    simp only [EncodeStep.fault] at done
    split at done
    · simp at done
    · rename_i enough
      refine ⟨before, ?_, .nil inside⟩
      exact (if_neg (Nat.not_lt.mpr inside)).trans (if_neg enough)
  fails before fault inside failed := by
    simp only [EncodeStep.fault] at failed
    split at failed
    · rename_i short
      rw [Option.some.injEq] at failed
      refine ⟨before, ?_⟩
      exact (if_neg (Nat.not_lt.mpr inside)).trans ((if_pos short).trans (failed ▸ rfl))
    · simp at failed

theorem copyFromSlice (bytes : List UInt8) :
    Follows (MqttEncoder.copyFromSlice bytes) [.put bytes] where
  succeeds before inside done := by
    have short := EncodeStep.length_le_of_fault done
    simp only [EncodeStep.allBytes_cons, EncodeStep.bytes, EncodeStep.allBytes_nil,
      List.append_nil, room] at short
    have fits : before.offset + bytes.length ≤ before.buf.length := by omega
    rcases exists_wrote fits with ⟨after, wrote⟩
    refine ⟨after, ?_, ?_⟩
    · rw [MqttEncoder.copyFromSlice, if_pos fits, wrote.eq]
    · simpa [EncodeStep.bytes] using wrote
  fails before fault inside failed := by
    simp only [EncodeStep.fault] at failed
    split at failed
    · simp at failed
    · rename_i full
      rw [Option.some.injEq] at failed
      unfold room at full
      refine ⟨before, ?_⟩
      rw [MqttEncoder.copyFromSlice, if_neg (by omega), failed]

theorem writeU8 (byte : UInt8) : Follows (MqttEncoder.writeU8 byte) [.put [byte]] :=
  copyFromSlice [byte]

theorem copyNothing : Follows (Pure.pure ()) [.put []] where
  succeeds before inside _ := ⟨before, rfl, .nil inside⟩
  fails _ _ _ failed := by simp [EncodeStep.fault] at failed

theorem merge {operation : Encode Unit} {bytes bytes' : List UInt8}
    (follows : Follows operation [.put bytes, .put bytes']) :
    Follows operation [.put (bytes ++ bytes')] := by
  have same : ∀ room, EncodeStep.fault room [.put (bytes ++ bytes')] =
      EncodeStep.fault room [.put bytes, .put bytes'] := by
    intro room
    simp only [EncodeStep.fault, List.length_append]
    by_cases first : bytes.length ≤ room
    · by_cases second : bytes'.length ≤ room - bytes.length
      · rw [if_pos first, if_pos second, if_pos (by omega)]
      · rw [if_pos first, if_neg second, if_neg (by omega)]
    · rw [if_neg first, if_neg (by omega)]
  have stored : EncodeStep.allBytes [.put (bytes ++ bytes')] =
      EncodeStep.allBytes [.put bytes, .put bytes'] := by
    simp [EncodeStep.bytes]
  constructor
  · intro before inside done
    rw [stored]
    exact follows.succeeds before inside (same _ ▸ done)
  · intro before fault inside failed
    exact follows.fails before fault inside (same _ ▸ failed)

theorem checked {operation : Encode Unit} {bytes : List UInt8}
    (follows : Follows operation [.put bytes]) {len : ℕ} (asked : len = bytes.length % 2 ^ 32) :
    Follows (MqttEncoder.checkRemaining len >>= fun _ => operation)
      (Write.allSteps [.checked bytes]) := by
  subst asked
  exact (checkRemaining _).bind follows

theorem writeU16 (value : ℕ) :
    Follows (MqttEncoder.writeU16 value) (Write.allSteps [.checked (u16Bytes value)]) :=
  checked (copyFromSlice _) rfl

theorem writeU32 (value : ℕ) :
    Follows (MqttEncoder.writeU32 value) (Write.allSteps [.checked (u32Bytes value)]) :=
  checked (copyFromSlice _) rfl

/-- However long a slice is, it is written behind the low sixteen bits of its length. -/
theorem writeSlice (bytes : List UInt8) :
    Follows (MqttEncoder.writeSlice bytes) (Write.allSteps [.checked (sliceBytes bytes)]) := by
  have copies := merge ((copyFromSlice (u16Bytes bytes.length)).bind (copyFromSlice bytes))
  rw [MqttEncoder.writeSlice, Performs.u16Bytes_mod]
  refine checked copies ?_
  rw [← sliceBytes, Property.length_sliceBytes]
  omega

theorem writeStr (text : Utf8) :
    Follows (MqttEncoder.writeStr text) (Write.allSteps [.checked (sliceBytes text.bytes)]) :=
  writeSlice text.bytes

theorem writeVarint (len : ℕ) :
    Follows (MqttEncoder.writeVarint len) (Write.allSteps [.plain (Varint.encode len)]) := by
  apply writeVarintLoop_induction (motive := fun operation bytes =>
    Follows operation [.put bytes])
  · exact copyNothing
  · exact writeU8
  · intro byte operation bytes follows
    exact merge ((writeU8 byte).bind follows)

theorem writeProperty (property : Property) :
    Follows (MqttEncoder.writeProperty property) (Write.allSteps property.writes) := by
  have behind : ∀ {value : Encode Unit} {writes : List Write},
      Follows value (Write.allSteps writes) →
      Follows (MqttEncoder.writeU8 property.identifier >>= fun _ => value)
        (Write.allSteps (.plain [property.identifier] :: writes)) :=
    fun follows => (writeU8 _).bind follows
  have byte : ∀ value, Follows (MqttEncoder.writeU8 value) (Write.allSteps [.plain [value]]) := writeU8
  cases property with
  | payloadFormatIndicator | requestProblemInformation | requestResponseInformation | maximumQoS
  | retainAvailable | wildcardSubscriptionAvailable | subscriptionIdentifierAvailable
  | sharedSubscriptionAvailable => exact behind (byte _)
  | messageExpiryInterval | sessionExpiryInterval | willDelayInterval | maximumPacketSize =>
      exact behind (writeU32 _)
  | contentType | responseTopic | assignedClientIdentifier | authenticationMethod
  | responseInformation | serverReference | reasonString | correlationData
  | authenticationData => exact behind (writeSlice _)
  | subscriptionIdentifier => exact behind (writeVarint _)
  | serverKeepAlive | receiveMaximum | topicAliasMaximum | topicAlias => exact behind (writeU16 _)
  | userProperty key value =>
      have both := (writeStr key).bind (writeStr value)
      rw [← Write.allSteps_append] at both
      exact behind both

end Follows

end Encode

/-- The steps of writing properties: computing their size may panic. -/
def Properties.steps (properties : Properties) : List EncodeStep :=
  match properties.size with
  | none => [.fail .panic]
  | some size => Write.allSteps (properties.writes size)

namespace Encode.Follows

theorem forM_writeProperty (properties : List Property) :
    Follows (properties.forM MqttEncoder.writeProperty)
      (Write.allSteps (properties.flatMap Property.writes)) := by
  rw [Write.allSteps, List.flatMap_assoc]
  exact forM writeProperty properties

theorem writeProperties (properties : Properties) :
    Follows (MqttEncoder.writeProperties properties) properties.steps := by
  unfold MqttEncoder.writeProperties Properties.steps
  rcases sized : properties.size with _ | size
  · exact throw .panic
  · have behind : ∀ {block : Encode Unit}, Follows block (Write.allSteps properties.blockWrites) →
        Follows (MqttEncoder.writeVarint (size % 2 ^ 32) >>= fun _ => block)
          (Write.allSteps (properties.writes size)) :=
      fun follows => (writeVarint (size % 2 ^ 32)).bind follows
    apply behind
    cases properties with
    | slice list => exact forM_writeProperty list
    | dataBlock block => exact writeSlice block
    | correlatedSlice correlation list =>
        rw [Properties.blockWrites, Write.allSteps_append]
        exact (writeProperty correlation).bind (forM_writeProperty list)

end Encode.Follows

end Mqttrust
