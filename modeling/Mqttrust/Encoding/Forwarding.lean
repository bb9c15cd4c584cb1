import Mqttrust.Encoding.PacketSteps
import Mqttrust.Encoding.PropertyBlock

/-!
# Properties that are encoded again

The properties of a received packet are a block of bytes. When they are encoded
again, `write_properties` writes the length of the block and then the block as a
slice, with a length of its own: two bytes more than were announced.
-/

namespace Mqttrust

open MqttEncoder

namespace Properties

/-- As many bytes are written behind the length of the properties as their size says, and behind
the length of a block those of the block. -/
def Forwards (encoder : MqttEncoder) (properties : Properties) : Prop :=
  ∃ after size block, writeProperties properties encoder = .ok () after ∧
    properties.size = some size ∧
    encoder.written after = Varint.encode (size % 2 ^ 32) ++ block ∧ block.length = size ∧
    ∀ received, properties = .dataBlock received → block = received

variable {encoder : MqttEncoder} {properties : Properties}

/-- Properties are forwarded exactly if they are no block and have no subscription identifiers but
zeros, as long as no check of the remaining space is cut. -/
theorem forwards_iff
    (enough : (EncodeStep.allBytes properties.steps).length ≤ encoder.room) :
    properties.Forwards encoder ↔
      (∀ received, properties ≠ .dataBlock received) ∧ properties.excess = 0 ∧
        EncodeStep.Fits encoder.room properties.steps := by
  have follows := Encode.Follows.writeProperties properties
  rcases sized : properties.size with _ | size
  · have steps : properties.steps = [.fail .panic] := by rw [Properties.steps, sized]
    refine iff_of_false ?_ ?_
    · rintro ⟨after, size, block, _, found, _⟩
      rw [sized] at found
      simp at found
    · rintro ⟨_, _, fits⟩
      rw [steps] at fits
      exact fits
  · have stored := allBytes_steps sized
    have inside : encoder.offset ≤ encoder.buf.length := by
      have nonempty := List.length_pos_of_ne_nil (Varint.encode_ne_nil (size % 2 ^ 32))
      rw [stored, List.length_append] at enough
      unfold room at enough
      omega
    constructor
    · rintro ⟨after, size', block, done, found, written, length, whole⟩
      cases sized.symm.trans found
      rcases outcome : EncodeStep.fault encoder.room properties.steps with _ | fault
      · rcases follows.succeeds encoder inside outcome with ⟨after', done', wrote⟩
        rw [done] at done'
        cases done'
        rw [wrote.written_eq, stored, List.append_cancel_left_eq] at written
        have counted := size_eq_of_size sized
        rw [← written] at length whole
        have notBlock : ∀ received, properties ≠ .dataBlock received := by
          rintro received rfl
          have same := congrArg List.length (whole received rfl)
          rw [blockBytes, Property.length_sliceBytes] at same
          omega
        rcases counted with counted | ⟨received, same, _⟩
        · exact ⟨notBlock, by omega, EncodeStep.fault_eq_none_iff.mp outcome⟩
        · exact absurd same (notBlock received)
      · rcases follows.fails encoder fault inside outcome with ⟨_, failed⟩
        rw [done] at failed
        simp at failed
    · rintro ⟨notBlock, plain, fits⟩
      rcases follows.succeeds encoder inside (EncodeStep.fault_eq_none_iff.mpr fits) with
        ⟨after, done, wrote⟩
      refine ⟨after, size, properties.blockBytes, done, sized, ?_, ?_, ?_⟩
      · rw [wrote.written_eq, stored]
      · rcases size_eq_of_size sized with counted | ⟨received, same, _⟩
        · omega
        · exact absurd same (notBlock received)
      · exact fun received same => absurd same (notBlock received)

theorem forwards_iff_example :
    (Properties.correlatedSlice (.correlationData [1, 2]) [.topicAlias 7]).Forwards
      (MqttEncoder.new (List.replicate 32 0)) := by
  apply (forwards_iff ?_).mpr
  · refine ⟨nofun, rfl, ?_⟩
    exact EncodeStep.fault_eq_none_iff.mp (by decide)
  · decide

/-- A received block of two bytes is written as four bytes, and its first two are read back. -/
theorem not_forwards_dataBlock :
    ∃ received : List UInt8,
      (∃ decoder, (MqttDecoder.mk [2, 1, 1] 2 2 ⟨.connAck, false, .atMostOnce, false, 3⟩).readProperties
        = .ok (received, decoder)) ∧
      (∃ after, writeProperties (.dataBlock received) (MqttEncoder.new (List.replicate 32 0)) =
          .ok () after ∧
        (MqttEncoder.new (List.replicate 32 0)).written after = [2, 0, 2, 1, 1] ∧
        ∃ decoder, (MqttDecoder.mk [2, 0, 2, 1, 1] 2 2
          ⟨.connAck, false, .atMostOnce, false, 5⟩).readProperties = .ok ([0, 2], decoder)) ∧
      ¬(Properties.dataBlock received).Forwards (MqttEncoder.new (List.replicate 32 0)) := by
  refine ⟨[1, 1], ⟨_, rfl⟩, ⟨_, rfl, by decide, _, rfl⟩, ?_⟩
  intro forwards
  exact ((forwards_iff (by decide)).mp forwards).1 _ rfl

end Properties

end Mqttrust
