import Mqttrust.Encoding.IndexedProperties

/-!
# Iterating over hostile properties

`PropertiesIter::next` reads a property at its index. A reader that fails leaves the
index where it stopped reading, and the iteration goes on from there. The identifier of
a property is read before anything can fail, unless nothing is left, so that every item
moves the index on.
-/

namespace Mqttrust

namespace IndexedIter

open Cursor

/-- `PropertiesIter::next`. -/
def next : IndexedIter (Option (Except PropertyError Property)) := fun cursor =>
  if cursor.data.length ≤ cursor.index then .ok none cursor
  else
    match readProperty cursor with
    | .ok property cursor => .ok (some (.ok property)) cursor
    | .error (.error error) cursor => .ok (some (.error error)) cursor
    | .error .panic cursor => .error .panic cursor

/-- Reading a property takes at least one byte, whether it succeeds or not. -/
theorem iterates_next : Iterates next := by
  intro cursor inRange
  have inside : cursor.index ≤ cursor.data.length := inRange
  have length := cursor.length_rest
  unfold next
  by_cases ended : cursor.data.length ≤ cursor.index
  · exact .inl ⟨by omega, if_pos ended⟩
  · rw [if_neg ended]
    right
    cases left : cursor.rest with
    | nil =>
        rw [left, List.length_nil] at length
        omega
    | cons byte rest =>
        have shorter := PropertiesIter.length_step_readProperty byte rest
        rw [left, List.length_cons] at length
        rcases (tracks_readProperty cursor inRange).cases with
          ⟨property, after, done, same, inside', done'⟩ |
          ⟨error, after, failed, same, inside', failed'⟩
        · have length' := after.length_rest
          rw [left] at done'
          rw [PropertiesIter.step, done'] at shorter
          rw [same] at length'
          refine ⟨.ok property, after, by rw [done], same, inside', ?_⟩
          dsimp only at shorter
          omega
        · have length' := after.length_rest
          rw [left] at failed'
          rw [PropertiesIter.step, failed'] at shorter
          rw [same] at length'
          refine ⟨.error error, after, by rw [failed], same, inside', ?_⟩
          dsimp only at shorter
          omega

/-- Iterating over a block: any number of calls leaves the index inside, an item moves it on, and
after at most as many items as there are bytes there are no more. -/
structure TotalIteration (block : List UInt8) : Prop where
  inside : ∀ count, ∃ items after, repeated next count ⟨block, 0⟩ = .ok items after ∧
    after.data = block ∧ after.index ≤ block.length
  increases : ∀ count items before, repeated next count ⟨block, 0⟩ = .ok items before →
    ∀ item after, next before = .ok (some item) after → before.index < after.index
  ends : ∃ (items : List (Except PropertyError Property)) (after : Cursor UInt8),
    items.length ≤ block.length ∧
    repeated next items.length ⟨block, 0⟩ = .ok (items.map some) after ∧
    ∀ count, repeated next count after = .ok (List.replicate count none) after

theorem iteration_total (block : List UInt8) : TotalIteration block := by
  have start : (⟨block, 0⟩ : Cursor UInt8).InRange := Nat.zero_le _
  refine ⟨?_, ?_, ?_⟩
  · intro count
    rcases iterates_next.exists_repeated count start with ⟨items, after, run, same, inside⟩
    have inside' : after.index ≤ after.data.length := inside
    rw [same] at inside'
    exact ⟨items, after, run, same, inside'⟩
  · intro count items before run item after given
    rcases iterates_next.exists_repeated count start with ⟨items', before', run', _, inRange⟩
    rw [run] at run'
    cases run'
    rcases iterates_next before inRange with ⟨_, stays⟩ | ⟨item', after', moves, _, _, more⟩
    · rw [given] at stays
      cases stays
    · rw [given] at moves
      cases moves
      exact more
  · rcases iterates_next.exists_values start with ⟨items, after, short, run, _, ended⟩
    exact ⟨items, after, short, run, iterates_next.repeated_of_ended ended⟩

end IndexedIter

end Mqttrust
