import Mathlib.Data.ZMod.Basic
import Mathlib.Tactic.Ring
import Mqttrust.System.Shared

/-!
# The cycle of packet identifiers

The additions and subtractions of packet identifiers avoid zero by an extra step where
the `u16` overflows. The nonzero values of a `u16` are a cycle of 65535 positions, and
both operations are plain modular arithmetic on the positions.
-/

namespace Mqttrust

namespace Pid

variable {pid other : Pid} {step : ℕ}

/-- The position of an identifier in the cycle. -/
def position (pid : Pid) : ZMod 65535 := (pid.val - 1 : ℕ)

theorem val_position (pid : Pid) : pid.position.val = pid.val - 1 := by
  have bound := pid.lt
  exact ZMod.val_cast_of_lt (by omega)

theorem val_eq (pid : Pid) : pid.val = pid.position.val + 1 := by
  have positive := pid.pos
  rw [val_position]
  omega

theorem position_injective : Function.Injective position := by
  intro pid other same
  apply Pid.ext
  rw [val_eq pid, val_eq other, same]

theorem position_add (small : step < 65536) :
    (pid.add step small).position = pid.position + step := by
  have positive := pid.pos
  have bound := pid.lt
  rw [position, position, ← Nat.cast_add, ZMod.natCast_eq_natCast_iff, Nat.ModEq, add]
  split
  · dsimp only
    omega
  · dsimp only
    omega

theorem position_sub (small : step < 65536) :
    (pid.sub step small).position = pid.position - step := by
  have positive := pid.pos
  have bound := pid.lt
  rw [eq_sub_iff_add_eq, position, position, ← Nat.cast_add, ZMod.natCast_eq_natCast_iff,
    Nat.ModEq, sub]
  split
  · dsimp only
    omega
  · split
    · dsimp only
      omega
    · dsimp only
      omega

theorem add_sub_cancel (small : step < 65536) : (pid.add step small).sub step small = pid := by
  apply position_injective
  rw [position_sub, position_add, add_sub_cancel_right]

end Pid

namespace System.Shared

variable {config : CrateConfig}

/-- What successive calls of `next_pid` return. -/
def nextPids (shared : Shared config) : ℕ → List Pid
  | 0 => []
  | count + 1 => shared.nextPid :: shared.takePid.nextPids count

theorem length_nextPids (shared : Shared config) (count : ℕ) :
    (shared.nextPids count).length = count := by
  induction count generalizing shared with
  | zero => rfl
  | succ count ih => rw [nextPids, List.length_cons, ih]

/-- Each call goes one position further. -/
theorem position_nextPids {shared : Shared config} {count i : ℕ} {pid : Pid}
    (found : (shared.nextPids count)[i]? = some pid) :
    pid.position = shared.lastPid.position + (i + 1 : ℕ) := by
  induction count generalizing shared i with
  | zero => simp [nextPids] at found
  | succ count ih =>
      cases i with
      | zero =>
          rcases Option.some.inj found with rfl
          exact Pid.position_add (Nat.le_of_ble_eq_true rfl)
      | succ i =>
          have taken : shared.takePid.lastPid.position = shared.lastPid.position + (1 : ℕ) :=
            Pid.position_add (Nat.le_of_ble_eq_true rfl)
          rw [ih found, taken]
          push_cast
          ring

/-- Up to 65535 successive identifiers differ. -/
theorem nodup_nextPids {shared : Shared config} {count : ℕ} (short : count ≤ 65535) :
    (shared.nextPids count).Nodup := by
  rw [List.nodup_iff_getElem?_ne_getElem?]
  intro i j before inside same
  rw [length_nextPids] at inside
  rcases found : (shared.nextPids count)[j]? with _ | pid
  · rw [List.getElem?_eq_none_iff, length_nextPids] at found
    omega
  · have positions := position_nextPids (same.trans found)
    rw [position_nextPids found, add_right_inj, ZMod.natCast_eq_natCast_iff, Nat.ModEq] at positions
    omega

/-- The identifiers go through the cycle, whatever the last one was, and a step back undoes a step
forth. -/
theorem nextPids_cycle (shared : Shared config) (count : ℕ) :
    (shared.nextPids count).map Pid.val =
        (List.range count).map (fun i => (shared.lastPid.val - 1 + (i + 1)) % 65535 + 1) ∧
      (∀ pid ∈ shared.nextPids count, pid.val ≠ 0) ∧
      (count ≤ 65535 → (shared.nextPids count).Nodup) ∧
      ∀ (pid : Pid) (step : UInt16),
        (pid.add step.toNat step.toNat_lt).sub step.toNat step.toNat_lt = pid := by
  refine ⟨?_, fun pid _ => pid.pos.ne', nodup_nextPids, fun pid step => Pid.add_sub_cancel _⟩
  apply List.ext_getElem
  · rw [List.length_map, List.length_map, length_nextPids, List.length_range]
  · intro i inside inside'
    rw [List.length_map] at inside
    rw [List.getElem_map, List.getElem_map, List.getElem_range, Pid.val_eq,
      position_nextPids (List.getElem?_eq_getElem inside), Pid.position, ← Nat.cast_add,
      ZMod.val_natCast]

/-- After 65535, the first identifier is issued. -/
theorem nextPids_cycle_example :
    (Shared.nextPids ({ Shared.new with lastPid := ⟨65534, by decide, by decide⟩ } :
      Shared (.default .mqttv5 true)) 2).map Pid.val = [65535, 1] ∧
    (Shared.nextPids ({ Shared.new with lastPid := ⟨65534, by decide, by decide⟩ } :
      Shared (.default .mqttv5 true)) 2).Nodup := by
  rcases nextPids_cycle ({ Shared.new with lastPid := ⟨65534, by decide, by decide⟩ } :
    Shared (.default .mqttv5 true)) 2 with ⟨values, _, distinct, _⟩
  exact ⟨values, distinct (by decide)⟩

end System.Shared

end Mqttrust
