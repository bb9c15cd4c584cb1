import Mathlib.Data.Fintype.Basic
import Mathlib.Logic.Equiv.Defs
import Mathlib.Logic.Function.Basic
import Mathlib.Tactic.Common

/-!
# Pools of slots

A pool hands out its first unused slot and takes slots back by their offsets. Who
owns a slot is kept apart from the pool: the pool marks exactly the owned slots,
and no slot has two owners.
-/

namespace Mqttrust

universe u

/-- Which of the slots are used. -/
structure Pool (slots : ℕ) where
  used : Fin slots → Bool
deriving DecidableEq

namespace Pool

variable {slots : ℕ} (pool : Pool slots)

/-- No slot is used. -/
def new (slots : ℕ) : Pool slots := ⟨fun _ => false⟩

/-- Marks a slot. -/
def mark (slot : Fin slots) (used : Bool) : Pool slots :=
  ⟨Function.update pool.used slot used⟩

/-- The first unused slot, which is used from then on. -/
def alloc : Option (Fin slots × Pool slots) :=
  ((List.finRange slots).find? fun slot => !pool.used slot).map fun slot =>
    (slot, pool.mark slot true)

/-- Takes back the slot at an offset; an offset outside of the pool is refused. -/
def free (offset : ℤ) : Option (Pool slots) :=
  if inside : 0 ≤ offset ∧ offset < slots then
    some (pool.mark ⟨offset.toNat, by omega⟩ false)
  else none

variable {pool}

theorem alloc_eq_none_iff : pool.alloc = none ↔ ∀ slot, pool.used slot = true := by
  simp [alloc, List.find?_eq_none]

theorem exists_of_alloc_eq_some {slot : Fin slots} {next : Pool slots}
    (allocated : pool.alloc = some (slot, next)) :
    pool.used slot = false ∧ next = pool.mark slot true := by
  rcases Option.map_eq_some_iff.mp allocated with ⟨found, isFirst, same⟩
  rcases Prod.mk.inj same with ⟨rfl, rfl⟩
  exact ⟨by simpa using List.find?_some isFirst, rfl⟩

theorem free_coe (slot : Fin slots) : pool.free slot = some (pool.mark slot false) := by
  have inside : 0 ≤ (slot : ℤ) ∧ (slot : ℤ) < slots := ⟨by omega, by omega⟩
  rw [free, dif_pos inside]
  rfl

@[simp]
theorem used_mark_self (slot : Fin slots) (used : Bool) : (pool.mark slot used).used slot = used :=
  Function.update_self ..

theorem used_mark_of_ne {slot other : Fin slots} {used : Bool} (apart : other ≠ slot) :
    (pool.mark slot used).used other = pool.used other :=
  Function.update_of_ne apart ..

/-- The used slots are those that are owned, each by one owner. -/
structure Owned {Owner : Type u} (pool : Pool slots) (owns : Owner → Option ℤ) : Prop where
  used : ∀ slot : Fin slots, pool.used slot = true ↔ ∃ owner, owns owner = some (slot : ℤ)
  inside : ∀ owner offset, owns owner = some offset → ∃ slot : Fin slots, offset = slot
  alone : ∀ owner other offset, owns owner = some offset → owns other = some offset →
    owner = other

namespace Owned

variable {Owner : Type u} [DecidableEq Owner] {owns : Owner → Option ℤ} {owner : Owner}
  {slot : Fin slots} {next : Pool slots} {offset : ℤ}

omit [DecidableEq Owner] in
theorem new : (Pool.new slots).Owned fun _ : Owner => none where
  used := by simp [Pool.new]
  inside := by simp
  alone := by simp

omit [DecidableEq Owner] in
/-- All slots are owned when there is none left. -/
theorem alloc_eq_none_iff (owned : pool.Owned owns) :
    pool.alloc = none ↔ ∀ slot : Fin slots, ∃ owner, owns owner = some (slot : ℤ) := by
  rw [Pool.alloc_eq_none_iff]
  exact forall_congr' owned.used

theorem alloc (owned : pool.Owned owns) (free : owns owner = none)
    (allocated : pool.alloc = some (slot, next)) :
    next.Owned (Function.update owns owner (some (slot : ℤ))) := by
  rcases exists_of_alloc_eq_some allocated with ⟨unused, rfl⟩
  have unowned : ∀ other, owns other ≠ some (slot : ℤ) := by
    intro other owns_slot
    have isUsed := (owned.used slot).mpr ⟨other, owns_slot⟩
    simp [unused] at isUsed
  constructor
  case used =>
    intro place
    by_cases same : place = slot
    case pos =>
      subst same
      simp only [used_mark_self, true_iff]
      exact ⟨owner, Function.update_self ..⟩
    case neg =>
      have apart : (place : ℤ) ≠ slot := by omega
      rw [used_mark_of_ne same, owned.used place]
      constructor
      case mp =>
        intro ⟨other, owns_place⟩
        have others : other ≠ owner := by
          rintro rfl
          simp [free] at owns_place
        exact ⟨other, by rwa [Function.update_of_ne others]⟩
      case mpr =>
        intro ⟨other, owns_place⟩
        rw [Function.update_apply] at owns_place
        split at owns_place
        · exact absurd (Option.some.inj owns_place).symm apart
        · exact ⟨other, owns_place⟩
  case inside =>
    intro other offset owns_offset
    rw [Function.update_apply] at owns_offset
    split at owns_offset
    · exact ⟨slot, (Option.some.inj owns_offset).symm⟩
    · exact owned.inside other offset owns_offset
  case alone =>
    intro one other offset one_owns other_owns
    rw [Function.update_apply] at one_owns other_owns
    split at one_owns <;> split at other_owns
    · simp_all
    · rw [← one_owns] at other_owns
      exact absurd other_owns (unowned other)
    · rw [← other_owns] at one_owns
      exact absurd one_owns (unowned one)
    · exact owned.alone one other offset one_owns other_owns

/-- An owner gives its slot back. -/
theorem free (owned : pool.Owned owns) (owns_offset : owns owner = some offset) :
    ∃ next, pool.free offset = some next ∧ next.Owned (Function.update owns owner none) := by
  rcases owned.inside owner offset owns_offset with ⟨slot, rfl⟩
  refine ⟨pool.mark slot false, free_coe slot, ?_⟩
  constructor
  case used =>
    intro place
    by_cases same : place = slot
    case pos =>
      subst same
      simp only [used_mark_self, Bool.false_eq_true, false_iff]
      intro ⟨other, owns_place⟩
      rw [Function.update_apply] at owns_place
      split at owns_place
      · simp at owns_place
      · exact absurd (owned.alone other owner _ owns_place owns_offset) ‹_›
    case neg =>
      have apart : (place : ℤ) ≠ slot := by omega
      rw [used_mark_of_ne same, owned.used place]
      constructor
      case mp =>
        intro ⟨other, owns_place⟩
        have others : other ≠ owner := by
          rintro rfl
          rw [owns_offset] at owns_place
          exact apart (Option.some.inj owns_place).symm
        exact ⟨other, by rwa [Function.update_of_ne others]⟩
      case mpr =>
        intro ⟨other, owns_place⟩
        rw [Function.update_apply] at owns_place
        split at owns_place
        · simp at owns_place
        · exact ⟨other, owns_place⟩
  case inside =>
    intro other offset owns_offset
    rw [Function.update_apply] at owns_offset
    split at owns_offset
    · simp at owns_offset
    · exact owned.inside other offset owns_offset
  case alone =>
    intro one other offset one_owns other_owns
    rw [Function.update_apply] at one_owns other_owns
    split at one_owns <;> split at other_owns
    · simp at one_owns
    · simp at one_owns
    · simp at other_owns
    · exact owned.alone one other offset one_owns other_owns

omit [DecidableEq Owner] in
/-- The owners may be named anew. -/
theorem rename (owned : pool.Owned owns) (names : Owner ≃ Owner) :
    pool.Owned (owns ∘ names) where
  used slot := (owned.used slot).trans names.surjective.exists
  inside _ := owned.inside _
  alone _ _ offset owns_offset other_owns :=
    names.injective (owned.alone _ _ offset owns_offset other_owns)

end Owned

end Pool

end Mqttrust
