import Mathlib.Data.List.Basic
import Mathlib.Tactic.Common

/-!
# Tables of live objects

Objects that are handed out and later dropped are kept in a table. A handle is
the position of the object in the order of creation; it is never used again
after the object is removed.
-/

namespace Mqttrust

universe u

/-- The objects handed out so far; a removed object leaves an empty slot behind. -/
structure Table (Object : Type u) where
  slots : List (Option Object) := []
deriving DecidableEq, Repr

namespace Table

variable {Object : Type u}

/-- The table before anything was handed out. -/
def empty : Table Object := ⟨[]⟩

/-- The live object behind a handle. -/
def get? (table : Table Object) (handle : ℕ) : Option Object := (table.slots[handle]?).join

/-- The handle of the next object. -/
def next (table : Table Object) : ℕ := table.slots.length

/-- Hands out a new object. -/
def insert (table : Table Object) (object : Object) : Table Object :=
  ⟨table.slots ++ [some object]⟩

/-- Changes the object behind a handle. -/
def replace (table : Table Object) (handle : ℕ) (object : Object) : Table Object :=
  ⟨table.slots.set handle (some object)⟩

/-- Removes the object behind a handle. -/
def remove (table : Table Object) (handle : ℕ) : Table Object := ⟨table.slots.set handle none⟩

/-- The number of live objects with a property. -/
def count (property : Object → Bool) (table : Table Object) : ℕ :=
  table.slots.countP fun slot => slot.any property

theorem lt_next_of_get? {table : Table Object} {handle : ℕ} {object : Object}
    (live : table.get? handle = some object) : handle < table.next := by
  by_contra outside
  rw [get?, List.getElem?_eq_none (by simpa [next] using outside)] at live
  simp at live

theorem slots_of_get? {table : Table Object} {handle : ℕ} {object : Object}
    (live : table.get? handle = some object) :
    ∃ inside : handle < table.slots.length, table.slots[handle] = some object := by
  have inside : handle < table.slots.length := lt_next_of_get? live
  refine ⟨inside, ?_⟩
  simpa [get?, List.getElem?_eq_getElem inside] using live

@[simp]
theorem get?_empty (handle : ℕ) : (empty : Table Object).get? handle = none := rfl

@[simp]
theorem get?_next (table : Table Object) : table.get? table.next = none := by
  by_contra live
  rcases Option.ne_none_iff_exists'.mp live with ⟨object, live⟩
  exact absurd (lt_next_of_get? live) (Nat.lt_irrefl _)

theorem get?_insert (table : Table Object) (object : Object) (handle : ℕ) :
    (table.insert object).get? handle =
      if handle = table.next then some object else table.get? handle := by
  unfold get? insert next
  rcases Nat.lt_trichotomy handle table.slots.length with before | at_end | after
  · rw [List.getElem?_append_left before, if_neg (Nat.ne_of_lt before)]
  · subst at_end
    simp
  · rw [if_neg (Nat.ne_of_gt after), List.getElem?_eq_none (by simp; omega),
      List.getElem?_eq_none (Nat.le_of_lt after)]

@[simp]
theorem get?_insert_next (table : Table Object) (object : Object) :
    (table.insert object).get? table.next = some object := by
  rw [get?_insert, if_pos rfl]

theorem get?_insert_of_get? {table : Table Object} {handle : ℕ} {object : Object}
    (live : table.get? handle = some object) (newest : Object) :
    (table.insert newest).get? handle = some object := by
  rw [get?_insert, if_neg (Nat.ne_of_lt (lt_next_of_get? live)), live]

theorem get?_replace {table : Table Object} {handle : ℕ} {old : Object}
    (live : table.get? handle = some old) (object : Object) (other : ℕ) :
    (table.replace handle object).get? other =
      if other = handle then some object else table.get? other := by
  have inside : handle < table.slots.length := lt_next_of_get? live
  unfold get? replace
  rw [List.getElem?_set]
  by_cases same : handle = other
  · subst same
    simp [inside]
  · simp [same, Ne.symm same]

theorem get?_remove (table : Table Object) (handle other : ℕ) :
    (table.remove handle).get? other = if other = handle then none else table.get? other := by
  unfold get? remove
  rw [List.getElem?_set]
  by_cases same : handle = other
  · subst same
    by_cases inside : handle < table.slots.length <;> simp [inside]
  · simp [same, Ne.symm same]

@[simp]
theorem next_insert (table : Table Object) (object : Object) :
    (table.insert object).next = table.next + 1 := by
  simp [next, insert]

@[simp]
theorem next_replace (table : Table Object) (handle : ℕ) (object : Object) :
    (table.replace handle object).next = table.next := by
  simp [next, replace]

@[simp]
theorem next_remove (table : Table Object) (handle : ℕ) :
    (table.remove handle).next = table.next := by
  simp [next, remove]

@[simp]
theorem count_empty (property : Object → Bool) : (empty : Table Object).count property = 0 := rfl

theorem count_insert (property : Object → Bool) (table : Table Object) (object : Object) :
    (table.insert object).count property =
      table.count property + if property object then 1 else 0 := by
  simp [count, insert, List.countP_append, List.countP_cons]

theorem count_pos_of_get? (property : Object → Bool) {table : Table Object} {handle : ℕ}
    {object : Object} (live : table.get? handle = some object) (holds : property object = true) :
    0 < table.count property := by
  rcases slots_of_get? live with ⟨inside, slot⟩
  refine List.countP_pos_iff.mpr ⟨some object, ?_, by simpa using holds⟩
  exact slot ▸ List.getElem_mem inside

theorem count_replace (property : Object → Bool) {table : Table Object} {handle : ℕ}
    {old : Object} (live : table.get? handle = some old) (object : Object) :
    (table.replace handle object).count property =
      table.count property - (if property old then 1 else 0) + if property object then 1 else 0 := by
  rcases slots_of_get? live with ⟨inside, slot⟩
  simp only [count, replace]
  rw [List.countP_set inside]
  simp [slot]

theorem count_remove (property : Object → Bool) {table : Table Object} {handle : ℕ}
    {old : Object} (live : table.get? handle = some old) :
    (table.remove handle).count property =
      table.count property - if property old then 1 else 0 := by
  rcases slots_of_get? live with ⟨inside, slot⟩
  simp only [count, remove]
  rw [List.countP_set inside]
  simp [slot]

theorem get?_of_mem_slots {table : Table Object} {object : Object}
    (slot_mem : some object ∈ table.slots) : ∃ handle, table.get? handle = some object := by
  rcases List.getElem?_of_mem slot_mem with ⟨handle, found⟩
  exact ⟨handle, by rw [get?, found, Option.join_some]⟩

theorem exists_of_count_pos {property : Object → Bool} {table : Table Object}
    (positive : 0 < table.count property) :
    ∃ handle object, table.get? handle = some object ∧ property object = true := by
  rcases List.countP_pos_iff.mp positive with ⟨slot, slot_mem, holds⟩
  rcases slot with _ | object
  · simp at holds
  · rcases get?_of_mem_slots slot_mem with ⟨handle, live⟩
    exact ⟨handle, object, live, holds⟩

theorem count_mono {property other : Object → Bool} {table : Table Object}
    (implied : ∀ handle object, table.get? handle = some object →
      property object = true → other object = true) :
    table.count property ≤ table.count other := by
  apply List.countP_mono_left
  intro slot slot_mem holds
  cases slot with
  | none => simp at holds
  | some object =>
      rcases get?_of_mem_slots slot_mem with ⟨handle, live⟩
      exact implied handle object live holds

theorem count_congr {property other : Object → Bool} {table : Table Object}
    (same : ∀ handle object, table.get? handle = some object →
      property object = other object) : table.count property = table.count other := by
  apply Nat.le_antisymm
  · apply count_mono
    intro handle object live holds
    rw [← same handle object live]
    exact holds
  · apply count_mono
    intro handle object live holds
    rw [same handle object live]
    exact holds

theorem count_replace_of_eq (property : Object → Bool) {table : Table Object} {handle : ℕ}
    {old object : Object} (live : table.get? handle = some old)
    (same : property object = property old) :
    (table.replace handle object).count property = table.count property := by
  rw [count_replace property live, same]
  by_cases holds : property old = true
  · have positive := count_pos_of_get? property live holds
    simp only [holds, if_true]
    omega
  · simp [holds]

theorem get?_eq_none_of_count_eq_zero {property : Object → Bool} {table : Table Object}
    (none_holds : table.count property = 0) {handle : ℕ} {object : Object}
    (live : table.get? handle = some object) : property object = false := by
  by_contra holds
  have := count_pos_of_get? property live (by simpa using holds)
  omega

end Table

end Mqttrust
