import Mathlib.Data.Finset.Card
import Mathlib.Data.List.AList

/-!
# Sets and maps of bounded capacity

A set or a map that holds at most `capacity` keys. Inserting a key that is
already present always succeeds; inserting a new key fails when the capacity is
reached. The order in which keys were inserted is not kept.
-/

namespace Mqttrust

universe u v

/-- A set of at most `capacity` keys. -/
structure IndexSet (capacity : ℕ) (Key : Type u) where
  elements : Finset Key
  fits : elements.card ≤ capacity
deriving DecidableEq

namespace IndexSet

variable {capacity : ℕ} {Key : Type u}

/-- The set without keys. -/
def empty : IndexSet capacity Key := ⟨∅, Nat.zero_le capacity⟩

/-- The number of keys. -/
def len (set : IndexSet capacity Key) : ℕ := set.elements.card

@[simp]
theorem elements_empty : (empty : IndexSet capacity Key).elements = ∅ := rfl

variable [DecidableEq Key]

/-- Whether the key is in the set. -/
def contains (set : IndexSet capacity Key) (key : Key) : Bool := decide (key ∈ set.elements)

/-- Adds a key; fails when the key is new and the set is full. -/
def insert (set : IndexSet capacity Key) (key : Key) : Option (IndexSet capacity Key) :=
  if key ∈ set.elements then some set
  else if room : set.elements.card < capacity then
    some ⟨Insert.insert key set.elements, (Finset.card_insert_le _ _).trans room⟩
  else none

/-- Removes a key. -/
def remove (set : IndexSet capacity Key) (key : Key) : IndexSet capacity Key :=
  ⟨set.elements.erase key, (Finset.card_erase_le).trans set.fits⟩

variable {set next : IndexSet capacity Key} {key : Key}

@[simp]
theorem elements_remove : (set.remove key).elements = set.elements.erase key := rfl

@[simp]
theorem contains_iff : set.contains key = true ↔ key ∈ set.elements := by
  simp [contains]

@[simp]
theorem contains_eq_false_iff : set.contains key = false ↔ key ∉ set.elements := by
  simp [contains]

theorem elements_of_insert (inserted : set.insert key = some next) :
    next.elements = Insert.insert key set.elements := by
  unfold insert at inserted
  split at inserted
  · rename_i present
    rw [← Option.some.inj inserted, Finset.insert_eq_of_mem present]
  · split at inserted
    · rw [← Option.some.inj inserted]
    · simp at inserted

theorem insert_eq_none_iff :
    set.insert key = none ↔ capacity < (Insert.insert key set.elements).card := by
  unfold insert
  split
  · rename_i present
    simp [Finset.insert_eq_of_mem present, set.fits]
  · rename_i absent
    rw [Finset.card_insert_of_notMem absent]
    split <;> simp <;> omega

end IndexSet

/-- A map with at most `capacity` keys. -/
structure IndexMap (capacity : ℕ) (Key : Type u) (Value : Type v) where
  entries : AList fun _ : Key => Value
  fits : entries.keys.length ≤ capacity

namespace IndexMap

variable {capacity : ℕ} {Key : Type u} {Value : Type v}

/-- The map without keys. -/
def empty : IndexMap capacity Key Value := ⟨∅, Nat.zero_le capacity⟩

variable [DecidableEq Key]

instance [DecidableEq Value] : DecidableEq (IndexMap capacity Key Value) := fun left right =>
  decidable_of_iff (left.entries.entries = right.entries.entries) (by
    rcases left with ⟨⟨left, _⟩, _⟩
    rcases right with ⟨⟨right, _⟩, _⟩
    simp)

/-- The value of a key. -/
def get? (map : IndexMap capacity Key Value) (key : Key) : Option Value := map.entries.lookup key

/-- Sets the value of a key; fails when the key is new and the map is full. -/
def insert (map : IndexMap capacity Key Value) (key : Key) (value : Value) :
    Option (IndexMap capacity Key Value) :=
  if fits : key ∈ map.entries.keys ∨ map.entries.keys.length < capacity then
    some ⟨map.entries.insert key value, by
      have := map.fits
      rw [AList.keys_insert, List.length_cons, List.length_erase]
      split <;> grind⟩
  else none

/-- Removes a key. -/
def remove (map : IndexMap capacity Key Value) (key : Key) : IndexMap capacity Key Value :=
  ⟨map.entries.erase key, by
    rw [AList.keys_erase]
    exact (List.length_erase_le).trans map.fits⟩

/-- Changes the value of a key that is present. -/
def replace (map : IndexMap capacity Key Value) (key : Key) (value : Value) :
    IndexMap capacity Key Value :=
  ⟨map.entries.replace key value, by rw [AList.keys_replace]; exact map.fits⟩

variable {map next : IndexMap capacity Key Value} {key : Key} {value : Value}

@[simp]
theorem get?_empty (key : Key) : (empty : IndexMap capacity Key Value).get? key = none := rfl

theorem get?_insert (inserted : map.insert key value = some next) (other : Key) :
    next.get? other = if other = key then some value else map.get? other := by
  unfold insert at inserted
  split at inserted
  · rw [← Option.some.inj inserted]
    by_cases same : other = key
    · rw [if_pos same, same]
      exact AList.lookup_insert map.entries
    · rw [if_neg same]
      exact AList.lookup_insert_ne same
  · simp at inserted

theorem get?_remove (map : IndexMap capacity Key Value) (key other : Key) :
    (map.remove key).get? other = if other = key then none else map.get? other := by
  by_cases same : other = key
  · rw [if_pos same, same]
    exact AList.lookup_erase key map.entries
  · rw [if_neg same]
    exact AList.lookup_erase_ne same

theorem dlookup_kreplace (key other : Key) (value : Value) (entries : List (Σ _ : Key, Value)) :
    (entries.kreplace key value).dlookup other =
      if other = key then (entries.dlookup key).map fun _ => value else entries.dlookup other := by
  induction entries with
  | nil => simp [List.kreplace]
  | cons entry entries ih =>
      rcases entry with ⟨first, old⟩
      unfold List.kreplace at ih ⊢
      rw [List.lookmap_cons]
      by_cases found : key = first
      · subst found
        simp only [if_true]
        by_cases same : other = key
        · subst same
          simp
        · rw [if_neg same, List.dlookup_cons_ne _ _ same, List.dlookup_cons_ne _ _ same]
      · simp only [if_neg found]
        by_cases same : other = first
        · subst same
          simp [Ne.symm found]
        · rw [List.dlookup_cons_ne _ _ same, ih, List.dlookup_cons_ne _ _ found,
            List.dlookup_cons_ne _ _ same]

theorem get?_replace (present : (map.get? key).isSome) (other : Key) :
    (map.replace key value).get? other = if other = key then some value else map.get? other := by
  rcases Option.isSome_iff_exists.mp present with ⟨old, found⟩
  have changed := dlookup_kreplace key other value map.entries.entries
  by_cases same : other = key
  · rw [if_pos same] at changed ⊢
    exact changed.trans (congrArg (Option.map fun _ => value) found)
  · rw [if_neg same] at changed ⊢
    exact changed

end IndexMap

end Mqttrust
