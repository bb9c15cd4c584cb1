import Mathlib.Tactic.Common

/-!
# Reading data behind an index

A reader that keeps its whole data and an index into it slices the data at the index,
and panics when a slice is out of range. Such a reader checks how much is left before
it slices. Seen from outside, it works on the part of the data behind its index: a
reader that tracks an operation on lists never panics while its index is in range,
and leaves it in range.
-/

namespace Mqttrust

/-- Why an operation stops. -/
inductive Stop (Error : Type) where
  | error (error : Error)
  | panic
deriving DecidableEq

/-- Some data, and an index into it. -/
structure Cursor (Item : Type) where
  data : List Item
  index : ℕ

namespace Cursor

/-- An operation that reads at a cursor. -/
abbrev Read (Item Error : Type) := EStateM (Stop Error) (Cursor Item)

/-- An operation on the part of the data that is left. -/
abbrev Spec (Item Error : Type) := EStateM Error (List Item)

variable {Item Error Value Value' : Type}

/-- The data behind the index. -/
def rest (cursor : Cursor Item) : List Item := cursor.data.drop cursor.index

/-- The index is no larger than the data. -/
def InRange (cursor : Cursor Item) : Prop := cursor.index ≤ cursor.data.length

/-- `data[index..]`. -/
def remaining : Read Item Error (List Item) := fun cursor =>
  if cursor.index ≤ cursor.data.length then .ok cursor.rest cursor else .error .panic cursor

/-- `data[index]`. -/
def current : Read Item Error Item := fun cursor =>
  match cursor.data[cursor.index]? with
  | some item => .ok item cursor
  | none => .error .panic cursor

/-- `data[index..index + len]`. -/
def slice (len : ℕ) : Read Item Error (List Item) := fun cursor =>
  if cursor.index + len ≤ cursor.data.length then .ok (cursor.rest.take len) cursor
  else .error .panic cursor

/-- Moves the index. -/
def advance (count : ℕ) : Read Item Error Unit := fun cursor =>
  .ok () { cursor with index := cursor.index + count }

/-- Stops with an error. -/
def stop (error : Error) : Read Item Error Value := fun cursor => .error (.error error) cursor

/-- Stops with an error unless `len` items are left. -/
def checkRemaining (error : Error) (len : ℕ) : Read Item Error Unit := do
  let rest ← remaining
  if rest.length < len then stop error else pure ()

/-- The next item, when there is one. -/
def first (error : Error) : Read Item Error Item := do
  checkRemaining error 1
  let item ← current
  advance 1
  pure item

/-- The next items, when there are as many. -/
def take (error : Error) (len : ℕ) : Read Item Error (List Item) := do
  checkRemaining error len
  let items ← slice len
  advance len
  pure items

/-- The next item of a list. -/
def firstSpec (error : Error) : Spec Item Error Item
  | item :: rest => .ok item rest
  | [] => .error error []

/-- The next items of a list. -/
def takeSpec (error : Error) (len : ℕ) : Spec Item Error (List Item) := fun rest =>
  if rest.length < len then .error error rest else .ok (rest.take len) (rest.drop len)

/-- The outcome of reading at a cursor is that of the operation on the data that is left; there is
no panic, and the index is in range of the same data. -/
def Agrees (data : List Item) : EStateM.Result (Stop Error) (Cursor Item) Value →
    EStateM.Result Error (List Item) Value → Prop
  | .ok value cursor, .ok value' rest =>
      value = value' ∧ cursor.data = data ∧ cursor.InRange ∧ cursor.rest = rest
  | .error (.error error) cursor, .error error' rest =>
      error = error' ∧ cursor.data = data ∧ cursor.InRange ∧ cursor.rest = rest
  | _, _ => False

/-- Both operations succeed with the same value, or both fail with the same error. -/
theorem Agrees.cases {data : List Item}
    {result : EStateM.Result (Stop Error) (Cursor Item) Value}
    {result' : EStateM.Result Error (List Item) Value} (agrees : Agrees data result result') :
    (∃ value after, result = .ok value after ∧ after.data = data ∧ after.InRange ∧
      result' = .ok value after.rest) ∨
    (∃ error after, result = .error (.error error) after ∧ after.data = data ∧ after.InRange ∧
      result' = .error error after.rest) := by
  cases result with
  | ok value after =>
      cases result' with
      | ok value' rest =>
          rcases agrees with ⟨rfl, same, inside, rfl⟩
          exact Or.inl ⟨value, after, rfl, same, inside, rfl⟩
      | error error rest => exact absurd agrees id
  | error stop after =>
      cases stop with
      | panic => exact absurd agrees id
      | error error =>
          cases result' with
          | ok value' rest => exact absurd agrees id
          | error error' rest =>
              rcases agrees with ⟨rfl, same, inside, rfl⟩
              exact Or.inr ⟨error, after, rfl, same, inside, rfl⟩

/-- Reading at a cursor in range is an operation on the data that is left. -/
def Tracks (read : Read Item Error Value) (spec : Spec Item Error Value) : Prop :=
  ∀ cursor, cursor.InRange → Agrees cursor.data (read cursor) (spec cursor.rest)

theorem length_rest (cursor : Cursor Item) :
    cursor.rest.length = cursor.data.length - cursor.index := List.length_drop

theorem rest_advance (cursor : Cursor Item) (count : ℕ) :
    ({ cursor with index := cursor.index + count } : Cursor Item).rest = cursor.rest.drop count :=
  List.drop_drop.symm

/-- Reading an item in range. -/
theorem first_eq (error : Error) {cursor : Cursor Item} (inRange : cursor.InRange) :
    first error cursor =
      match cursor.rest with
      | [] => .error (.error error) cursor
      | item :: _ => .ok item { cursor with index := cursor.index + 1 } := by
  have inside : cursor.index ≤ cursor.data.length := inRange
  have index : cursor.data[cursor.index]? = cursor.rest[0]? := by
    rw [rest, List.getElem?_drop, Nat.add_zero]
  unfold first checkRemaining remaining current
  simp only [Bind.bind, EStateM.bind, if_pos inside]
  cases left : cursor.rest with
  | nil => rfl
  | cons item items =>
      rw [left] at index
      have some_item : ¬(item :: items).length < 1 := by simp
      simp only [if_neg some_item, Pure.pure, EStateM.pure, index, List.getElem?_cons_zero]
      rfl

theorem take_eq (error : Error) (len : ℕ) {cursor : Cursor Item} (inRange : cursor.InRange) :
    take error len cursor =
      if cursor.rest.length < len then .error (.error error) cursor
      else .ok (cursor.rest.take len) { cursor with index := cursor.index + len } := by
  have length := cursor.length_rest
  have inside : cursor.index ≤ cursor.data.length := inRange
  unfold take checkRemaining remaining slice
  simp only [Bind.bind, EStateM.bind, if_pos inside]
  by_cases short : cursor.rest.length < len
  · simp only [if_pos short]
    rfl
  · have enough : cursor.index + len ≤ cursor.data.length := by omega
    simp only [if_neg short, Pure.pure, EStateM.pure, if_pos enough]
    rfl

namespace Tracks

theorem pure (value : Value) : Tracks (Pure.pure value : Read Item Error Value) (Pure.pure value) :=
  fun _ inRange => ⟨rfl, rfl, inRange, rfl⟩

theorem stop (error : Error) :
    Tracks (Cursor.stop error : Read Item Error Value) (throw error) :=
  fun _ inRange => ⟨rfl, rfl, inRange, rfl⟩

theorem bind {read : Read Item Error Value} {spec : Spec Item Error Value}
    {next : Value → Read Item Error Value'} {next' : Value → Spec Item Error Value'}
    (left : Tracks read spec) (right : ∀ value, Tracks (next value) (next' value)) :
    Tracks (read >>= next) (spec >>= next') := by
  intro cursor inRange
  simp only [Bind.bind, EStateM.bind]
  rcases (left cursor inRange).cases with ⟨value, after, done, same, inside, done'⟩ |
    ⟨error, after, failed, same, inside, failed'⟩
  · rw [done, done', ← same]
    exact right value after inside
  · rw [failed, failed']
    exact ⟨rfl, same, inside, rfl⟩

theorem map {read : Read Item Error Value} {spec : Spec Item Error Value}
    (function : Value → Value') (tracks : Tracks read spec) :
    Tracks (function <$> read) (function <$> spec) := by
  intro cursor inRange
  simp only [Functor.map, EStateM.map]
  rcases (tracks cursor inRange).cases with ⟨value, after, done, same, inside, done'⟩ |
    ⟨error, after, failed, same, inside, failed'⟩
  · rw [done, done']
    exact ⟨rfl, same, inside, rfl⟩
  · rw [failed, failed']
    exact ⟨rfl, same, inside, rfl⟩

theorem first (error : Error) :
    Tracks (Cursor.first error : Read Item Error Item) (firstSpec error) := by
  intro cursor inRange
  rw [first_eq error inRange]
  have length := cursor.length_rest
  cases left : cursor.rest with
  | nil => exact ⟨rfl, rfl, inRange, left⟩
  | cons item rest =>
      rw [left, List.length_cons] at length
      refine ⟨rfl, rfl, (by omega : cursor.index + 1 ≤ cursor.data.length), ?_⟩
      rw [rest_advance, left, List.drop_succ_cons, List.drop_zero]

theorem take (error : Error) (len : ℕ) :
    Tracks (Cursor.take error len : Read Item Error (List Item)) (takeSpec error len) := by
  intro cursor inRange
  rw [take_eq error len inRange]
  have length := cursor.length_rest
  have inside : cursor.index ≤ cursor.data.length := inRange
  unfold takeSpec
  by_cases short : cursor.rest.length < len
  · rw [if_pos short, if_pos short]
    exact ⟨rfl, rfl, inRange, rfl⟩
  · rw [if_neg short, if_neg short]
    exact ⟨rfl, rfl, (by omega : cursor.index + len ≤ cursor.data.length), rest_advance cursor len⟩

end Tracks

/-- The results of a number of calls of an operation. -/
def repeated (next : Read Item Error Value) : ℕ → Read Item Error (List Value)
  | 0 => pure []
  | count + 1 => do
      let value ← next
      let values ← repeated next count
      pure (value :: values)

/-- An iterator over the data gives nothing at the end, and moves on with every value before it. -/
def Iterates (next : Read Item Error (Option Value)) : Prop :=
  ∀ cursor, cursor.InRange →
    (cursor.index = cursor.data.length ∧ next cursor = .ok none cursor) ∨
    ∃ value after, next cursor = .ok (some value) after ∧ after.data = cursor.data ∧
      after.InRange ∧ cursor.index < after.index

theorem repeated_succ {next : Read Item Error Value} {count : ℕ} {cursor after : Cursor Item}
    {value : Value} (first : next cursor = .ok value after) :
    repeated next (count + 1) cursor =
      match repeated next count after with
      | .ok values last => .ok (value :: values) last
      | .error stopped last => .error stopped last := by
  simp only [repeated, Bind.bind, EStateM.bind, first]
  cases repeated next count after with
  | ok values last => rfl
  | error stopped last => rfl

namespace Iterates

variable {next : Read Item Error (Option Value)}

/-- Any number of calls leaves the index in range of the same data, and does not panic. -/
theorem exists_repeated (iterates : Iterates next) (count : ℕ) {cursor : Cursor Item}
    (inRange : cursor.InRange) :
    ∃ values after, repeated next count cursor = .ok values after ∧
      after.data = cursor.data ∧ after.InRange := by
  induction count generalizing cursor with
  | zero => exact ⟨[], cursor, rfl, rfl, inRange⟩
  | succ count ih =>
      rcases iterates cursor inRange with ⟨_, stays⟩ | ⟨value, after, moves, same, inside, _⟩
      · rcases ih inRange with ⟨values, last, rest, same, inside⟩
        refine ⟨none :: values, last, ?_, same, inside⟩
        rw [repeated_succ stays, rest]
      · rcases ih inside with ⟨values, last, rest, same', inside'⟩
        refine ⟨some value :: values, last, ?_, same'.trans same, inside'⟩
        rw [repeated_succ moves, rest]

/-- At the end, nothing is given any more. -/
theorem repeated_of_ended (iterates : Iterates next) {cursor : Cursor Item}
    (ended : cursor.index = cursor.data.length) (count : ℕ) :
    repeated next count cursor = .ok (List.replicate count none) cursor := by
  have stays : next cursor = .ok none cursor := by
    rcases iterates cursor (Nat.le_of_eq ended) with ⟨_, stays⟩ | ⟨_, after, _, same, inside, more⟩
    · exact stays
    · have bound : after.index ≤ after.data.length := inside
      rw [same] at bound
      omega
  induction count with
  | zero => rfl
  | succ count ih =>
      rw [repeated_succ stays, ih]
      rfl

/-- The values come to an end, and there are no more of them than items of the data. -/
theorem exists_values (iterates : Iterates next) {cursor : Cursor Item}
    (inRange : cursor.InRange) :
    ∃ (values : List Value) (after : Cursor Item),
      values.length ≤ cursor.data.length - cursor.index ∧
      repeated next values.length cursor = .ok (values.map some) after ∧
      after.data = cursor.data ∧ after.index = after.data.length := by
  induction left : cursor.data.length - cursor.index using Nat.strongRecOn generalizing cursor with
  | _ left' ih =>
      have bound : cursor.index ≤ cursor.data.length := inRange
      rcases iterates cursor inRange with ⟨ended, _⟩ | ⟨value, after, moves, same, inside, more⟩
      · exact ⟨[], cursor, Nat.zero_le _, rfl, rfl, ended⟩
      · have bound' : after.index ≤ after.data.length := inside
        rw [same] at bound'
        rcases ih (after.data.length - after.index) (by rw [same]; omega) inside rfl with
          ⟨values, last, short, rest, same', ended⟩
        rw [same] at short
        refine ⟨value :: values, last, ?_, ?_, same'.trans same, ended⟩
        · rw [List.length_cons]
          omega
        · rw [List.length_cons, repeated_succ moves, rest]
          rfl

end Iterates

end Cursor

end Mqttrust
