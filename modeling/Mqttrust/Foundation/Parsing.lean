import Mathlib.Tactic.Common

/-!
# Parsers of sequential formats

A parser takes a value from the front of its input, and leaves the rest. A format is
sequential when the encoding of a value is followed by the encoding of the next one,
and a parser for it is put together from the parsers for its parts in the same order.

`Reads` says that a parser recovers a value from an encoding whatever follows it,
`ReadsAll` that it recovers a value from an input that it uses up.
-/

namespace Mqttrust.Parsing

/-- A value and the items behind it, unless the input is refused. -/
abbrev Parser (Item : Type) := StateT (List Item) Option

variable {Item Value Value' : Type}

/-- The next item. -/
def item : Parser Item Item
  | [] => none
  | first :: rest => some (first, rest)

/-- The next items. -/
def take (count : ℕ) : Parser Item (List Item) := fun input =>
  if input.length < count then none else some (input.take count, input.drop count)

/-- A value that may not exist. -/
def ofOption (result : Option Value) : Parser Item Value := fun input =>
  result.map fun value => (value, input)

/-- A value that is present on a condition. -/
def optional (present : Bool) (parser : Parser Item Value) : Parser Item (Option Value) :=
  if present then some <$> parser else pure none

/-- A value that may be left out at the end of the input. -/
def trailing (omitted : Value) (parser : Parser Item Value) : Parser Item Value
  | [] => some (omitted, [])
  | first :: rest => parser (first :: rest)

/-- Values up to the end of the input, of which no more are read than it has items. -/
def manyFuel (parser : Parser Item Value) : ℕ → List Item → Option (List Value)
  | _, [] => some []
  | 0, _ :: _ => none
  | fuel + 1, first :: rest => do
      let (value, rest) ← parser (first :: rest)
      let values ← manyFuel parser fuel rest
      some (value :: values)

/-- Values up to the end of the input. -/
def many (parser : Parser Item Value) : Parser Item (List Value) := fun input =>
  (manyFuel parser input.length input).map fun values => (values, [])

/-- The values at the front of an input, of which no more are read than it has items. -/
def frontFuel (parser : Parser Item Value) : ℕ → List Item → List Value
  | 0, _ => []
  | fuel + 1, input =>
      match parser input with
      | some (value, rest) => value :: frontFuel parser fuel rest
      | none => []

/-- The values at the front of an input, as far as they can be read. -/
def front (parser : Parser Item Value) (input : List Item) : List Value :=
  frontFuel parser input.length input

/-- The value of an input that is used up. -/
def parse (parser : Parser Item Value) (input : List Item) : Option Value :=
  match parser input with
  | some (value, []) => some value
  | _ => none

/-- The parser recovers the value from the encoding, whatever follows it. -/
def Reads (parser : Parser Item Value) (encoding : List Item) (value : Value) : Prop :=
  ∀ rest, parser (encoding ++ rest) = some (value, rest)

/-- The parser recovers the value from the input, and uses the input up. -/
def ReadsAll (parser : Parser Item Value) (input : List Item) (value : Value) : Prop :=
  parser input = some (value, [])

theorem bind_of_some {first : Parser Item Value} {second : Value → Parser Item Value'}
    {input rest : List Item} {value : Value} (read : first input = some (value, rest)) :
    (first >>= second) input = second value rest := by
  change (first input).bind _ = _
  rw [read]
  rfl

namespace Reads

variable {parser : Parser Item Value} {encoding encoding' : List Item} {value : Value}
  {value' : Value'}

theorem pure (value : Value) : Reads (Pure.pure value : Parser Item Value) [] value :=
  fun _ => rfl

theorem bind {second : Value → Parser Item Value'} (left : Reads parser encoding value)
    (right : Reads (second value) encoding' value') :
    Reads (parser >>= second) (encoding ++ encoding') value' := by
  intro rest
  rw [List.append_assoc, bind_of_some (left _)]
  exact right rest

theorem map (function : Value → Value') (reads : Reads parser encoding value) :
    Reads (function <$> parser) encoding (function value) := by
  intro rest
  change (parser (encoding ++ rest)).bind _ = _
  rw [reads rest]
  rfl

theorem item (first : Item) : Reads Parsing.item [first] first := fun _ => rfl

theorem take (items : List Item) : Reads (Parsing.take items.length) items items := by
  intro rest
  unfold Parsing.take
  rw [if_neg (by simp), List.take_left, List.drop_left]

theorem ofOption {result : Option Value} (found : result = some value) :
    Reads (Parsing.ofOption result : Parser Item Value) [] value := by
  intro rest
  subst found
  rfl

theorem bindOption {function : Value → Option Value'} (left : Reads parser encoding value)
    (found : function value = some value') :
    Reads (parser >>= fun value => Parsing.ofOption (function value)) encoding value' := by
  intro rest
  rw [bind_of_some (left rest), found]
  rfl

theorem bindPure (function : Value → Value') (left : Reads parser encoding value) :
    Reads (parser >>= fun value => Pure.pure (function value)) encoding (function value) := by
  intro rest
  rw [bind_of_some (left rest)]
  rfl

theorem optional {field : Option Value} {encode : Value → List Item}
    (reads : ∀ value, field = some value → Reads parser (encode value) value) :
    Reads (Parsing.optional field.isSome parser) ((field.map encode).getD []) field := by
  cases field with
  | none => exact pure none
  | some value => exact (reads value rfl).map some

theorem readsAll (reads : Reads parser encoding value) : ReadsAll parser encoding value := by
  have whole := reads []
  rwa [List.append_nil] at whole

end Reads

namespace ReadsAll

variable {parser : Parser Item Value} {encoding input : List Item} {value : Value}
  {value' : Value'}

theorem bind {second : Value → Parser Item Value'} (left : Reads parser encoding value)
    (right : ReadsAll (second value) input value') :
    ReadsAll (parser >>= second) (encoding ++ input) value' := by
  unfold ReadsAll
  rw [bind_of_some (left input)]
  exact right

theorem map (function : Value → Value') (reads : ReadsAll parser input value) :
    ReadsAll (function <$> parser) input (function value) := by
  change (parser input).bind _ = _
  rw [show parser input = _ from reads]
  rfl

theorem bindPure (function : Value → Value') (left : ReadsAll parser input value) :
    ReadsAll (parser >>= fun value => Pure.pure (function value)) input (function value) := by
  unfold ReadsAll
  rw [bind_of_some left]
  rfl

theorem parse_eq (reads : ReadsAll parser input value) : parse parser input = some value := by
  unfold parse
  rw [show parser input = _ from reads]

theorem trailing (omitted : Value) (parser : Parser Item Value) :
    ReadsAll (Parsing.trailing omitted parser) [] omitted := rfl

theorem manyFuel_flatMap {Part : Type} {encode : Part → List Item} {view : Part → Value}
    {parts : List Part} (reads : ∀ part ∈ parts, Reads parser (encode part) (view part))
    (nonempty : ∀ part ∈ parts, encode part ≠ []) {fuel : ℕ}
    (enough : (parts.flatMap encode).length ≤ fuel) :
    manyFuel parser fuel (parts.flatMap encode) = some (parts.map view) := by
  induction parts generalizing fuel with
  | nil =>
      cases fuel with
      | zero => rfl
      | succ fuel => rfl
  | cons part parts ih =>
      have read := reads part List.mem_cons_self (parts.flatMap encode)
      have some_item := nonempty part List.mem_cons_self
      rw [List.flatMap_cons] at enough ⊢
      cases encoded : encode part with
      | nil => exact absurd encoded some_item
      | cons first rest =>
          rw [encoded] at enough read
          cases fuel with
          | zero => simp at enough
          | succ fuel =>
              rw [List.cons_append] at enough read ⊢
              rw [manyFuel, read]
              have shorter : (parts.flatMap encode).length ≤ fuel := by
                simp only [List.length_cons, List.length_append] at enough
                omega
              have remaining := ih (fun part mem => reads part (List.mem_cons_of_mem _ mem))
                (fun part mem => nonempty part (List.mem_cons_of_mem _ mem)) shorter
              simp [remaining]

/-- Values that are encoded one after another are recovered in their order. -/
theorem many {Part : Type} {encode : Part → List Item} {view : Part → Value}
    {parts : List Part} (reads : ∀ part ∈ parts, Reads parser (encode part) (view part))
    (nonempty : ∀ part ∈ parts, encode part ≠ []) :
    ReadsAll (Parsing.many parser) (parts.flatMap encode) (parts.map view) := by
  unfold ReadsAll Parsing.many
  rw [manyFuel_flatMap reads nonempty (Nat.le_refl _)]
  rfl

end ReadsAll

section Front

variable {Part : Type} {parser : Parser Item Value} {encode : Part → List Item}
  {view : Part → Value} {parts : List Part} {rest : List Item}

theorem frontFuel_flatMap (reads : ∀ part ∈ parts, Reads parser (encode part) (view part))
    (nonempty : ∀ part ∈ parts, encode part ≠ []) (stuck : parser rest = none) {fuel : ℕ}
    (enough : (parts.flatMap encode).length ≤ fuel) :
    frontFuel parser fuel (parts.flatMap encode ++ rest) = parts.map view := by
  induction parts generalizing fuel with
  | nil =>
      cases fuel with
      | zero => rfl
      | succ fuel => simp [frontFuel, stuck]
  | cons part parts ih =>
      have some_item := List.length_pos_iff.mpr (nonempty part List.mem_cons_self)
      rw [List.flatMap_cons, List.length_append] at enough
      cases fuel with
      | zero => omega
      | succ fuel =>
          have later := ih (fun part mem => reads part (List.mem_cons_of_mem _ mem))
            (fun part mem => nonempty part (List.mem_cons_of_mem _ mem))
            (by omega : (parts.flatMap encode).length ≤ fuel)
          rw [List.flatMap_cons, List.append_assoc, frontFuel,
            reads part List.mem_cons_self, List.map_cons]
          simp only [later]

/-- Values are read one after another up to the input that no value can be read from. -/
theorem front_flatMap (reads : ∀ part ∈ parts, Reads parser (encode part) (view part))
    (nonempty : ∀ part ∈ parts, encode part ≠ []) (stuck : parser rest = none) :
    front parser (parts.flatMap encode ++ rest) = parts.map view :=
  frontFuel_flatMap reads nonempty stuck (by simp)

end Front

end Mqttrust.Parsing
