import Mathlib.Data.List.Basic

/-!
# Parts of a list between separators

A list is determined by the parts that its separators leave. Whether an item makes up a
whole part wherever it occurs can be seen from its neighbours: it stands at an end of
the list or next to a separator, on both sides.
-/

namespace Mqttrust.Splitting

variable {Item : Type} {separator item : Item}

/-- Every occurrence of the item has a separator or an end of the list on both sides. -/
def StandsAlone (separator item : Item) (items : List Item) : Prop :=
  ∀ before after, items = before ++ item :: after →
    (∀ last ∈ before.getLast?, last = separator) ∧ ∀ next ∈ after.head?, next = separator

theorem splitOn_injective [DecidableEq Item] (separator : Item) :
    Function.Injective (List.splitOn separator) := by
  intro left right same
  calc
    left = [separator].intercalate (left.splitOn separator) :=
      (List.intercalate_splitOn separator).symm
    _ = [separator].intercalate (right.splitOn separator) := by rw [same]
    _ = right := List.intercalate_splitOn separator

/-- A list has no separator, or it is a part, a separator and what follows. -/
theorem part_cases [DecidableEq Item] (separator : Item) (items : List Item) :
    separator ∉ items ∨
      ∃ front rest, separator ∉ front ∧ items = front ++ separator :: rest := by
  by_cases inside : separator ∈ items
  · rcases List.eq_append_cons_of_mem inside with ⟨front, rest, split, notInFront⟩
    exact .inr ⟨front, rest, notInFront, split⟩
  · exact .inl inside

/-- Induction over the parts of a list. -/
theorem part_induction [DecidableEq Item] {motive : List Item → Prop} (separator : Item)
    (single : ∀ part, separator ∉ part → motive part)
    (behind : ∀ part rest, separator ∉ part → motive rest → motive (part ++ separator :: rest))
    (items : List Item) : motive items := by
  induction bound : items.length using Nat.strongRecOn generalizing items with
  | _ length ih =>
      rcases part_cases separator items with notInside | ⟨part, rest, notInPart, rfl⟩
      · exact single items notInside
      · refine behind part rest notInPart (ih rest.length ?_ rest rfl)
        rw [← bound, List.length_append, List.length_cons]
        omega

theorem standsAlone_single {part : List Item} (notInPart : separator ∉ part) :
    StandsAlone separator item part ↔ (item ∈ part → part = [item]) := by
  constructor
  · intro alone inside
    rcases List.mem_iff_append.mp inside with ⟨before, after, rfl⟩
    rcases alone before after rfl with ⟨left, right⟩
    have noneBefore : before = [] := by
      rcases last : before.getLast? with _ | byte
      · exact List.getLast?_eq_none_iff.mp last
      · have isSeparator := left byte last
        have listed := List.mem_of_getLast? last
        simp [← isSeparator, listed] at notInPart
    have noneAfter : after = [] := by
      cases after with
      | nil => rfl
      | cons next after =>
          have isSeparator := right next rfl
          simp [isSeparator] at notInPart
    rw [noneBefore, noneAfter]
    rfl
  · intro whole before after split
    have inside : item ∈ part := by simp [split]
    have lengths := congrArg List.length (split.symm.trans (whole inside))
    simp only [List.length_append, List.length_cons, List.length_nil] at lengths
    have noneBefore : before = [] := List.length_eq_zero_iff.mp (by omega)
    have noneAfter : after = [] := List.length_eq_zero_iff.mp (by omega)
    simp [noneBefore, noneAfter]

/-- A separator keeps the items on its sides apart. -/
theorem standsAlone_append (different : item ≠ separator) (front rest : List Item) :
    StandsAlone separator item (front ++ separator :: rest) ↔
      StandsAlone separator item front ∧ StandsAlone separator item rest := by
  constructor
  · intro alone
    constructor
    · rintro before after rfl
      rcases alone before (after ++ separator :: rest) (by simp) with ⟨left, right⟩
      refine ⟨left, ?_⟩
      intro next isNext
      exact right next (by simp_all)
    · rintro before after rfl
      rcases alone (front ++ separator :: before) after (by simp) with ⟨left, right⟩
      refine ⟨?_, right⟩
      intro last isLast
      apply left last
      rw [List.getLast?_append, List.getLast?_cons, isLast]
      rfl
  · rintro ⟨inFront, inRest⟩ before after split
    rcases List.append_eq_append_iff.mp split with ⟨middle, rfl, tail⟩ | ⟨middle, rfl, tail⟩
    · cases middle with
      | nil =>
          rw [List.nil_append, List.cons.injEq] at tail
          exact absurd tail.1.symm different
      | cons first middle =>
          rw [List.cons_append, List.cons.injEq] at tail
          rcases tail with ⟨rfl, rfl⟩
          rcases inRest middle after rfl with ⟨left, right⟩
          refine ⟨?_, right⟩
          intro last isLast
          rw [List.getLast?_append, List.getLast?_cons] at isLast
          rcases inside : middle.getLast? with _ | byte
          · simp_all
          · simp_all
    · cases middle with
      | nil =>
          rw [List.nil_append, List.cons.injEq] at tail
          exact absurd tail.1 different
      | cons first middle =>
          rw [List.cons_append, List.cons.injEq] at tail
          rcases tail with ⟨rfl, rfl⟩
          rcases inFront before middle rfl with ⟨left, right⟩
          refine ⟨left, ?_⟩
          intro next isNext
          cases middle with
          | nil => simp_all
          | cons first middle => exact right next (by simp_all)

variable [DecidableEq Item]

/-- An item stands alone if it makes up every part in which it occurs. -/
theorem standsAlone_iff (different : item ≠ separator) {items : List Item} :
    StandsAlone separator item items ↔
      ∀ part ∈ items.splitOn separator, item ∈ part → part = [item] := by
  induction items using part_induction separator with
  | single part notInPart =>
      rw [List.splitOn_eq_singleton notInPart, List.forall_mem_singleton]
      exact standsAlone_single notInPart
  | behind part rest notInPart ih =>
      rw [List.splitOn_append_cons_self_of_not_mem notInPart, List.forall_mem_cons,
        standsAlone_append different, standsAlone_single notInPart, ih]

/-- The items of the parts are those of the list, without its separators. -/
theorem mem_splitOn_iff (different : item ≠ separator) {items : List Item} :
    (∃ part ∈ items.splitOn separator, item ∈ part) ↔ item ∈ items := by
  induction items using part_induction separator with
  | single part notInPart => simp [List.splitOn_eq_singleton notInPart]
  | behind part rest notInPart ih =>
      rw [List.splitOn_append_cons_self_of_not_mem notInPart, List.mem_append, List.mem_cons,
        or_iff_right different, ← ih]
      simp only [List.mem_cons, or_and_right, exists_or, exists_eq_left]

/-- The last part is at the end of the list. -/
theorem suffix_of_getLast? {items part : List Item}
    (isLast : (items.splitOn separator).getLast? = some part) : part <:+ items := by
  induction items using part_induction separator with
  | single whole notInside =>
      rw [List.splitOn_eq_singleton notInside, List.getLast?_singleton] at isLast
      rcases Option.some.inj isLast with rfl
      exact List.suffix_rfl
  | behind front rest notInFront ih =>
      rw [List.splitOn_append_cons_self_of_not_mem notInFront, List.getLast?_cons] at isLast
      rcases found : (rest.splitOn separator).getLast? with _ | last
      · exact absurd (List.getLast?_eq_none_iff.mp found) (List.splitOn_ne_nil _ _)
      · rw [found, Option.getD_some] at isLast
        rcases Option.some.inj isLast with rfl
        exact (ih found).trans ((List.suffix_cons _ _).trans (List.suffix_append _ _))

/-- The other parts are in front of the last item. -/
theorem mem_dropLast_of_part {items part : List Item}
    (listed : part ∈ (items.splitOn separator).dropLast) (inside : item ∈ part) :
    item ∈ items.dropLast := by
  induction items using part_induction separator with
  | single whole notInside => simp [List.splitOn_eq_singleton notInside] at listed
  | behind front rest notInFront ih =>
      rw [List.splitOn_append_cons_self_of_not_mem notInFront,
        List.dropLast_cons_of_ne_nil (List.splitOn_ne_nil _ _)] at listed
      rw [List.dropLast_append_of_ne_nil (List.cons_ne_nil _ _), List.mem_append]
      rcases List.mem_cons.mp listed with rfl | later
      · exact .inl inside
      · have inRest := ih later
        rw [List.dropLast_cons_of_ne_nil (List.ne_nil_of_mem (List.dropLast_subset _ inRest))]
        exact .inr (List.mem_cons_of_mem _ inRest)

end Mqttrust.Splitting
