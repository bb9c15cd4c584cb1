import Mathlib.Data.List.Basic
import Mqttrust.Foundation.Region

/-!
# Ring layouts that know where they wrapped

Where a ring layout has wrapped cannot always be read off its regions: a layout
of empty regions looks the same whether or not it starts anew. In a marked layout
each region says whether it was placed at address zero because the space behind
the newest region did not suffice. Behind the oldest region at most one region is
marked, and the lower run starts with it.
-/

namespace Mqttrust

/-- A region and whether it was placed at address zero for want of space behind the newest one. -/
structure Placed where
  region : Region
  wraps : Bool
deriving DecidableEq, Repr

namespace Placed

/-- The region of the left one ends where the region of the right one starts, or before. -/
def Before (left right : Placed) : Prop := left.region.Before right.region

/-- The first `len` addresses of a region, placed as it was. -/
def shorten (placed : Placed) (len : ℕ) : Placed := ⟨⟨placed.region.start, len⟩, placed.wraps⟩

theorem finish_le_of_pairwise {run : List Placed} {back : Placed}
    (ascending : run.Pairwise Before) (latest : run.getLast? = some back) :
    ∀ entry ∈ run, entry.region.finish ≤ back.region.finish := by
  intro entry entry_mem
  rcases List.getLast?_eq_some_iff.mp latest with ⟨older, rfl⟩
  rcases List.mem_append.mp entry_mem with old | new
  · have before := (List.pairwise_append.mp ascending).2.2 entry old back (by simp)
    exact Nat.le_trans before back.region.start_le_finish
  · rw [List.mem_singleton] at new
    exact new ▸ Nat.le_refl _

theorem start_le_of_pairwise {run : List Placed} {front : Placed}
    (ascending : run.Pairwise Before) (oldest : run.head? = some front) :
    ∀ entry ∈ run, front.region.start ≤ entry.region.start := by
  intro entry entry_mem
  rcases List.head?_eq_some_iff.mp oldest with ⟨later, rfl⟩
  rcases List.mem_cons.mp entry_mem with rfl | behind
  · exact Nat.le_refl _
  · exact Nat.le_trans front.region.start_le_finish
      ((List.pairwise_cons.mp ascending).1 entry behind)

end Placed

/-- Some region behind the oldest one was placed at address zero. -/
def HasWrapped (placed : List Placed) : Prop := ∃ entry ∈ placed.tail, entry.wraps = true

instance (placed : List Placed) : Decidable (HasWrapped placed) :=
  inferInstanceAs (Decidable (∃ entry ∈ _, _))

/-- The two runs of a marked layout: the lower one is there only behind an upper one, and it starts
with the region that was placed at address zero. -/
structure WrapRuns (upper lower : List Placed) : Prop where
  anchored : upper = [] → lower = []
  upperRun : upper.Pairwise Placed.Before
  lowerRun : lower.Pairwise Placed.Before
  beneath : ∀ low ∈ lower, ∀ high ∈ upper, low.Before high
  upperUnmarked : ∀ entry ∈ upper.tail, entry.wraps = false
  lowerUnmarked : ∀ entry ∈ lower.tail, entry.wraps = false
  atZero : ∀ low ∈ lower.head?, low.wraps = true ∧ low.region.start = 0 ∧
    ∀ high ∈ upper, 0 < high.region.start

/-- The regions held by a ring buffer, oldest first, with their marks. -/
structure WrapLayout (capacity : ℕ) (placed : List Placed) : Prop where
  inBounds : ∀ entry ∈ placed, entry.region.finish ≤ capacity
  runs : ∃ upper lower, placed = upper ++ lower ∧ WrapRuns upper lower

namespace WrapRuns

variable {upper lower : List Placed} {front newest : Placed} {rest : List Placed}

theorem of_upper (ascending : upper.Pairwise Placed.Before)
    (unmarked : ∀ entry ∈ upper.tail, entry.wraps = false) : WrapRuns upper [] where
  anchored _ := rfl
  upperRun := ascending
  lowerRun := .nil
  beneath := by simp
  upperUnmarked := unmarked
  lowerUnmarked := by simp
  atZero := by simp

theorem lower_eq_nil_iff (runs : WrapRuns upper lower) :
    lower = [] ↔ ¬HasWrapped (upper ++ lower) := by
  constructor
  · rintro rfl ⟨entry, entry_mem, marked⟩
    rw [List.append_nil] at entry_mem
    simp [runs.upperUnmarked entry entry_mem] at marked
  · intro notWrapped
    by_contra nonempty
    rcases List.exists_cons_of_ne_nil nonempty with ⟨low, later, rfl⟩
    rcases List.exists_cons_of_ne_nil (fun none => nonempty (runs.anchored none)) with
      ⟨front, upper, rfl⟩
    exact notWrapped ⟨low, by simp, (runs.atZero low (by simp)).1⟩

theorem dropFront (runs : WrapRuns (front :: upper) lower) :
    ∃ upper' lower', upper ++ lower = upper' ++ lower' ∧ WrapRuns upper' lower' := by
  cases upper with
  | nil => exact ⟨lower, [], by simp, .of_upper runs.lowerRun runs.lowerUnmarked⟩
  | cons second upper =>
      refine ⟨second :: upper, lower, rfl, ?_⟩
      refine
        { anchored := by simp
          upperRun := (List.pairwise_cons.mp runs.upperRun).2
          lowerRun := runs.lowerRun
          beneath := fun low low_mem high high_mem =>
            runs.beneath low low_mem high (List.mem_cons_of_mem _ high_mem)
          upperUnmarked := fun entry entry_mem =>
            runs.upperUnmarked entry (List.mem_cons_of_mem _ entry_mem)
          lowerUnmarked := runs.lowerUnmarked
          atZero := ?_ }
      intro low first
      rcases runs.atZero low first with ⟨marked, start, positive⟩
      exact ⟨marked, start, fun high high_mem => positive high (List.mem_cons_of_mem _ high_mem)⟩

/-- A region that is not marked goes behind the newest one of the lower run, or of the upper run
when there is no lower one. -/
theorem concat (runs : WrapRuns (front :: upper) lower) (unmarked : newest.wraps = false)
    (behindUpper : lower = [] → ∀ entry ∈ front :: upper, entry.Before newest)
    (behindLower : ∀ entry ∈ lower, entry.Before newest)
    (beneath : lower ≠ [] → ∀ high ∈ front :: upper, newest.Before high) :
    ∃ upper' lower', front :: upper ++ lower ++ [newest] = upper' ++ lower' ∧
      WrapRuns upper' lower' := by
  cases lower with
  | nil =>
      refine ⟨front :: upper ++ [newest], [], by simp, .of_upper ?_ ?_⟩
      · exact List.pairwise_append.mpr ⟨runs.upperRun, by simp, by simpa using behindUpper rfl⟩
      · intro entry entry_mem
        rcases List.mem_append.mp entry_mem with old | new
        · exact runs.upperUnmarked entry old
        · rw [List.mem_singleton] at new
          exact new ▸ unmarked
  | cons low later =>
      refine ⟨front :: upper, low :: later ++ [newest], by simp, ?_⟩
      refine
        { anchored := by simp
          upperRun := runs.upperRun
          lowerRun := List.pairwise_append.mpr
            ⟨runs.lowerRun, by simp, by simpa using behindLower⟩
          beneath := ?_
          upperUnmarked := runs.upperUnmarked
          lowerUnmarked := ?_
          atZero := by simpa using runs.atZero }
      · intro entry entry_mem high high_mem
        rcases List.mem_append.mp entry_mem with old | new
        · exact runs.beneath entry old high high_mem
        · rw [List.mem_singleton] at new
          exact new ▸ beneath (by simp) high high_mem
      · intro entry entry_mem
        rcases List.mem_append.mp entry_mem with old | new
        · exact runs.lowerUnmarked entry old
        · rw [List.mem_singleton] at new
          exact new ▸ unmarked

/-- The newest region may be shortened. -/
theorem shorten_last {placed : List Placed} {len : ℕ} (runs : WrapRuns upper lower)
    (split : placed ++ [newest] = upper ++ lower) (shorter : len ≤ newest.region.len) :
    ∃ upper' lower', placed ++ [newest.shorten len] = upper' ++ lower' ∧
      WrapRuns upper' lower' := by
  have ascending : ∀ run : List Placed, (run ++ [newest]).Pairwise Placed.Before →
      (run ++ [newest.shorten len]).Pairwise Placed.Before := by
    intro run ascending
    rcases List.pairwise_append.mp ascending with ⟨older, _, below⟩
    refine List.pairwise_append.mpr ⟨older, by simp, ?_⟩
    intro entry entry_mem last last_mem
    rw [List.mem_singleton] at last_mem
    subst last_mem
    exact below entry entry_mem newest (by simp)
  have unmarked : ∀ run : List Placed, (∀ entry ∈ (run ++ [newest]).tail, entry.wraps = false) →
      ∀ entry ∈ (run ++ [newest.shorten len]).tail,
        entry.wraps = false := by
    intro run unmarked
    cases run with
    | nil => simp
    | cons first run =>
        intro entry entry_mem
        rcases List.mem_append.mp entry_mem with old | new
        · exact unmarked entry (by simp [old])
        · rw [List.mem_singleton] at new
          subst new
          exact unmarked newest (by simp)
  rcases List.eq_nil_or_concat lower with rfl | ⟨older, last, rfl⟩
  · rw [List.append_nil] at split
    subst split
    exact ⟨placed ++ [newest.shorten len], [], by simp,
      .of_upper (ascending placed runs.upperRun) (unmarked placed runs.upperUnmarked)⟩
  · rw [List.concat_eq_append, ← List.append_assoc] at split
    rcases List.append_inj' split rfl with ⟨rfl, sameLast⟩
    rw [List.cons.injEq] at sameLast
    rcases sameLast with ⟨rfl, -⟩
    rw [List.concat_eq_append] at runs
    refine ⟨upper, older ++ [newest.shorten len], by simp, ?_⟩
    refine
      { anchored := fun none => absurd (runs.anchored none) (by simp)
        upperRun := runs.upperRun
        lowerRun := ascending older runs.lowerRun
        beneath := ?_
        upperUnmarked := runs.upperUnmarked
        lowerUnmarked := unmarked older runs.lowerUnmarked
        atZero := ?_ }
    · intro low low_mem high high_mem
      rcases List.mem_append.mp low_mem with old | new
      · exact runs.beneath low (by simp [old]) high high_mem
      · have newest_le := runs.beneath newest (by simp) high high_mem
        rw [List.mem_singleton] at new
        subst new
        simp only [Placed.Before, Placed.shorten, Region.Before, Region.finish] at newest_le ⊢
        omega
    · intro low first
      cases older with
      | nil =>
          simp only [List.nil_append, List.head?_cons, Option.mem_def, Option.some.injEq] at first
          subst first
          exact runs.atZero newest (by simp)
      | cons oldest older => exact runs.atZero low (by simpa using first)

end WrapRuns

namespace WrapLayout

variable {capacity : ℕ} {placed : List Placed} {newest front back : Placed}

theorem nil (capacity : ℕ) : WrapLayout capacity [] :=
  ⟨by simp, [], [], rfl, .of_upper .nil (by simp)⟩

theorem tail (layout : WrapLayout capacity (front :: placed)) : WrapLayout capacity placed := by
  rcases layout.runs with ⟨upper, lower, split, runs⟩
  refine ⟨fun entry entry_mem => layout.inBounds entry (List.mem_cons_of_mem _ entry_mem), ?_⟩
  cases upper with
  | nil => simp [runs.anchored rfl] at split
  | cons first upper =>
      simp only [List.cons_append, List.cons.injEq] at split
      rcases split with ⟨rfl, rfl⟩
      exact runs.dropFront

theorem suffix {gone : List Placed} (layout : WrapLayout capacity (gone ++ placed)) :
    WrapLayout capacity placed := by
  induction gone with
  | nil => exact layout
  | cons first gone ih => exact ih layout.tail

theorem shorten_last {len : ℕ} (layout : WrapLayout capacity (placed ++ [newest]))
    (shorter : len ≤ newest.region.len) :
    WrapLayout capacity (placed ++ [newest.shorten len]) := by
  rcases layout.runs with ⟨upper, lower, split, runs⟩
  refine ⟨?_, runs.shorten_last split shorter⟩
  intro entry entry_mem
  rcases List.mem_append.mp entry_mem with old | new
  · exact layout.inBounds entry (by simp [old])
  · have newest_le := layout.inBounds newest (by simp)
    rw [List.mem_singleton] at new
    subst new
    simp only [Placed.shorten, Region.finish] at newest_le ⊢
    omega

/-- A layout that has not wrapped ascends. -/
theorem ascending (layout : WrapLayout capacity placed) (notWrapped : ¬HasWrapped placed) :
    placed.Pairwise Placed.Before := by
  rcases layout.runs with ⟨upper, lower, rfl, runs⟩
  rw [runs.lower_eq_nil_iff.mpr notWrapped, List.append_nil]
  exact runs.upperRun

/-- A layout that has wrapped holds a region at address zero, and its newest region ends before its
oldest one, which lies above zero. -/
theorem inverted (layout : WrapLayout capacity placed) (wrapped : HasWrapped placed)
    (oldest : placed.head? = some front) (latest : placed.getLast? = some back) :
    back.Before front ∧ 0 < front.region.start ∧ ∃ entry ∈ placed, entry.region.start = 0 := by
  rcases layout.runs with ⟨upper, lower, rfl, runs⟩
  have nonempty : lower ≠ [] := fun none => (runs.lower_eq_nil_iff.mp none) wrapped
  rcases List.exists_cons_of_ne_nil nonempty with ⟨low, later, rfl⟩
  rcases List.exists_cons_of_ne_nil (fun none => nonempty (runs.anchored none)) with
    ⟨first, upper, rfl⟩
  simp only [List.cons_append, List.head?_cons, Option.some.injEq] at oldest
  subst oldest
  have back_mem : back ∈ low :: later := by
    rw [List.getLast?_append, List.getLast?_cons, Option.some_or] at latest
    exact List.mem_of_getLast? (by rw [List.getLast?_cons, latest])
  rcases runs.atZero low (by simp) with ⟨_, start, positive⟩
  exact ⟨runs.beneath back back_mem first (by simp), positive first (by simp), low, by simp, start⟩

/-- The space behind the newest region of a layout that has not wrapped is free. -/
theorem behind_disjoint (layout : WrapLayout capacity placed) (notWrapped : ¬HasWrapped placed)
    (latest : placed.getLast? = some back) (len : ℕ) :
    ∀ entry ∈ placed, Region.Disjoint ⟨back.region.finish, len⟩ entry.region := by
  intro entry entry_mem
  have below := Placed.finish_le_of_pairwise (layout.ascending notWrapped) latest entry entry_mem
  have before : entry.region.Before ⟨back.region.finish, len⟩ := below
  exact before.disjoint.symm

/-- The space before the oldest region of a layout that has not wrapped is free. -/
theorem before_disjoint (layout : WrapLayout capacity placed) (notWrapped : ¬HasWrapped placed)
    (oldest : placed.head? = some front) :
    ∀ entry ∈ placed, Region.Disjoint ⟨0, front.region.start⟩ entry.region := by
  intro entry entry_mem
  have above := Placed.start_le_of_pairwise (layout.ascending notWrapped) oldest entry entry_mem
  have before : Region.Before ⟨0, front.region.start⟩ entry.region := by
    rw [Region.Before, Region.finish_mk, Nat.zero_add]
    exact above
  exact before.disjoint

/-- The space between the newest and the oldest region of a layout that has wrapped is free. -/
theorem between_disjoint (layout : WrapLayout capacity placed) (wrapped : HasWrapped placed)
    (oldest : placed.head? = some front) (latest : placed.getLast? = some back) :
    ∀ entry ∈ placed, Region.Disjoint
      ⟨back.region.finish, front.region.start - back.region.finish⟩ entry.region := by
  intro entry entry_mem
  have inverted := (layout.inverted wrapped oldest latest).1
  rcases layout.runs with ⟨upper, lower, rfl, runs⟩
  have nonempty : lower ≠ [] := fun none => (runs.lower_eq_nil_iff.mp none) wrapped
  have upper_nonempty : upper ≠ [] := fun none => nonempty (runs.anchored none)
  rw [List.head?_append_of_ne_nil upper upper_nonempty] at oldest
  rw [List.getLast?_append_of_ne_nil _ nonempty] at latest
  rcases List.mem_append.mp entry_mem with high | low
  · have above := Placed.start_le_of_pairwise runs.upperRun oldest entry high
    have before : Region.Before
        ⟨back.region.finish, front.region.start - back.region.finish⟩ entry.region := by
      simp only [Placed.Before, Region.Before, Region.finish_mk] at inverted ⊢
      omega
    exact before.disjoint
  · have below := Placed.finish_le_of_pairwise runs.lowerRun latest entry low
    have before : Region.Before entry.region
        ⟨back.region.finish, front.region.start - back.region.finish⟩ := below
    exact before.disjoint.symm

/-- In a layout that has not wrapped the newest region ends where the oldest one starts only if all
regions are empty and lie there. -/
theorem flat (layout : WrapLayout capacity placed) (notWrapped : ¬HasWrapped placed)
    (oldest : placed.head? = some front) (latest : placed.getLast? = some back)
    (inverted : back.region.finish ≤ front.region.start) :
    ∀ entry ∈ placed, entry.region = ⟨front.region.start, 0⟩ := by
  intro entry entry_mem
  have ascending := layout.ascending notWrapped
  have above := Placed.start_le_of_pairwise ascending oldest entry entry_mem
  have below := Placed.finish_le_of_pairwise ascending latest entry entry_mem
  rcases entry_region : entry.region with ⟨start, len⟩
  rw [entry_region] at above below
  dsimp only [Region.finish_mk] at above below
  simp only [Region.mk.injEq]
  omega

theorem place_empty {len : ℕ} (wraps : Bool) (fits : len ≤ capacity) :
    WrapLayout capacity [⟨⟨0, len⟩, wraps⟩] :=
  ⟨by simpa using fits, [⟨⟨0, len⟩, wraps⟩], [], rfl, .of_upper (by simp) (by simp)⟩

theorem inBounds_concat (layout : WrapLayout capacity placed)
    (fits : newest.region.finish ≤ capacity) :
    ∀ entry ∈ placed ++ [newest], entry.region.finish ≤ capacity := by
  intro entry entry_mem
  rcases List.mem_append.mp entry_mem with old | new
  · exact layout.inBounds entry old
  · rw [List.mem_singleton] at new
    exact new ▸ fits

/-- A region can be placed behind the newest one when it ends inside the buffer and, once the
layout has wrapped, before the oldest one. -/
theorem place_behind {len : ℕ} (layout : WrapLayout capacity placed)
    (oldest : placed.head? = some front) (latest : placed.getLast? = some back)
    (fits : back.region.finish + len ≤ capacity)
    (beneathFront : HasWrapped placed → back.region.finish + len ≤ front.region.start) :
    WrapLayout capacity (placed ++ [⟨⟨back.region.finish, len⟩, false⟩]) := by
  refine ⟨layout.inBounds_concat fits, ?_⟩
  rcases layout.runs with ⟨upper, lower, rfl, runs⟩
  cases upper with
  | nil => simp [runs.anchored rfl] at oldest
  | cons first upper =>
      simp only [List.cons_append, List.head?_cons, Option.some.injEq] at oldest
      subst oldest
      rcases List.eq_nil_or_concat lower with rfl | ⟨older, last, rfl⟩
      · rw [List.append_nil] at latest
        refine runs.concat rfl ?_ (by simp) (by simp)
        intro _ entry entry_mem
        exact Placed.finish_le_of_pairwise runs.upperRun latest entry entry_mem
      · rw [List.concat_eq_append] at runs latest beneathFront ⊢
        have last_eq : last = back := by
          rw [← List.append_assoc, List.getLast?_concat, Option.some.injEq] at latest
          exact latest
        subst last_eq
        have wrapped : HasWrapped (first :: upper ++ (older ++ [last])) := by
          by_contra notWrapped
          simpa using runs.lower_eq_nil_iff.mpr notWrapped
        refine runs.concat rfl (by simp) ?_ ?_
        · intro entry entry_mem
          exact Placed.finish_le_of_pairwise runs.lowerRun (by simp) entry entry_mem
        · intro _ high high_mem
          exact Nat.le_trans (beneathFront wrapped)
            (Placed.start_le_of_pairwise runs.upperRun (by simp) high high_mem)

/-- A region can be placed at address zero of a layout that has not wrapped when it ends before
the oldest one. -/
theorem place_zero {len : ℕ} (layout : WrapLayout capacity placed)
    (oldest : placed.head? = some front) (notWrapped : ¬HasWrapped placed)
    (beneathFront : len ≤ front.region.start) (positive : 0 < front.region.start) :
    WrapLayout capacity (placed ++ [⟨⟨0, len⟩, true⟩]) := by
  have front_le := layout.inBounds front (List.mem_of_head? oldest)
  have ascending := layout.ascending notWrapped
  refine ⟨layout.inBounds_concat ?_, placed, [⟨⟨0, len⟩, true⟩], rfl, ?_⟩
  · have := front.region.start_le_finish
    simp only [Region.finish_mk]
    omega
  · have above := Placed.start_le_of_pairwise ascending oldest
    refine
      { anchored := fun none => by simp [none] at oldest
        upperRun := ascending
        lowerRun := by simp
        beneath := ?_
        upperUnmarked := fun entry entry_mem => ?_
        lowerUnmarked := by simp
        atZero := ?_ }
    · intro low low_mem high high_mem
      rw [List.mem_singleton] at low_mem
      subst low_mem
      have := above high high_mem
      simp only [Placed.Before, Region.Before, Region.finish_mk]
      omega
    · by_contra marked
      exact notWrapped ⟨entry, entry_mem, by simpa using marked⟩
    · intro low first
      simp only [List.head?_cons, Option.mem_def, Option.some.injEq] at first
      subst first
      exact ⟨rfl, rfl, fun high high_mem => Nat.lt_of_lt_of_le positive (above high high_mem)⟩

end WrapLayout

end Mqttrust
