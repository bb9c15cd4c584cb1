import Mathlib.Data.List.Pairwise
import Mathlib.Data.List.Flatten
import Mathlib.Tactic.Common

/-!
# Byte regions and ring layouts

A region is a half-open range of addresses. A ring layout of capacity `c` is the
list of the regions that a ring buffer holds, oldest first: an upper run that
ascends towards the end of the buffer, followed by a lower run that ascends from
its start and stays below the upper one. Before the buffer wraps, the lower run
is empty.

Removing regions and shortening the newest one keep a layout a layout. The file
also says where a further region can be placed: behind the newest one, or at
address zero when the layout has not wrapped.
-/

namespace Mqttrust

/-- The addresses from `start`, `len` of them. -/
@[ext]
structure Region where
  start : ℕ
  len : ℕ
deriving DecidableEq, Repr

namespace Region

/-- The first address behind the region. -/
def finish (region : Region) : ℕ := region.start + region.len

instance : Membership ℕ Region where
  mem region address := region.start ≤ address ∧ address < region.finish

theorem mem_iff {region : Region} {address : ℕ} :
    address ∈ region ↔ region.start ≤ address ∧ address < region.start + region.len := Iff.rfl

instance (address : ℕ) (region : Region) : Decidable (address ∈ region) :=
  inferInstanceAs (Decidable (region.start ≤ address ∧ address < region.finish))

@[simp]
theorem finish_mk (start len : ℕ) : (Region.mk start len).finish = start + len := rfl

theorem start_le_finish (region : Region) : region.start ≤ region.finish :=
  Nat.le_add_right _ _

/-- No address lies in both regions. -/
def Disjoint (left right : Region) : Prop := ∀ address, address ∈ left → address ∉ right

theorem Disjoint.symm {left right : Region} (disjoint : left.Disjoint right) :
    right.Disjoint left := fun address inRight inLeft => disjoint address inLeft inRight

/-- The left region ends where the right one starts, or before. -/
def Before (left right : Region) : Prop := left.finish ≤ right.start

theorem Before.disjoint {left right : Region} (before : left.Before right) :
    left.Disjoint right := by
  intro address inLeft inRight
  simp only [Before, mem_iff, finish] at before inLeft inRight
  omega

end Region

/-- The regions held by a ring buffer, oldest first. -/
structure RingLayout (capacity : ℕ) (regions : List Region) : Prop where
  /-- Every region lies inside the buffer. -/
  inBounds : ∀ region ∈ regions, region.finish ≤ capacity
  /-- The regions are an upper ascending run followed by a lower one beneath it. -/
  runs : ∃ upper lower : List Region, regions = upper ++ lower ∧
    upper.Pairwise Region.Before ∧ lower.Pairwise Region.Before ∧
    ∀ low ∈ lower, ∀ high ∈ upper, low.Before high

namespace RingLayout

variable {capacity : ℕ} {regions : List Region}

theorem nil (capacity : ℕ) : RingLayout capacity [] :=
  ⟨by simp, [], [], by simp⟩

theorem sublist {fewer : List Region} (layout : RingLayout capacity regions)
    (removed : fewer.Sublist regions) : RingLayout capacity fewer := by
  rcases layout with ⟨inBounds, upper, lower, rfl, upperRun, lowerRun, beneath⟩
  rcases List.sublist_append_iff.mp removed with ⟨upper', lower', rfl, upperSub, lowerSub⟩
  refine ⟨fun region region_mem => inBounds region (removed.subset region_mem), upper', lower',
    rfl, upperRun.sublist upperSub, lowerRun.sublist lowerSub, ?_⟩
  intro low low_mem high high_mem
  exact beneath low (lowerSub.subset low_mem) high (upperSub.subset high_mem)

theorem pairwise_disjoint (layout : RingLayout capacity regions) :
    regions.Pairwise Region.Disjoint := by
  rcases layout with ⟨_, upper, lower, rfl, upperRun, lowerRun, beneath⟩
  refine List.pairwise_append.mpr ⟨upperRun.imp Region.Before.disjoint,
    lowerRun.imp Region.Before.disjoint, ?_⟩
  intro high high_mem low low_mem
  exact (beneath low low_mem high high_mem).disjoint.symm

theorem shorten_last {newest : Region} {len : ℕ}
    (layout : RingLayout capacity (regions ++ [newest])) (shorter : len ≤ newest.len) :
    RingLayout capacity (regions ++ [⟨newest.start, len⟩]) := by
  rcases layout with ⟨inBounds, upper, lower, split, upperRun, lowerRun, beneath⟩
  refine ⟨?_, ?_⟩
  · intro region region_mem
    rcases List.mem_append.mp region_mem with old | new
    · exact inBounds region (by simp [old])
    · have newest_le := inBounds newest (by simp)
      rw [List.mem_singleton] at new
      subst new
      simp only [Region.finish] at newest_le ⊢
      omega
  · rcases List.eq_nil_or_concat lower with rfl | ⟨lower, last, rfl⟩
    · rw [List.append_nil] at split
      subst split
      refine ⟨regions ++ [⟨newest.start, len⟩], [], by simp, ?_, by simp, by simp⟩
      rcases List.pairwise_append.mp upperRun with ⟨run, _, below⟩
      exact List.pairwise_append.mpr ⟨run, by simp, by
        intro high high_mem last last_mem
        rw [List.mem_singleton] at last_mem
        subst last_mem
        exact below high high_mem newest (by simp)⟩
    · rw [List.concat_eq_append, ← List.append_assoc] at split
      rcases List.append_inj' split rfl with ⟨rfl, sameLast⟩
      rw [List.cons.injEq] at sameLast
      rcases sameLast with ⟨rfl, -⟩
      rw [List.concat_eq_append] at lowerRun beneath
      rcases List.pairwise_append.mp lowerRun with ⟨run, _, below⟩
      refine ⟨upper, lower ++ [⟨newest.start, len⟩], by simp, upperRun,
        List.pairwise_append.mpr ⟨run, by simp, ?_⟩, ?_⟩
      · intro low low_mem last last_mem
        rw [List.mem_singleton] at last_mem
        subst last_mem
        exact below low low_mem newest (by simp)
      · intro low low_mem high high_mem
        rcases List.mem_append.mp low_mem with old | new
        · exact beneath low (by simp [old]) high high_mem
        · have newest_le := beneath newest (by simp) high high_mem
          rw [List.mem_singleton] at new
          subst new
          simp only [Region.Before, Region.finish] at newest_le ⊢
          omega

/-- The upper run of a layout that holds a region can be taken to start with the oldest one. -/
theorem exists_upper_cons {front : Region} {rest : List Region}
    (layout : RingLayout capacity (front :: rest)) :
    ∃ upper lower : List Region, rest = upper ++ lower ∧
      (front :: upper).Pairwise Region.Before ∧ lower.Pairwise Region.Before ∧
      ∀ low ∈ lower, ∀ high ∈ front :: upper, low.Before high := by
  rcases layout.runs with ⟨upper, lower, split, upperRun, lowerRun, beneath⟩
  cases upper with
  | nil =>
      rw [List.nil_append] at split
      subst split
      exact ⟨rest, [], by simp, lowerRun, by simp, by simp⟩
  | cons first upper =>
      rw [List.cons_append, List.cons.injEq] at split
      rcases split with ⟨rfl, rfl⟩
      exact ⟨upper, lower, rfl, upperRun, lowerRun, beneath⟩

theorem finish_le_of_pairwise {run : List Region} {back : Region}
    (ascending : (run ++ [back]).Pairwise Region.Before) :
    ∀ region ∈ run ++ [back], region.finish ≤ back.finish := by
  intro region region_mem
  rcases List.mem_append.mp region_mem with old | new
  · have before := (List.pairwise_append.mp ascending).2.2 region old back (by simp)
    exact Nat.le_trans before back.start_le_finish
  · rw [List.mem_singleton] at new
    exact new ▸ Nat.le_refl _

theorem start_le_of_pairwise {run : List Region} {front : Region}
    (ascending : (front :: run).Pairwise Region.Before) :
    ∀ region ∈ front :: run, front.start ≤ region.start := by
  intro region region_mem
  rcases List.mem_cons.mp region_mem with rfl | later
  · exact Nat.le_refl _
  · exact Nat.le_trans front.start_le_finish ((List.pairwise_cons.mp ascending).1 region later)

theorem pairwise_concat {run : List Region} {newest : Region}
    (ascending : run.Pairwise Region.Before) (behind : ∀ region ∈ run, region.Before newest) :
    (run ++ [newest]).Pairwise Region.Before :=
  List.pairwise_append.mpr ⟨ascending, by simp, by simpa using behind⟩

theorem inBounds_concat {newest : Region} (layout : RingLayout capacity regions)
    (fits : newest.finish ≤ capacity) :
    ∀ region ∈ regions ++ [newest], region.finish ≤ capacity := by
  intro region region_mem
  rcases List.mem_append.mp region_mem with old | new
  · exact layout.inBounds region old
  · rw [List.mem_singleton] at new
    exact new ▸ fits

/-- A region can be placed behind the newest one when it ends inside the buffer and, once the
layout has wrapped, before the oldest one. -/
theorem place_behind {front back : Region} {len : ℕ} (layout : RingLayout capacity regions)
    (oldest : regions.head? = some front) (newest : regions.getLast? = some back)
    (fits : back.finish + len ≤ capacity)
    (beneathFront : back.finish ≤ front.start → back.finish + len ≤ front.start) :
    RingLayout capacity (regions ++ [⟨back.finish, len⟩]) := by
  refine ⟨layout.inBounds_concat fits, ?_⟩
  rcases List.head?_eq_some_iff.mp oldest with ⟨rest, rfl⟩
  rcases layout.exists_upper_cons with ⟨upper, lower, rfl, upperRun, lowerRun, beneath⟩
  rcases List.eq_nil_or_concat lower with rfl | ⟨lower, last, rfl⟩
  · rw [List.append_nil] at newest
    rcases List.getLast?_eq_some_iff.mp newest with ⟨older, split⟩
    refine ⟨front :: upper ++ [⟨back.finish, len⟩], [], by simp, ?_, by simp, by simp⟩
    refine pairwise_concat upperRun fun region region_mem => ?_
    rw [split] at upperRun region_mem
    exact finish_le_of_pairwise upperRun region region_mem
  · rw [List.concat_eq_append] at lowerRun beneath newest ⊢
    have last_eq : last = back := by
      rw [← List.append_assoc, ← List.cons_append, List.getLast?_concat, Option.some.injEq]
        at newest
      exact newest
    subst last_eq
    have inverted : last.finish ≤ front.start := beneath last (by simp) front (by simp)
    refine ⟨front :: upper, lower ++ [last] ++ [⟨last.finish, len⟩], by simp, upperRun,
      ?_, ?_⟩
    · exact pairwise_concat lowerRun fun region region_mem =>
        finish_le_of_pairwise lowerRun region region_mem
    intro low low_mem high high_mem
    rcases List.mem_append.mp low_mem with old | new
    · exact beneath low old high high_mem
    · rw [List.mem_singleton] at new
      subst new
      exact Nat.le_trans (beneathFront inverted) (start_le_of_pairwise upperRun high high_mem)

/-- A region can be placed at address zero of a layout that has not wrapped when it ends before
the oldest one. -/
theorem place_zero {front back : Region} {len : ℕ} (layout : RingLayout capacity regions)
    (oldest : regions.head? = some front) (newest : regions.getLast? = some back)
    (notInverted : front.start < back.finish) (beneathFront : len ≤ front.start) :
    RingLayout capacity (regions ++ [⟨0, len⟩]) := by
  rcases List.head?_eq_some_iff.mp oldest with ⟨rest, rfl⟩
  have front_le := layout.inBounds front (by simp)
  refine ⟨layout.inBounds_concat ?_, ?_⟩
  · have := front.start_le_finish
    simp only [Region.finish_mk]
    omega
  · rcases layout.exists_upper_cons with ⟨upper, lower, rfl, upperRun, lowerRun, beneath⟩
    rcases List.eq_nil_or_concat lower with rfl | ⟨lower, last, rfl⟩
    · refine ⟨front :: upper, [⟨0, len⟩], by simp, upperRun, by simp, ?_⟩
      intro low low_mem high high_mem
      rw [List.mem_singleton] at low_mem
      subst low_mem
      have := start_le_of_pairwise upperRun high high_mem
      simp only [Region.Before, Region.finish_mk]
      omega
    · rw [List.concat_eq_append] at beneath newest
      rw [← List.append_assoc, ← List.cons_append, List.getLast?_concat, Option.some.injEq]
        at newest
      subst newest
      have inverted := beneath last (by simp) front (by simp)
      simp only [Region.Before] at inverted
      omega

theorem place_empty {len : ℕ} (fits : len ≤ capacity) : RingLayout capacity [⟨0, len⟩] :=
  ⟨by simpa using fits, [⟨0, len⟩], [], by simp⟩

end RingLayout

end Mqttrust
