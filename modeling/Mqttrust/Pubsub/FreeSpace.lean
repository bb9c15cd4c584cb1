import Mqttrust.Foundation.Wrap
import Mqttrust.Pubsub.Effect

/-!
# What the free space of a channel means

The next frame goes behind the newest one, or to address zero. How large these
places are depends on whether the layout has wrapped, which the code infers from
two addresses. A placement keeps the history that answers the question: for each
message whether it was placed at address zero because the space behind the newest
frame was too small.

The free space is the size of the largest place, except when all queued frames are
empty and lie at one address: such a queue is taken for a wrapped one without any
space left.
-/

namespace Mqttrust.Pubsub

/-- The size of the frame for which a call asks for a grant. -/
def Action.asks? : Action → Option ℕ
  | .grant maxSz _ | .grantImmediate maxSz => some maxSz
  | _ => none

namespace State

/-- `grant_with_context` places the frame at zero because the space behind the newest frame is too
small. -/
def wraps (state : State) (maxSz : ℕ) : Bool :=
  match state.messages.getLast?, state.messages.head? with
  | some back, some front =>
      let backEnd := back.start + back.len
      !(decide (backEnd ≤ front.start) || decide (maxSz ≤ state.capacity - backEnd))
  | _, _ => false

/-- The places for the next frame: behind the newest one, up to the oldest one when the layout has
wrapped; otherwise up to the end of the buffer, or in front of the oldest one. -/
def places (state : State) (wrapped : Bool) : List Region :=
  match state.messages.getLast?, state.messages.head? with
  | some back, some front =>
      let backEnd := back.start + back.len
      if wrapped then [⟨backEnd, front.start - backEnd⟩]
      else [⟨backEnd, state.capacity - backEnd⟩, ⟨0, front.start⟩]
  | _, _ => [⟨0, state.capacity⟩]

/-- The size of the largest place for the next frame. -/
def largestPlace (state : State) (wrapped : Bool) : ℕ :=
  ((state.places wrapped).map Region.len).foldr max 0

/-- All queued frames are empty and lie at one address. -/
def Flat (state : State) : Prop :=
  ∃ address, ∀ header ∈ state.messages, header.region = ⟨address, 0⟩

end State

/-- A channel together with the history of its placements. -/
structure Placement where
  world : World
  /-- The outstanding write grant was placed at zero for want of space behind the newest frame. -/
  wraps : Bool
  /-- The messages that were placed so. -/
  wrapped : List ℕ

namespace Placement

/-- The placements of a new channel. -/
def new (capacity : ℕ) : Placement := ⟨World.new capacity, false, []⟩

/-- The mark of a message. -/
def mark (wrapped : List ℕ) (key : ℕ × Region) : Placed := ⟨key.2, key.1 ∈ wrapped⟩

/-- The queued frames with their marks, oldest first. -/
def placed (placement : Placement) : List Placed :=
  (placement.world.inner.messages.map Header.key).map (mark placement.wrapped)

/-- A frame behind the oldest one was placed at zero for want of space behind the newest frame. -/
def hasWrapped (placement : Placement) : Bool := HasWrapped placement.placed

end Placement

/-- One call of the interface, with the history of the placements. -/
def placementStep (config : ChannelConfig) (placement : Placement) (action : Action) :
    Option Placement :=
  (step config placement.world action).map fun next =>
    { world := next
      wraps :=
        match action.asks? with
        | some maxSz =>
            if placement.world.inner.writeInProgress then placement.wraps
            else next.inner.wraps maxSz
        | none => placement.wraps
      wrapped :=
        if placement.wraps ∧ placement.world.inner.nextMessageId < next.inner.nextMessageId then
          placement.world.inner.nextMessageId :: placement.wrapped
        else placement.wrapped }

/-- A run of a channel with the history of its placements. -/
abbrev placementRun (config : ChannelConfig) (capacity : ℕ) (actions : List Action) :
    Option Placement :=
  Execution.run (placementStep config) (Placement.new capacity) actions

namespace State

variable {state : State} {placed : List Placed}

theorem wrapLayout_newStart {maxSz : ℕ} (layout : WrapLayout state.capacity placed)
    (regions : placed.map Placed.region = state.regions) (fits : maxSz ≤ state.freeSpace) :
    WrapLayout state.capacity
      (placed ++ [⟨⟨state.newStart maxSz, maxSz⟩, state.wraps maxSz⟩]) := by
  have first := congrArg List.head? regions
  have last := congrArg List.getLast? regions
  simp only [State.regions, List.head?_map, List.getLast?_map] at first last
  unfold freeSpace at fits
  unfold newStart wraps
  rcases List.eq_nil_or_concat placed with rfl | ⟨older, back, nonempty⟩
  · have empty : state.messages = [] := by simpa [State.regions] using regions.symm
    simp only [empty, List.getLast?_nil] at fits ⊢
    exact WrapLayout.place_empty false fits
  · rw [List.concat_eq_append] at nonempty
    rcases List.exists_cons_of_ne_nil (show placed ≠ [] by simp [nonempty])
      with ⟨front, rest, queue⟩
    have latest : placed.getLast? = some back := by simp [nonempty]
    have oldest : placed.head? = some front := by simp [queue]
    rw [latest, Option.map_some] at last
    rw [oldest, Option.map_some] at first
    rcases Option.map_eq_some_iff.mp last.symm with ⟨backHeader, backFound, backRegion⟩
    rcases Option.map_eq_some_iff.mp first.symm with ⟨frontHeader, frontFound, frontRegion⟩
    have back_le := layout.inBounds back (List.mem_of_getLast? latest)
    have front_le := layout.inBounds front (List.mem_of_head? oldest)
    have backEnd : backHeader.start + backHeader.len = back.region.finish := by
      rw [← backRegion]
      rfl
    have frontStart : frontHeader.start = front.region.start := by
      rw [← frontRegion]
      rfl
    have notInverted : front.region.start < back.region.finish → ¬HasWrapped placed := by
      intro behind wrapped
      have before := (layout.inverted wrapped oldest latest).1
      simp only [Placed.Before, Region.Before] at before
      omega
    have := front.region.start_le_finish
    simp only [backFound, frontFound, backEnd, frontStart, decide_eq_true_eq, Bool.or_eq_true]
      at fits ⊢
    by_cases inverted : back.region.finish ≤ front.region.start
    · rw [if_pos inverted] at fits
      rw [if_pos (Or.inl inverted), decide_eq_true inverted, Bool.true_or, Bool.not_true]
      refine layout.place_behind oldest latest (by omega) ?_
      intro _
      omega
    · rw [if_neg inverted] at fits
      have notWrapped := notInverted (Nat.lt_of_not_le inverted)
      by_cases behind : maxSz ≤ state.capacity - back.region.finish
      · rw [if_pos (Or.inr behind), decide_eq_true behind, Bool.or_true, Bool.not_true]
        exact layout.place_behind oldest latest (by omega) fun wrapped => absurd wrapped notWrapped
      · rw [if_neg (by omega), decide_eq_false inverted, decide_eq_false behind, Bool.or_false,
          Bool.not_false]
        exact layout.place_zero oldest notWrapped (by omega) (by omega)

end State

namespace Placement

variable {config : ChannelConfig} {capacity : ℕ} {placement next : Placement}

theorem map_region_placed (placement : Placement) :
    placement.placed.map Placed.region = placement.world.inner.regions := by
  simp [placed, mark, State.regions, Header.key, Function.comp_def]

/-- What the history says of the layout. -/
structure Sound (config : ChannelConfig) (capacity : ℕ) (placement : Placement) : Prop where
  invariant : placement.world.Invariant config capacity
  layout : WrapLayout capacity placement.placed
  writer : ∀ region, (∃ writer grant, placement.world.writers.get? writer = some grant ∧
      grant.region = region) →
    WrapLayout capacity (placement.placed ++ [⟨region, placement.wraps⟩])
  past : ∀ id ∈ placement.wrapped, id < placement.world.inner.nextMessageId

namespace Sound

theorem new (config : ChannelConfig) (capacity : ℕ) :
    (Placement.new capacity).Sound config capacity where
  invariant := .new config capacity
  layout := .nil capacity
  writer := by simp [Placement.new, World.new]
  past := by simp [Placement.new]

/-- The queue may lose its oldest frames. -/
theorem of_keys (gone : List (ℕ × Region)) (sound : placement.Sound config capacity)
    (invariant : next.world.Invariant config capacity)
    (keys : placement.world.inner.messages.map Header.key =
      gone ++ next.world.inner.messages.map Header.key)
    (nextId : next.world.inner.nextMessageId = placement.world.inner.nextMessageId)
    (writers : ∀ writer grant, next.world.writers.get? writer = some grant →
      ∃ old, placement.world.writers.get? writer = some old ∧ old.region = grant.region)
    (wraps : placement.world.inner.writeInProgress = true → next.wraps = placement.wraps)
    (wrapped : next.wrapped = placement.wrapped) : next.Sound config capacity := by
  have placed_eq : placement.placed = gone.map (mark placement.wrapped) ++ next.placed := by
    rw [placed, keys, List.map_append, placed, wrapped]
  refine ⟨invariant, ?_, ?_, ?_⟩
  · have layout := sound.layout
    rw [placed_eq] at layout
    exact layout.suffix
  · rintro region ⟨writer, grant, live, rfl⟩
    rcases writers writer grant live with ⟨old, old_live, region_eq⟩
    have layout := sound.writer grant.region ⟨writer, old, old_live, region_eq⟩
    rw [placed_eq, List.append_assoc] at layout
    rw [wraps (sound.invariant.writer_writes writer old old_live)]
    exact layout.suffix
  · rw [wrapped, nextId]
    exact sound.past

theorem of_same_writers (gone : List (ℕ × Region)) (sound : placement.Sound config capacity)
    (invariant : next.world.Invariant config capacity)
    (keys : placement.world.inner.messages.map Header.key =
      gone ++ next.world.inner.messages.map Header.key)
    (nextId : next.world.inner.nextMessageId = placement.world.inner.nextMessageId)
    (writers : next.world.writers = placement.world.writers)
    (wraps : placement.world.inner.writeInProgress = true → next.wraps = placement.wraps)
    (wrapped : next.wrapped = placement.wrapped) : next.Sound config capacity := by
  refine sound.of_keys gone invariant keys nextId ?_ wraps wrapped
  intro writer grant live
  rw [writers] at live
  exact ⟨grant, live, rfl⟩

/-- A write grant is given behind a queue that may have lost its oldest frames. -/
theorem of_grant {maxSz : ℕ} {gone kept : List Header} (sound : placement.Sound config capacity)
    (invariant : next.world.Invariant config capacity)
    (split : placement.world.inner.messages = gone ++ kept)
    (grants : State.Grants config { placement.world.inner with messages := kept } maxSz)
    (inner : next.world.inner =
      { placement.world.inner with messages := kept, writeInProgress := true })
    (writers : next.world.writers = placement.world.writers.insert
      ⟨State.newStart { placement.world.inner with messages := kept } maxSz, maxSz, 0, 0⟩)
    (wraps : next.wraps = next.world.inner.wraps maxSz)
    (wrapped : next.wrapped = placement.wrapped) : next.Sound config capacity := by
  have placed_eq : placement.placed =
      (gone.map Header.key).map (mark placement.wrapped) ++ next.placed := by
    rw [placed, split, List.map_append, List.map_append, placed, wrapped, inner]
  have layout : WrapLayout capacity next.placed := by
    have layout := sound.layout
    rw [placed_eq] at layout
    exact layout.suffix
  have idle : placement.world.inner.writeInProgress = false := grants.1
  have fixed := invariant.fixed
  refine ⟨invariant, layout, ?_, ?_⟩
  · rintro region ⟨writer, grant, live, rfl⟩
    rw [writers, Table.get?_insert] at live
    split at live
    · rcases Option.some.inj live with rfl
      rw [wraps, ← fixed]
      rw [← fixed] at layout
      have sameQueue : next.world.inner.messages = kept := by rw [inner]
      have fits : maxSz ≤ next.world.inner.freeSpace := by
        have same : next.world.inner.freeSpace =
            State.freeSpace { placement.world.inner with messages := kept } := by rw [inner]; rfl
        rw [same]
        exact grants.2.1
      have placedAt : next.world.inner.newStart maxSz =
          State.newStart { placement.world.inner with messages := kept } maxSz := by
        rw [inner]
        rfl
      rw [FrameGrantW.region_mk, ← placedAt]
      exact State.wrapLayout_newStart layout next.map_region_placed fits
    · have writing := sound.invariant.writer_writes writer grant live
      simp [idle] at writing
  · rw [wrapped, inner]
    exact sound.past

/-- The outstanding write grant is committed. -/
theorem of_commit {writer used : ℕ} {grant : FrameGrantW} (sound : placement.Sound config capacity)
    (invariant : next.world.Invariant config capacity)
    (live : placement.world.writers.get? writer = some grant)
    (messages : next.world.inner.messages =
      placement.world.inner.messages ++ [placement.world.inner.commitHeader grant used])
    (nextId : next.world.inner.nextMessageId = placement.world.inner.nextMessageId + 1)
    (writers : next.world.writers = placement.world.writers.remove writer)
    (wrapped : next.wrapped =
      if placement.wraps then placement.world.inner.nextMessageId :: placement.wrapped
      else placement.wrapped) : next.Sound config capacity := by
  have older : ∀ header ∈ placement.world.inner.messages,
      mark next.wrapped header.key = mark placement.wrapped header.key := by
    intro header header_mem
    have before := sound.invariant.valid.messageId_lt header_mem
    have different : header.messageId ≠ placement.world.inner.nextMessageId := by omega
    have same : header.messageId ∈ next.wrapped ↔ header.messageId ∈ placement.wrapped := by
      rw [wrapped]
      split
      · simp [different]
      · exact Iff.rfl
    simp only [mark, Header.key, Placed.mk.injEq, true_and]
    exact decide_eq_decide.mpr same
  have newest : (mark next.wrapped
      (placement.world.inner.commitHeader grant used).key).wraps = placement.wraps := by
    have fresh : placement.world.inner.nextMessageId ∉ placement.wrapped := by
      intro known
      exact absurd (sound.past _ known) (Nat.lt_irrefl _)
    rw [wrapped]
    cases placement.wraps <;> simp [mark, Header.key, State.commitHeader, fresh]
  have placed_eq : next.placed = placement.placed ++ [Placed.shorten ⟨grant.region, placement.wraps⟩
      (min grant.len used % 65536)] := by
    simp only [placed, messages, List.map_append, List.map_map]
    congr 1
    · exact List.map_congr_left older
    · simp only [List.map_cons, List.map_nil, List.cons.injEq, and_true]
      rw [Placed.shorten, ← newest]
      rfl
  refine ⟨invariant, ?_, ?_, ?_⟩
  · rw [placed_eq]
    apply (sound.writer grant.region ⟨writer, grant, live, rfl⟩).shorten_last
    exact Nat.le_trans (Nat.mod_le _ _) (Nat.min_le_left _ _)
  · rintro region ⟨other, grant', still, rfl⟩
    rw [writers, Table.get?_remove] at still
    split at still
    · simp at still
    · rename_i different
      exact absurd (sound.invariant.writer_unique other writer grant' grant still live) different
  · intro id id_mem
    rw [nextId]
    rw [wrapped] at id_mem
    split at id_mem
    · rcases List.mem_cons.mp id_mem with rfl | old
      · exact Nat.lt_succ_self _
      · exact Nat.lt_succ_of_lt (sound.past id old)
    · exact Nat.lt_succ_of_lt (sound.past id id_mem)

theorem step {action : Action} (sound : placement.Sound config capacity)
    (stepped : placementStep config placement action = some next) :
    next.Sound config capacity := by
  rcases Option.map_eq_some_iff.mp stepped with ⟨world, called, placed⟩
  have world_eq : next.world = world := by rw [← placed]
  subst world_eq
  have invariant := sound.invariant.step called
  have wraps : placement.world.inner.writeInProgress = true → next.wraps = placement.wraps := by
    intro writing
    rw [← placed]
    cases action.asks? <;> simp [writing]
  have asked : ∀ maxSz, action.asks? = some maxSz →
      placement.world.inner.writeInProgress = false →
      next.wraps = next.world.inner.wraps maxSz := by
    intro maxSz asks idle
    rw [← placed]
    simp [asks, idle]
  have wrapped : next.world.inner.nextMessageId = placement.world.inner.nextMessageId →
      next.wrapped = placement.wrapped := by
    intro same
    rw [← placed]
    simp [same]
  cases World.effect_of_step sound.invariant called with
  | quiet taken inner _ writers =>
      have nextId := congrArg State.nextMessageId inner
      exact sound.of_keys [] invariant (by rw [inner]; rfl) nextId
        (fun _ _ => writers.exists_old) wraps (wrapped nextId)
  | subscribe inner _ writers =>
      have nextId := congrArg State.nextMessageId inner
      exact sound.of_same_writers [] invariant (by rw [inner]; rfl) nextId writers wraps
        (wrapped nextId)
  | clear inner _ writers =>
      have nextId := congrArg State.nextMessageId inner
      exact sound.of_same_writers (placement.world.inner.messages.map Header.key) invariant
        (by simp [inner, State.clear]) nextId writers wraps
        (wrapped nextId)
  | refuse _ inner _ writers =>
      have nextId := congrArg State.nextMessageId inner
      exact sound.of_same_writers [] invariant (by rw [inner]; rfl) nextId writers wraps
        (wrapped nextId)
  | grant grants inner _ writers =>
      have nextId := congrArg State.nextMessageId inner
      have split : placement.world.inner.messages = [] ++ placement.world.inner.messages := rfl
      exact sound.of_grant invariant split grants inner writers
        (asked _ rfl grants.1) (wrapped nextId)
  | evict gone kept split _ _ _ inner _ writers =>
      have nextId := congrArg State.nextMessageId inner
      exact sound.of_same_writers (gone.map Header.key) invariant (by rw [inner, split, List.map_append])
        nextId writers wraps
        (wrapped nextId)
  | evictAndGrant gone kept split _ grants inner _ writers =>
      have nextId := congrArg State.nextMessageId inner
      exact sound.of_grant invariant split grants inner writers (asked _ rfl grants.1)
        (wrapped nextId)
  | discard writer used _ _ inner _ writers =>
      have nextId := congrArg State.nextMessageId inner
      refine sound.of_keys [] invariant (by rw [inner]; rfl) nextId ?_ wraps (wrapped nextId)
      intro other grant live
      rw [writers, Table.get?_remove] at live
      split at live
      · simp at live
      · exact ⟨grant, live, rfl⟩
  | commit writer used grant _ live _ inner _ writers =>
      have nextId := congrArg State.nextMessageId inner
      refine sound.of_commit invariant live (congrArg State.messages inner) nextId writers ?_
      rw [← placed]
      simp [nextId]
  | block _ _ _ _ inner _ writers =>
      have nextId := congrArg State.nextMessageId inner
      exact sound.of_same_writers [] invariant (by rw [inner]; rfl) nextId writers wraps
        (wrapped nextId)
  | read reader index header _ found _ _ inner _ writers =>
      have nextId := congrArg State.nextMessageId inner
      refine sound.of_same_writers [] invariant ?_ nextId writers wraps
        (wrapped nextId)
      rw [inner, List.nil_append, State.map_key_set found header.key_startRead]
  | pop front rest queue inner _ writers =>
      have nextId := congrArg State.nextMessageId inner
      exact sound.of_same_writers [front.key] invariant (by rw [inner, queue]; rfl) nextId writers wraps
        (wrapped nextId)
  | flag index header found inner _ writers =>
      have nextId := congrArg State.nextMessageId inner
      refine sound.of_same_writers [] invariant ?_ nextId writers wraps
        (wrapped nextId)
      rw [inner, List.nil_append, State.map_key_set found header.key_endRead]
  | leave reader _ inner _ writers =>
      have nextId := congrArg State.nextMessageId inner
      rw [(State.dropSubscriber_frame _ reader).2.2.1] at nextId
      rcases State.exists_dropped placement.world.inner reader with ⟨gone, keys⟩
      exact sound.of_same_writers gone invariant (by rw [inner, keys]) nextId writers wraps
        (wrapped nextId)

theorem of_run {actions : List Action} (reached : placementRun config capacity actions =
    some placement) : placement.Sound config capacity :=
  Execution.invariant_of_run (Sound config capacity) (fun sound stepped => sound.step stepped)
    (new config capacity) reached

end Sound

/-- The history changes nothing: the runs are those of the channel. -/
theorem map_world_placementRun (config : ChannelConfig) (capacity : ℕ) (actions : List Action) :
    (placementRun config capacity actions).map Placement.world =
      runFrom config capacity actions := by
  apply Execution.run_map
  intro placement action
  simp [placementStep, Function.comp_def]

theorem exists_oldest_placed {front : Header}
    (oldest : placement.world.inner.messages.head? = some front) :
    ∃ entry, placement.placed.head? = some entry ∧ entry.region = front.region := by
  refine ⟨mark placement.wrapped front.key, ?_, rfl⟩
  rw [placed, List.head?_map, List.head?_map, oldest]
  rfl

theorem exists_newest_placed {back : Header}
    (newest : placement.world.inner.messages.getLast? = some back) :
    ∃ entry, placement.placed.getLast? = some entry ∧ entry.region = back.region := by
  refine ⟨mark placement.wrapped back.key, ?_, rfl⟩
  rw [placed, List.getLast?_map, List.getLast?_map, newest]
  rfl

theorem exists_placed {header : Header} (queued : header ∈ placement.world.inner.messages) :
    ∃ entry ∈ placement.placed, entry.region = header.region := by
  refine ⟨mark placement.wrapped header.key, ?_, rfl⟩
  exact List.mem_map_of_mem (List.mem_map_of_mem queued)

theorem hasWrapped_iff : placement.hasWrapped = true ↔ HasWrapped placement.placed :=
  decide_eq_true_iff

namespace Sound

/-- The places for the next frame overlap no queued frame. -/
theorem places_disjoint {place : Region} {header : Header}
    (sound : placement.Sound config capacity)
    (offered : place ∈ placement.world.inner.places placement.hasWrapped)
    (queued : header ∈ placement.world.inner.messages) : place.Disjoint header.region := by
  have nonempty := List.ne_nil_of_mem queued
  have newest := List.getLast?_eq_some_getLast nonempty
  have oldest := List.head?_eq_some_head nonempty
  rcases exists_oldest_placed oldest with ⟨front, front_placed, front_eq⟩
  rcases exists_newest_placed newest with ⟨back, back_placed, back_eq⟩
  rcases exists_placed queued with ⟨entry, entry_mem, entry_eq⟩
  have back_end := congrArg Region.finish back_eq
  have front_start := congrArg Region.start front_eq
  rw [Header.region_finish] at back_end
  rw [Header.region_start] at front_start
  simp only [State.places, newest, oldest, ← back_end, ← front_start] at offered
  rw [← entry_eq]
  by_cases wrapped : HasWrapped placement.placed
  · rw [if_pos (hasWrapped_iff.mpr wrapped), List.mem_singleton] at offered
    rw [offered]
    exact sound.layout.between_disjoint wrapped front_placed back_placed entry entry_mem
  · rw [if_neg (mt hasWrapped_iff.mp wrapped), List.mem_cons, List.mem_singleton] at offered
    rcases offered with rfl | rfl
    · exact sound.layout.behind_disjoint wrapped back_placed _ entry entry_mem
    · exact sound.layout.before_disjoint wrapped front_placed entry entry_mem

theorem freeSpace_eq_iff (sound : placement.Sound config capacity) :
    placement.world.inner.freeSpace =
        placement.world.inner.largestPlace placement.hasWrapped ↔
      ¬(placement.world.inner.messages ≠ [] ∧ 0 < capacity ∧ placement.world.inner.Flat) := by
  rcases List.eq_nil_or_concat placement.world.inner.messages with empty | ⟨_, _, concat⟩
  · simp [State.freeSpace, State.largestPlace, State.places, empty]
  have nonempty : placement.world.inner.messages ≠ [] := by simp [concat]
  have newest := List.getLast?_eq_some_getLast nonempty
  have oldest := List.head?_eq_some_head nonempty
  rcases exists_oldest_placed oldest with ⟨front, front_placed, front_eq⟩
  rcases exists_newest_placed newest with ⟨back, back_placed, back_eq⟩
  have front_le := sound.layout.inBounds front (List.mem_of_head? front_placed)
  have back_le := sound.layout.inBounds back (List.mem_of_getLast? back_placed)
  have front_ordered := front.region.start_le_finish
  have flat_iff : placement.world.inner.Flat ↔
      ∃ address, ∀ entry ∈ placement.placed, entry.region = ⟨address, 0⟩ := by
    simp [State.Flat, placed, mark, Header.key]
  have back_end := congrArg Region.finish back_eq
  have front_start := congrArg Region.start front_eq
  rw [Header.region_finish] at back_end
  rw [Header.region_start] at front_start
  rw [flat_iff]
  simp only [State.freeSpace, State.largestPlace, State.places, newest, oldest, ← back_end,
    ← front_start, sound.invariant.fixed, decide_eq_true_eq]
  by_cases wrapped : HasWrapped placement.placed
  · rcases sound.layout.inverted wrapped front_placed back_placed with
      ⟨inverted, above, zero, zero_mem, at_zero⟩
    have ends_before : back.region.finish ≤ front.region.start := inverted
    rw [if_pos ends_before, if_pos (hasWrapped_iff.mpr wrapped)]
    simp only [List.map_cons, List.map_nil, List.foldr_cons, List.foldr_nil, Nat.max_zero,
      true_iff]
    rintro ⟨_, _, address, flat⟩
    have zero_flat := flat zero zero_mem
    have front_flat := flat front (List.mem_of_head? front_placed)
    rw [zero_flat] at at_zero
    rw [front_flat] at above
    exact absurd at_zero (Nat.ne_of_gt above)
  · rw [if_neg (mt hasWrapped_iff.mp wrapped)]
    simp only [List.map_cons, List.map_nil, List.foldr_cons, List.foldr_nil, Nat.max_zero]
    by_cases inverted : back.region.finish ≤ front.region.start
    · have flat := sound.layout.flat wrapped front_placed back_placed inverted
      have back_flat := flat back (List.mem_of_getLast? back_placed)
      have meet : back.region.finish = front.region.start := by
        rw [back_flat]
        rfl
      rw [if_pos inverted, meet]
      constructor
      · rintro none_left ⟨_, positive, _⟩
        omega
      · intro excluded
        have no_capacity : capacity = 0 := by
          by_contra positive
          exact excluded ⟨nonempty, Nat.pos_of_ne_zero positive, _, flat⟩
        omega
    · rw [if_neg inverted, Nat.max_comm]
      simp only [true_iff]
      rintro ⟨_, _, address, flat⟩
      have front_flat := flat front (List.mem_of_head? front_placed)
      have back_flat := flat back (List.mem_of_getLast? back_placed)
      rw [front_flat, back_flat] at inverted
      exact inverted (Nat.le_refl _)

end Sound

end Placement

/-- The places for the next frame overlap no queued frame, and the free space is the size of the
largest one, except when the frames in the queue are empty and lie at one address of a buffer that
is not. -/
theorem freeSpace_eq_largestPlace_iff {config : ChannelConfig} {capacity : ℕ}
    {actions : List Action} {placement : Placement}
    (reached : placementRun config capacity actions = some placement) :
    (∀ place ∈ placement.world.inner.places placement.hasWrapped,
      ∀ header ∈ placement.world.inner.messages, place.Disjoint header.region) ∧
    (placement.world.inner.freeSpace =
        placement.world.inner.largestPlace placement.hasWrapped ↔
      ¬(placement.world.inner.messages ≠ [] ∧ 0 < capacity ∧ placement.world.inner.Flat)) := by
  have sound := Placement.Sound.of_run reached
  refine ⟨?_, sound.freeSpace_eq_iff⟩
  intro place offered header queued
  exact sound.places_disjoint offered queued

/-- The third frame is placed at zero in front of the second one, which is then the oldest. -/
theorem freeSpace_eq_largestPlace_iff_example :
    ∃ placement, placementRun ⟨4, 1⟩ 8 [.publisher, .subscriber, .grant 4 none, .commit 0 4,
        .grant 3 none, .commit 1 3, .read 0 none, .release 0, .grant 2 none, .commit 2 2] =
          some placement ∧
      placement.hasWrapped = true ∧
      (placement.world.inner.freeSpace =
          placement.world.inner.largestPlace placement.hasWrapped ↔
        ¬(placement.world.inner.messages ≠ [] ∧ 0 < 8 ∧ placement.world.inner.Flat)) := by
  obtain ⟨placement, reached, wrapped⟩ : ∃ placement, placementRun ⟨4, 1⟩ 8 [.publisher,
      .subscriber, .grant 4 none, .commit 0 4, .grant 3 none, .commit 1 3, .read 0 none,
      .release 0, .grant 2 none, .commit 2 2] = some placement ∧
      placement.hasWrapped = true := ⟨_, rfl, by decide⟩
  exact ⟨placement, reached, wrapped, (freeSpace_eq_largestPlace_iff reached).2⟩

/-- A write grant that is dropped queues an empty frame at address zero: the buffer is empty, but
no space is left in it. -/
theorem not_freeSpace_eq_largestPlace :
    ¬∀ (config : ChannelConfig) (capacity : ℕ) (actions : List Action) (placement : Placement),
      placementRun config capacity actions = some placement →
      placement.world.inner.freeSpace =
        placement.world.inner.largestPlace placement.hasWrapped := by
  intro claimed
  have same := claimed ⟨2, 1⟩ 8 [.publisher, .subscriber, .grant 3 none, .dropWriter 0] _ rfl
  exact absurd same (by decide)

end Mqttrust.Pubsub
