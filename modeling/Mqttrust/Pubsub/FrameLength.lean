import Mqttrust.Pubsub.Effect
import Mqttrust.Pubsub.Pipe
import Mqttrust.Pubsub.Transition

/-!
# Frames as they are read

A frame is written through a grant, committed, and read through the grants of the
subscribers. In between, its header says where it lies and how long it is; the
length is cut to sixteen bits there. The bytes stay in the buffer, where the
stores through write grants do not reach them, but a publisher that is created
anew zeroes them and a subscriber may change them through its read grant.
-/

namespace Mqttrust.Pubsub

theorem bytesAt_eq_iff {buf buf' : ℕ → UInt8} {region : Region} :
    bytesAt buf region = bytesAt buf' region ↔ ∀ address ∈ region, buf address = buf' address := by
  simp only [bytesAt, List.map_inj_left, List.mem_range]
  constructor
  · intro same address inside
    rw [Region.mem_iff] at inside
    have here := same (address - region.start) (by omega)
    rwa [Nat.add_sub_cancel' inside.1] at here
  · intro same offset bound
    exact same _ (Region.mem_iff.mpr ⟨Nat.le_add_right _ _, Nat.add_lt_add_left bound _⟩)

namespace World

/-- The byte that a call puts at an address other than through a write grant. -/
def overwrites (world : World) (address : ℕ) : Action → Option UInt8
  | .publisher => if world.inner.publisherTaken then none else some 0
  | .bufMut reader offset byte =>
      match world.reader? reader with
      | some grant => if grant.start + offset = address then some byte else none
      | none => none
  | _ => none

/-- The byte that some calls put last at an address other than through a write grant. -/
def lastOverwrite (config : ChannelConfig) (address : ℕ) : World → List Action → Option UInt8
  | _, [] => none
  | world, action :: rest =>
      ((step config world action).bind fun next => lastOverwrite config address next rest).or
        (world.overwrites address action)

/-- Some calls leave the bytes of a region as they are, unless they change them through a write
grant. -/
def Spares (config : ChannelConfig) (world : World) (region : Region) (actions : List Action) :
    Prop :=
  ∀ address ∈ region, ∀ byte, lastOverwrite config address world actions = some byte →
    byte = world.buf address

variable {config : ChannelConfig} {capacity : ℕ} {world next later : World}

@[simp]
theorem buf_addWriter (world : World) (inner : State) (result : Except Error FrameGrantW) :
    (world.addWriter inner result).buf = world.buf := by
  cases result <;> rfl

/-- A frame that is still queued was queued before, at the same place. -/
theorem key_mem_of_step {action : Action} (invariant : world.Invariant config capacity)
    (stepped : step config world action = some next) {header : Header}
    (queued : header ∈ next.inner.messages) (old : header.messageId < world.inner.nextMessageId) :
    header.key ∈ world.inner.messages.map Header.key := by
  have key_mem : header.key ∈ next.inner.messages.map Header.key := List.mem_map_of_mem queued
  cases transition_of_step invariant stepped with
  | quiet queue | subscribe queue | catchUp _ _ queue => exact queue ▸ key_mem
  | clear queue =>
      rw [queue] at queued
      exact absurd queued List.not_mem_nil
  | evict gone queue =>
      rw [queue, List.map_append]
      exact List.mem_append_right _ key_mem
  | commit grant used _ queue =>
      rw [queue] at queued
      rcases List.mem_append.mp queued with earlier | newest
      · exact List.mem_map_of_mem earlier
      · rw [List.mem_singleton] at newest
        subst newest
        exact absurd old (Nat.lt_irrefl _)
  | read reader index front _ found _ queue =>
      have keys : (world.inner.messages.set index front.startRead).map Header.key =
          world.inner.messages.map Header.key := State.map_key_set found rfl
      rw [queue, keys] at key_mem
      exact key_mem
  | pop grant front _ queue =>
      rw [queue]
      exact List.mem_cons_of_mem _ key_mem
  | flag index front found _ queue =>
      have keys : (world.inner.messages.set index front.endRead).map Header.key =
          world.inner.messages.map Header.key := State.map_key_set found rfl
      rw [queue, keys] at key_mem
      exact key_mem
  | leave reader _ queue =>
      rcases State.exists_dropped world.inner reader with ⟨gone, keys⟩
      rw [queue] at key_mem
      rw [keys]
      exact List.mem_append_right _ key_mem

/-- Stores through write grants do not reach a queued frame. -/
theorem buf_of_step {action : Action} (invariant : world.Invariant config capacity)
    (stepped : step config world action = some next) {key : ℕ × Region}
    (queued : key ∈ world.inner.messages.map Header.key) {address : ℕ} (inside : address ∈ key.2) :
    next.buf address = (world.overwrites address action).getD (world.buf address) := by
  cases World.call_of_step stepped with
  | publisher =>
      unfold World.publisher overwrites
      split
      · rfl
      · rfl
  | subscriber =>
      unfold World.subscriber
      split
      · rfl
      · rfl
  | clear | dropPublisher => rfl
  | grant =>
      simp only [World.grant, buf_addWriter]
      rfl
  | grantImmediate =>
      simp only [World.grantImmediate, buf_addWriter]
      rfl
  | write writer offset _ grant live bound =>
      have layout := invariant.writer_layout writer grant live
      have disjoint := (List.pairwise_append.mp layout.pairwise_disjoint).2.2
      rw [State.regions_eq_map_key] at disjoint
      have apart := disjoint key.2 (List.mem_map_of_mem queued) grant.region (by simp)
      have written : grant.start + offset ∈ grant.region := by
        rw [Region.mem_iff]
        exact ⟨Nat.le_add_right _ _, Nat.add_lt_add_left bound _⟩
      have elsewhere : address ≠ grant.start + offset := by
        intro same
        exact apart address inside (same ▸ written)
      exact if_neg elsewhere
  | setPid | toCommit | commit | dropWriter =>
      rfl
  | read =>
      unfold World.read
      split
      · rfl
      · rfl
  | bufMut _ offset _ grant live =>
      simp only [store, overwrites, live]
      by_cases here : address = grant.start + offset
      · simp [here]
      · simp [here, Ne.symm here]
  | autoRelease | release | dropReader | leakReader | dropSubscriber =>
      rfl

theorem nextMessageId_le_of_step {action : Action} (invariant : world.Invariant config capacity)
    (stepped : step config world action = some next) :
    world.inner.nextMessageId ≤ next.inner.nextMessageId := by
  cases effect_of_step invariant stepped with
  | subscribe inner | clear inner | quiet _ inner | refuse _ inner | grant _ inner
  | evict _ _ _ _ _ _ inner | evictAndGrant _ _ _ _ _ inner | discard _ _ _ _ inner
  | block _ _ _ _ inner | read _ _ _ _ _ _ _ inner | pop _ _ _ inner | flag _ _ _ inner =>
      exact Nat.le_of_eq (congrArg State.nextMessageId inner).symm
  | commit _ _ _ _ _ _ inner =>
      have grown := congrArg State.nextMessageId inner
      exact grown ▸ Nat.le_succ _
  | leave reader _ inner =>
      have kept := (State.dropSubscriber_frame world.inner reader).2.2.1
      rw [inner, kept]

/-- The bytes of a frame that is still queued are those it had, unless some call has put others
there. -/
theorem buf_of_run {actions : List Action} (invariant : world.Invariant config capacity)
    (ran : Execution.run (step config) world actions = some later) {header : Header}
    (queued : header ∈ later.inner.messages) (old : header.messageId < world.inner.nextMessageId) :
    header.key ∈ world.inner.messages.map Header.key ∧
      ∀ address ∈ header.region, later.buf address =
        (lastOverwrite config address world actions).getD (world.buf address) := by
  induction actions generalizing world with
  | nil =>
      simp only [Execution.run_nil, Option.some.injEq] at ran
      subst ran
      exact ⟨List.mem_map_of_mem queued, fun _ _ => rfl⟩
  | cons action rest ih =>
      rcases Execution.run_cons_eq_some.mp ran with ⟨next, stepped, continued⟩
      have grown := nextMessageId_le_of_step invariant stepped
      rcases ih (invariant.step stepped) continued (Nat.lt_of_lt_of_le old grown) with
        ⟨key_mem, last⟩
      rcases List.mem_map.mp key_mem with ⟨header', queued', sameKey⟩
      have sameId : header'.messageId = header.messageId := congrArg Prod.fst sameKey
      have earlier := key_mem_of_step invariant stepped queued' (sameId ▸ old)
      rw [sameKey] at earlier
      refine ⟨earlier, ?_⟩
      intro address inside
      have here := buf_of_step invariant stepped earlier inside
      rw [last address inside, here, lastOverwrite, stepped, Option.bind_some]
      rcases lastOverwrite config address next rest with _ | byte
      · rfl
      · rfl

end World

section FrameLength

variable {config : ChannelConfig} {capacity : ℕ} {before after : List Action}
  {world next later : World} {writer used : ℕ} {grant : FrameGrantW}
  {reader reader' : FrameSubscriber} {cx : Option Waker} {inner : State} {readGrant : FrameGrantR}

/-- The frame that a commit queues is the newest one, in the place of the write grant. -/
theorem region_of_commit (invariant : world.Invariant config capacity)
    (live : world.writers.get? writer = some grant) (awaited : 0 < world.inner.subscriberCount)
    (committed : step config world (.commit writer used) = some next) :
    next.buf = world.buf ∧ world.inner.nextMessageId < next.inner.nextMessageId ∧
      ∀ key ∈ next.inner.messages.map Header.key, key.1 = world.inner.nextMessageId →
        key.2 = ⟨grant.start, min grant.len used % 65536⟩ := by
  have writing := invariant.writer_writes writer grant live
  simp only [step, live, Option.bind_eq_bind, Option.bind_some, Option.some.injEq] at committed
  subst committed
  rcases State.commitInner_cases grant used writing (invariant.room writing) with
    ⟨noneLeft, _⟩ | ⟨_, queued⟩
  · omega
  · simp only [World.commit, queued]
    refine ⟨trivial, Nat.lt_succ_self _, ?_⟩
    intro key key_mem sameId
    rw [List.map_append] at key_mem
    rcases List.mem_append.mp key_mem with earlier | newest
    · rcases List.mem_map.mp earlier with ⟨header, header_mem, rfl⟩
      have older := invariant.valid.messageId_lt header_mem
      exact absurd sameId (Nat.ne_of_lt older)
    · rw [List.map_singleton, List.mem_singleton] at newest
      rw [newest]
      rfl

/-- A frame is read as it was committed exactly if its length fits into the header and its bytes
are left alone. -/
theorem frame_read_whole_iff (reached : runFrom config capacity before = some world)
    (live : world.writers.get? writer = some grant) (awaited : 0 < world.inner.subscriberCount)
    (committed : step config world (.commit writer used) = some next)
    (continued : Execution.run (step config) next after = some later)
    (read : later.inner.readWithContext config reader cx = (inner, reader', .ok readGrant))
    (sameFrame : readGrant.messageId = world.inner.nextMessageId) :
    (readGrant.len = min grant.len used ∧
      bytesAt later.buf readGrant.region =
        bytesAt world.buf ⟨grant.start, min grant.len used⟩) ↔
      min grant.len used < 65536 ∧
        next.Spares config ⟨grant.start, min grant.len used⟩ after := by
  have invariant := World.Invariant.of_runFrom reached
  rcases region_of_commit invariant live awaited committed with ⟨buf, newer, placed⟩
  rcases State.readWithContext_eq_ok read with ⟨index, header, found, _, _, _, _, rfl⟩
  have queued : header ∈ later.inner.messages := List.mem_of_getElem? found
  have id_eq : header.messageId = world.inner.nextMessageId := sameFrame
  rcases World.buf_of_run (invariant.step committed) continued queued (id_eq ▸ newer) with
    ⟨key_mem, last⟩
  have region : header.region = ⟨grant.start, min grant.len used % 65536⟩ :=
    placed _ key_mem id_eq
  have len : header.readGrant.len = min grant.len used % 65536 := congrArg Region.len region
  rw [len, Header.region_readGrant]
  constructor
  · rintro ⟨whole, sameBytes⟩
    have short : min grant.len used < 65536 := by omega
    rw [region, whole, bytesAt_eq_iff] at sameBytes
    refine ⟨short, ?_⟩
    intro address inside byte overwritten
    have here := last address (by rw [region, whole]; exact inside)
    rw [overwritten, Option.getD_some, sameBytes address inside] at here
    rw [buf, here]
  · rintro ⟨short, spared⟩
    have whole : min grant.len used % 65536 = min grant.len used := Nat.mod_eq_of_lt short
    refine ⟨whole, ?_⟩
    rw [region, whole, bytesAt_eq_iff]
    intro address inside
    rw [last address (by rw [region, whole]; exact inside), ← buf]
    rcases overwritten : World.lastOverwrite config address next after with _ | byte
    · rfl
    · exact spared address inside byte overwritten

/-- Three of the five bytes that were granted are committed and read. -/
theorem frame_read_whole_iff_example :
    ∃ (world later : World) (grant : FrameGrantW) (readGrant : FrameGrantR),
      world.writers.get? 0 = some grant ∧ grant.len = 5 ∧
      (Execution.run (step ⟨2, 1⟩) world [.commit 0 3, .grant 2 none] = some later) ∧
      readGrant.messageId = world.inner.nextMessageId ∧ readGrant.len = 3 ∧
      bytesAt later.buf readGrant.region = bytesAt world.buf ⟨grant.start, 3⟩ := by
  obtain ⟨world, reached⟩ : ∃ world, runFrom ⟨2, 1⟩ 8
      [.publisher, .subscriber, .grant 5 none, .write 0 1 7] = some world := ⟨_, rfl⟩
  have live : world.writers.get? 0 = some ⟨0, 5, 0, 0⟩ := by
    cases reached
    rfl
  have awaited : 0 < world.inner.subscriberCount := by
    cases reached
    decide
  obtain ⟨next, committed⟩ : ∃ next, step ⟨2, 1⟩ world (.commit 0 3) = some next := by
    cases reached
    exact ⟨_, rfl⟩
  obtain ⟨later, continued⟩ :
      ∃ later, Execution.run (step ⟨2, 1⟩) next [.grant 2 none] = some later := by
    cases reached
    cases committed
    exact ⟨_, rfl⟩
  obtain ⟨inner, read⟩ : ∃ inner, later.inner.readWithContext ⟨2, 1⟩ ⟨0⟩ none =
      (inner, ⟨1⟩, .ok ⟨0, 3, 0, true, 0⟩) := by
    cases reached
    cases committed
    cases continued
    exact ⟨_, rfl⟩
  have sameFrame : 0 = world.inner.nextMessageId := by
    cases reached
    rfl
  have spared : next.Spares ⟨2, 1⟩ ⟨0, 3⟩ [.grant 2 none] := by
    intro address _ byte overwritten
    cases reached
    cases committed
    exact absurd overwritten nofun
  have whole := (frame_read_whole_iff reached live awaited committed continued read sameFrame).mpr
    ⟨by decide, spared⟩
  refine ⟨world, later, _, _, live, rfl, ?_, sameFrame, whole.1, whole.2⟩
  exact Execution.run_cons_eq_some.mpr ⟨next, committed, continued⟩

/-- A frame of 65536 bytes is read as an empty one. -/
theorem not_frame_read_whole :
    ∃ (before : List Action) (world next : World) (grant : FrameGrantW) (inner : State)
      (readGrant : FrameGrantR),
      runFrom ⟨16, 1⟩ 65536 before = some world ∧ world.writers.get? 0 = some grant ∧
      0 < world.inner.subscriberCount ∧ step ⟨16, 1⟩ world (.commit 0 65536) = some next ∧
      next.inner.readWithContext ⟨16, 1⟩ ⟨0⟩ none = (inner, ⟨1⟩, .ok readGrant) ∧
      readGrant.messageId = world.inner.nextMessageId ∧
      min grant.len 65536 = 65536 ∧ readGrant.len = 0 := by
  obtain ⟨world, reached⟩ : ∃ world, runFrom ⟨16, 1⟩ 65536
      [.publisher, .subscriber, .grant 65536 none] = some world := ⟨_, rfl⟩
  have live : world.writers.get? 0 = some ⟨0, 65536, 0, 0⟩ := by
    cases reached
    rfl
  have awaited : 0 < world.inner.subscriberCount := by
    cases reached
    decide
  obtain ⟨next, committed⟩ : ∃ next, step ⟨16, 1⟩ world (.commit 0 65536) = some next := by
    cases reached
    exact ⟨_, rfl⟩
  obtain ⟨inner, read⟩ : ∃ inner, next.inner.readWithContext ⟨16, 1⟩ ⟨0⟩ none =
      (inner, ⟨1⟩, .ok ⟨0, 0, 0, true, 0⟩) := by
    cases reached
    cases committed
    exact ⟨_, rfl⟩
  have sameFrame : 0 = world.inner.nextMessageId := by
    cases reached
    rfl
  exact ⟨_, world, next, _, inner, _, reached, live, awaited, committed, read, sameFrame,
    rfl, rfl⟩

end FrameLength

end Mqttrust.Pubsub
