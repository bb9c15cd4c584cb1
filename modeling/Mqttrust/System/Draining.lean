import Mqttrust.System.Attribution
import Mqttrust.System.Forwarding

/-!
# Draining the TX channel

While `select` has its connection the stack is never stuck: it goes on with the frame
or the answer that it handles, or takes the next frame, and each such step lowers
what is left. So from any state it can empty the TX channel by itself. Then every
packet of the connection is complete, the calls whose frames were queued are released
from `wait_tx`, and the whole buffer is free.
-/

namespace Mqttrust.System

open Pubsub (commitsAfter readsOf)

variable {T : Type} [Transport T] {config : CrateConfig} {capacity : ℕ}

namespace Pipeline

/-- The stack is in `select`, with its connection. -/
structure Selects (pipeline : Pipeline T config) (connection : ℕ) : Prop where
  socket : Transport.socket pipeline.link.transport = some connection
  running : pipeline.link.world.panicked = none
  phase : pipeline.link.world.stack.reads = true ∨
    ∃ reply, pipeline.link.world.stack = .replying reply

end Pipeline

/-- What the stack does by itself: it goes on with a frame or with an answer. -/
def PipelineAction.isSending {T : Type} : PipelineAction T → Bool
  | .pollRead _ | .write _ | .skipped | .link (.write .written) | .link (.write .flushed)
  | .link (.write .transmitted) | .link (.write .replied) => true
  | _ => false

namespace Pipeline

variable {pipeline next final : Pipeline T config} {connection : ℕ}

/-- What is left to do for the queue and for an answer. -/
def left (pipeline : Pipeline T config) : ℕ :=
  pipeline.work +
    match pipeline.link.world.stack with
    | .replying _ => pipeline.current.length - pipeline.position + 1
    | _ => 0

/-- Frames are released, and with them their identifiers; nothing else is done with the TX
channel. -/
structure Releases (pipeline next : Pipeline T config) : Prop where
  commits : commitsAfter 0 next.tx.history = commitsAfter 0 pipeline.tx.history
  kept : next.link.world.shared.outgoingPid.elements ⊆
    pipeline.link.world.shared.outgoingPid.elements
  released : ∀ frame ∈ pipeline.link.world.unreleasedFrames,
    frame ∉ next.link.world.unreleasedFrames →
      frame.txPid ∉ next.link.world.shared.outgoingPid.elements ∨ frame.txPid = 0

namespace Releases

omit [Transport T] in
theorem of_same (commits : commitsAfter 0 next.tx.history = commitsAfter 0 pipeline.tx.history)
    (outgoingPid : next.link.world.shared.outgoingPid = pipeline.link.world.shared.outgoingPid)
    (frames : next.link.world.unreleasedFrames = pipeline.link.world.unreleasedFrames) :
    pipeline.Releases next where
  commits := commits
  kept := outgoingPid ▸ subset_rfl
  released _ mem gone := absurd (frames ▸ mem) gone

omit [Transport T] in
theorem refl (pipeline : Pipeline T config) : pipeline.Releases pipeline := of_same rfl rfl rfl

omit [Transport T] in
theorem trans (first : pipeline.Releases next) (second : next.Releases final) :
    pipeline.Releases final where
  commits := second.commits.trans first.commits
  kept := second.kept.trans first.kept
  released := by
    intro frame mem gone
    by_cases still : frame ∈ next.link.world.unreleasedFrames
    case pos => exact second.released frame still gone
    case neg =>
      rcases first.released frame mem still with removed | none
      · exact .inl fun present => removed (second.kept present)
      · exact .inr none

end Releases

/-- A step of the stack by itself. -/
structure Sends (pipeline next : Pipeline T config) (connection : ℕ) : Prop where
  selects : next.Selects connection
  releases : pipeline.Releases next
  lower : next.left < pipeline.left

/-- A step that goes on with a frame lowers the work. -/
theorem Serves.work_lt (serves : pipeline.Serves next true) (served : pipeline.Served capacity)
    (after : next.Served capacity) : next.work < pipeline.work := by
  have lower := serves.ahead_le served.orderly served.valid le_rfl
  rw [ahead_nextMessageId served.valid] at lower
  have length := served.valid.length_le
  have length' := after.valid.length_le
  -- a frame is there, and nothing is committed meanwhile
  have nonempty : pipeline.tx.inner.messages ≠ [] ∧
      next.tx.inner.nextMessageId = pipeline.tx.inner.nextMessageId := by
    cases serves with
    | stays added queue startId commits reader rest handles =>
        rcases handles rfl with ⟨reading, rfl⟩
        rcases served.orderly.exists_reading reading with ⟨front, later, split, _⟩
        rw [queue] at length'
        simp only [Pubsub.State.startId, queue, split, List.append_nil, List.length_cons] at *
        exact ⟨by simp, by omega⟩
    | takes front later queue read startId =>
        simp only [Pubsub.State.startId, queue, read, List.length_cons] at *
        exact ⟨by simp, by omega⟩
    | gives queue startId commits reading =>
        rcases served.orderly.exists_reading reading with ⟨front, later, split, _⟩
        simp only [Pubsub.State.startId, queue, split, List.tail_cons, List.length_cons] at *
        exact ⟨by simp, by omega⟩
  rcases nonempty with ⟨nonempty, same⟩
  rw [← same, ahead_nextMessageId after.valid] at lower
  rcases List.exists_cons_of_ne_nil nonempty with ⟨front, later, queue⟩
  have positive := pipeline.one_le_weight front
  have present : 1 ≤ pipeline.work := by
    simp only [work, queue, List.map_cons, List.sum_cons]
    omega
  simp only [if_true] at lower
  omega

omit [Transport T] in
theorem left_lt (lower : next.work < pipeline.work)
    (reads : next.link.world.stack.reads = true) : next.left < pipeline.left := by
  have same : next.left = next.work := by
    unfold left
    split
    · rename_i phase
      simp [phase, StackPhase.reads] at reads
    · rfl
  rw [same, left]
  omega

omit [Transport T] in
/-- While no frame is held, the work depends on the queue only. -/
theorem work_of_resting (orderly : pipeline.Orderly) (noReader : pipeline.reader = none)
    (tx : next.tx = pipeline.tx) : next.work = pipeline.work := by
  rw [work, tx]
  exact sum_weight_of_unread pipeline next (orderly.unread noReader)

namespace Sends

theorem pollRead (small : capacity ≤ 65535) (served : pipeline.Served capacity)
    (selects : pipeline.Selects connection) {waker : Pubsub.Waker}
    (queued : pipeline.tx.inner.messages ≠ []) (lower : next.work < pipeline.work)
    (stepped : pipeline.pollRead waker = some next) : pipeline.Sends next connection := by
  have phase := idle_of_pollRead stepped
  have commits := commits_of_pollRead small served.sound stepped
  cases served.orderly.polled served.sound stepped with
  | waits tx nothing => exact absurd nothing queued
  | empty tx reader front later split noReader turns queue startId same =>
      subst same
      exact ⟨⟨selects.socket, selects.running, selects.phase⟩, .of_same commits rfl rfl,
        left_lt lower (by simp [phase, StackPhase.reads])⟩
  | begins link tx reader connection front later split noReader turns held queue startId taken
      same =>
      subst same
      cases Link.transition_of_linkStep taken with
      | write _ _ inner =>
          cases (transition_of_step inner).2 with
          | read _ first =>
              refine ⟨⟨selects.socket, selects.running, .inl rfl⟩, .of_same commits rfl ?_,
                left_lt lower rfl⟩
              simp only [World.unreleasedFrames, phase, first]
              rfl

theorem write (served : pipeline.Served capacity) (selects : pipeline.Selects connection)
    {count : ℕ} (forwards : pipeline.reader.isSome = true → next.work < pipeline.work)
    (stepped : pipeline.write count = some next) : pipeline.Sends next connection := by
  simp only [Pipeline.write, Option.bind_eq_bind, Option.bind_eq_some_iff,
    Option.ite_none_right_eq_some, Option.some.injEq] at stepped
  rcases stepped with ⟨_, _, ⟨writes, positive, taken⟩, same⟩
  rw [List.length_take, List.length_drop] at taken
  have link : next.link = pipeline.link := same ▸ rfl
  have tx : next.tx = pipeline.tx := same ▸ rfl
  have current : next.current = pipeline.current := same ▸ rfl
  have position : next.position = pipeline.position + count := same ▸ rfl
  refine ⟨⟨link ▸ selects.socket, link ▸ selects.running, link ▸ selects.phase⟩,
    .of_same (tx ▸ rfl) (link ▸ rfl) (link ▸ rfl), ?_⟩
  rcases selects.phase with reads | ⟨reply, phase⟩
  · have writing : pipeline.link.world.stack.frame?.isSome = true := by
      rcases phase : pipeline.link.world.stack with _ | _ | _ | _ | _ | _ | _ | _
      case writing => rfl
      all_goals simp [phase, Link.writes] at writes
      all_goals simp [phase, StackPhase.reads] at reads
    exact left_lt (forwards (served.orderly.holds writing)) (link ▸ reads)
  · -- an answer is written, and nothing is done with the queue
    have noReader := served.sound.reader_eq_none (by simp [phase, StackPhase.reads])
    have unchanged := work_of_resting served.orderly noReader tx
    simp only [left, link, phase, unchanged, current, position]
    omega

theorem skip (small : capacity ≤ 65535) (served : pipeline.Served capacity)
    (selects : pipeline.Selects connection) (lower : next.work < pipeline.work)
    (stepped : pipeline.skip = some next) : pipeline.Sends next connection := by
  simp only [Pipeline.skip, Pipeline.release, Option.bind_eq_bind, Option.bind_eq_some_iff,
    Option.ite_none_right_eq_some, Option.some.injEq] at stepped
  rcases stepped with ⟨_, _, grant, _, phase, reader, _, tx, released, rfl⟩
  have commits := commits_of_release small served.sound (.inl rfl) released
  refine ⟨⟨selects.socket, selects.running, selects.phase⟩,
    ⟨commits, ?_, fun _ mem gone => absurd mem gone⟩,
    left_lt lower (by simp [phase, StackPhase.reads])⟩
  dsimp only
  split
  · exact Finset.erase_subset _ _
  · exact subset_rfl

theorem transmitted (small : capacity ≤ 65535) (served : pipeline.Served capacity)
    (selects : pipeline.Selects connection) {link : Link T config}
    (lower : next.work < pipeline.work)
    (linked : linkStep pipeline.link (.write .transmitted) = some link)
    (stepped : pipeline.release link .release = some next) :
    pipeline.Sends next connection := by
  simp only [Pipeline.release, Option.bind_eq_bind, Option.bind_eq_some_iff,
    Option.some.injEq] at stepped
  rcases stepped with ⟨reader, _, tx, released, rfl⟩
  have commits := commits_of_release small served.sound (.inl rfl) released
  cases Link.transition_of_linkStep linked with
  | write _ _ inner =>
      cases (transition_of_step inner).2 with
      | @transmitted frame phase =>
          refine ⟨⟨selects.socket, selects.running, .inl rfl⟩, ⟨commits, ?_, ?_⟩,
            left_lt lower rfl⟩
          · simp only [Link.goOn, World.transmitted]
            split
            · exact Finset.erase_subset _ _
            · exact subset_rfl
          · intro other mem gone
            have isFrame : other = frame := by
              simp only [World.unreleasedFrames, phase, StackPhase.frame?, Option.toList_some,
                List.singleton_append, List.mem_cons] at mem
              refine mem.resolve_right fun later => gone ?_
              exact List.mem_append_right _ later
            subst isFrame
            by_cases anonymous : other.txPid = 0
            · exact .inr anonymous
            · left
              simp [Link.goOn, World.transmitted, anonymous]

theorem written (selects : pipeline.Selects connection) {link : Link T config}
    (lower : next.work < pipeline.work)
    (linked : linkStep pipeline.link (.write .written) = some link)
    (stepped : pipeline.complete link = some next) : pipeline.Sends next connection := by
  simp only [Pipeline.complete, Option.ite_none_right_eq_some, Option.some.injEq] at stepped
  rcases stepped with ⟨_, rfl⟩
  cases Link.transition_of_linkStep linked with
  | write _ _ inner =>
      cases (transition_of_step inner).2 with
      | written phase =>
          refine ⟨⟨selects.socket, selects.running, .inl rfl⟩, .of_same rfl rfl ?_,
            left_lt lower rfl⟩
          simp only [World.unreleasedFrames, phase]
          rfl

theorem flushed (selects : pipeline.Selects connection) {link : Link T config}
    (lower : work { pipeline with link := link } < pipeline.work)
    (linked : linkStep pipeline.link (.write .flushed) = some link) :
    pipeline.Sends { pipeline with link := link } connection := by
  cases Link.transition_of_linkStep linked with
  | write _ _ inner =>
      cases (transition_of_step inner).2 with
      | flushed phase =>
          refine ⟨⟨selects.socket, selects.running, .inl rfl⟩, .of_same rfl rfl ?_,
            left_lt lower rfl⟩
          simp only [World.unreleasedFrames, phase]
          rfl

theorem replied (served : pipeline.Served capacity) (selects : pipeline.Selects connection)
    {reply : Reply} (phase : pipeline.link.world.stack = .replying reply) {link : Link T config}
    (linked : linkStep pipeline.link (.write .replied) = some link)
    (stepped : pipeline.complete link = some next) : pipeline.Sends next connection := by
  simp only [Pipeline.complete, Option.ite_none_right_eq_some, Option.some.injEq] at stepped
  rcases stepped with ⟨_, rfl⟩
  have noReader := served.sound.reader_eq_none (by simp [phase, StackPhase.reads])
  have unchanged : work { pipeline with link := link } = pipeline.work :=
    work_of_resting served.orderly noReader rfl
  cases Link.transition_of_linkStep linked with
  | write _ _ inner =>
      cases (transition_of_step inner).2 with
      | replied =>
          refine ⟨⟨selects.socket, selects.running, .inl rfl⟩, .of_same rfl rfl ?_, ?_⟩
          · simp only [World.unreleasedFrames, phase]
            rfl
          · simp only [left, unchanged, phase]
            simp only [Link.goOn]
            omega

end Sends

/-! ## The stack is never stuck -/

/-- Nothing is left to do for the stack. -/
def Drained (pipeline : Pipeline T config) : Prop :=
  pipeline.link.world.stack = .idle ∧ pipeline.reader = none ∧ pipeline.tx.inner.messages = []

theorem pipelineStep_eq (selects : pipeline.Selects connection) {action : LinkAction T}
    {link : Link T config} (busy : pipeline.link.world.stack ≠ .idle)
    (linked : linkStep pipeline.link action = some link) :
    pipelineStep pipeline (.link action) = pipeline.follow link action := by
  simp [pipelineStep, selects.running, Pipeline.skips, busy, linked]

/-- While bytes are left the socket can take one, and otherwise the packet is complete. -/
theorem write_or_complete (served : pipeline.Served capacity)
    (selects : pipeline.Selects connection) (writes : pipeline.link.writes = true) :
    (∃ next, pipeline.write 1 = some next) ∨ pipeline.position = pipeline.current.length := by
  rcases (served.sound.writing writes).unfinished with
    ⟨newest, earlier, sent, _, symbols, position, _⟩
  have inside := served.orderly.within newest (by simp [sent])
  rw [symbols, position] at inside
  by_cases more : pipeline.position < pipeline.current.length
  case pos =>
    left
    have one : ((pipeline.current.drop pipeline.position).take 1).length = 1 := by
      rw [List.length_take, List.length_drop]
      omega
    simp [Pipeline.write, selects.socket, writes, one]
  case neg => exact .inr (by omega)

/-- The stack goes on by itself. -/
def GoesOn (pipeline : Pipeline T config) (connection : ℕ) : Prop :=
  ∃ action next, action.isSending = true ∧ pipelineStep pipeline action = some next ∧
    pipeline.Sends next connection

section GoesOn

variable [ClosingTransport T] (small : capacity ≤ 65535) (served : pipeline.Served capacity)
  (selects : pipeline.Selects connection)

include small served

theorem work_lt_of_forwards {action : PipelineAction T} (forwards : pipeline.forwards action = true)
    (stepped : pipelineStep pipeline action = some next) : next.work < pipeline.work := by
  have serves := Serves.of_step small served.orderly served.sound stepped
  rw [forwards] at serves
  exact serves.work_lt served (served.step small stepped)

include selects

theorem goesOn_of_write (written : pipeline.write 1 = some next) : pipeline.GoesOn connection := by
  have stepped : pipelineStep pipeline (.write 1) = some next := by
    simp [pipelineStep, selects.running, written]
  have lower (reading : pipeline.reader.isSome = true) : next.work < pipeline.work :=
    work_lt_of_forwards small served (show pipeline.forwards (.write 1) = true from reading) stepped
  exact ⟨.write 1, next, rfl, stepped, .write served selects lower written⟩

theorem goesOn_of_replying {reply : Reply} (phase : pipeline.link.world.stack = .replying reply) :
    pipeline.GoesOn connection := by
  have writes : pipeline.link.writes = true := by simp [Link.writes, phase]
  rcases write_or_complete served selects writes with ⟨next, written⟩ | isEnd
  · exact goesOn_of_write small served selects written
  rcases linked : linkStep pipeline.link (.write .replied) with _ | link
  · simp [linkStep, selects.socket, Action.isWrite, System.step, selects.running, phase] at linked
  have completed : pipeline.complete link = some { pipeline with link := link } := by
    simp [Pipeline.complete, isEnd]
  have stepped : pipelineStep pipeline (.link (.write .replied)) =
      some { pipeline with link := link } := by
    rw [pipelineStep_eq selects (by simp [phase]) linked]
    exact completed
  exact ⟨.link (.write .replied), _, rfl, stepped,
    .replied served selects phase linked completed⟩

theorem goesOn_of_idle (phase : pipeline.link.world.stack = .idle) (busy : ¬pipeline.Drained) :
    pipeline.GoesOn connection := by
  rcases isReader : pipeline.reader with _ | reader
  · have queued : pipeline.tx.inner.messages ≠ [] := by simpa [Drained, phase, isReader] using busy
    rcases read : pipeline.pollRead 0 with _ | next
    · exact absurd read (served.sound.pollRead_ne_none small selects.socket selects.running phase
        isReader 0)
    have stepped : pipelineStep pipeline (.pollRead 0) = some next := by
      simp [pipelineStep, selects.running, read]
    have forwards : pipeline.forwards (.pollRead 0) = true := by
      simpa [Pipeline.forwards] using queued
    have lower := work_lt_of_forwards small served forwards stepped
    exact ⟨.pollRead 0, next, rfl, stepped, .pollRead small served selects queued lower read⟩
  · -- an empty frame is given back
    rcases (served.sound.reading reader isReader).2 with ⟨grant, held⟩
    have turns := served.orderly.turns
    rw [isReader] at turns
    rcases turns.release served.sound.tx.pipe (.inl rfl) with ⟨tx, released, _⟩
    rcases skipped : pipeline.skip with _ | next
    · simp [Pipeline.skip, Pipeline.release, isReader, held, phase, released] at skipped
    have stepped : pipelineStep pipeline .skipped = some next := by
      simp [pipelineStep, selects.running, skipped]
    have lower := work_lt_of_forwards small served rfl stepped
    exact ⟨.skipped, next, rfl, stepped, .skip small served selects lower skipped⟩

theorem goesOn_of_writing {frame : Frame} (phase : pipeline.link.world.stack = .writing frame) :
    pipeline.GoesOn connection := by
  have writes : pipeline.link.writes = true := by simp [Link.writes, phase]
  rcases write_or_complete served selects writes with ⟨next, written⟩ | isEnd
  · exact goesOn_of_write small served selects written
  rcases linked : linkStep pipeline.link (.write .written) with _ | link
  · simp [linkStep, selects.socket, Action.isWrite, System.step, selects.running, phase] at linked
  have completed : pipeline.complete link = some { pipeline with link := link } := by
    simp [Pipeline.complete, isEnd]
  have stepped : pipelineStep pipeline (.link (.write .written)) =
      some { pipeline with link := link } := by
    rw [pipelineStep_eq selects (by simp [phase]) linked]
    exact completed
  have lower := work_lt_of_forwards small served rfl stepped
  exact ⟨.link (.write .written), _, rfl, stepped, .written selects lower linked completed⟩

theorem goesOn_of_flushing {frame : Frame} (phase : pipeline.link.world.stack = .flushing frame) :
    pipeline.GoesOn connection := by
  rcases linked : linkStep pipeline.link (.write .flushed) with _ | link
  · simp [linkStep, selects.socket, Action.isWrite, System.step, selects.running, phase] at linked
  have stepped : pipelineStep pipeline (.link (.write .flushed)) =
      some { pipeline with link := link } := by
    rw [pipelineStep_eq selects (by simp [phase]) linked]
    rfl
  have lower := work_lt_of_forwards small served rfl stepped
  exact ⟨.link (.write .flushed), _, rfl, stepped, .flushed selects lower linked⟩

theorem goesOn_of_transmitting {frame : Frame}
    (phase : pipeline.link.world.stack = .transmitting frame) : pipeline.GoesOn connection := by
  rcases linked : linkStep pipeline.link (.write .transmitted) with _ | link
  · simp [linkStep, selects.socket, Action.isWrite, System.step, selects.running, phase] at linked
  have reading := served.orderly.holds (by simp [phase, StackPhase.frame?])
  rcases Option.isSome_iff_exists.mp reading with ⟨reader, isReader⟩
  have turns := served.orderly.turns
  rw [isReader] at turns
  rcases turns.release served.sound.tx.pipe (.inl rfl) with ⟨tx, released, _⟩
  rcases given : pipeline.release link .release with _ | next
  · simp [Pipeline.release, isReader, released] at given
  have stepped : pipelineStep pipeline (.link (.write .transmitted)) = some next := by
    rw [pipelineStep_eq selects (by simp [phase]) linked]
    exact given
  have lower := work_lt_of_forwards small served rfl stepped
  exact ⟨.link (.write .transmitted), next, rfl, stepped,
    .transmitted small served selects lower linked given⟩

/-- The stack goes on, unless nothing is left. -/
theorem goesOn_of_busy (busy : ¬pipeline.Drained) : pipeline.GoesOn connection := by
  rcases selects.phase with reads | ⟨reply, phase⟩
  case inr => exact goesOn_of_replying small served selects phase
  rcases phase : pipeline.link.world.stack with _ | _ | _ | frame | frame | frame | _ | _
  case idle => exact goesOn_of_idle small served selects phase busy
  case writing => exact goesOn_of_writing small served selects phase
  case flushing => exact goesOn_of_flushing small served selects phase
  case transmitting => exact goesOn_of_transmitting small served selects phase
  all_goals simp [phase, StackPhase.reads] at reads

end GoesOn

/-- The stack can come to an end by itself. -/
theorem exists_drained [ClosingTransport T] (small : capacity ≤ 65535)
    (served : pipeline.Served capacity) (selects : pipeline.Selects connection) :
    ∃ actions final, (∀ action ∈ actions, action.isSending = true) ∧
      actions.length ≤ pipeline.left ∧ Execution.run pipelineStep pipeline actions = some final ∧
      final.Served capacity ∧ final.Selects connection ∧ final.Drained ∧
      pipeline.Releases final := by
  induction size : pipeline.left using Nat.strong_induction_on generalizing pipeline with
  | _ size ih =>
      by_cases drained : pipeline.Drained
      case pos =>
        exact ⟨[], pipeline, by simp, Nat.zero_le _, rfl, served, selects, drained, .refl pipeline⟩
      case neg =>
        rcases goesOn_of_busy small served selects drained with
          ⟨action, next, isSending, stepped, sends⟩
        rcases ih next.left (size ▸ sends.lower) (served.step small stepped) sends.selects rfl with
          ⟨actions, final, areSending, length, continued, final_served, final_selects, drained,
            releases⟩
        have lower := sends.lower
        refine ⟨action :: actions, final, ?_, ?_, ?_, final_served, final_selects, drained,
          sends.releases.trans releases⟩
        · intro other mem
          rcases List.mem_cons.mp mem with rfl | later
          · exact isSending
          · exact areSending other later
        · rw [List.length_cons]
          omega
        · exact Execution.run_cons_eq_some.mpr ⟨next, stepped, continued⟩

namespace Drained

theorem reads_eq (drained : pipeline.Drained) (served : pipeline.Served capacity) :
    readsOf 0 pipeline.tx.history = commitsAfter 0 pipeline.tx.history := by
  rcases served.sound.tx.pipe.delivered with ⟨subscriber, _, delivered⟩
  rw [← delivered, drained.2.2]
  exact (List.append_nil _).symm

/-- No frame waits to be released. -/
theorem unreleasedFrames (drained : pipeline.Drained) (served : pipeline.Served capacity) :
    pipeline.link.world.unreleasedFrames = [] := by
  have queued := served.sound.queued
  rw [Queued, drained.reads_eq served] at queued
  have none : pipeline.link.world.frames = [] := List.eq_nil_of_length_eq_zero (by omega)
  simp [World.unreleasedFrames, drained.1, none, StackPhase.frame?]

theorem complete (drained : pipeline.Drained) (served : pipeline.Served capacity)
    (selects : pipeline.Selects connection) :
    ∀ sent ∈ pipeline.transcript.sent, sent.connection = connection → sent.Complete := by
  intro sent mem same
  have resting := served.sound.resting (by simp [Link.writes, drained.1])
  refine (resting.unfinished sent mem).resolve_right ?_
  intro isCut
  exact resting.cut_dead _ isCut (by simp [Link.live, drained.1, selects.socket, same])

/-- The whole buffer is free. -/
theorem grants_iff (drained : pipeline.Drained) (served : pipeline.Served capacity)
    (noWriter : ∀ writer, pipeline.tx.writers.get? writer = none) {size : ℕ} :
    pipeline.tx.inner.Grants (txConfig config) size ↔
      size ≤ capacity ∧ 0 < config.maxPubsubMessages := by
  have idle : pipeline.tx.inner.writeInProgress = false := by
    by_contra writing
    rcases served.orderly.turns.writerHolds (by simpa using writing) with ⟨writer, grant, live⟩
    simp [noWriter writer] at live
  rw [Pubsub.State.Grants, Pubsub.State.hasRoom_of_empty drained.2.2,
    served.sound.tx.pipe.once.invariant.fixed]
  simp [idle, txConfig]

end Drained

/-- From any state in which `select` has its connection, the stack alone can empty the TX channel,
in no more steps than there is left to do: it goes on with the frame or the answer that it handles
and with the frames of the queue. Then all packets that were committed were begun, in this order;
those of this connection are complete; the calls whose frames were not released may leave `wait_tx`;
and unless a write grant is out the next one is given exactly if the buffer can hold it. -/
theorem drained_of_pipelineRun [ClosingTransport T] (small : capacity ≤ 65535) {transport : T}
    {earlier : List (PipelineAction T)} {pipeline : Pipeline T config}
    (reached : pipelineRun config capacity transport earlier = some pipeline) {connection : ℕ}
    (selects : pipeline.Selects connection) :
    ∃ later final, (∀ action ∈ later, action.isSending = true) ∧
      later.length ≤ pipeline.left ∧ Execution.run pipelineStep pipeline later = some final ∧
      final.Drained ∧
      final.transcript.sent.reverse.filterMap Sent.label =
        contents (commitsAfter 0 pipeline.tx.history) ∧
      (∀ sent ∈ final.transcript.sent, sent.connection = connection → sent.Complete) ∧
      (∀ handle packet pid, .send handle packet pid ∈ pipeline.link.world.unreleasedFrames →
        ∃ phase, final.link.world.shared.waitTx packet pid = some phase) ∧
      ((∀ writer, final.tx.writers.get? writer = none) → ∀ size cx,
        (∃ grant, (final.tx.inner.grantWithContext (txConfig config) size cx).2 = .ok grant) ↔
          size ≤ capacity ∧ 0 < config.maxPubsubMessages) := by
  have served := Served.of_run small reached
  rcases exists_drained small served selects with
    ⟨later, final, areSending, length, continued, final_served, final_selects, drained, releases⟩
  refine ⟨later, final, areSending, length, continued, drained, ?_,
    drained.complete final_served final_selects, ?_, ?_⟩
  · rw [final_served.sound.recorded.order, drained.reads_eq final_served, releases.commits]
  · intro handle packet pid waits
    have gone : Frame.send handle packet pid ∉ final.link.world.unreleasedFrames := by
      simp [drained.unreleasedFrames final_served]
    rcases releases.released _ waits gone with removed | anonymous
    · have absent : final.link.world.shared.outgoingPid.contains pid.val = false := by
        simpa [Frame.txPid] using removed
      simp only [Shared.waitTx, absent, Bool.false_eq_true, if_false]
      split
      · exact ⟨_, rfl⟩
      · exact ⟨_, rfl⟩
    · exact absurd anonymous (Nat.ne_of_gt pid.pos)
  · intro noWriter size cx
    rw [Pubsub.State.exists_grant_iff, drained.grants_iff final_served noWriter]

/-- Two publishes of QoS 1 are committed; some bytes of the first one are written. -/
def publishTwice (packet : Publish) : List (PipelineAction NalTransport) :=
  [.link (.client (.send (.publish .atLeastOnce))), .link (.client (.lock 0)),
    .pollGrant 0 (.publish packet) 0, .link (.client (.commit 0)), .pollRead 0, .write 2,
    .link (.client (.send (.publish .atLeastOnce))), .link (.client (.lock 1)),
    .pollGrant 1 (.publish packet) 0, .link (.client (.commit 1))]

theorem drained_of_pipelineRun_example :
    ∃ pipeline later final,
      pipelineRun (.default .mqttv3 true) 64 ⟨some 0⟩ (publishTwice
        ⟨false, .atLeastOnce, false, none, ⟨[0x7D], by decide⟩, .ofSlice [], .slice []⟩) =
        some pipeline ∧
      pipeline.left = 19 ∧ (∀ action ∈ later, action.isSending = true) ∧
      Execution.run pipelineStep pipeline later = some final ∧ final.Drained ∧
      final.transcript.sent.reverse.filterMap Sent.label =
        [⟨0, [0x32, 5, 0, 1, 0x7D, 0, 2]⟩, ⟨1, [0x32, 5, 0, 1, 0x7D, 0, 3]⟩] ∧
      ∀ sent ∈ final.transcript.sent, sent.connection = 0 → sent.Complete := by
  have observed : (pipelineRun (.default .mqttv3 true) 64 ⟨some 0⟩ (publishTwice
      ⟨false, .atLeastOnce, false, none, ⟨[0x7D], by decide⟩, .ofSlice [], .slice []⟩)).map
      (fun pipeline => (contents (commitsAfter 0 pipeline.tx.history), pipeline.left,
        pipeline.link.transport.socket, pipeline.link.world.panicked.isNone,
        pipeline.link.world.stack.reads)) =
      some ([⟨0, [0x32, 5, 0, 1, 0x7D, 0, 2]⟩, ⟨1, [0x32, 5, 0, 1, 0x7D, 0, 3]⟩], 19, some 0, true,
        true) := by decide +kernel
  rcases Option.map_eq_some_iff.mp observed with ⟨pipeline, reached, same⟩
  rcases Prod.mk.inj same with ⟨commits, same⟩
  rcases Prod.mk.inj same with ⟨left, same⟩
  rcases Prod.mk.inj same with ⟨socket, same⟩
  rcases Prod.mk.inj same with ⟨running, reads⟩
  have selects : pipeline.Selects 0 := ⟨socket, Option.isNone_iff_eq_none.mp running, .inl reads⟩
  rcases drained_of_pipelineRun (by decide) reached selects with
    ⟨later, final, areSending, _, continued, drained, labels, complete, _⟩
  exact ⟨pipeline, later, final, reached, left, areSending, continued, drained,
    labels.trans commits, complete⟩

end Pipeline

end Mqttrust.System
