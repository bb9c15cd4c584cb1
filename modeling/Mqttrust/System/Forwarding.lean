import Mqttrust.System.TxTurns

/-!
# Forwarding what was committed

The stack forwards a frame of the TX channel when it takes it, writes some of its
bytes, ends writing it, flushes it or gives it back. The work ahead of a point of the
queue is the number of such steps that the frames before it may take. No step of any
task adds to it, and each forwarding step lowers it. So what was committed is
forwarded after so many steps of the stack, whatever else is done meanwhile.
-/

namespace Mqttrust.System

open Pubsub (bytesAt commitsAfter readsOf)

variable {T : Type} [Transport T] {config : CrateConfig} {capacity : ℕ}

namespace Link

variable {link next : Link T config}

/-- What the stack may do while it handles a frame. -/
theorem action_of_frame {action : LinkAction T} (taken : link.world.stack.frame?.isSome = true)
    (stepped : linkStep link action = some next) :
    action.isClient = true ∨ action = .write .written ∨ action = .write .flushed ∨
      action = .write .transmitted ∨ action = .write .writeFails ∨ action = .dropRun ∨
      ∃ written, action = .disconnect written := by
  cases transition_of_linkStep stepped with
  | connect _ inner | connected _ inner | connectFails _ inner | receive _ _ inner
  | receiveFails _ _ inner | socketFails _ inner | lost _ inner | reset inner =>
      cases (transition_of_step inner).2
      all_goals simp_all [StackPhase.frame?]
  | opened phase | greeted _ phase | recvConnAck _ phase =>
      simp [phase.1, StackPhase.frame?] at taken
  | pending phase | drifts phase =>
      rcases phase with phase | phase
      · simp_all [StackPhase.frame?, Connects]
      · simp [phase, StackPhase.frame?] at taken
  | write socket isWrite inner =>
      cases (transition_of_step inner).2 with
      | replied =>
          simp only [step] at inner
          split at inner
          · simp at inner
          · split at inner
            · rename_i phase
              simp [phase, StackPhase.frame?] at taken
            · simp at inner
      | _ => simp_all [StackPhase.frame?, Action.isWrite]
  | client | dropRun | disconnect | disconnectFails => simp [LinkAction.isClient]

end Link

namespace Pipeline

/-- What is left to do for the frame that is handled. -/
def rest (pipeline : Pipeline T config) : ℕ :=
  match pipeline.link.world.stack with
  | .writing _ => pipeline.current.length - pipeline.position + 3
  | .flushing _ => 2
  | _ => 1

/-- What is left to do for a queued frame: it is taken, its bytes are written, writing it ends, it is
flushed and given back. -/
def weight (pipeline : Pipeline T config) (header : Pubsub.Header) : ℕ :=
  if header.readInProgress then pipeline.rest else header.len + 4

/-- What is left to do for the frames before a point of the queue. -/
def ahead (pipeline : Pipeline T config) (bound : ℕ) : ℕ :=
  ((pipeline.tx.inner.messages.take (bound - pipeline.tx.inner.startId)).map pipeline.weight).sum

/-- What is left to do for the frames that are queued. -/
def work (pipeline : Pipeline T config) : ℕ :=
  (pipeline.tx.inner.messages.map pipeline.weight).sum

/-- The steps of the TX branch of `select` that go on with a frame. -/
def forwards (pipeline : Pipeline T config) : PipelineAction T → Bool
  | .pollRead _ => !pipeline.tx.inner.messages.isEmpty
  | .write _ => pipeline.reader.isSome
  | .skipped | .link (.write .written) | .link (.write .flushed)
  | .link (.write .transmitted) => true
  | _ => false

/-- How many steps of a run go on with a frame. -/
def forwardings (pipeline : Pipeline T config) : List (PipelineAction T) → ℕ
  | [] => 0
  | action :: rest =>
      match pipelineStep pipeline action with
      | none => 0
      | some next => (if pipeline.forwards action then 1 else 0) + next.forwardings rest

/-- What a step means for the queue, and whether it goes on with a frame. -/
inductive Serves (pipeline next : Pipeline T config) : Bool → Prop where
  | stays {forwards : Bool} (added : List Pubsub.Header)
      (queue : next.tx.inner.messages = pipeline.tx.inner.messages ++ added)
      (startId : next.tx.inner.startId = pipeline.tx.inner.startId)
      (commits : commitsAfter 0 pipeline.tx.history <+: commitsAfter 0 next.tx.history)
      (reader : next.reader = pipeline.reader)
      (rest : pipeline.reader.isSome = true →
        next.rest + (if forwards then 1 else 0) ≤ pipeline.rest)
      (handles : forwards = true → pipeline.reader.isSome = true ∧ added = []) :
      Serves pipeline next forwards
  | takes {forwards : Bool} (front : Pubsub.Header) (later : List Pubsub.Header)
      (queue : pipeline.tx.inner.messages = front :: later)
      (read : next.tx.inner.messages = front.startRead :: later)
      (startId : next.tx.inner.startId = pipeline.tx.inner.startId)
      (commits : commitsAfter 0 pipeline.tx.history <+: commitsAfter 0 next.tx.history)
      (noReader : pipeline.reader = none) (rest : next.rest ≤ front.len + 3) :
      Serves pipeline next forwards
  | gives {forwards : Bool} (queue : next.tx.inner.messages = pipeline.tx.inner.messages.tail)
      (startId : next.tx.inner.startId = pipeline.tx.inner.startId + 1)
      (commits : commitsAfter 0 pipeline.tx.history <+: commitsAfter 0 next.tx.history)
      (reading : pipeline.reader.isSome = true) :
      Serves pipeline next forwards

variable {pipeline next : Pipeline T config} {link : Link T config}

theorem idle_of_pollRead {waker : Pubsub.Waker}
    (stepped : pipeline.pollRead waker = some next) : pipeline.link.world.stack = .idle := by
  simp only [Pipeline.pollRead, Option.bind_eq_bind, Option.bind_eq_some_iff,
    Option.ite_none_right_eq_some] at stepped
  rcases stepped with ⟨_, _, ⟨phase, _⟩, _⟩
  exact phase

/-- A read commits nothing. -/
theorem commits_of_pollRead (small : capacity ≤ 65535) (sound : pipeline.Sound capacity)
    {waker : Pubsub.Waker} (stepped : pipeline.pollRead waker = some next) :
    commitsAfter 0 next.tx.history = commitsAfter 0 pipeline.tx.history := by
  simp only [Pipeline.pollRead, Option.bind_eq_bind, Option.bind_eq_some_iff,
    Option.ite_none_right_eq_some] at stepped
  rcases stepped with ⟨connection, _, _, tx, read, stepped⟩
  have commits := (sound.tx.read small read).2.2.1
  unfold afterRead at stepped
  split at stepped
  · rcases Option.some.inj stepped with rfl
    exact commits
  · split at stepped
    · rcases Option.some.inj stepped with rfl
      exact commits
    · simp only [Option.bind_eq_bind, Option.bind_eq_some_iff, Option.some.injEq] at stepped
      rcases stepped with ⟨link, _, rfl⟩
      exact commits

/-- The release of a frame commits nothing. -/
theorem commits_of_release (small : capacity ≤ 65535) (sound : pipeline.Sound capacity)
    {reader : ℕ} {call : Pubsub.Action} {tx : Pubsub.World}
    (isRelease : call = .release reader ∨ call = .dropReader reader)
    (released : Pubsub.step (txConfig config) pipeline.tx call = some tx) :
    commitsAfter 0 tx.history = commitsAfter 0 pipeline.tx.history := by
  rw [(sound.tx.release small isRelease released).2]

theorem isSome_frame?_of_forwards {action : LinkAction T}
    (forwards : pipeline.forwards (.link action) = true)
    (linked : linkStep pipeline.link action = some link) :
    pipeline.link.world.stack.frame?.isSome = true := by
  cases Link.transition_of_linkStep linked with
  | write _ _ inner =>
      cases (transition_of_step inner).2 with
      | written phase | flushed phase | transmitted phase => simp [phase, StackPhase.frame?]
      | _ => simp [Pipeline.forwards] at forwards
  | _ => simp [Pipeline.forwards] at forwards

omit [Transport T] in
theorem length_current {grant : Pubsub.FrameGrantR}
    (held : pipeline.reader.bind pipeline.tx.readers.get? = some grant) :
    pipeline.current.length = grant.len := by
  simp only [current, held]
  exact Pubsub.length_bytesAt _ _

omit [Transport T] in
theorem Orderly.exists_reading (orderly : pipeline.Orderly)
    (reading : pipeline.reader.isSome = true) :
    ∃ front later, pipeline.tx.inner.messages = front :: later ∧ front.readInProgress = true ∧
      (∀ header ∈ later, header.readInProgress = false) ∧
      pipeline.reader.bind pipeline.tx.readers.get? = some front.readGrant := by
  rcases Option.isSome_iff_exists.mp reading with ⟨reader, isReader⟩
  have turns := orderly.turns
  rw [isReader] at turns
  rcases turns.turn with ⟨front, later, held, queue, inProgress, _, _, unread⟩
  refine ⟨front, later, queue, inProgress, fun header mem => (unread header mem).2, ?_⟩
  rw [isReader, Option.bind_some, held]

namespace Serves

omit [Transport T] in
theorem of_fills (orderly : pipeline.Orderly) (fills : pipeline.Fills next) :
    pipeline.Serves next false := by
  rcases fills.tx.queue with ⟨added, queue, _⟩
  refine .stays added queue fills.tx.startId fills.tx.commits fills.reader ?_ (by simp)
  intro reading
  rcases orderly.exists_reading reading with ⟨front, _, _, _, _, held⟩
  have held' : next.reader.bind next.tx.readers.get? = some front.readGrant := by
    rw [fills.reader, fills.tx.readers, held]
  simp only [rest, fills.stack, fills.position, length_current held, length_current held']
  exact le_rfl

omit [Transport T] in
/-- Nothing is done with the TX channel while no frame is held. -/
theorem of_resting (noReader : pipeline.reader = none) (tx : next.tx = pipeline.tx)
    (reader : next.reader = none) : pipeline.Serves next false :=
  .stays [] (by rw [tx, List.append_nil]) (by rw [tx]) (tx ▸ List.prefix_rfl)
    (reader.trans noReader.symm) (by simp [noReader]) (by simp)

theorem pollRead (small : capacity ≤ 65535) (orderly : pipeline.Orderly)
    (sound : pipeline.Sound capacity) {waker : Pubsub.Waker}
    (stepped : pipeline.pollRead waker = some next) :
    pipeline.Serves next (pipeline.forwards (.pollRead waker)) := by
  have phase := idle_of_pollRead stepped
  have commits : commitsAfter 0 pipeline.tx.history <+: commitsAfter 0 next.tx.history :=
    commits_of_pollRead small sound stepped ▸ List.prefix_rfl
  cases orderly.polled sound stepped with
  | waits tx nothing noReader turns queue startId same =>
      subst same
      simp only [forwards, nothing, List.isEmpty_nil, Bool.not_true]
      exact .stays [] (by rw [queue, nothing]; rfl) startId commits rfl (by simp [noReader])
        (by simp)
  | empty tx reader front later split noReader turns queue startId same =>
      subst same
      refine .takes front later split queue startId commits noReader ?_
      simp only [rest, phase]
      omega
  | begins link tx reader connection front later split noReader turns held queue startId taken
      same =>
      subst same
      refine .takes front later split queue startId commits noReader ?_
      have length : (Pipeline.begin
          { pipeline with link := link, tx := tx, reader := some reader } connection
          (some ⟨front.messageId, bytesAt tx.buf front.readGrant.region⟩)
          (bytesAt tx.buf front.readGrant.region)).current.length = front.readGrant.len :=
        length_current held
      have same : front.readGrant.len = front.len := rfl
      unfold rest
      rw [length, same]
      split
      · omega
      · omega
      · omega

theorem release (small : capacity ≤ 65535) (orderly : pipeline.Orderly)
    (sound : pipeline.Sound capacity) {call : Pubsub.Action} {reader : ℕ} {tx : Pubsub.World}
    {forwards : Bool}
    (isReader : pipeline.reader = some reader)
    (isRelease : call = .release reader ∨ call = .dropReader reader)
    (released : Pubsub.step (txConfig config) pipeline.tx call = some tx)
    (after : next.tx = tx) : pipeline.Serves next forwards := by
  have turns := orderly.turns
  rw [isReader] at turns
  rcases turns.release sound.tx.pipe isRelease with ⟨after', same, _, queue, startId⟩
  rcases Option.some.inj (released.symm.trans same) with rfl
  have commits : commitsAfter 0 pipeline.tx.history <+: commitsAfter 0 tx.history :=
    commits_of_release small sound isRelease released ▸ List.prefix_rfl
  exact .gives (after ▸ queue) (after ▸ startId) (after ▸ commits) (by simp [isReader])

theorem write (sound : pipeline.Sound capacity) {count : ℕ}
    (stepped : pipeline.write count = some next) :
    pipeline.Serves next (pipeline.forwards (.write count)) := by
  simp only [Pipeline.write, Option.bind_eq_bind, Option.bind_eq_some_iff,
    Option.ite_none_right_eq_some, Option.some.injEq] at stepped
  rcases stepped with ⟨connection, _, ⟨writes, positive, taken⟩, rfl⟩
  refine .stays [] (List.append_nil _).symm rfl List.prefix_rfl rfl ?_
    fun reading => ⟨reading, rfl⟩
  intro reading
  rcases Option.isSome_iff_exists.mp reading with ⟨reader, isReader⟩
  have reads := (sound.reading reader isReader).1
  rw [List.length_take, List.length_drop] at taken
  rcases phase : pipeline.link.world.stack with _ | _ | _ | frame | _ | _ | _ | _
  case writing =>
    have same : ({ pipeline with
        position := pipeline.position + count
        transcript := pipeline.transcript.append connection
          ((pipeline.current.drop pipeline.position).take count) } : Pipeline T config).current =
        pipeline.current := rfl
    simp only [rest, phase, same, forwards, reading, if_true]
    omega
  all_goals simp [Link.writes, phase] at writes
  all_goals simp [phase, StackPhase.reads] at reads

end Serves

/-- Without a read grant the stack leaves the TX channel alone. -/
theorem same_of_follow (noReader : pipeline.reader = none) {action : LinkAction T}
    (notClient : action.isClient = false) (stepped : pipeline.follow link action = some next) :
    next.tx = pipeline.tx ∧ next.reader = none := by
  have complete (stepped : pipeline.complete link = some next) :
      next.tx = pipeline.tx ∧ next.reader = none := by
    simp only [Pipeline.complete, Option.ite_none_right_eq_some, Option.some.injEq] at stepped
    rcases stepped with ⟨_, rfl⟩
    exact ⟨rfl, noReader⟩
  have answer (stepped : pipeline.answer link = some next) :
      next.tx = pipeline.tx ∧ next.reader = none := by
    unfold Pipeline.answer at stepped
    split at stepped
    · split at stepped
      · rcases Option.some.inj stepped with rfl
        exact ⟨rfl, noReader⟩
      · rcases Option.some.inj stepped with rfl
        exact ⟨rfl, noReader⟩
      · simp at stepped
    · rcases Option.some.inj stepped with rfl
      exact ⟨rfl, noReader⟩
  cases action with
  | client => simp [LinkAction.isClient] at notClient
  | greeted => exact complete stepped
  | receive => exact answer stepped
  | write action =>
      cases action with
      | read => simp [Pipeline.follow] at stepped
      | written | replied => exact complete stepped
      | transmitted => simp [Pipeline.follow, Pipeline.release, noReader] at stepped
      | writeFails =>
          simp only [Pipeline.follow, Pipeline.writeFails, noReader, Option.some.injEq] at stepped
          subst stepped
          exact ⟨rfl, rfl⟩
      | keepAlive => exact answer stepped
      | _ =>
          rcases Option.some.inj stepped with rfl
          exact ⟨rfl, noReader⟩
  | opened | dropRun | disconnect => simp [Pipeline.follow] at stepped
  | connect | recvConnAck | connected | connectFails | pending | socketFails | lost | drifts
  | reset =>
      rcases Option.some.inj stepped with rfl
      exact ⟨rfl, noReader⟩

namespace Serves

theorem follow (small : capacity ≤ 65535) (orderly : pipeline.Orderly)
    (sound : pipeline.Sound capacity) {action : LinkAction T}
    (skips : pipeline.skips = true → action.isClient = true)
    (linked : linkStep pipeline.link action = some link)
    (stepped : pipeline.follow link action = some next) :
    pipeline.Serves next (pipeline.forwards (.link action)) := by
  rcases isClient : action.isClient with _ | _
  case true =>
    cases action with
    | client action => exact of_fills orderly (sound.fills_of_client small linked stepped)
    | _ => simp [LinkAction.isClient] at isClient
  rcases isReader : pipeline.reader with _ | reader
  · -- a frame that goes on is held
    have notForwards : pipeline.forwards (.link action) = false := by
      by_contra forwards
      have taken := isSome_frame?_of_forwards (by simpa using forwards) linked
      simpa [isReader] using orderly.holds taken
    rcases same_of_follow isReader isClient stepped with ⟨tx, noReader⟩
    rw [notForwards]
    exact of_resting isReader tx noReader
  · have reading : pipeline.reader.isSome = true := by simp [isReader]
    have reads := (sound.reading reader isReader).1
    have taken : pipeline.link.world.stack.frame?.isSome = true := by
      rcases phase : pipeline.link.world.stack with _ | _ | _ | _ | _ | _ | _ | _
      case idle => simp [Pipeline.skips, isReader, phase, isClient] at skips
      all_goals simp [phase, StackPhase.reads] at reads
      all_goals rfl
    have stays (queue : next.tx = pipeline.tx) (same : next.reader = pipeline.reader)
        (rest : next.rest + 1 ≤ pipeline.rest) : pipeline.Serves next true :=
      .stays [] (by rw [queue, List.append_nil]) (by rw [queue])
        (queue ▸ List.prefix_rfl) same (fun _ => rest) (fun _ => ⟨reading, rfl⟩)
    rcases Link.action_of_frame taken linked with
      client | rfl | rfl | rfl | rfl | rfl | ⟨written, rfl⟩
    · simp [client] at isClient
    · -- written
      simp only [Pipeline.follow, Pipeline.complete, Option.ite_none_right_eq_some,
        Option.some.injEq] at stepped
      rcases stepped with ⟨isEnd, rfl⟩
      refine stays rfl rfl ?_
      cases Link.transition_of_linkStep linked with
      | write _ _ inner =>
          cases (transition_of_step inner).2 with
          | written phase => simp [rest, phase, World.written, Link.goOn]
    · -- flushed
      rcases Option.some.inj stepped with rfl
      refine stays rfl rfl ?_
      cases Link.transition_of_linkStep linked with
      | write _ _ inner =>
          cases (transition_of_step inner).2 with
          | flushed phase => simp [rest, phase, Link.goOn]
    · -- transmitted
      simp only [Pipeline.follow, Pipeline.release, isReader, Option.bind_eq_bind,
        Option.bind_some, Option.bind_eq_some_iff, Option.some.injEq] at stepped
      rcases stepped with ⟨tx, released, rfl⟩
      exact release small orderly sound isReader (.inl rfl) released rfl
    · -- writing fails
      simp only [Pipeline.follow, Pipeline.writeFails, isReader, Option.bind_eq_bind,
        Option.bind_eq_some_iff, Option.some.injEq] at stepped
      rcases stepped with ⟨tx, dropped, rfl⟩
      exact release small orderly sound isReader (.inr rfl) dropped rfl
    · simp [Pipeline.follow] at stepped
    · simp [Pipeline.follow] at stepped

theorem opened (sound : pipeline.Sound capacity) {connect : Connect}
    (stepped : pipeline.opened connect = some next) : pipeline.Serves next false := by
  simp only [Pipeline.opened, Option.bind_eq_bind, Option.bind_eq_some_iff] at stepped
  rcases stepped with ⟨link, opens, stepped⟩
  cases Link.transition_of_linkStep opens with
  | opened phase =>
      have noReader := sound.reader_eq_none (by simp [phase.1, StackPhase.reads])
      split at stepped
      · rcases Option.some.inj stepped with rfl
        exact of_resting noReader rfl noReader
      · rcases Option.some.inj stepped with rfl
        exact of_resting noReader rfl noReader
      · rcases Option.some.inj stepped with rfl
        exact of_resting noReader rfl noReader
      · simp at stepped

theorem of_step (small : capacity ≤ 65535) (orderly : pipeline.Orderly)
    (sound : pipeline.Sound capacity) {action : PipelineAction T}
    (stepped : pipelineStep pipeline action = some next) :
    pipeline.Serves next (pipeline.forwards action) := by
  simp only [pipelineStep, Option.ite_none_left_eq_some] at stepped
  rcases stepped with ⟨_, stepped⟩
  cases action with
  | pollGrant handle packet waker => exact of_fills orderly (sound.fills_of_pollGrant small stepped)
  | dropSubscription pidLocked statusLocked topics =>
      exact of_fills orderly (sound.fills_of_dropSubscription small stepped)
  | pollRead waker => exact pollRead small orderly sound stepped
  | skipped =>
      simp only [Pipeline.skip, Pipeline.release, Option.bind_eq_bind, Option.bind_eq_some_iff,
        Option.ite_none_right_eq_some, Option.some.injEq] at stepped
      rcases stepped with ⟨_, _, _, _, _, reader, isReader, tx, released, rfl⟩
      exact release small orderly sound isReader (.inl rfl) released rfl
  | skipFails =>
      simp only [Pipeline.skipFails, Pipeline.release, Option.bind_eq_bind,
        Option.bind_eq_some_iff, Option.some.injEq] at stepped
      rcases stepped with ⟨_, _, reader, isReader, tx, released, rfl⟩
      exact release small orderly sound isReader (.inr rfl) released rfl
  | opened connect => exact opened sound stepped
  | write count => exact write sound stepped
  | link action =>
      simp only [Option.ite_none_left_eq_some, Option.bind_eq_some_iff] at stepped
      rcases stepped with ⟨goesOn, link, linked, stepped⟩
      exact follow small orderly sound (by simpa using goesOn) linked stepped

end Serves

/-! ## The work ahead -/

omit [Transport T] in
theorem one_le_weight (pipeline : Pipeline T config) (header : Pubsub.Header) :
    1 ≤ pipeline.weight header := by
  unfold weight rest
  split
  · split
    · omega
    · omega
    · omega
  · omega

omit [Transport T] in
/-- Frames that nobody has read weigh the same in any state. -/
theorem sum_weight_of_unread (pipeline next : Pipeline T config) {headers : List Pubsub.Header}
    (unread : ∀ header ∈ headers, header.readInProgress = false) :
    (headers.map next.weight).sum = (headers.map pipeline.weight).sum := by
  congr 1
  apply List.map_congr_left
  intro header mem
  simp [weight, unread header mem]

omit [Transport T] in
theorem Orderly.unread (orderly : pipeline.Orderly) (noReader : pipeline.reader = none) :
    ∀ header ∈ pipeline.tx.inner.messages, header.readInProgress = false := by
  have turns := orderly.turns
  rw [noReader] at turns
  exact fun header mem => (turns.turn.2 header mem).2

namespace Serves

omit [Transport T] in
/-- No step adds to the work ahead of a point of the queue, and one that goes on with a frame lowers
it. -/
theorem ahead_le {forwards : Bool} {bound : ℕ} (serves : pipeline.Serves next forwards)
    (orderly : pipeline.Orderly) (valid : pipeline.tx.inner.Valid)
    (within : bound ≤ pipeline.tx.inner.nextMessageId) :
    next.ahead bound ≤ pipeline.ahead bound - (if forwards then 1 else 0) := by
  have inside : bound - pipeline.tx.inner.startId ≤ pipeline.tx.inner.messages.length := by
    have length := valid.length_le
    simp only [Pubsub.State.startId]
    omega
  cases serves with
  | stays added queue startId commits reader rest handles =>
      unfold ahead
      rw [queue, startId, List.take_append_of_le_length inside]
      rcases reading : pipeline.reader.isSome with _ | _
      · have unread := orderly.unread (by simpa using reading)
        have idle : forwards = false := by simpa [reading] using handles
        have same := sum_weight_of_unread pipeline next
          fun header mem => unread header (List.mem_of_mem_take
            (i := bound - pipeline.tx.inner.startId) mem)
        rw [same, idle]
        exact le_rfl
      · rcases orderly.exists_reading reading with ⟨front, later, split, inProgress, unread, _⟩
        rw [split]
        rcases bound - pipeline.tx.inner.startId with _ | count
        · simp
        have same := sum_weight_of_unread pipeline next
          fun header mem => unread header (List.mem_of_mem_take (i := count) mem)
        have shorter := rest reading
        simp only [List.take_succ_cons, List.map_cons, List.sum_cons, same, weight, inProgress,
          if_true]
        omega
  | takes front later queue read startId commits noReader rest =>
      have unread := orderly.unread noReader
      rw [queue] at unread
      unfold ahead
      rw [queue, read, startId]
      rcases bound - pipeline.tx.inner.startId with _ | count
      · simp
      have same := sum_weight_of_unread pipeline next
        fun header mem =>
          unread header (List.mem_cons_of_mem _ (List.mem_of_mem_take (i := count) mem))
      have front_unread := unread front List.mem_cons_self
      simp only [List.take_succ_cons, List.map_cons, List.sum_cons, same, weight, front_unread,
        Pubsub.Header.startRead, Bool.false_eq_true, if_true, if_false]
      split
      · omega
      · omega
  | gives queue startId commits reading =>
      rcases orderly.exists_reading reading with ⟨front, later, split, _, unread, _⟩
      unfold ahead
      rw [queue, startId, split, List.tail_cons, Nat.sub_add_eq]
      rcases bound - pipeline.tx.inner.startId with _ | count
      · simp
      have same := sum_weight_of_unread pipeline next
        fun header mem => unread header (List.mem_of_mem_take (i := count) mem)
      have positive := pipeline.one_le_weight front
      simp only [Nat.add_sub_cancel, List.take_succ_cons, List.map_cons, List.sum_cons, same]
      split
      · omega
      · omega

end Serves

/-! ## The frame that is written -/

/-- While a packet is written, it is one of the stack's own or the oldest frame of the queue. -/
def WritesFront (pipeline : Pipeline T config) : Prop :=
  pipeline.link.writes = true → ∀ frame,
    pipeline.transcript.sent.head?.bind Sent.label = some frame →
      ∃ front later, pipeline.tx.inner.messages = front :: later ∧ front.messageId = frame.id

/-- What a step writes: it goes on with the packet that is written, or begins one, or ends one. -/
inductive Writes (pipeline next : Pipeline T config) : Prop where
  | fills (fills : pipeline.Fills next)
  | write (count : ℕ) (stepped : pipeline.write count = some next)
  | frame (waker : Pubsub.Waker) (stepped : pipeline.pollRead waker = some next)
  | own (connection : ℕ) (bytes : List UInt8)
      (transcript : next.transcript = pipeline.transcript.begin connection none bytes)
  | rests (after : next.link.writes = false)

namespace Writes

theorem opened [ClosingTransport T] {connect : Connect}
    (stepped : pipeline.opened connect = some next) : pipeline.Writes next := by
  simp only [Pipeline.opened, Option.bind_eq_bind, Option.bind_eq_some_iff] at stepped
  rcases stepped with ⟨link, opens, stepped⟩
  rcases Link.connecting_of_opened opens with ⟨_, _, after, _, _, handshake⟩
  split at stepped
  · rename_i noSocket
    rcases Option.some.inj stepped with rfl
    rcases handshake with ⟨isSome, _⟩ | ⟨_, refused⟩
    · simp [noSocket] at isSome
    · exact .rests (by simp [Link.writes, after, refused])
  · rename_i connection bytes _ _
    rcases Option.some.inj stepped with rfl
    exact .own connection bytes rfl
  · rcases Option.some.inj stepped with rfl
    exact .rests (by simp [Link.writes, after])
  · simp at stepped

theorem answer (answers : pipeline.link.Answers link) (stepped : pipeline.answer link = some next) :
    pipeline.Writes next := by
  simp only [Pipeline.answer] at stepped
  split at stepped
  · rename_i reply connection _ _
    split at stepped
    · rename_i encoder _
      rcases Option.some.inj stepped with rfl
      exact .own connection encoder.intoPacketBytes rfl
    · rcases Option.some.inj stepped with rfl
      exact .rests (by simp [Link.writes])
    · simp at stepped
  · rename_i noAnswer
    rcases Option.some.inj stepped with rfl
    rcases answers with
      ⟨connection, socket, transport, _, _, reply, phase⟩ | ⟨quiet, _⟩
    · exact absurd (transport ▸ socket) (noAnswer reply connection phase)
    · exact .rests quiet.after

theorem complete (ends : pipeline.link.Ends link) (stepped : pipeline.complete link = some next) :
    pipeline.Writes next := by
  simp only [Pipeline.complete, Option.ite_none_right_eq_some, Option.some.injEq] at stepped
  rcases stepped with ⟨_, rfl⟩
  exact .rests ends.after

theorem release {call : ℕ → Pubsub.Action} (after : link.writes = false)
    (stepped : pipeline.release link call = some next) : pipeline.Writes next := by
  simp only [Pipeline.release, Option.bind_eq_bind, Option.bind_eq_some_iff,
    Option.some.injEq] at stepped
  rcases stepped with ⟨_, _, _, _, rfl⟩
  exact .rests after

theorem follow [ClosingTransport T] (small : capacity ≤ 65535) (sound : pipeline.Sound capacity)
    {action : LinkAction T} (linked : linkStep pipeline.link action = some link)
    (stepped : pipeline.follow link action = some next) : pipeline.Writes next := by
  have quiet (isQuiet : action.isQuiet = true)
      (same : pipeline.follow link action = some { pipeline with link := link }) :
      pipeline.Writes next := by
    rcases Option.some.inj (same.symm.trans stepped)
    exact .rests (Link.quiet_of_linkStep isQuiet linked).1.after
  cases action with
  | client action => exact .fills (sound.fills_of_client small linked stepped)
  | greeted => exact complete (Link.ends_of_greeted linked).1 stepped
  | connectFails =>
      rcases Option.some.inj stepped
      exact .rests (Link.givesUp_of_connectFails linked).1.after
  | receive received payload => exact answer (Link.answers_of_receive linked).1 stepped
  | write action =>
      cases action with
      | read => simp [Pipeline.follow] at stepped
      | written => exact complete (Link.ends_of_written linked).1 stepped
      | replied => exact complete (Link.ends_of_replied linked).1 stepped
      | flushed => exact quiet rfl rfl
      | transmitted => exact release (Link.quiet_of_linkStep rfl linked).1.after stepped
      | writeFails =>
          have after := (Link.givesUp_of_writeFails linked).1.after
          simp only [Pipeline.follow, Pipeline.writeFails] at stepped
          split at stepped
          · simp only [Option.bind_eq_bind, Option.bind_eq_some_iff, Option.some.injEq] at stepped
            rcases stepped with ⟨_, _, rfl⟩
            exact .rests after
          · rcases Option.some.inj stepped with rfl
            exact .rests after
      | keepAlive => exact answer (Link.answers_of_keepAlive linked).1 stepped
      | _ => simp [linkStep, Action.isWrite] at linked
  | opened | dropRun | disconnect => simp [Pipeline.follow] at stepped
  | connect | recvConnAck | connected | pending | socketFails | lost | drifts | reset =>
      exact quiet rfl rfl

theorem of_step [ClosingTransport T] (small : capacity ≤ 65535) (sound : pipeline.Sound capacity)
    {action : PipelineAction T} (stepped : pipelineStep pipeline action = some next) :
    pipeline.Writes next := by
  simp only [pipelineStep, Option.ite_none_left_eq_some] at stepped
  rcases stepped with ⟨_, stepped⟩
  cases action with
  | pollGrant handle packet waker => exact .fills (sound.fills_of_pollGrant small stepped)
  | dropSubscription pidLocked statusLocked topics =>
      exact .fills (sound.fills_of_dropSubscription small stepped)
  | pollRead waker => exact .frame waker stepped
  | skipped =>
      simp only [Pipeline.skip, Option.bind_eq_bind, Option.bind_eq_some_iff,
        Option.ite_none_right_eq_some] at stepped
      rcases stepped with ⟨_, _, _, _, phase, stepped⟩
      exact release (by simp [Link.writes, phase]) stepped
  | skipFails =>
      simp only [Pipeline.skipFails, Option.bind_eq_bind, Option.bind_eq_some_iff] at stepped
      rcases stepped with ⟨world, failed, stepped⟩
      cases (transition_of_step failed).2 with
      | receiveFails error phase =>
          exact release (by simp [Link.writes, World.receiveFails]) stepped
  | opened connect => exact opened stepped
  | write count => exact .write count stepped
  | link action =>
      simp only [Option.ite_none_left_eq_some, Option.bind_eq_some_iff] at stepped
      rcases stepped with ⟨_, link, linked, stepped⟩
      exact follow small sound linked stepped

end Writes

namespace WritesFront

theorem step (orderly : pipeline.Orderly) (sound : pipeline.Sound capacity)
    (front : pipeline.WritesFront) (writes : pipeline.Writes next) : next.WritesFront := by
  intro writing frame labelled
  cases writes with
  | fills fills =>
      rw [fills.transcript] at labelled
      rcases front (fills.writes ▸ writing) frame labelled with ⟨header, later, queue, isFrame⟩
      rcases fills.tx.queue with ⟨added, queue', _⟩
      exact ⟨header, later ++ added, by rw [queue', queue, List.cons_append], isFrame⟩
  | write count stepped =>
      simp only [Pipeline.write, Option.bind_eq_bind, Option.bind_eq_some_iff,
        Option.ite_none_right_eq_some, Option.some.injEq] at stepped
      rcases stepped with ⟨connection, _, ⟨writes, _, _⟩, rfl⟩
      refine front writes frame ?_
      rcases sent : pipeline.transcript.sent with _ | ⟨newest, earlier⟩
      · simp [Transcript.append, sent] at labelled
      · simpa [Transcript.append, sent] using labelled
  | frame waker stepped =>
      have resting : pipeline.link.writes = false := by
        simp [Link.writes, idle_of_pollRead stepped]
      cases orderly.polled sound stepped with
      | waits tx nothing noReader turns queue startId same
      | empty tx reader front later split noReader turns queue startId same =>
          subst same
          simp [resting] at writing
      | begins link tx reader connection front later split noReader turns held queue startId taken
          same =>
          subst same
          simp only [Pipeline.begin, Transcript.begin, List.head?_cons, Option.bind_some,
            Option.some.injEq] at labelled
          exact ⟨front.startRead, later, queue, labelled ▸ rfl⟩
  | own connection bytes transcript => simp [transcript, Transcript.begin] at labelled
  | rests after => simp [after] at writing

end WritesFront

/-! ## Runs -/

/-- The invariants of a pipeline whose stack takes its turns. -/
structure Served (capacity : ℕ) (pipeline : Pipeline T config) : Prop where
  sound : pipeline.Sound capacity
  orderly : pipeline.Orderly
  front : pipeline.WritesFront

namespace Served

theorem new (small : capacity ≤ 65535) (config : CrateConfig) (transport : T) :
    (Pipeline.new config capacity transport).Served capacity where
  sound := .new small config transport
  orderly := .new config capacity transport
  front := by simp [WritesFront, Pipeline.new, Transcript.empty]

theorem valid (served : pipeline.Served capacity) : pipeline.tx.inner.Valid :=
  served.sound.tx.pipe.once.invariant.valid

theorem step [ClosingTransport T] (small : capacity ≤ 65535) (served : pipeline.Served capacity)
    {action : PipelineAction T} (stepped : pipelineStep pipeline action = some next) :
    next.Served capacity where
  sound := served.sound.step small stepped
  orderly := served.orderly.step small served.sound stepped
  front := served.front.step served.orderly served.sound (.of_step small served.sound stepped)

theorem of_run [ClosingTransport T] (small : capacity ≤ 65535) {transport : T}
    {actions : List (PipelineAction T)}
    (reached : pipelineRun config capacity transport actions = some pipeline) :
    pipeline.Served capacity :=
  Execution.invariant_of_run (Served capacity) (fun served stepped => served.step small stepped)
    (new small config transport) reached

end Served

namespace Serves

variable {forwards : Bool}

omit [Transport T] in
theorem nextMessageId_le (serves : pipeline.Serves next forwards)
    (valid : pipeline.tx.inner.Valid) (after : next.tx.inner.Valid) :
    pipeline.tx.inner.nextMessageId ≤ next.tx.inner.nextMessageId := by
  have length := valid.length_le
  have length' := after.length_le
  cases serves with
  | stays added queue startId =>
      rw [queue, List.length_append] at length'
      rw [Pubsub.State.startId, Pubsub.State.startId, queue, List.length_append] at startId
      omega
  | takes front later queue read startId =>
      rw [read, List.length_cons] at length'
      rw [queue, List.length_cons] at length
      rw [Pubsub.State.startId, Pubsub.State.startId, queue, read, List.length_cons,
        List.length_cons] at startId
      omega
  | gives queue startId =>
      rw [queue, List.length_tail] at length'
      rw [Pubsub.State.startId, Pubsub.State.startId, queue, List.length_tail] at startId
      omega

omit [Transport T] in
theorem commits (serves : pipeline.Serves next forwards) :
    commitsAfter 0 pipeline.tx.history <+: commitsAfter 0 next.tx.history := by
  cases serves with
  | stays _ _ _ commits => exact commits
  | takes _ _ _ _ _ commits => exact commits
  | gives _ _ commits => exact commits

end Serves

/-- The work ahead of a point of the queue is done by as many steps that go on with a frame. -/
theorem Served.ahead_of_run [ClosingTransport T] (small : capacity ≤ 65535)
    (served : pipeline.Served capacity) {bound : ℕ}
    (within : bound ≤ pipeline.tx.inner.nextMessageId) {actions : List (PipelineAction T)}
    {final : Pipeline T config}
    (continued : Execution.run pipelineStep pipeline actions = some final) :
    final.Served capacity ∧ bound ≤ final.tx.inner.nextMessageId ∧
      commitsAfter 0 pipeline.tx.history <+: commitsAfter 0 final.tx.history ∧
      final.ahead bound ≤ pipeline.ahead bound - pipeline.forwardings actions := by
  induction actions generalizing pipeline with
  | nil =>
      rcases Option.some.inj continued with rfl
      exact ⟨served, within, List.prefix_rfl, by simp [forwardings]⟩
  | cons action rest ih =>
      rcases Execution.run_cons_eq_some.mp continued with ⟨next, stepped, continued⟩
      have serves := Serves.of_step small served.orderly served.sound stepped
      have after := served.step small stepped
      have later := within.trans (serves.nextMessageId_le served.valid after.valid)
      rcases ih after later continued with ⟨final_served, final_within, commits, ahead⟩
      have lower := serves.ahead_le served.orderly served.valid within
      refine ⟨final_served, final_within, serves.commits.trans commits, ?_⟩
      simp only [forwardings, stepped]
      omega

omit [Transport T] in
/-- Where no work is ahead, all frames were given back. -/
theorem le_startId_of_ahead {bound : ℕ}
    (within : bound ≤ pipeline.tx.inner.nextMessageId) (done : pipeline.ahead bound = 0) :
    bound ≤ pipeline.tx.inner.startId := by
  by_contra before
  rcases queue : pipeline.tx.inner.messages with _ | ⟨front, later⟩
  · simp only [Pubsub.State.startId, queue, List.length_nil] at before
    omega
  · have positive := pipeline.one_le_weight front
    rcases count : bound - pipeline.tx.inner.startId with _ | count
    · omega
    · simp only [ahead, queue, count, List.take_succ_cons, List.map_cons, List.sum_cons] at done
      omega

/-- The frames before the queue were begun, and each is complete unless its connection was given
up. -/
theorem Served.settled (served : pipeline.Served capacity) {commits : List Pubsub.Frame}
    (committed : commits <+: commitsAfter 0 pipeline.tx.history)
    (before : ∀ frame ∈ commits, frame.id < pipeline.tx.inner.startId) :
    contents commits <+: pipeline.transcript.sent.reverse.filterMap Sent.label ∧
      ∀ sent ∈ pipeline.transcript.sent, ∀ frame ∈ commits, sent.label = some frame →
        pipeline.transcript.Settled sent := by
  have sound := served.sound
  constructor
  · rcases sound.tx.pipe.delivered with ⟨subscriber, _, delivered⟩
    have read : commits <+: readsOf 0 pipeline.tx.history := by
      rw [← delivered] at committed
      rcases List.prefix_or_prefix_of_prefix committed (List.prefix_append _ _) with
        isPrefix | ⟨rest, split⟩
      · exact isPrefix
      -- otherwise a frame of the queue is among the earlier commits
      rw [← split, List.prefix_append_right_inj] at committed
      rcases rest with _ | ⟨frame, rest⟩
      · exact ⟨[], by rw [← split, List.append_nil, List.append_nil]⟩
      have queued := committed.subset List.mem_cons_self
      have earlier := before frame (by simp [← split])
      rcases List.mem_map.mp queued with ⟨header, awaited, rfl⟩
      rcases List.getElem?_of_mem (List.mem_of_mem_filter awaited) with ⟨index, found⟩
      have isNext := served.valid.messageId_eq found
      simp only [Pubsub.Header.frame] at earlier
      omega
    rw [sound.recorded.order]
    exact read.filter _
  · intro sent sent_mem frame frame_mem labelled
    have unfinished := sound.transcript.unfinished
    rcases writes : pipeline.link.writes with _ | _
    · simp only [underway, writes, Bool.false_eq_true, if_false] at unfinished
      exact unfinished sent sent_mem
    · simp only [underway, writes, if_true] at unfinished
      rcases unfinished with ⟨newest, earlier, split, _, _, _, settled⟩
      rw [split] at sent_mem
      rcases List.mem_cons.mp sent_mem with rfl | older
      · -- the frame that is written is in the queue
        rcases served.front writes frame (by simp [split, labelled]) with
          ⟨front, later, queue, isFrame⟩
        have isFirst := served.valid.messageId_eq (by simp [queue] :
          pipeline.tx.inner.messages[0]? = some front)
        have earlier := before frame frame_mem
        omega
      · exact settled sent older

omit [Transport T] in
theorem ahead_nextMessageId (valid : pipeline.tx.inner.Valid) :
    pipeline.ahead pipeline.tx.inner.nextMessageId = pipeline.work := by
  have length := valid.length_le
  rw [ahead, work, List.take_of_length_le]
  simp only [Pubsub.State.startId]
  omega

/-- However the tasks interleave from some state on, whatever is received and wherever writing
fails: after as many steps of the stack that go on with a frame as there was work left for the
queue, every frame with a packet that was committed by then was begun, in the order of the commits,
and was written completely unless its connection was given up. -/
theorem forwarded_of_pipelineRun [ClosingTransport T] (small : capacity ≤ 65535) {transport : T}
    {earlier later : List (PipelineAction T)} {pipeline final : Pipeline T config}
    (reached : pipelineRun config capacity transport earlier = some pipeline)
    (continued : Execution.run pipelineStep pipeline later = some final)
    (enough : pipeline.work ≤ pipeline.forwardings later) :
    contents (commitsAfter 0 pipeline.tx.history) <+:
        final.transcript.sent.reverse.filterMap Sent.label ∧
      ∀ sent ∈ final.transcript.sent, ∀ frame ∈ commitsAfter 0 pipeline.tx.history,
        sent.label = some frame →
          sent.Complete ∨ sent.connection ∈ final.transcript.cut := by
  have served := Served.of_run small reached
  have whole := ahead_nextMessageId served.valid
  rcases served.ahead_of_run small le_rfl continued with ⟨final_served, within, commits, ahead⟩
  have done := le_startId_of_ahead within (by omega)
  refine final_served.settled commits ?_
  intro frame committed
  have pipe := served.sound.tx.pipe
  rcases pipe.subscriber with ⟨subscriber, subscribed⟩
  have delivers := pipe.once.broadcasts pipe.publishedOnce 0 subscriber subscribed
  exact lt_of_lt_of_le (delivers.committed_lt frame committed) done

/-- A frame is written one byte at a time, and another call begins meanwhile. -/
def forwardInPieces (size : ℕ) : List (PipelineAction NalTransport) :=
  .pollRead 0 :: List.replicate size (.write 1) ++
    [.link (.client (.send (.publish .atMostOnce))), .link (.write .written),
      .link (.write .flushed), .link (.write .transmitted)]

theorem forwarded_of_pipelineRun_example :
    ∃ pipeline final,
      pipelineRun (.default .mqttv3 true) 64 ⟨some 0⟩ (commitPublishes
        ⟨false, .atMostOnce, false, none, ⟨[0x7C], by decide⟩, .ofSlice [], .slice []⟩
        ⟨false, .atMostOnce, false, none, ⟨[0x7C], by decide⟩, .ofSlice [9], .slice []⟩) =
        some pipeline ∧
      Execution.run pipelineStep pipeline (forwardInPieces 5 ++ forwardInPieces 6) = some final ∧
      contents (commitsAfter 0 pipeline.tx.history) =
        [⟨0, [0x30, 3, 0, 1, 0x7C]⟩, ⟨1, [0x30, 4, 0, 1, 0x7C, 9]⟩] ∧
      contents (commitsAfter 0 pipeline.tx.history) <+:
        final.transcript.sent.reverse.filterMap Sent.label ∧
      ∀ sent ∈ final.transcript.sent, ∀ frame ∈ commitsAfter 0 pipeline.tx.history,
        sent.label = some frame →
          sent.Complete ∨ sent.connection ∈ final.transcript.cut := by
  have observed : (pipelineRun (.default .mqttv3 true) 64 ⟨some 0⟩ (commitPublishes
      ⟨false, .atMostOnce, false, none, ⟨[0x7C], by decide⟩, .ofSlice [], .slice []⟩
      ⟨false, .atMostOnce, false, none, ⟨[0x7C], by decide⟩, .ofSlice [9], .slice []⟩)).map
      (fun pipeline => (contents (commitsAfter 0 pipeline.tx.history), pipeline.work,
        pipeline.forwardings (forwardInPieces 5 ++ forwardInPieces 6),
        (Execution.run pipelineStep pipeline
          (forwardInPieces 5 ++ forwardInPieces 6)).isSome)) =
      some ([⟨0, [0x30, 3, 0, 1, 0x7C]⟩, ⟨1, [0x30, 4, 0, 1, 0x7C, 9]⟩], 19, 19, true) := by
    decide +kernel
  rcases Option.map_eq_some_iff.mp observed with ⟨pipeline, reached, same⟩
  rcases Prod.mk.inj same with ⟨commits, same⟩
  rcases Prod.mk.inj same with ⟨work, same⟩
  rcases Prod.mk.inj same with ⟨forwardings, continues⟩
  rcases Option.isSome_iff_exists.mp continues with ⟨final, continued⟩
  have forwarded := forwarded_of_pipelineRun (by decide) reached continued
    (by rw [work, forwardings])
  exact ⟨pipeline, final, reached, continued, commits, forwarded.1, forwarded.2⟩

end Pipeline

end Mqttrust.System
