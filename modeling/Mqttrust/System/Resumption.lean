import Mqttrust.System.ExactlyOnce

/-!
# Publishes of QoS 2 across connections

A broker that resumes a session may release a publish that the client received on an
earlier connection. Whether the client knows it still depends on how that connection
was lost: a reset of the shared state forgets the received publishes, although the
session goes on.
-/

namespace Mqttrust.System

variable {config : CrateConfig}

/-- During the actions a PUBREC was written, the connection was lost and the session was resumed. -/
def Resumed (config : CrateConfig) (pid : Pid) (actions : List Action) : Prop :=
  ∃ earlier between later world, actions = earlier ++ .replied :: between ++ .connected true :: later ∧
    runFrom config earlier = some world ∧ world.stack = .replying (.pubRec pid)

/-- As long as nothing has panicked, the received publishes are those of the history. -/
def World.Remembers (world : World config) : Prop :=
  world.panicked = none → world.shared.incomingPub.elements = unreleased world.history

theorem World.remembers_step {world next : World config} {action : Action}
    (remembers : world.Remembers) (stepped : step world action = some next) : next.Remembers := by
  rcases transition_of_step stepped with ⟨running, transition⟩
  have same := remembers running
  intro stillRunning
  by_cases isReceive : ∃ packet payload, action = .receive packet payload
  · rcases isReceive with ⟨packet, payload, rfl⟩
    cases transition with
    | receive =>
        unfold World.receive at stillRunning ⊢
        dsimp only at stillRunning ⊢
        split
        · rename_i handled
          exact Shared.incomingPub_of_handle same handled
        · rename_i handled
          exact same.trans (Shared.unreleased_of_failed same handled).symm
        · rename_i handled
          simp [handled] at stillRunning
  · have notReceive : ∀ packet payload, action ≠ .receive packet payload := by
      intro packet payload isAction
      exact isReceive ⟨packet, payload, isAction⟩
    exact transition.incomingPub notReceive same

theorem World.remembers_of_run {actions : List Action} {world : World config}
    (reached : runFrom config actions = some world) : world.Remembers :=
  Execution.invariant_of_run World.Remembers World.remembers_step (fun _ => rfl) reached

/-- In every run, a PUBREL is answered with PUBCOMP if and only if the identifier was received since
the last reset of the shared state and has not been released; otherwise `select` fails. -/
theorem pubRel_answered_iff {actions : List Action} {world next : World config} {ack : Ack}
    {payload : Payload} (reached : runFrom config actions = some world)
    (stepped : step world (.receive (.pubRel ack) payload) = some next) :
    (next.stack = .replying (.pubComp ack.pid) ↔ ack.pid.val ∈ unreleased world.history) ∧
      (next.stack = .failing ↔ ack.pid.val ∉ unreleased world.history) := by
  have same := World.remembers_of_run reached (transition_of_step stepped).1
  cases (transition_of_step stepped).2 with
  | receive =>
      rw [← same, ← IndexSet.contains_iff]
      unfold World.receive Shared.handle Shared.handlePubRel
      by_cases known : world.shared.incomingPub.contains ack.pid.val = true
      · simp [known]
      · simp [known]

/-- A connection on which a PUBLISH of QoS 2 is received and answered is lost without an error, and
the session is resumed. -/
def lostQuietly (pid : Pid) : List Action :=
  [.connect, .connected false, .receive (inboundPublish pid) .copied, .replied, .lost, .connect,
    .connected true]

/-- The same with an error of the socket. -/
def lostByError (pid : Pid) : List Action :=
  [.connect, .connected false, .receive (inboundPublish pid) .copied, .replied,
    .receiveFails (.io .brokenPipe), .reset false, .connect, .connected true]

theorem pubRel_answered_iff_example :
    ∃ world next : World (.default .mqttv5 true),
      runFrom _ (lostQuietly ⟨7, by decide, by decide⟩) = some world ∧
        step world (.receive (.pubRel ⟨⟨7, by decide, by decide⟩, none⟩) .copied) = some next ∧
        next.stack = .replying (.pubComp ⟨7, by decide, by decide⟩) := by
  rcases reached : runFrom (.default .mqttv5 true) (lostQuietly ⟨7, by decide, by decide⟩) with
    _ | world
  · exact absurd reached (by decide)
  · rcases stepped : step world (.receive (.pubRel ⟨⟨7, by decide, by decide⟩, none⟩) .copied) with
      _ | next
    · cases reached
      exact absurd stepped (by decide)
    · refine ⟨world, next, rfl, stepped, (pubRel_answered_iff reached stepped).1.mpr ?_⟩
      cases reached
      decide

/-- After an error of the socket, the resumed session fails at the PUBREL. -/
theorem not_pubRel_answered_after_error :
    Resumed (.default .mqttv5 true) ⟨7, by decide, by decide⟩
        (lostByError ⟨7, by decide, by decide⟩) ∧
      ∃ world next : World (.default .mqttv5 true),
        runFrom _ (lostByError ⟨7, by decide, by decide⟩) = some world ∧
          step world (.receive (.pubRel ⟨⟨7, by decide, by decide⟩, none⟩) .copied) = some next ∧
          next.stack = .failing :=
  ⟨⟨[.connect, .connected false, .receive (inboundPublish ⟨7, by decide, by decide⟩) .copied],
    [.receiveFails (.io .brokenPipe), .reset false, .connect], [], _, rfl, rfl, rfl⟩,
    _, _, rfl, rfl, rfl⟩

end Mqttrust.System
