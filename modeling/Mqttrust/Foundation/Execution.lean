import Mathlib.Data.List.Basic

/-!
# Runs of deterministic transition systems

A system is given by a partial step function: `step state action` is the next
state, or `none` when the action is not possible in the state. A run performs a
list of actions in order. The file packages the induction over runs once: an
invariant that every guarded step keeps holds at the end of every run whose
steps all meet the guard.
-/

namespace Mqttrust.Execution

universe u v

variable {State : Type u} {Action : Type v}

/-- The state reached by performing the actions in order, when all of them are possible. -/
def run (step : State → Action → Option State) : State → List Action → Option State
  | start, [] => some start
  | start, action :: rest => (step start action).bind fun next => run step next rest

/-- Every step of the run is taken in a state, and by an action, that meet the guard. -/
def Guarded (step : State → Action → Option State) (guard : State → Action → Prop) :
    State → List Action → Prop
  | _, [] => True
  | start, action :: rest =>
      guard start action ∧ ∀ next, step start action = some next → Guarded step guard next rest

/-- The property holds in every state of the run, the first and the last one included. -/
def Always (step : State → Action → Option State) (property : State → Prop) :
    State → List Action → Prop
  | start, [] => property start
  | start, action :: rest =>
      property start ∧ ∀ next, step start action = some next → Always step property next rest

variable {step : State → Action → Option State} {guard : State → Action → Prop}

instance Guarded.decidable [∀ state action, Decidable (guard state action)] :
    ∀ start actions, Decidable (Guarded step guard start actions)
  | _, [] => isTrue trivial
  | start, action :: rest =>
      have : DecidablePred fun next => Guarded step guard next rest :=
        fun next => Guarded.decidable next rest
      inferInstanceAs (Decidable (guard start action ∧
        ∀ next ∈ step start action, Guarded step guard next rest))

@[simp]
theorem run_nil (start : State) : run step start [] = some start := rfl

theorem run_cons (start : State) (action : Action) (rest : List Action) :
    run step start (action :: rest) =
      (step start action).bind fun next => run step next rest := rfl

theorem run_cons_eq_some {start final : State} {action : Action} {rest : List Action} :
    run step start (action :: rest) = some final ↔
      ∃ next, step start action = some next ∧ run step next rest = some final := by
  rw [run_cons, Option.bind_eq_some_iff]

theorem run_append (start : State) (first second : List Action) :
    run step start (first ++ second) =
      (run step start first).bind fun middle => run step middle second := by
  induction first generalizing start with
  | nil => rfl
  | cons action rest ih =>
      rw [List.cons_append, run_cons, run_cons, Option.bind_assoc]
      exact Option.bind_congr fun next _ => ih next

theorem guarded_append {start : State} {first second : List Action} :
    Guarded step guard start (first ++ second) ↔
      Guarded step guard start first ∧
        ∀ middle, run step start first = some middle → Guarded step guard middle second := by
  induction first generalizing start with
  | nil => simp [Guarded, run]
  | cons action rest ih =>
      simp only [List.cons_append, Guarded, ih, run_cons_eq_some]
      constructor
      · rintro ⟨here, later⟩
        refine ⟨⟨here, fun next stepped => (later next stepped).1⟩, ?_⟩
        rintro middle ⟨next, stepped, continued⟩
        exact (later next stepped).2 middle continued
      · rintro ⟨⟨here, later⟩, ending⟩
        refine ⟨here, fun next stepped => ⟨later next stepped, ?_⟩⟩
        intro middle continued
        exact ending middle ⟨next, stepped, continued⟩

/-- The induction over guarded runs: what one guarded step keeps, the run keeps. -/
theorem invariant_of_guarded (invariant : State → Prop)
    (preserved : ∀ {state next : State} {action : Action}, guard state action →
      invariant state → step state action = some next → invariant next)
    {start final : State} {actions : List Action} (guarded : Guarded step guard start actions)
    (initial : invariant start) (reached : run step start actions = some final) :
    invariant final := by
  induction actions generalizing start with
  | nil =>
      simp only [run_nil, Option.some.injEq] at reached
      exact reached ▸ initial
  | cons action rest ih =>
      rcases run_cons_eq_some.mp reached with ⟨next, stepped, continued⟩
      exact ih (guarded.2 next stepped) (preserved guarded.1 initial stepped) continued

theorem guarded_of_forall {start : State} {actions : List Action}
    (always : ∀ state action, action ∈ actions → guard state action) :
    Guarded step guard start actions := by
  induction actions generalizing start with
  | nil => trivial
  | cons action rest ih =>
      refine ⟨always start action (by simp), fun next _ => ih ?_⟩
      intro state later later_mem
      exact always state later (by simp [later_mem])

/-- The induction over all runs. -/
theorem invariant_of_run (invariant : State → Prop)
    (preserved : ∀ {state next : State} {action : Action},
      invariant state → step state action = some next → invariant next)
    {start final : State} {actions : List Action}
    (initial : invariant start) (reached : run step start actions = some final) :
    invariant final := by
  have unguarded : Guarded step (fun _ _ => True) start actions :=
    guarded_of_forall fun _ _ _ => trivial
  exact invariant_of_guarded invariant (fun _ => preserved) unguarded initial reached

/-- A system that observes another one, step by step, has the same runs. -/
theorem run_map {Observed : Type*} (observe : State → Observed)
    {observedStep : Observed → Action → Option Observed}
    (same : ∀ state action, (step state action).map observe = observedStep (observe state) action)
    (start : State) (actions : List Action) :
    (run step start actions).map observe = run observedStep (observe start) actions := by
  induction actions generalizing start with
  | nil => rfl
  | cons action rest ih =>
      rw [run_cons, run_cons, ← same]
      cases step start action with
      | none => rfl
      | some next => exact ih next

/-- The induction over guarded runs for an invariant that refers to the actions performed. -/
theorem invariant_of_past (invariant : List Action → State → Prop)
    (preserved : ∀ {past : List Action} {state next : State} {action : Action},
      guard state action → invariant past state → step state action = some next →
      invariant (past ++ [action]) next)
    {start final : State} {past actions : List Action} (guarded : Guarded step guard start actions)
    (initial : invariant past start) (reached : run step start actions = some final) :
    invariant (past ++ actions) final := by
  induction actions generalizing start past with
  | nil =>
      simp only [run_nil, Option.some.injEq] at reached
      rw [List.append_nil]
      exact reached ▸ initial
  | cons action rest ih =>
      rcases run_cons_eq_some.mp reached with ⟨next, stepped, continued⟩
      rw [List.append_cons]
      exact ih (guarded.2 next stepped) (preserved guarded.1 initial stepped) continued

theorem Always.start {property : State → Prop} {start : State} {actions : List Action}
    (always : Always step property start actions) : property start := by
  cases actions with
  | nil => exact always
  | cons action rest => exact always.1

theorem Always.of_run {property : State → Prop} {start final : State} {actions : List Action}
    (always : Always step property start actions) (reached : run step start actions = some final) :
    property final := by
  induction actions generalizing start with
  | nil =>
      simp only [run_nil, Option.some.injEq] at reached
      exact reached ▸ always
  | cons action rest ih =>
      rcases run_cons_eq_some.mp reached with ⟨next, stepped, continued⟩
      exact ih (always.2 next stepped) continued

/-- What follows from an invariant of all steps holds in every state. -/
theorem always_of_invariant (invariant : State → Prop) {property : State → Prop}
    (preserved : ∀ {state next : State} {action : Action},
      invariant state → step state action = some next → invariant next)
    (implied : ∀ {state : State}, invariant state → property state)
    {start : State} {actions : List Action} (initial : invariant start) :
    Always step property start actions := by
  induction actions generalizing start with
  | nil => exact implied initial
  | cons action rest ih =>
      exact ⟨implied initial, fun next stepped => ih (preserved initial stepped)⟩

/-- A property that a guarded step keeps, and that no unguarded step keeps, holds throughout
exactly those runs whose steps all meet the guard. The invariant is what the argument may use of
every state; it rests on what is assumed of the steps. -/
theorem always_iff_guarded (assumed : State → Action → Prop) (invariant property : State → Prop)
    (preserved : ∀ {state next : State} {action : Action}, assumed state action →
      invariant state → step state action = some next → invariant next)
    (sufficient : ∀ {state next : State} {action : Action}, assumed state action →
      invariant state → property state → guard state action → step state action = some next →
      property next)
    (necessary : ∀ {state next : State} {action : Action}, invariant state → property state →
      step state action = some next → property next → guard state action)
    (disabled : ∀ {state : State} {action : Action}, step state action = none →
      guard state action)
    {start : State} {actions : List Action} (assumption : Guarded step assumed start actions)
    (initial : invariant start) (holds : property start) :
    Always step property start actions ↔ Guarded step guard start actions := by
  induction actions generalizing start with
  | nil => exact ⟨fun _ => trivial, fun _ => holds⟩
  | cons action rest ih =>
      constructor
      · intro always
        constructor
        · rcases stepped : step start action with _ | next
          · exact disabled stepped
          · exact necessary initial holds stepped (always.2 next stepped).start
        · intro next stepped
          apply (ih (assumption.2 next stepped) (preserved assumption.1 initial stepped)
            (always.2 next stepped).start).mp
          exact always.2 next stepped
      · intro guarded
        refine ⟨holds, ?_⟩
        intro next stepped
        apply (ih (assumption.2 next stepped) (preserved assumption.1 initial stepped) ?_).mpr
        · exact guarded.2 next stepped
        · exact sufficient assumption.1 initial holds guarded.1 stepped

section Record

universe w

variable {Observation : Type w} {observe : State → Action → State → List Observation}

/-- The system together with a log of what is observed of its steps, most recent first. -/
def record (step : State → Action → Option State)
    (observe : State → Action → State → List Observation)
    (recorded : State × List Observation) (action : Action) : Option (State × List Observation) :=
  (step recorded.1 action).map fun next =>
    (next, observe recorded.1 action next ++ recorded.2)

theorem record_eq_some {recorded next : State × List Observation} {action : Action} :
    record step observe recorded action = some next ↔
      step recorded.1 action = some next.1 ∧
        next.2 = observe recorded.1 action next.1 ++ recorded.2 := by
  simp only [record, Option.map_eq_some_iff]
  constructor
  · rintro ⟨after, stepped, rfl⟩
    exact ⟨stepped, rfl⟩
  · rintro ⟨stepped, log⟩
    exact ⟨next.1, stepped, Prod.ext rfl log.symm⟩

end Record

theorem Guarded.and {other : State → Action → Prop} {start : State} {actions : List Action}
    (left : Guarded step guard start actions) (right : Guarded step other start actions) :
    Guarded step (fun state action => guard state action ∧ other state action) start actions := by
  induction actions generalizing start with
  | nil => trivial
  | cons action rest ih =>
      exact ⟨⟨left.1, right.1⟩, fun next stepped => ih (left.2 next stepped) (right.2 next stepped)⟩

end Mqttrust.Execution
