import Mathlib.Data.List.Basic
import Mathlib.Data.Option.Basic

/-!
# Registered wakers

A task that cannot go on registers its waker and sleeps until the waker is woken. A
registration forgets a waker only by waking it: one with a single slot wakes the former
task when another one registers, and one with several slots wakes all tasks when it is
full. So a task sleeps no longer than its waker is registered.
-/

namespace Mqttrust

variable {Task : Type}

/-- `WakerRegistration`: a registration with a single slot. -/
structure WakerRegistration (Task : Type) where
  task : Option Task
deriving DecidableEq, Repr

namespace WakerRegistration

/-- `WakerRegistration::new`. -/
def new : WakerRegistration Task := ⟨none⟩

/-- `WakerRegistration::register`: a task that was registered before is woken, if it is another
one. -/
def register (_ : WakerRegistration Task) (task : Task) : WakerRegistration Task := ⟨some task⟩

/-- `WakerRegistration::wake`. -/
def wake (_ : WakerRegistration Task) : WakerRegistration Task := ⟨none⟩

/-- The registration is woken if something holds. -/
def wakeIf (registration : WakerRegistration Task) (woken : Bool) : WakerRegistration Task :=
  if woken then registration.wake else registration

@[simp]
theorem task_wakeIf {registration : WakerRegistration Task} {woken : Bool} {task : Task} :
    (registration.wakeIf woken).task = some task ↔
      woken = false ∧ registration.task = some task := by
  cases woken <;> simp [wakeIf, wake]

end WakerRegistration

/-- `MultiWakerRegistration`: a registration with several slots. -/
structure MultiWakerRegistration (capacity : ℕ) (Task : Type) where
  tasks : List Task
deriving DecidableEq, Repr

namespace MultiWakerRegistration

variable {capacity : ℕ}

/-- `MultiWakerRegistration::new`. -/
def new : MultiWakerRegistration capacity Task := ⟨[]⟩

/-- `MultiWakerRegistration::wake`. -/
def wake (_ : MultiWakerRegistration capacity Task) : MultiWakerRegistration capacity Task := ⟨[]⟩

/-- The registration is woken if something holds. -/
def wakeIf (registration : MultiWakerRegistration capacity Task) (woken : Bool) :
    MultiWakerRegistration capacity Task :=
  if woken then registration.wake else registration

@[simp]
theorem mem_wakeIf {registration : MultiWakerRegistration capacity Task} {woken : Bool}
    {task : Task} :
    task ∈ (registration.wakeIf woken).tasks ↔ woken = false ∧ task ∈ registration.tasks := by
  cases woken <;> simp [wakeIf, wake]

variable [DecidableEq Task]

/-- `MultiWakerRegistration::register`: a task is registered once, and a full registration wakes
everybody first. -/
def register (registration : MultiWakerRegistration capacity Task) (task : Task) :
    MultiWakerRegistration capacity Task :=
  if task ∈ registration.tasks then registration
  else if registration.tasks.length < capacity then ⟨registration.tasks ++ [task]⟩
  else ⟨[task]⟩

end MultiWakerRegistration

/-- Who sleeps, and the task whose waker was registered for it. -/
abbrev Sleepers (Waiter Task : Type) := Waiter → Option Task

namespace Sleepers

variable {Waiter : Type} [DecidableEq Waiter]

/-- Everybody is awake. -/
def none : Sleepers Waiter Task := fun _ => .none

/-- A waiter falls asleep. -/
def sleep (sleepers : Sleepers Waiter Task) (waiter : Waiter) (task : Task) :
    Sleepers Waiter Task :=
  fun other => if other = waiter then some task else sleepers other

/-- At most one waiter is roused. -/
def rouse (sleepers : Sleepers Waiter Task) (roused : Option Waiter) : Sleepers Waiter Task :=
  fun waiter => if roused = some waiter then .none else sleepers waiter

omit [DecidableEq Waiter] in
/-- Those sleep on whose waker is still registered. -/
def stay (sleepers : Sleepers Waiter Task) (registered : Waiter → Task → Bool) :
    Sleepers Waiter Task :=
  fun waiter => (sleepers waiter).filter (registered waiter)

variable {sleepers : Sleepers Waiter Task} {waiter other : Waiter} {task task' : Task}
  {registered : Waiter → Task → Bool}

omit [DecidableEq Waiter] in
@[simp]
theorem stay_eq_some :
    sleepers.stay registered waiter = some task ↔
      sleepers waiter = some task ∧ registered waiter task = true := by
  rw [stay, Option.filter_eq_some_iff]

@[simp]
theorem sleep_eq_some :
    sleepers.sleep other task' waiter = some task ↔
      waiter = other ∧ task = task' ∨ waiter ≠ other ∧ sleepers waiter = some task := by
  unfold sleep
  split
  · rename_i same
    simp [same, eq_comm]
  · rename_i different
    simp [different]

@[simp]
theorem rouse_eq_some {roused : Option Waiter} :
    sleepers.rouse roused waiter = some task ↔
      roused ≠ some waiter ∧ sleepers waiter = some task := by
  unfold rouse
  split
  · rename_i same
    simp [same]
  · rename_i different
    simp [different]

end Sleepers

end Mqttrust
