import Assay.Failure
import Assay.Text.Integer

/-!
# Workers

A task on every item of a list, done by one worker or by several side by side. Answers come back in
the order of the items, so the number of workers shows in nothing but time: `Workers.map_eq`.
-/

namespace Assay.Workers

variable {α β : Type}

/-- The answers of a task on every item; up to `more + 1` items are worked on at a time. -/
def mapBatches (more : Nat) (task : α → β) (items : List α) : List β :=
  if items.isEmpty then []
  else
    let running := (items.take (more + 1)).map fun item => Task.spawn fun _ => task item
    running.map (·.get) ++ mapBatches more task (items.drop (more + 1))
termination_by items.length
decreasing_by
  rename_i h
  cases items with
  | nil => simp at h
  | cons _ _ => simp only [List.length_drop, List.length_cons]; omega

/-- The answers of a task on every item, with the given number of workers. -/
def map (workers : Nat) (task : α → β) (items : List α) : List β :=
  if workers ≤ 1 then items.map task else mapBatches (workers - 1) task items

theorem mapBatches_eq (more : Nat) (task : α → β) (items : List α) :
    mapBatches more task items = items.map task := by
  fun_induction mapBatches more task items with
  | case1 items h => simp [List.isEmpty_iff.mp h]
  | case2 items h running ih =>
    have answers : running.map (·.get) = (items.take (more + 1)).map task := by
      simp only [running, List.map_map]
      rfl
    rw [answers, ih, ← List.map_append, List.take_append_drop]

/-- Several workers answer as one does. -/
theorem map_eq (workers : Nat) (task : α → β) (items : List α) :
    map workers task items = items.map task := by
  unfold map
  split
  · rfl
  · exact mapBatches_eq ..

/-! ## How many -/

/-- A number of workers that was asked for directly. -/
def ofGiven (n : Int) : Except Failure Int := if n < 1 then .error (.workers .tooFew) else .ok n

/-- The number of workers that the environment asks for, one if it asks for none. -/
def ofEnvironment (environment : List (String × String)) : Except Failure Int :=
  let given := Text.strip ((environment.lookup workersVariable).getD "").toList
  if given.isEmpty then .ok 1
  else
    match Text.integer? given with
    | none => .error (.environmentWorkers (.notInteger (String.ofList given)))
    | some n => if n < 1 then .error (.environmentWorkers .tooFew) else .ok n

/-- The number of workers that is used. -/
def effective (n : Int) : Nat := (max 1 n).toNat

end Assay.Workers
