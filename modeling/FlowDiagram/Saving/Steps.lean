import FlowDiagram.Saving.Schedule
/-! Schedules that go on step by step. -/

namespace FlowDiagram.Schedule

variable {κ α : Type}

/-- What can be done with a schedule. -/
inductive Step (κ α : Type) where
  | plan (key : κ) (value : α) (delay : Nat)
  | cancel (key : κ)
  | cancelAll
  /-- Drops the schedule and goes on with a new one at the same time. -/
  | drop
  | advance (ms : Nat)
  /-- Something happens that has nothing to do with the schedule. -/
  | idle
deriving DecidableEq, Repr

variable [DecidableEq κ]

/-- Takes a step: the tasks that run in it, and the schedule after it. -/
def step (d : Schedule κ α) : Step κ α → List (Run κ α) × Schedule κ α
  | .plan key value delay => ([], d.plan key value delay)
  | .cancel key => ([], (d.cancel key).2)
  | .cancelAll | .drop => ([], d.clear)
  | .advance ms => d.advance ms
  | .idle => ([], d)

/-- The schedule after steps. -/
def after (d : Schedule κ α) (steps : List (Step κ α)) : Schedule κ α :=
  steps.foldl (fun d s => (d.step s).2) d

/-- The tasks that run in steps, one step after the other. -/
def runs (d : Schedule κ α) : List (Step κ α) → List (Run κ α)
  | [] => []
  | s :: steps => (d.step s).1 ++ (d.step s).2.runs steps

/-- The tasks that run in the step at a position. -/
def runsAt (steps : List (Step κ α)) (j : Nat) : List (Run κ α) :=
  match steps[j]? with
  | some s => ((start.after (steps.take j)).step s).1
  | none => []

end FlowDiagram.Schedule
