import FlowDiagram.Saving.Steps
/-! Delayed tasks and the handles on them, which a schedule is made of. -/

namespace FlowDiagram

/-- What has become of a task. -/
inductive Pool.Fate where
  | waiting
  | finished
  | aborted
deriving DecidableEq, Repr

/-- A task that was started, and what runs when its time has come. -/
structure Pool.Task (κ α : Type) where
  id : Nat
  run : Schedule.Run κ α
  fate : Pool.Fate

/-- All tasks in the order in which they were started, and a handle for each key on one of them.
Tasks go on without a handle; they only end when they have run or are aborted. -/
structure Pool (κ α : Type) where
  now : Nat
  tasks : List (Pool.Task κ α)
  handles : List (κ × Nat)

namespace Pool

variable {κ α : Type}

namespace Task

def isWaiting (t : Task κ α) : Bool := t.fate = .waiting

/-- A task that waits runs once its time has come. -/
def isDue (now : Nat) (t : Task κ α) : Bool := t.isWaiting && t.run.time ≤ now

/-- The task when a time has come. -/
def afterTime (now : Nat) (t : Task κ α) : Task κ α :=
  if t.isDue now then { t with fate := .finished } else t

/-- The task after a handle has been used to abort. What is at its end cannot be aborted. -/
def afterAbort (handle : Nat) (t : Task κ α) : Task κ α :=
  if t.id = handle ∧ t.isWaiting then { t with fate := .aborted } else t

end Task

def start : Pool κ α := ⟨0, [], []⟩

/-- Starts a task that is to run after a delay, and hands out a handle on it. -/
def spawn (p : Pool κ α) (key : κ) (value : α) (delay : Nat) : Nat × Pool κ α :=
  let id := p.tasks.length
  (id, { p with tasks := p.tasks ++ [⟨id, ⟨p.now + delay, key, value⟩, .waiting⟩] })

/-- Whether the task of a handle has run or is aborted. -/
def isFinished (p : Pool κ α) (handle : Nat) : Bool :=
  p.tasks.any fun t => t.id = handle && !t.isWaiting

def abort (p : Pool κ α) (handle : Nat) : Pool κ α :=
  { p with tasks := p.tasks.map (·.afterAbort handle) }

/-- Lets all handles go, and aborts their tasks. -/
def clear (p : Pool κ α) : Pool κ α :=
  p.handles.foldl (fun p entry => p.abort entry.2) { p with handles := [] }

/-- The number of handles on tasks that are not at their end. -/
def pending (p : Pool κ α) : Nat := p.handles.countP fun entry => !p.isFinished entry.2

/-- Lets time pass. The tasks that become due run in the order of their times. -/
def advance (p : Pool κ α) (ms : Nat) : List (Schedule.Run κ α) × Pool κ α :=
  let now := p.now + ms
  (((p.tasks.filter (·.isDue now)).map (·.run)).mergeSort fun a b => a.time ≤ b.time,
    { p with now, tasks := p.tasks.map (·.afterTime now) })

variable [DecidableEq κ]

/-- The handles without that for a key. -/
def without (handles : List (κ × Nat)) (key : κ) : List (κ × Nat) :=
  handles.filter fun entry => entry.1 ≠ key

/-- Starts a task and keeps the handle on it for a key. Handles on tasks at their end are let go
before; if there is still one for the key, its task is aborted. -/
def plan (p : Pool κ α) (key : κ) (value : α) (delay : Nat) : Pool κ α :=
  let (handle, p) := p.spawn key value delay
  let handles := p.handles.filter fun entry => !p.isFinished entry.2
  let p := { p with handles := (key, handle) :: without handles key }
  match handles.lookup key with
  | some previous => p.abort previous
  | none => p

/-- Lets the handle for a key go and aborts its task. Tells whether the task was not at its end. -/
def cancel (p : Pool κ α) (key : κ) : Bool × Pool κ α :=
  match p.handles.lookup key with
  | some handle =>
    (!p.isFinished handle, { p with handles := without p.handles key }.abort handle)
  | none => (false, p)

/-- Takes a step: the tasks that run in it, and the pool after it. -/
def step (p : Pool κ α) : Schedule.Step κ α → List (Schedule.Run κ α) × Pool κ α
  | .plan key value delay => ([], p.plan key value delay)
  | .cancel key => ([], (p.cancel key).2)
  | .cancelAll | .drop => ([], p.clear)
  | .advance ms => p.advance ms
  | .idle => ([], p)

/-- The pool after steps. -/
def after (p : Pool κ α) (steps : List (Schedule.Step κ α)) : Pool κ α :=
  steps.foldl (fun p s => (p.step s).2) p

/-- The tasks that run in steps, one step after the other. -/
def runs (p : Pool κ α) : List (Schedule.Step κ α) → List (Schedule.Run κ α)
  | [] => []
  | s :: steps => (p.step s).1 ++ (p.step s).2.runs steps

end Pool

end FlowDiagram
