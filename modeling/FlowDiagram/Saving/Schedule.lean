/-! Delayed tasks, of which only the last one for a key runs. -/

namespace FlowDiagram

/-- The task of a key. A task that has run stays in its slot until slots are cleaned up. -/
structure Schedule.Slot (κ α : Type) where
  key : κ
  value : α
  due : Nat
  waiting : Bool
deriving DecidableEq, Repr

/-- A task that runs, and when. -/
structure Schedule.Run (κ α : Type) where
  time : Nat
  key : κ
  value : α
deriving DecidableEq, Repr

/-- The slots at a time. Time is counted in milliseconds and only passes by `advance`. -/
structure Schedule (κ α : Type) where
  now : Nat
  slots : List (Schedule.Slot κ α)
deriving DecidableEq, Repr

namespace Schedule

variable {κ α : Type}

namespace Slot

/-- A task that waits runs once its time has come. -/
def isDue (now : Nat) (s : Slot κ α) : Bool := s.waiting && s.due ≤ now

def run (s : Slot κ α) : Run κ α := ⟨s.due, s.key, s.value⟩

/-- The slot when a time has come. -/
def afterTime (now : Nat) (s : Slot κ α) : Slot κ α :=
  if s.isDue now then { s with waiting := false } else s

end Slot

def start : Schedule κ α := ⟨0, []⟩

/-- Empties all slots. Dropping a schedule and going on with a new one does the same. -/
def clear (d : Schedule κ α) : Schedule κ α := { d with slots := [] }

/-- The number of tasks that wait. -/
def pending (d : Schedule κ α) : Nat := d.slots.countP (·.waiting)

/-- Lets time pass. The tasks that become due run in the order of their times. -/
def advance (d : Schedule κ α) (ms : Nat) : List (Run κ α) × Schedule κ α :=
  let now := d.now + ms
  (((d.slots.filter (·.isDue now)).map Slot.run).mergeSort fun a b => a.time ≤ b.time,
    ⟨now, d.slots.map (·.afterTime now)⟩)

variable [DecidableEq κ]

/-- Lets a task wait for a delay, in the place of one that waits under the same key. Slots of tasks
that have run are cleaned up. -/
def plan (d : Schedule κ α) (key : κ) (value : α) (delay : Nat) : Schedule κ α :=
  let others := d.slots.filter fun s => s.waiting && s.key ≠ key
  { d with slots := others ++ [⟨key, value, d.now + delay, true⟩] }

/-- Whether a task waits under a key. -/
def isWaiting (d : Schedule κ α) (key : κ) : Bool := d.slots.any fun s => s.waiting && s.key = key

/-- Empties the slot of a key, and tells whether its task was waiting. -/
def cancel (d : Schedule κ α) (key : κ) : Bool × Schedule κ α :=
  (d.isWaiting key, { d with slots := d.slots.filter (·.key ≠ key) })

end Schedule

end FlowDiagram
