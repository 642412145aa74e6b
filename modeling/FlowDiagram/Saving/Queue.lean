import FlowDiagram.Saving.Schedule
import FlowDiagram.Storage.Document
/-! Saving documents a while after the last request for their file. -/

namespace FlowDiagram

open Storage Calendar

/-- Documents that wait to be saved, by the locations of their files. -/
structure SaveQueue where
  delay : Nat
  tasks : Schedule Location.Key (Location × Document)

namespace SaveQueue

/-- The delay where none is given, in milliseconds. -/
def defaultDelay : Nat := 1000

def start (delay : Nat) : SaveQueue := ⟨delay, .start⟩

/-- Saves a document after the delay, in the place of one that waits for the same location. -/
def request (a : SaveQueue) (l : Location) (d : Document) : SaveQueue :=
  { a with tasks := a.tasks.plan l.key (l, d) a.delay }

def cancel (a : SaveQueue) (l : Location) : Bool × SaveQueue :=
  let (waiting, tasks) := a.tasks.cancel l.key
  (waiting, { a with tasks })

def pending (a : SaveQueue) : Nat := a.tasks.pending

variable {m : Type → Type} [Monad m] [FileSystem m]

/-- Saves a document whose time has come, stamped with that time. A failure has no consequence. -/
def save (clock : Nat → Instant) (r : Schedule.Run Location.Key (Location × Document)) :
    m Unit := do
  let _ ← Storage.save r.value.1 (r.value.2.stamp (clock r.time))
  return ()

/-- Lets time pass and saves what becomes due. -/
def advance (a : SaveQueue) (clock : Nat → Instant) (ms : Nat) : m SaveQueue := do
  let (runs, tasks) := a.tasks.advance ms
  runs.forM (save clock)
  return { a with tasks }

end SaveQueue

end FlowDiagram
