import FlowDiagram.Saving.Queue
import FlowDiagram.Saving.Steps
import FlowDiagram.Storage.Volume
/-! Queues that go on step by step, and the files that they save to. -/

namespace FlowDiagram

open Storage Calendar

/-- Someone else writes a file, in a directory that is made if it is missing. -/
def Storage.Volume.overwrite (l : Location) (content : ByteArray) : StateM Volume Unit := do
  let _ ← makeParent l
  let _ ← step (·.write l content)
  return ()

namespace SaveQueue

/-- What can be done with a queue and with the files. -/
inductive Step where
  | request (l : Location) (d : Document)
  | cancel (l : Location)
  /-- A file is written, and not by the queue. -/
  | write (l : Location) (content : ByteArray)
  | advance (ms : Nat)

/-- What a step does to the tasks of a queue with a delay. -/
def Step.task (delay : Nat) : Step → Schedule.Step Location.Key (Location × Document)
  | request l d => .plan l.key (l, d) delay
  | cancel l => .cancel l.key
  | write _ _ => .idle
  | advance ms => .advance ms

def step (clock : Nat → Instant) (a : SaveQueue) : Step → StateM Volume SaveQueue
  | .request l d => return a.request l d
  | .cancel l => return (a.cancel l).2
  | .write l content => do
    Volume.overwrite l content
    return a
  | .advance ms => a.advance clock ms

/-- The queue and the files after steps. -/
def after (clock : Nat → Instant) (a : SaveQueue) (v : Volume) (steps : List Step) :
    SaveQueue × Volume :=
  steps.foldl (fun (a, v) s => a.step clock s v) (a, v)

end SaveQueue

end FlowDiagram
