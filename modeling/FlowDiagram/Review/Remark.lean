import FlowDiagram.Diagram.Label
/-! What is worth a warning in a graph before it is shown. -/

namespace FlowDiagram

inductive Remark where
  | noNodes
  | unconnected (count : Nat)
  | longLabel (id : String) (length : Nat)
deriving DecidableEq, Repr

def Remark.message : Remark → String
  | .noNodes => "Flowchart is empty"
  | .unconnected count => s!"{count} disconnected node(s) found"
  | .longLabel id length => s!"Node \"{id}\" has a long label ({length} characters)"

/-- Longer labels are found. -/
def maxLabelLength : Nat := 50

/-- The outcome of a review. Only errors make a graph invalid, and so far there are none. -/
structure Report where
  isValid : Bool
  warnings : List String
  errors : List String
deriving DecidableEq, Repr

def Report.ofMessages (warnings errors : List String) : Report := ⟨errors.isEmpty, warnings, errors⟩

namespace Graph

/-- Whether an edge starts or ends at an id. -/
def isReferenced (g : Graph) (id : String) : Bool :=
  g.edges.any fun e => e.source = id || e.target = id

/-- The ids of the nodes at which no edge starts or ends, in node order. -/
def unconnectedIds (g : Graph) : List String :=
  (g.nodes.map (·.id)).filter fun id => !g.isReferenced id

def longLabel? (n : Node) : Option Remark :=
  let length := Label.length n.shownLabel
  if maxLabelLength < length then some (.longLabel n.id length) else none

/-- All remarks: the empty graph, then the nodes without edges, then the long labels in node
order. -/
def remarks (g : Graph) : List Remark :=
  (if g.nodes.isEmpty then [.noNodes] else []) ++
    (if 0 < g.unconnectedIds.length then [.unconnected g.unconnectedIds.length] else []) ++
    g.nodes.filterMap longLabel?

def review (g : Graph) : Report := .ofMessages (g.remarks.map Remark.message) []

end Graph

end FlowDiagram
