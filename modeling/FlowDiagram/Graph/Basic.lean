import FlowDiagram.Graph.Node
/-! Flow graphs: nodes and edges, both in an order that counts. -/

namespace FlowDiagram

/-- The two outputs of a decision. -/
inductive Branch where
  | yes
  | no
deriving DecidableEq, Repr

def Branch.handle : Branch → String
  | yes => "decision-yes"
  | no => "decision-no"

structure Edge where
  id : Option String
  source : String
  target : String
  label : Option String
  /-- The output of the source that the edge leaves from. -/
  sourceHandle : Option String
deriving DecidableEq, Repr

namespace Edge

def between (source target : String) : Edge := ⟨none, source, target, none, none⟩

def labelled (e : Edge) (label : String) : Edge := { e with label := some label }

def leavingBy (e : Edge) (handle : String) : Edge := { e with sourceHandle := some handle }

def ofBranch (source target : String) (branch : Branch) : Edge :=
  (between source target).leavingBy branch.handle

/-- The output of a decision that the handle names. -/
def branch (e : Edge) : Option Branch :=
  if e.sourceHandle = some Branch.yes.handle then some .yes
  else if e.sourceHandle = some Branch.no.handle then some .no
  else none

end Edge

structure Graph where
  nodes : List Node
  edges : List Edge
deriving DecidableEq

namespace Graph

def empty : Graph := ⟨[], []⟩

/-- The first node of an id. -/
def find? (g : Graph) (id : String) : Option Node := g.nodes.find? (·.id = id)

def hasNode (g : Graph) (id : String) : Bool := g.nodes.any (·.id = id)

/-- The edges that a node is missing for at either end. -/
def looseEdges (g : Graph) : List Edge :=
  g.edges.filter fun e => !(g.hasNode e.source && g.hasNode e.target)

end Graph

/-- What is told of a graph: nothing that changes its structure. -/
structure Metadata where
  title : Option String
  description : Option String
deriving DecidableEq, Repr

namespace Metadata

def blank : Metadata := ⟨none, none⟩

/-- The title unless it is empty. -/
def title? (m : Metadata) : Option String := m.title.filter (· ≠ "")

/-- The description unless it is empty. -/
def description? (m : Metadata) : Option String := m.description.filter (· ≠ "")

end Metadata

end FlowDiagram
