import FlowDiagram.Document.Basic
import FlowDiagram.Graph.Connection
/-! Editing sessions: metadata and a graph, and the changes that an editor makes to them. -/

namespace FlowDiagram

structure Session where
  metadata : Metadata
  graph : Graph
deriving DecidableEq

/-- A change. Nodes are meant by their index; where there is none nothing changes. -/
inductive Edit where
  | addNode (n : Node)
  /-- Adds an edge whatever its ends are. -/
  | addEdge (e : Edge)
  | connect (e : Edge) (p : Policy)
  | relabel (index : Nat) (label : Option String)
  | nameBranches (index : Nat) (yes no : String)
  | move (index : Nat) (x y : Float)
  /-- Removes a node and leaves the edges that it has. -/
  | removeNode (index : Nat)
  | describe (m : Metadata)
  | load (d : Document)

namespace Graph

def addNode (g : Graph) (n : Node) : Graph := { g with nodes := g.nodes ++ [n] }

def addEdge (g : Graph) (e : Edge) : Graph := { g with edges := g.edges ++ [e] }

def changeNode (g : Graph) (index : Nat) (change : Node → Node) : Graph :=
  { g with nodes := g.nodes.modify index change }

def removeNode (g : Graph) (index : Nat) : Graph := { g with nodes := g.nodes.eraseIdx index }

end Graph

namespace Session

def empty : Session := ⟨.blank, .empty⟩

/-- Makes a change. Only a connection can be refused. -/
def apply (s : Session) : Edit → Except Graph.Refusal Session
  | .addNode n => .ok { s with graph := s.graph.addNode n }
  | .addEdge e => .ok { s with graph := s.graph.addEdge e }
  | .connect e p => (s.graph.connect e p).map fun graph => { s with graph }
  | .relabel i label => .ok { s with graph := s.graph.changeNode i (·.relabel label) }
  | .nameBranches i yes no =>
    .ok { s with graph := s.graph.changeNode i (·.nameBranches yes no) }
  | .move i x y => .ok { s with graph := s.graph.changeNode i (·.moveTo x y) }
  | .removeNode i => .ok { s with graph := s.graph.removeNode i }
  | .describe metadata => .ok { s with metadata }
  | .load d => .ok ⟨d.metadata, d.graph⟩

/-- The session after a change, or as it was if the change is refused. -/
def after (s : Session) (e : Edit) : Session :=
  match s.apply e with
  | .ok t => t
  | .error _ => s

def document (s : Session) : Document := .new s.metadata s.graph

/-- Whether the document of the session loads as it was saved. -/
def reloads (s : Session) : Bool :=
  match Document.parse s.document.render with
  | .ok d => d = s.document
  | .error _ => false

end Session

end FlowDiagram
