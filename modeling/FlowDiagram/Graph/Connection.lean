import FlowDiagram.Graph.Basic
/-! Rules for new connections. -/

namespace FlowDiagram

/-- Decides whether an edge may lead from one node to another. -/
structure Policy where
  allows : Node → Node → Bool

namespace Policy

def any : Policy := ⟨fun _ _ => true⟩

/-- No edge leads from a node to itself, into a start or out of an end. -/
def byCategory : Policy where
  allows source target :=
    source.id ≠ target.id && source.category ≠ .finish && target.category ≠ .start

end Policy

namespace Graph

/-- Why an edge is not added. -/
inductive Refusal where
  | unknownSource (id : String)
  | unknownTarget (id : String)
  | rejected (source target : Node)
deriving DecidableEq

def Refusal.message : Refusal → String
  | .unknownSource id => s!"unknown source node '{id}'"
  | .unknownTarget id => s!"unknown target node '{id}'"
  | .rejected s t =>
    s!"connection from '{s.id}' ({s.category.tag}) to '{t.id}' ({t.category.tag}) is not allowed"

/-- Adds an edge at the end if both of its nodes exist and the policy allows it. -/
def connect (g : Graph) (e : Edge) (p : Policy) : Except Refusal Graph :=
  match g.find? e.source with
  | none => .error (.unknownSource e.source)
  | some source =>
    match g.find? e.target with
    | none => .error (.unknownTarget e.target)
    | some target =>
      if p.allows source target then .ok { g with edges := g.edges ++ [e] }
      else .error (.rejected source target)

end Graph

end FlowDiagram
