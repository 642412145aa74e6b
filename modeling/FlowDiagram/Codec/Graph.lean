import FlowDiagram.Codec.Node
import FlowDiagram.Graph.Basic
/-! Edges, graphs and metadata as JSON. -/

namespace FlowDiagram

open Json

namespace Edge

def record : Record Edge where
  name := "FlowEdge"
  fields :=
    [.allow "id" (.optional .text) fun id e => { e with id },
     .need "source" .text fun source e => { e with source },
     .need "target" .text fun target e => { e with target },
     .allow "label" (.optional .text) fun label e => { e with label },
     .allow "sourceHandle" (.optional .text) fun sourceHandle e => { e with sourceHandle }]
  blank := .between "" ""

def decoder : Decoder Edge := record.decode

def toTree (e : Edge) : Tree :=
  .object
    (textMember "id" e.id ++ [("source", .text e.source), ("target", .text e.target)] ++
      textMember "label" e.label ++ textMember "sourceHandle" e.sourceHandle)

end Edge

namespace Graph

def record : Record Graph where
  name := "FlowGraph"
  fields :=
    [.allow "nodes" (.list Node.decoder) fun nodes g => { g with nodes },
     .allow "edges" (.list Edge.decoder) fun edges g => { g with edges }]
  blank := .empty

def decoder : Decoder Graph := record.decode

def members (g : Graph) : List (String × Tree) :=
  [("nodes", .array (g.nodes.map Node.toTree)), ("edges", .array (g.edges.map Edge.toTree))]

def toTree (g : Graph) : Tree := .object g.members

end Graph

namespace Metadata

def record : Record Metadata where
  name := "Metadata"
  fields :=
    [.allow "title" (.optional .text) fun title m => { m with title },
     .allow "description" (.optional .text) fun description m => { m with description }]
  blank := .blank

def decoder : Decoder Metadata := record.decode

def toTree (m : Metadata) : Tree :=
  .object (textMember "title" m.title ++ textMember "description" m.description)

end Metadata

end FlowDiagram
