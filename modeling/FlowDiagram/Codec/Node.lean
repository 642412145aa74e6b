import FlowDiagram.Graph.Node
import FlowDiagram.Json.Decoder
/-! Nodes as JSON. -/

namespace FlowDiagram

open Json

/-- The member of an optional text, or none. -/
def Json.textMember (name : String) : Option String → List (String × Tree)
  | some s => [(name, .text s)]
  | none => []

namespace Position

def record : Record Position where
  name := "Position"
  fields :=
    [.need "x" .float fun x p => { p with x },
     .need "y" .float fun y p => { p with y }]
  blank := .origin

def decoder : Decoder Position := record.decode

def toTree (p : Position) : Tree := .object [("x", .float p.x), ("y", .float p.y)]

end Position

namespace Kind

/-- The attributes of a node with nothing but a label. -/
def labelRecord (name : String) : Record (Option String) where
  name := name
  fields := [.allow "label" (.optional .text) fun label _ => label]
  blank := none

structure ProcessDraft where
  label : Option String
  description : Option String

def processRecord : Record ProcessDraft where
  name := "ProcessData"
  fields :=
    [.allow "label" (.optional .text) fun label d => { d with label },
     .allow "description" (.optional .text) fun description d => { d with description }]
  blank := ⟨none, none⟩

structure DecisionDraft where
  label : Option String
  yesLabel : Option String
  noLabel : Option String

def decisionRecord : Record DecisionDraft where
  name := "DecisionData"
  fields :=
    [.allow "label" (.optional .text) fun label d => { d with label },
     .allow "yesLabel" (.optional .text) fun yesLabel d => { d with yesLabel },
     .allow "noLabel" (.optional .text) fun noLabel d => { d with noLabel }]
  blank := ⟨none, none, none⟩

structure OtherDraft where
  label : Option String
  extra : List (String × Tree)

def otherRecord : Record OtherDraft where
  name := "GenericData"
  fields := [.allow "label" (.optional .text) fun label d => { d with label }]
  blank := ⟨none, []⟩

/-- Keeps an attribute that has no rules. -/
def keepExtra : Record.Rest OtherDraft := fun o name r d => do
  let t ← Decoder.tree o r
  return { d with extra := d.extra ++ [(name, t)] }

/-- The label and the kind of a node, from its attributes. -/
def decoder : Category → Decoder (Option String × Kind)
  | .start => .map (·, .start) (labelRecord "TerminalData").decode
  | .finish => .map (·, .finish) (labelRecord "TerminalData").decode
  | .process => .map (fun d => (d.label, .process d.description)) processRecord.decode
  | .decision => .map (fun d => (d.label, .decision d.yesLabel d.noLabel)) decisionRecord.decode
  | .connector => .map (·, .connector) (labelRecord "ConnectorData").decode
  | .other tag =>
    .map (fun d => (d.label, .other tag (.ofMembers d.extra))) (otherRecord.decodeOpen keepExtra)

/-- The attributes in the order of their fields. -/
def attributes (label : Option String) : Kind → List (String × Tree)
  | .start | .finish | .connector => textMember "label" label
  | .process description => textMember "label" label ++ textMember "description" description
  | .decision yesLabel noLabel =>
    textMember "label" label ++ textMember "yesLabel" yesLabel ++ textMember "noLabel" noLabel
  | .other _ extra => textMember "label" label ++ extra.members

def toTree (label : Option String) (k : Kind) : Tree := .object (k.attributes label)

end Kind

namespace Node

/-- A node whose attributes are not yet looked at. -/
structure Draft where
  id : String
  tag : String
  position : Position
  data : Tree

def draftRecord : Record Draft where
  name := "RawNode"
  fields :=
    [.need "id" .text fun id d => { d with id },
     .need "type" .text fun tag d => { d with tag },
     .allow "position" Position.decoder fun position d => { d with position },
     .allow "data" .tree fun data d => { d with data }]
  blank := ⟨"", "", .origin, .null⟩

/-- Looks at the attributes by the category. Nothing counts as no attributes, and of several with
one name the last counts. -/
def Draft.finish (d : Draft) : Except Error Node := do
  let data := if d.data = .null then .object [] else d.data
  let (label, kind) ← (Kind.decoder (.ofTag d.tag)).runTree data.sorted
  return ⟨d.id, d.position, label, kind⟩

def decoder : Decoder Node := fun o r => do (← draftRecord.decode o r).finish

/-- The attributes are written in the order of their names. -/
def toTree (n : Node) : Tree :=
  .object
    [("id", .text n.id), ("type", .text n.category.tag), ("position", n.position.toTree),
     ("data", (n.kind.toTree n.label).sorted)]

end Node

end FlowDiagram
