import FlowDiagram.Json.Attributes
/-! Nodes of a flow graph: what kind they are, how they are labelled and where they stand. -/

namespace FlowDiagram

/-- What a node is, without its attributes. An unknown category is known by its tag. -/
inductive Category where
  | start
  | finish
  | process
  | decision
  | connector
  | other (tag : String)
deriving DecidableEq, Repr

namespace Category

def tag : Category → String
  | start => "start"
  | finish => "end"
  | process => "process"
  | decision => "decision"
  | connector => "connector"
  | other tag => tag

/-- The category of a tag, letter by letter. -/
def ofTag (tag : String) : Category :=
  if tag = "start" then start
  else if tag = "end" then finish
  else if tag = "process" then process
  else if tag = "decision" then decision
  else if tag = "connector" then connector
  else other tag

end Category

/-- What a node is, with the attributes that only nodes of its category have. -/
inductive Kind where
  | start
  | finish
  | process (description : Option String)
  | decision (yesLabel noLabel : Option String)
  | connector
  /-- A category that has no rules of its own; its attributes are kept as they are. -/
  | other (tag : String) (extra : Json.Attributes)
deriving DecidableEq

def Kind.category : Kind → Category
  | start => .start
  | finish => .finish
  | process _ => .process
  | decision _ _ => .decision
  | connector => .connector
  | other tag _ => .other tag

structure Position where
  x : Float
  y : Float
deriving DecidableEq

def Position.origin : Position := ⟨0, 0⟩

structure Node where
  id : String
  position : Position
  label : Option String
  kind : Kind
deriving DecidableEq

namespace Node

def start (id : String) : Node := ⟨id, .origin, none, .start⟩

def finish (id : String) : Node := ⟨id, .origin, none, .finish⟩

def process (id label : String) : Node := ⟨id, .origin, some label, .process none⟩

def decision (id label : String) : Node := ⟨id, .origin, some label, .decision none none⟩

def connector (id : String) : Node := ⟨id, .origin, none, .connector⟩

/-- A node of the unknown category, whatever the tag. -/
def other (id tag : String) : Node := ⟨id, .origin, none, .other tag .empty⟩

def category (n : Node) : Category := n.kind.category

def relabel (n : Node) (label : Option String) : Node := { n with label }

def labelled (n : Node) (label : String) : Node := n.relabel (some label)

/-- Names the two outputs of a decision. Other nodes have none. -/
def nameBranches (n : Node) (yes no : String) : Node :=
  match n.kind with
  | .decision _ _ => { n with kind := .decision (some yes) (some no) }
  | _ => n

def moveTo (n : Node) (x y : Float) : Node := { n with position := ⟨x, y⟩ }

end Node

end FlowDiagram
