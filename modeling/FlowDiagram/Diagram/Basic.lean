import FlowDiagram.Diagram.Label
import FlowDiagram.Graph.Direction
/-! Diagrams: what of a graph is shown, before it becomes text. -/

namespace FlowDiagram

/-- What to show, and how. -/
structure Options where
  includeTitle : Bool
  includeDescription : Bool
  direction : Direction
  theme : Option String
deriving DecidableEq, Repr

def Options.default : Options := ⟨true, true, .topDown, none⟩

/-- The outline of a node. -/
inductive Shape where
  | stadium
  | rectangle
  | rhombus
  | circle
deriving DecidableEq, Repr

def Kind.shape : Kind → Shape
  | .start | .finish => .stadium
  | .process _ | .other _ _ => .rectangle
  | .decision _ _ => .rhombus
  | .connector => .circle

namespace Shape

/-- A circle is never without a caption. -/
def caption (s : Shape) (text : String) : String :=
  if s = .circle ∧ text = "" then bullet else text

/-- The brackets that stand for a shape. -/
def brackets : Shape → String × String
  | stadium => ("([", "])")
  | rectangle => ("[", "]")
  | rhombus => ("\x7b", "\x7d")
  | circle => ("((", "))")

def enclose (s : Shape) (text : String) : String := s.brackets.1 ++ text ++ s.brackets.2

end Shape

/-- A node as it is shown. -/
structure Box where
  id : String
  shape : Shape
  caption : String
deriving DecidableEq, Repr

/-- An edge as it is shown. -/
structure Arrow where
  source : String
  target : String
  caption : Option String
deriving DecidableEq, Repr

/-- A node as it is shown under an identifier. -/
def Node.boxAs (n : Node) (identifier : String) : Box where
  id := identifier
  shape := n.kind.shape
  caption := n.kind.shape.caption (Label.escape n.shownLabel)

def Node.box (n : Node) : Box := n.boxAs (Identifier.ofId n.id)

/-- What a decision calls one of its outputs. -/
def Branch.label (yesLabel noLabel : Option String) : Branch → String
  | .yes => (yesLabel.filter (· ≠ "")).getD "Yes"
  | .no => (noLabel.filter (· ≠ "")).getD "No"

namespace Edge

/-- The label of an edge: that of the output if it leaves a decision by one, else its own unless
it is empty. -/
def shownLabel (e : Edge) (source : Node) : Option String :=
  match source.kind, e.branch with
  | .decision yesLabel noLabel, some branch => some (branch.label yesLabel noLabel)
  | _, _ => e.label.filter (· ≠ "")

end Edge

/-- An arrow between two identifiers. A label that shows nothing is left out. -/
def Arrow.between (source target : String) (label : Option String) : Arrow :=
  ⟨source, target, (label.map Label.escape).filter (· ≠ "")⟩

/-- Nodes under their ids, each with its identifier. -/
abbrev Index := List (String × Node × String)

namespace Index

/-- Takes a node in unless there is one of its id. -/
def insert (index : Index) (n : Node) : Index :=
  match index.lookup n.id with
  | some _ => index
  | none => (n.id, n, Identifier.ofId n.id) :: index

/-- A node as it is shown, under the identifier that its id has. -/
def box? (index : Index) (n : Node) : Option Box :=
  (index.lookup n.id).map fun entry => n.boxAs entry.2

/-- The arrow of an edge if both of its nodes are known. The node under its source decides on the
label. -/
def arrow? (index : Index) (e : Edge) : Option Arrow :=
  match index.lookup e.source, index.lookup e.target with
  | some (source, sourceId), some (_, targetId) =>
    some (.between sourceId targetId (e.shownLabel source))
  | _, _ => none

end Index

namespace Graph

/-- The nodes by their ids. Of several nodes of one id, the first one is taken in. -/
def index (g : Graph) : Index := g.nodes.foldl Index.insert []

/-- The nodes as they are shown, each box once. -/
def boxes (g : Graph) : List Box := (g.nodes.filterMap g.index.box?).eraseDups

/-- The arrow of an edge if both of its nodes exist. -/
def arrow? (g : Graph) (e : Edge) : Option Arrow := g.index.arrow? e

def arrows (g : Graph) : List Arrow := g.edges.filterMap g.index.arrow?

end Graph

/-- The part of a diagram that it has only if there are nodes. -/
structure Diagram.Body where
  boxes : List Box
  /-- The arrows, or `none` if the graph has no edges. -/
  arrows : Option (List Arrow)
  description : Option String
  theme : Option String
deriving DecidableEq

/-- All that is shown of a graph. -/
structure Diagram where
  title : Option String
  direction : Direction
  body : Option Diagram.Body
deriving DecidableEq

namespace Diagram

/-- A text on one line, if it is to be shown and shows anything. -/
def note? (shown : Bool) (text : Option String) : Option String :=
  ((text.filter fun _ => shown).map Label.oneLine).filter (· ≠ "")

/-- The diagram of a graph. -/
def ofGraph (g : Graph) (metadata : Option Metadata) (o : Options) : Diagram where
  title := note? o.includeTitle (metadata.bind (·.title?))
  direction := o.direction
  body :=
    if g.nodes.isEmpty then none
    else
      some
        { boxes := g.boxes
          arrows := if g.edges.isEmpty then none else some g.arrows
          description := note? o.includeDescription (metadata.bind (·.description?))
          theme := o.theme }

end Diagram

end FlowDiagram
