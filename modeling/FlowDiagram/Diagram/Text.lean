import FlowDiagram.Diagram.Basic
/-! Diagrams as text, and the size of that text. -/

namespace FlowDiagram

/-- What stands before boxes and arrows. -/
def indent : String := "    "

def Box.line (b : Box) : String := indent ++ b.id ++ b.shape.enclose b.caption

def Arrow.line (a : Arrow) : String :=
  match a.caption with
  | some caption => indent ++ a.source ++ " -->|" ++ caption ++ "| " ++ a.target
  | none => indent ++ a.source ++ " --> " ++ a.target

namespace Diagram

/-- The line of a diagram that has no nodes. -/
def placeholder : String := indent ++ "%% Empty flowchart - add nodes to get started"

def titleLines : Option String → List String
  | some title => ["---", "title: " ++ title, "---"]
  | none => []

def header (direction : Direction) : String := "flowchart " ++ direction.keyword

/-- Arrows follow an empty line. -/
def arrowLines : Option (List Arrow) → List String
  | some arrows => "" :: arrows.map Arrow.line
  | none => []

def descriptionLines : Option String → List String
  | some description => ["%% " ++ description]
  | none => []

def themeLines : Option String → List String
  | some theme => ["%%\x7binit: \x7b'theme':'" ++ theme ++ "'\x7d\x7d%%"]
  | none => []

def Body.lines (b : Body) : List String :=
  b.boxes.map Box.line ++ arrowLines b.arrows ++ descriptionLines b.description ++
    themeLines b.theme

def bodyLines : Option Body → List String
  | some b => b.lines
  | none => [placeholder]

/-- The logical lines. A theme may itself hold line breaks. -/
def lines (d : Diagram) : List String :=
  titleLines d.title ++ header d.direction :: bodyLines d.body

/-- The lines with a line break between every two. -/
def text (d : Diagram) : String := "\n".intercalate d.lines

end Diagram

namespace Graph

/-- The text of a graph's diagram. -/
def diagramText (g : Graph) (metadata : Option Metadata) (o : Options) : String :=
  (Diagram.ofGraph g metadata o).text

end Graph

/-- A text with its numbers of lines and characters. -/
structure Preview where
  code : String
  lineCount : Nat
  characterCount : Nat
deriving DecidableEq, Repr

def Preview.ofText (code : String) : Preview :=
  ⟨code, (Text.lines code.toList).length, code.toList.length⟩

end FlowDiagram
