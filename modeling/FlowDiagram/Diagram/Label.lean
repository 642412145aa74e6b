import FlowDiagram.Graph.Basic
import FlowDiagram.Text.Blank
/-! Labels and identifiers as a diagram shows them. -/

namespace FlowDiagram

/-- What an unlabelled connector shows. -/
def bullet : String := "•"

/-- The label of a node that has none of its own. -/
def Kind.defaultLabel : Kind → String
  | .start => "Start"
  | .finish => "End"
  | .process _ => "Process"
  | .decision _ _ => "Decision?"
  | .connector => bullet
  | .other _ _ => "Node"

namespace Node

/-- The label of a node, or that of its kind if it has none or an empty one. -/
def shownLabel (n : Node) : String :=
  match n.label with
  | some label => if label = "" then n.kind.defaultLabel else label
  | none => n.kind.defaultLabel

end Node

namespace Label

def escapeChars (cs : List Char) : List Char :=
  let cs := Text.replaceChar '"' "#quot;".toList cs
  let cs := Text.replaceChar '\'' "#39;".toList cs
  let cs := Text.replaceChar '\n' "<br/>".toList cs
  Text.trim (Text.replaceChar '\r' [] cs)

/-- Makes a text safe within the brackets of a node or the bars of an edge: quotes and line breaks
are replaced, carriage returns dropped, and white space around it trimmed. -/
def escape (s : String) : String := String.ofList (escapeChars s.toList)

/-- The number of characters. -/
def length (s : String) : Nat := s.toList.length

/-- A text on one line: its lines are trimmed, the empty ones dropped and the others joined by a
space each. -/
def oneLineChars (cs : List Char) : List Char :=
  let parts := (Text.splitAt (fun c => c = '\r' || c = '\n') cs).map Text.trim
  [' '].intercalate (parts.filter (!·.isEmpty))

def oneLine (s : String) : String := String.ofList (oneLineChars s.toList)

end Label

namespace Identifier

def isIdentifierChar (c : Char) : Bool := c.isAlphanum || c = '_'

def replaceOthers (cs : List Char) : List Char :=
  cs.map fun c => if isIdentifierChar c then c else '_'

def startsWithLetter : List Char → Bool
  | c :: _ => c.isAlpha
  | [] => false

/-- What stands before an identifier that would not start with a letter. -/
def lead : List Char := "node_".toList

def ofChars (cs : List Char) : List Char :=
  let replaced := replaceOthers cs
  if startsWithLetter replaced then replaced else lead ++ replaced

/-- The identifier of an id: letters, digits and underscores, with a letter in front. Different ids
may have the same identifier. -/
def ofId (id : String) : String := String.ofList (ofChars id.toList)

end Identifier

end FlowDiagram
