import FlowDiagram.Text.Blank
/-! The direction in which a diagram is laid out. -/

namespace FlowDiagram

inductive Direction where
  | topDown
  | topBottom
  | bottomTop
  | rightLeft
  | leftRight
deriving DecidableEq, Repr

namespace Direction

def all : List Direction := [topDown, topBottom, bottomTop, rightLeft, leftRight]

def keyword : Direction → String
  | topDown => "TD"
  | topBottom => "TB"
  | bottomTop => "BT"
  | rightLeft => "RL"
  | leftRight => "LR"

/-- A text that is no direction. -/
structure Unknown where
  text : String
deriving DecidableEq, Repr

def Unknown.message (e : Unknown) : String :=
  s!"unknown flowchart direction '{e.text}' (expected one of TD, TB, BT, RL, LR)"

/-- The direction of a keyword, in any case of its letters and between white space. -/
def ofText (s : String) : Except Unknown Direction :=
  let word := (Text.trim s.toList).map Char.toUpper
  match all.find? fun d => d.keyword.toList = word with
  | some d => .ok d
  | none => .error ⟨s⟩

end Direction

end FlowDiagram
