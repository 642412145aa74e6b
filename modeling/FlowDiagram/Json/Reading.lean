import FlowDiagram.Json.Token
/-! What a text reads as: a tree that may break off at a fault. -/

namespace FlowDiagram.Json

/-- The name of a member, or the fault in its text. -/
abbrev Name := Except Fault String

/-- A tree read from a text. Where the text is faulty a leaf or the end of an array or an object
holds the fault; what lies before it is complete. -/
inductive Reading where
  | scalar (s : Scalar)
  | fault (f : Fault)
  | array (items : List Reading) (ending : Option Fault)
  | object (members : List (Name × Reading)) (ending : Option Fault)

namespace Reading

mutual
/-- A tree as a reading without faults. -/
def ofTree : Tree → Reading
  | .scalar s => .scalar s
  | .array items => .array (ofItems items) none
  | .object members => .object (ofMembers members) none

def ofItems : List Tree → List Reading
  | [] => []
  | x :: xs => ofTree x :: ofItems xs

def ofMembers : List (String × Tree) → List (Name × Reading)
  | [] => []
  | (k, x) :: xs => (.ok k, ofTree x) :: ofMembers xs
end

/-- An array or an object that is still open, with what was read of it in reverse. -/
inductive Frame where
  | array (before : List Reading)
  | member (before : List (Name × Reading)) (name : Name)

/-- Where a value is due: by itself, or first or later in an array. -/
inductive Place where
  | alone
  | first
  | later

/-- What is due next, inside the frames that are open. -/
inductive State where
  | value (place : Place) (outer : List Frame)
  | memberName (first : Bool) (before : List (Name × Reading)) (outer : List Frame)
  | colon (before : List (Name × Reading)) (name : Name) (outer : List Frame)
  | afterItem (before : List Reading) (outer : List Frame)
  | afterMember (before : List (Name × Reading)) (outer : List Frame)
  | complete (r : Reading)
  | overlong (r : Reading)
  | broken (r : Reading)

namespace State

/-- Hands a value that has ended to the innermost frame. -/
def give (r : Reading) : List Frame → State
  | [] => complete r
  | .array before :: outer => afterItem (r :: before) outer
  | .member before name :: outer => afterMember ((name, r) :: before) outer

/-- The reading of a text that breaks off within the frames. -/
def abandon (r : Reading) : List Frame → Reading
  | [] => r
  | .array before :: outer => abandon (.array (r :: before).reverse none) outer
  | .member before name :: outer => abandon (.object ((name, r) :: before).reverse none) outer

/-- Hands on a faulty value; reading goes on if one of the readers does. -/
def giveFault (f : Fault) (outer : List Frame) : State :=
  if f.skipped.isSome then broken (abandon (.fault f) outer) else give (.fault f) outer

def breakArray (before : List Reading) (f : Fault) (outer : List Frame) : Reading :=
  abandon (.array before.reverse (some f)) outer

def breakObject (before : List (Name × Reading)) (f : Fault) (outer : List Frame) : Reading :=
  abandon (.object before.reverse (some f)) outer

def onValue (place : Place) (outer : List Frame) : Token → State
  | .scalar s => give (.scalar s) outer
  | .faultyText f | .faultyWord f => giveFault f outer
  | .openArray => value .first (.array [] :: outer)
  | .openObject => memberName true [] outer
  | .closeArray =>
    match place, outer with
    | .first, .array before :: outer => give (.array before.reverse none) outer
    | .later, .array before :: outer =>
      broken (breakArray before ⟨.trailingComma, some .valueDue⟩ outer)
    | _, _ => broken (abandon (.fault (.plain .valueDue)) outer)
  | _ => broken (abandon (.fault (.plain .valueDue)) outer)

def onName (first : Bool) (before : List (Name × Reading)) (outer : List Frame) : Token → State
  | .scalar (.text s) => colon before (.ok s) outer
  | .faultyText f =>
    if f.skipped.isSome then broken (abandon (.fault f) (.member before (.error f) :: outer))
    else colon before (.error f) outer
  | .closeObject =>
    if first then give (.object before.reverse none) outer
    else broken (breakObject before ⟨.trailingComma, some .nameDue⟩ outer)
  | _ => broken (breakObject before (.plain .nameDue) outer)

def step : State → Token → State
  | value place outer, t => onValue place outer t
  | memberName first before outer, t => onName first before outer t
  | colon before name outer, .colon => value .alone (.member before name :: outer)
  | colon before name outer, _ =>
    broken (abandon (.fault (.plain .colonDue)) (.member before name :: outer))
  | afterItem before outer, .comma => value .later (.array before :: outer)
  | afterItem before outer, .closeArray => give (.array before.reverse none) outer
  | afterItem before outer, _ => broken (breakArray before (.plain .commaOrBracketDue) outer)
  | afterMember before outer, .comma => memberName false before outer
  | afterMember before outer, .closeObject => give (.object before.reverse none) outer
  | afterMember before outer, _ => broken (breakObject before (.plain .commaOrBraceDue) outer)
  | complete r, _ => overlong r
  | overlong r, _ => overlong r
  | broken r, _ => broken r

/-- The reading when the text ends. -/
def atEnd : State → Reading
  | value .first (.array before :: outer) => breakArray before (.plain .endInArray) outer
  | value _ outer => abandon (.fault (.plain .endInValue)) outer
  | memberName true before outer => breakObject before (.plain .endInObject) outer
  | memberName false before outer => breakObject before ⟨.endInValue, some .endInObject⟩ outer
  | colon before name outer =>
    abandon (.fault (.plain .endInObject)) (.member before name :: outer)
  | afterItem before outer => breakArray before (.plain .endInArray) outer
  | afterMember before outer => breakObject before (.plain .endInObject) outer
  | complete r | overlong r | broken r => r

def isOverlong : State → Bool
  | overlong _ => true
  | _ => false

end State

/-- Reads tokens: the value, and whether more tokens follow it. -/
def ofTokens (ts : List Token) : Reading × Bool :=
  let s := ts.foldl State.step (.value .alone [])
  (s.atEnd, s.isOverlong)

/-- Reads a text: the value, and whether more than white space follows it. -/
def ofText (s : String) : Reading × Bool := ofTokens (tokens s.toList)

mutual
/-- Passes over a value, for flaws that even then count. -/
def skip : Reading → Except Flaw Unit
  | .scalar _ => .ok ()
  | .fault f => skipFault f
  | .array items ending => do
    skipItems items
    ending.forM skipFault
  | .object members ending => do
    skipMembers members
    ending.forM skipFault

def skipFault (f : Fault) : Except Flaw Unit :=
  match f.skipped with
  | some e => .error e
  | none => .ok ()

def skipItems : List Reading → Except Flaw Unit
  | [] => .ok ()
  | x :: xs => do
    skip x
    skipItems xs

def skipMembers : List (Name × Reading) → Except Flaw Unit
  | [] => .ok ()
  | (.error f, x) :: xs => do
    skipFault f
    skip x
    skipMembers xs
  | (.ok _, x) :: xs => do
    skip x
    skipMembers xs
end

end Reading

end FlowDiagram.Json
