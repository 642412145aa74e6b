import FlowDiagram.Json.Printer
import FlowDiagram.Json.Reading
import FlowDiagram.Text.Quoted
/-! Decoding of readings into the values of a domain, with the first error in reading order. -/

namespace FlowDiagram.Json

/-- What stands where something else is due. -/
inductive Found where
  | scalar (s : Scalar)
  | sequence
  | map
deriving DecidableEq

def Found.describe : Found → String
  | .scalar .null => "null"
  | .scalar (.bool b) => s!"boolean `{b}`"
  | .scalar (.number (.integer n h)) =>
    s!"integer `{String.ofList (Number.integer n h).print}`"
  | .scalar (.number (.float x)) => s!"floating point `{String.ofList (Number.float x).print}`"
  | .scalar (.text s) => s!"string {String.ofList (Text.quote s.toList)}"
  | .sequence => "sequence"
  | .map => "map"

/-- Why a value cannot be decoded. -/
inductive Error where
  | malformed (f : Flaw)
  | wrongType (found : Found) (expected : String)
  | outOfRange (n : Int) (expected : String)
  /-- An array has no item for a field that a record needs. -/
  | tooFewItems (length : Nat) (record : String) (fields : Nat)
  /-- A finished array has more items than a record has fields. -/
  | tooManyItems (length : Nat)
  /-- So has an array that was held back. -/
  | tooManyKeptItems (length : Nat) (fields : Nat)
  | missingField (name : String)
  | duplicateField (name : String)
  /-- A well-typed value that the domain does not accept. -/
  | refused (reason : String)
deriving DecidableEq

/-- A count and its noun. -/
def countElements (n : Nat) : String := if n = 1 then "1 element" else s!"{n} elements"

def Error.message : Error → String
  | .malformed f => f.message
  | .wrongType found expected => s!"invalid type: {found.describe}, expected {expected}"
  | .outOfRange n expected => s!"invalid value: integer `{n}`, expected {expected}"
  | .tooFewItems length record fields =>
    s!"invalid length {length}, expected struct {record} with {countElements fields}"
  | .tooManyItems length => s!"invalid length {length}, expected fewer elements in array"
  | .tooManyKeptItems length fields =>
    s!"invalid length {length}, expected {countElements fields} in sequence"
  | .missingField name => s!"missing field `{name}`"
  | .duplicateField name => s!"duplicate field `{name}`"
  | .refused reason => reason

/-- Where a reading comes from. -/
inductive Origin where
  /-- Straight from a text, inside so many open arrays and objects. -/
  | text (depth : Nat)
  /-- From a text, held back until the object around it had ended. -/
  | kept
  /-- From a finished value. -/
  | value
deriving DecidableEq

/-- So many arrays and objects may be open at once in a text. -/
def maxDepth : Nat := 127

/-- Enters an array or an object. -/
def Origin.enter : Origin → Except Error Origin
  | .text depth =>
    if depth < maxDepth then .ok (.text (depth + 1)) else .error (.malformed .tooDeep)
  | o => .ok o

abbrev Decoder (α : Type) := Origin → Reading → Except Error α

/-- The error for a reading that is not of the expected type. A faulty one is not of any type. -/
def Reading.mismatch (expected : String) : Reading → Error
  | .fault f => .malformed f.kept
  | .scalar s => .wrongType (.scalar s) expected
  | .array _ _ => .wrongType .sequence expected
  | .object _ _ => .wrongType .map expected

def checkEnding : Option Fault → Except Error Unit
  | none => .ok ()
  | some f => .error (.malformed f.kept)

namespace Decoder

variable {α β σ : Type}

def map (f : α → β) (d : Decoder α) : Decoder β := fun o r => (d o r).map f

/-- A text that stands for something: `expected` names it where there is no text. -/
def textFor (expected : String) : Decoder String
  | _, .scalar (.text s) => .ok s
  | _, r => .error (r.mismatch expected)

def text : Decoder String := textFor "a string"

def bool : Decoder Bool
  | _, .scalar (.bool b) => .ok b
  | _, r => .error (r.mismatch "a boolean")

def float : Decoder Float
  | _, .scalar (.number n) => .ok n.toFloat
  | _, r => .error (r.mismatch "f64")

/-- A natural number below a bound. -/
def natBelow (bound : Nat) (expected : String) : Decoder Nat
  | _, .scalar (.number (.integer n _)) =>
    if 0 ≤ n ∧ n < bound then .ok n.toNat else .error (.outOfRange n expected)
  | _, r => .error (r.mismatch expected)

/-- Nothing stands for an absent value. -/
def optional (d : Decoder α) : Decoder (Option α)
  | _, .scalar .null => .ok none
  | o, r => (d o r).map some

def listItems (d : Decoder α) (o : Origin) : List Reading → Except Error (List α)
  | [] => .ok []
  | x :: xs => do
    let a ← d o x
    return a :: (← listItems d o xs)

def list (d : Decoder α) : Decoder (List α)
  | o, .array items ending => do
    let o ← o.enter
    let as ← listItems d o items
    checkEnding ending
    return as
  | _, r => .error (r.mismatch "a sequence")

mutual
/-- Any value, as it stands. -/
def tree (o : Origin) : Reading → Except Error Tree
  | .scalar s => .ok (.scalar s)
  | .fault f => .error (.malformed f.kept)
  | .array items ending => do
    let o ← o.enter
    let ts ← treeItems o items
    checkEnding ending
    return .array ts
  | .object members ending => do
    let o ← o.enter
    let ts ← treeMembers o members
    checkEnding ending
    return .object ts

def treeItems (o : Origin) : List Reading → Except Error (List Tree)
  | [] => .ok []
  | x :: xs => do
    let t ← tree o x
    return t :: (← treeItems o xs)

def treeMembers (o : Origin) : List (Name × Reading) → Except Error (List (String × Tree))
  | [] => .ok []
  | (.error f, _) :: _ => .error (.malformed f.kept)
  | (.ok k, x) :: xs => do
    let t ← tree o x
    return (k, t) :: (← treeMembers o xs)
end

/-- Decodes a whole text. What follows the value is looked at last. -/
def run (d : Decoder α) (s : String) : Except Error α := do
  let (r, overlong) := Reading.ofText s
  let a ← d (.text 0) r
  if overlong then .error (.malformed .trailingText)
  return a

/-- Decodes a finished value. -/
def runTree (d : Decoder α) (t : Tree) : Except Error α := d .value (.ofTree t)

end Decoder

/-- A named part of a record that is decoded by itself and then set. -/
structure Field (σ : Type) where
  name : String
  required : Bool
  read : Decoder (σ → σ)

namespace Field

variable {α σ : Type}

/-- A part that has to be there. -/
def need (name : String) (d : Decoder α) (set : α → σ → σ) : Field σ := ⟨name, true, d.map set⟩

/-- A part that keeps its blank value if it is not there. -/
def allow (name : String) (d : Decoder α) (set : α → σ → σ) : Field σ := ⟨name, false, d.map set⟩

end Field

/-- A record by the fields that it has in order, and its value before any of them is set. -/
structure Record (σ : Type) where
  name : String
  fields : List (Field σ)
  blank : σ

namespace Record

variable {σ : Type}

/-- What is done with a member that is no field. -/
abbrev Rest (σ : Type) := Origin → String → Reading → σ → Except Error σ

def ignoreRest : Rest σ := fun _ _ r s =>
  match r.skip with
  | .ok () => .ok s
  | .error f => .error (.malformed f)

def field? (r : Record σ) (name : String) : Option (Field σ) := r.fields.find? (·.name = name)

/-- Reads members in their order. A field that was seen before is refused at its name. -/
def readMembers (r : Record σ) (rest : Rest σ) (o : Origin) :
    List (Name × Reading) → List String → σ → Except Error (List String × σ)
  | [], seen, s => .ok (seen, s)
  | (.error f, _) :: _, _, _ => .error (.malformed f.kept)
  | (.ok k, x) :: members, seen, s =>
    match r.field? k with
    | some f =>
      if k ∈ seen then .error (.duplicateField k)
      else do
        let set ← f.read o x
        readMembers r rest o members (k :: seen) (set s)
    | none => do
      let s ← rest o k x s
      readMembers r rest o members seen s

/-- The first field that is needed and was not seen. -/
def missing? (r : Record σ) (seen : List String) : Option String :=
  (r.fields.find? fun f => f.required && !seen.contains f.name).map (·.name)

def readObject (r : Record σ) (rest : Rest σ) (o : Origin) (members : List (Name × Reading))
    (ending : Option Fault) : Except Error σ := do
  let o ← o.enter
  let (seen, s) ← r.readMembers rest o members [] r.blank
  checkEnding ending
  match r.missing? seen with
  | some k => .error (.missingField k)
  | none => .ok s

/-- Reads items into the fields in order, and returns the items that are left. -/
def readItems (r : Record σ) (o : Origin) (ending : Option Fault) :
    Nat → List (Field σ) → List Reading → σ → Except Error (List Reading × σ)
  | _, [], items, s => .ok (items, s)
  | i, f :: fs, [], s => do
    checkEnding ending
    if f.required then .error (.tooFewItems i r.name r.fields.length)
    else readItems r o ending (i + 1) fs [] s
  | i, f :: fs, x :: items, s => do
    let set ← f.read o x
    readItems r o ending (i + 1) fs items (set s)

/-- The error for an array that goes on after the last field. -/
def excess (r : Record σ) (left : Nat) : Origin → Error
  | .text _ => .malformed .trailingText
  | .kept => .tooManyKeptItems (r.fields.length + left) r.fields.length
  | .value => .tooManyItems (r.fields.length + left)

/-- The fault at the end of an array, for a reader that has all that it needs: it does not wait
for a comma. -/
def endingFlaw (f : Fault) : Flaw :=
  if f.kept = .commaOrBracketDue then .trailingText else f.kept

def readArray (r : Record σ) (o : Origin) (items : List Reading) (ending : Option Fault) :
    Except Error σ := do
  let o ← o.enter
  let (left, s) ← r.readItems o ending 0 r.fields items r.blank
  if left.isEmpty then
    match ending with
    | none => .ok s
    | some f => .error (.malformed (endingFlaw f))
  else .error (r.excess left.length o)

/-- A record from an object by the names of its fields, or from an array by their order. -/
def decode (r : Record σ) : Decoder σ
  | o, .object members ending => r.readObject ignoreRest o members ending
  | o, .array items ending => r.readArray o items ending
  | _, x => .error (x.mismatch ("struct " ++ r.name))

/-- A record from an object only, whose other members are not ignored. -/
def decodeOpen (r : Record σ) (rest : Rest σ) : Decoder σ
  | o, .object members ending => r.readObject rest o members ending
  | _, x => .error (x.mismatch ("struct " ++ r.name))

end Record

end FlowDiagram.Json
