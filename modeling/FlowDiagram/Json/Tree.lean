import FlowDiagram.Decimal.Numeral
/-! JSON values as ordered trees, and their form with sorted members. -/

namespace FlowDiagram.Json

/-- Whether an integer has 64 bits, with or without sign. -/
abbrev Fits (n : Int) : Prop := -0x8000000000000000 ≤ n ∧ n < 0x10000000000000000

inductive Number where
  | integer (n : Int) (fits : Fits n)
  | float (x : Float)
deriving DecidableEq

/-- Integers that fit stay integers. All others, and minus zero, are floats. -/
def Number.ofNumeral? (n : Numeral) : Option Number :=
  match n.integer? with
  | none => n.float?.map .float
  | some i =>
    if h : Fits i then
      if n.negative ∧ i = 0 then n.float?.map .float else some (.integer i h)
    else n.float?.map .float

def Number.ofNat (n : Nat) : Number :=
  if h : Fits n then .integer n h else .float (Float.ofNat n)

/-- The nearest float. -/
def Number.toFloat : Number → Float
  | .integer n _ => Float.ofInt n
  | .float x => x

inductive Scalar where
  | null
  | bool (b : Bool)
  | number (n : Number)
  | text (s : String)
deriving DecidableEq

/-- A JSON value whose objects keep the order and the repetitions of their members. -/
inductive Tree where
  | scalar (s : Scalar)
  | array (items : List Tree)
  | object (members : List (String × Tree))

namespace Tree

abbrev null : Tree := .scalar .null

abbrev text (s : String) : Tree := .scalar (.text s)

abbrev bool (b : Bool) : Tree := .scalar (.bool b)

def nat (n : Nat) : Tree := .scalar (.number (.ofNat n))

abbrev float (x : Float) : Tree := .scalar (.number (.float x))

mutual
/-- Structural equality. -/
def same : Tree → Tree → Bool
  | .scalar s, .scalar t => decide (s = t)
  | .array xs, .array ys => sameItems xs ys
  | .object xs, .object ys => sameMembers xs ys
  | _, _ => false

def sameItems : List Tree → List Tree → Bool
  | [], [] => true
  | x :: xs, y :: ys => same x y && sameItems xs ys
  | _, _ => false

def sameMembers : List (String × Tree) → List (String × Tree) → Bool
  | [], [] => true
  | (k, x) :: xs, (l, y) :: ys => decide (k = l) && same x y && sameMembers xs ys
  | _, _ => false
end

mutual
theorem same_eq_true_iff : ∀ x y : Tree, same x y = true ↔ x = y
  | .scalar s, .scalar t => by simp [same]
  | .array xs, .array ys => by simp [same, sameItems_eq_true_iff xs ys]
  | .object xs, .object ys => by simp [same, sameMembers_eq_true_iff xs ys]
  | .scalar _, .array _ | .scalar _, .object _ | .array _, .scalar _
  | .array _, .object _ | .object _, .scalar _ | .object _, .array _ => by simp [same]

theorem sameItems_eq_true_iff : ∀ xs ys : List Tree, sameItems xs ys = true ↔ xs = ys
  | [], [] => by simp [sameItems]
  | x :: xs, y :: ys => by
    simp [sameItems, same_eq_true_iff x y, sameItems_eq_true_iff xs ys]
  | [], _ :: _ | _ :: _, [] => by simp [sameItems]

theorem sameMembers_eq_true_iff :
    ∀ xs ys : List (String × Tree), sameMembers xs ys = true ↔ xs = ys
  | [], [] => by simp [sameMembers]
  | (k, x) :: xs, (l, y) :: ys => by
    simp [sameMembers, same_eq_true_iff x y, sameMembers_eq_true_iff xs ys]
  | [], _ :: _ | _ :: _, [] => by simp [sameMembers]
end

instance : DecidableEq Tree := fun x y => decidable_of_iff _ (same_eq_true_iff x y)

end Tree

/-- Sets a member in a list sorted by name, in the place of one of the same name. -/
def insertMember {α : Type} (name : String) (value : α) : List (String × α) → List (String × α)
  | [] => [(name, value)]
  | (k, v) :: rest =>
    if name < k then (name, value) :: (k, v) :: rest
    else if name = k then (name, value) :: rest
    else (k, v) :: insertMember name value rest

/-- Members in ascending order of their names. Of several with one name the last counts. -/
def sortMembers {α : Type} (members : List (String × α)) : List (String × α) :=
  members.foldl (fun sorted (k, v) => insertMember k v sorted) []

/-- The value of a name, the last one if there are several. -/
def lookupMember? {α : Type} (name : String) : List (String × α) → Option α
  | [] => none
  | (k, v) :: rest => (lookupMember? name rest).or (if k = name then some v else none)

mutual
/-- The tree with the members of all its objects sorted. -/
def Tree.sorted : Tree → Tree
  | .scalar s => .scalar s
  | .array items => .array (Tree.sortedItems items)
  | .object members => .object (sortMembers (Tree.sortedMembers members))

def Tree.sortedItems : List Tree → List Tree
  | [] => []
  | x :: xs => x.sorted :: Tree.sortedItems xs

/-- Sorts the values of members and leaves the members in their order. -/
def Tree.sortedMembers : List (String × Tree) → List (String × Tree)
  | [] => []
  | (k, x) :: xs => (k, x.sorted) :: Tree.sortedMembers xs
end

end FlowDiagram.Json
