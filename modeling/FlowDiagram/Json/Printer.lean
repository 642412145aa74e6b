import FlowDiagram.Decimal.Layout
import FlowDiagram.Json.Tree
/-! Trees as JSON text, compact or over several lines. -/

namespace FlowDiagram.Json

/-- Floats have no exponent part from a hundred-thousandth up to below ten quadrillion. -/
def Number.layout : Decimal.Layout := ⟨-5, 16⟩

/-- A float that is infinite or not a number is written as the word for nothing. -/
def Number.print : Number → List Char
  | .integer n _ => if n < 0 then '-' :: Nat.toDigits 10 n.natAbs else Nat.toDigits 10 n.natAbs
  | .float x =>
    if x.isFinite then
      let digits := Number.layout.write (.ofFloat x)
      if x.toBits < 0x8000000000000000 then digits else '-' :: digits
    else "null".toList

/-- The letter after the backslash for characters that have one. -/
def shortEscape? (c : Char) : Option Char :=
  if c = '"' then some '"'
  else if c = '\\' then some '\\'
  else if c = '\x08' then some 'b'
  else if c = '\x0c' then some 'f'
  else if c = '\n' then some 'n'
  else if c = '\r' then some 'r'
  else if c = '\t' then some 't'
  else none

def escapeChar (c : Char) : List Char :=
  match shortEscape? c with
  | some letter => ['\\', letter]
  | none =>
    if c.toNat < 0x20 then
      ['\\', 'u', '0', '0', Nat.digitChar (c.toNat / 16), Nat.digitChar (c.toNat % 16)]
    else [c]

def printText (s : String) : List Char := '"' :: s.toList.flatMap escapeChar ++ ['"']

def Scalar.print : Scalar → List Char
  | .null => "null".toList
  | .bool true => "true".toList
  | .bool false => "false".toList
  | .number n => n.print
  | .text s => printText s

namespace Tree

mutual
/-- The text without any white space. -/
def compact : Tree → List Char
  | .scalar s => s.print
  | .array items => '[' :: compactItems items ++ [']']
  | .object members => '{' :: compactMembers members ++ ['}']

def compactItems : List Tree → List Char
  | [] => []
  | x :: xs => compact x ++ compactMoreItems xs

def compactMoreItems : List Tree → List Char
  | [] => []
  | x :: xs => ',' :: compact x ++ compactMoreItems xs

def compactMembers : List (String × Tree) → List Char
  | [] => []
  | (k, x) :: xs => printText k ++ ':' :: compact x ++ compactMoreMembers xs

def compactMoreMembers : List (String × Tree) → List Char
  | [] => []
  | (k, x) :: xs => ',' :: printText k ++ ':' :: compact x ++ compactMoreMembers xs
end

/-- A line break and the indentation of a depth. -/
def newline (depth : Nat) : List Char := '\n' :: List.replicate (2 * depth) ' '

mutual
/-- The text with every item and member on a line of its own, two spaces deeper than the bracket
before it. Empty arrays and objects stay on one line. -/
def pretty (depth : Nat) : Tree → List Char
  | .scalar s => s.print
  | .array [] => ['[', ']']
  | .array (x :: xs) =>
    '[' :: newline (depth + 1) ++ pretty (depth + 1) x ++ prettyMoreItems (depth + 1) xs ++
      newline depth ++ [']']
  | .object [] => ['{', '}']
  | .object ((k, x) :: xs) =>
    '{' :: newline (depth + 1) ++ printText k ++ ':' :: ' ' :: pretty (depth + 1) x ++
      prettyMoreMembers (depth + 1) xs ++ newline depth ++ ['}']

def prettyMoreItems (depth : Nat) : List Tree → List Char
  | [] => []
  | x :: xs => ',' :: newline depth ++ pretty depth x ++ prettyMoreItems depth xs

def prettyMoreMembers (depth : Nat) : List (String × Tree) → List Char
  | [] => []
  | (k, x) :: xs =>
    ',' :: newline depth ++ printText k ++ ':' :: ' ' :: pretty depth x ++
      prettyMoreMembers depth xs
end

def toCompact (t : Tree) : String := String.ofList t.compact

def toPretty (t : Tree) : String := String.ofList (t.pretty 0)

end Tree

end FlowDiagram.Json
