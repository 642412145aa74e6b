/-! White space of the Unicode standard, trimming by it, and the lines of a text. -/

namespace FlowDiagram.Text

/-- The characters with the Unicode property `White_Space`. -/
def isBlank (c : Char) : Bool :=
  let n := c.toNat
  (0x09 ≤ n && n ≤ 0x0D) || n == 0x20 || n == 0x85 || n == 0xA0 || n == 0x1680 ||
    (0x2000 ≤ n && n ≤ 0x200A) || n == 0x2028 || n == 0x2029 || n == 0x202F || n == 0x205F ||
    n == 0x3000

def trimStart (cs : List Char) : List Char := cs.dropWhile isBlank

def trimEnd (cs : List Char) : List Char := (cs.reverse.dropWhile isBlank).reverse

def trim (cs : List Char) : List Char := trimEnd (trimStart cs)

/-- Puts a text in the place of every occurrence of a character. -/
def replaceChar (old : Char) (new : List Char) (cs : List Char) : List Char :=
  cs.flatMap fun c => if c = old then new else [c]

/-- The parts between the characters that a test picks out, empty parts included. -/
def splitAt (isBreak : Char → Bool) : List Char → List (List Char)
  | [] => [[]]
  | c :: cs =>
    if isBreak c then [] :: splitAt isBreak cs
    else
      match splitAt isBreak cs with
      | [] => [[c]]
      | part :: parts => (c :: part) :: parts

/-- The lines of a text: one more than it has newlines. -/
def lines (cs : List Char) : List (List Char) := splitAt (· = '\n') cs

end FlowDiagram.Text
