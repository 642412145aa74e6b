import FlowDiagram.Text.Formless
/-! Texts within quotes, on one line and with every character in sight. -/

namespace FlowDiagram.Text

/-- The letter after the backslash for characters that have one. -/
def quotedLetter? (c : Char) : Option Char :=
  if c = '"' then some '"'
  else if c = '\\' then some '\\'
  else if c = '\x00' then some '0'
  else if c = '\t' then some 't'
  else if c = '\n' then some 'n'
  else if c = '\r' then some 'r'
  else none

/-- A character between quotes. One that has no form of its own is written by its code point in
hexadecimal digits between braces. -/
def quoteChar (c : Char) : List Char :=
  match quotedLetter? c with
  | some letter => ['\\', letter]
  | none => if isFormless c then '\\' :: 'u' :: '{' :: Nat.toDigits 16 c.toNat ++ ['}'] else [c]

def quote (cs : List Char) : List Char := '"' :: cs.flatMap quoteChar ++ ['"']

end FlowDiagram.Text
