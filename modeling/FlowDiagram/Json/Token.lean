import FlowDiagram.Json.Fault
import FlowDiagram.Json.Tree
/-! The tokens of a JSON text, found by a scan that takes one character at a time. -/

namespace FlowDiagram.Json

/-- A token. A scalar that is not well formed is a token of its own; the scan ends at one that
neither reader can get past, and at a character that starts no token. -/
inductive Token where
  | openArray
  | closeArray
  | openObject
  | closeObject
  | colon
  | comma
  | scalar (s : Scalar)
  | faultyText (f : Fault)
  | faultyWord (f : Fault)
  | stray
deriving DecidableEq

/-! Texts -/

/-- What is due next within a text. -/
inductive TextDue where
  | character
  | escape
  /-- Digits after `\u`, with the bytes taken so far and their number if all are digits. -/
  | unit (bytes : Nat) (value : Option Nat)
  /-- The backslash of the second half of a surrogate pair. -/
  | pairBackslash (high : Nat)
  | pairLetter (high : Nat)
  | pairUnit (high : Nat) (bytes : Nat) (value : Option Nat)
deriving DecidableEq

/-- A text that is being scanned: its characters in reverse, what is due, and the flaw that only a
reader that keeps the text sees. -/
structure TextScan where
  chars : List Char
  due : TextDue
  flaw : Option Flaw
deriving DecidableEq

/-- What becomes of a scan within a token: it goes on or it ends with the token. -/
inductive Step (α : Type) where
  | more (state : α)
  | token (t : Token)

namespace TextScan

def start : TextScan := ⟨[], .character, none⟩

def push (t : TextScan) (c : Char) : TextScan := { t with chars := c :: t.chars, due := .character }

def flawed (t : TextScan) (f : Flaw) : TextScan :=
  { t with due := .character, flaw := some (t.flaw.getD f) }

/-- Ends at a flaw that both readers see. -/
def stop (t : TextScan) (f : Flaw) : Step TextScan :=
  .token (.faultyText ⟨t.flaw.getD f, some f⟩)

def finished (t : TextScan) : Token :=
  match t.flaw with
  | none => .scalar (.text (String.ofList t.chars.reverse))
  | some f => .faultyText ⟨f, none⟩

def onCharacter (t : TextScan) (c : Char) : Step TextScan :=
  if c = '"' then .token t.finished
  else if c = '\\' then .more { t with due := .escape }
  else if c.toNat < 0x20 then t.stop .controlCharacter
  else .more (t.push c)

def onEscape (t : TextScan) (c : Char) : Step TextScan :=
  if c = '"' ∨ c = '\\' ∨ c = '/' then .more (t.push c)
  else if c = 'b' then .more (t.push '\x08')
  else if c = 'f' then .more (t.push '\x0c')
  else if c = 'n' then .more (t.push '\n')
  else if c = 'r' then .more (t.push '\r')
  else if c = 't' then .more (t.push '\t')
  else if c = 'u' then .more { t with due := .unit 0 (some 0) }
  else t.stop .unknownEscape

def hexDigit? (c : Char) : Option Nat :=
  if '0' ≤ c ∧ c ≤ '9' then some (c.toNat - '0'.toNat)
  else if 'a' ≤ c ∧ c ≤ 'f' then some (c.toNat - 'a'.toNat + 10)
  else if 'A' ≤ c ∧ c ≤ 'F' then some (c.toNat - 'A'.toNat + 10)
  else none

def addHexDigit (value : Option Nat) (c : Char) : Option Nat := do
  return 16 * (← value) + (← hexDigit? c)

def isHigh (n : Nat) : Bool := 0xD800 ≤ n && n ≤ 0xDBFF

def isLow (n : Nat) : Bool := 0xDC00 ≤ n && n ≤ 0xDFFF

/-- Takes a complete unit. Half a surrogate pair waits for the other half, unless the text is
already flawed. -/
def onUnit (t : TextScan) (n : Nat) : TextScan :=
  if isLow n then t.flawed .loneSurrogate
  else if isHigh n then
    if t.flaw.isSome then { t with due := .character } else { t with due := .pairBackslash n }
  else t.push (Char.ofNat n)

def onPair (t : TextScan) (high low : Nat) : TextScan :=
  if isLow low then t.push (Char.ofNat (0x10000 + 0x400 * (high - 0xD800) + (low - 0xDC00)))
  else t.flawed .loneSurrogate

/-- Takes one character of a text. A unit is complete after four bytes, whatever they are. -/
def step (t : TextScan) (c : Char) : Step TextScan :=
  match t.due with
  | .character => t.onCharacter c
  | .escape => t.onEscape c
  | .unit bytes value =>
    let bytes := bytes + c.utf8Size
    let value := addHexDigit value c
    if bytes < 4 then .more { t with due := .unit bytes value }
    else match value with
      | some n => .more (t.onUnit n)
      | none => t.stop .unknownEscape
  | .pairBackslash high =>
    if c = '\\' then .more { t with due := .pairLetter high }
    else (t.flawed .brokenPair).onCharacter c
  | .pairLetter high =>
    if c = 'u' then .more { t with due := .pairUnit high 0 (some 0) }
    else (t.flawed .brokenPair).onEscape c
  | .pairUnit high bytes value =>
    let bytes := bytes + c.utf8Size
    let value := addHexDigit value c
    if bytes < 4 then .more { t with due := .pairUnit high bytes value }
    else match value with
      | some n => .more (t.onPair high n)
      | none => t.stop .unknownEscape

end TextScan

/-! Numbers -/

/-- The part of a number that was scanned last. -/
inductive NumberPart where
  | minus
  | zero
  | whole
  | point
  | fraction
  | mark
  | sign
  | power
deriving DecidableEq

/-- Whether a number may end with this part. -/
def NumberPart.isLast : NumberPart → Bool
  | .zero | .whole | .fraction | .power => true
  | .minus | .point | .mark | .sign => false

/-- A number that is being scanned: the digits of each part in reverse, and the part that they have
come to. -/
structure NumberScan where
  reversed : Numeral
  part : NumberPart
deriving DecidableEq

namespace NumberScan

def startMinus : NumberScan := ⟨⟨true, [], none, none⟩, .minus⟩

def startDigit (c : Char) : NumberScan :=
  ⟨⟨false, [c], none, none⟩, if c = '0' then .zero else .whole⟩

def addWhole (n : NumberScan) (c : Char) (part : NumberPart) : NumberScan :=
  ⟨{ n.reversed with whole := c :: n.reversed.whole }, part⟩

def addFraction (n : NumberScan) (c : Char) : NumberScan :=
  ⟨{ n.reversed with fraction := n.reversed.fraction.map (c :: ·) }, .fraction⟩

def addPower (n : NumberScan) (c : Char) : NumberScan :=
  ⟨{ n.reversed with exponent := n.reversed.exponent.map fun (neg, ds) => (neg, c :: ds) }, .power⟩

def addPoint (n : NumberScan) : NumberScan :=
  ⟨{ n.reversed with fraction := some [] }, .point⟩

def addMark (n : NumberScan) : NumberScan :=
  ⟨{ n.reversed with exponent := some (false, []) }, .mark⟩

def addSign (n : NumberScan) (c : Char) : NumberScan :=
  ⟨{ n.reversed with exponent := some (c = '-', []) }, .sign⟩

/-- The scan with a character that goes on with the number. -/
def goOn? (n : NumberScan) (c : Char) : Option NumberScan :=
  match n.part with
  | .minus =>
    if c = '0' then some (n.addWhole c .zero)
    else if c.isDigit then some (n.addWhole c .whole)
    else none
  | .zero =>
    if c = '.' then some n.addPoint
    else if c = 'e' ∨ c = 'E' then some n.addMark
    else none
  | .whole =>
    if c.isDigit then some (n.addWhole c .whole)
    else if c = '.' then some n.addPoint
    else if c = 'e' ∨ c = 'E' then some n.addMark
    else none
  | .point => if c.isDigit then some (n.addFraction c) else none
  | .fraction =>
    if c.isDigit then some (n.addFraction c)
    else if c = 'e' ∨ c = 'E' then some n.addMark
    else none
  | .mark =>
    if c = '+' ∨ c = '-' then some (n.addSign c)
    else if c.isDigit then some (n.addPower c)
    else none
  | .sign | .power => if c.isDigit then some (n.addPower c) else none

/-- The number as a token, when it ends before a character or, for `none`, with the text. No digit
follows a zero in front. -/
def ended (n : NumberScan) (next : Option Char) : Token :=
  if n.part.isLast then
    if next.any Char.isDigit then .faultyWord (.plain .malformedNumber)
    else
      match Number.ofNumeral? n.reversed.reverse with
      | some x => .scalar (.number x)
      | none => .faultyWord ⟨.numberTooLarge, none⟩
  else
    match next with
    | some _ => .faultyWord (.plain .malformedNumber)
    | none => .faultyWord ⟨.endInValue, some .malformedNumber⟩

/-- Takes one character, or ends before it. -/
def step (n : NumberScan) (c : Char) : Step NumberScan :=
  match n.goOn? c with
  | some n => .more n
  | none => .token (n.ended (some c))

end NumberScan

/-! Whole texts -/

/-- Where a scan stands: between tokens, within one, or past a flaw. -/
inductive Scan where
  | between
  | text (t : TextScan)
  | number (n : NumberScan)
  /-- A word of which these letters are still due. -/
  | word (due : List Char) (s : Scalar)
  | stopped

namespace Scan

def isSpace (c : Char) : Bool := c = ' ' || c = '\t' || c = '\n' || c = '\r'

/-- Takes a character between two tokens. -/
def onBetween (c : Char) : Scan × List Token :=
  if isSpace c then (between, [])
  else if c = '"' then (text .start, [])
  else if c = '-' then (number .startMinus, [])
  else if c.isDigit then (number (.startDigit c), [])
  else if c = 'n' then (word "ull".toList .null, [])
  else if c = 't' then (word "rue".toList (.bool true), [])
  else if c = 'f' then (word "alse".toList (.bool false), [])
  else if c = '[' then (between, [.openArray])
  else if c = ']' then (between, [.closeArray])
  else if c = '{' then (between, [.openObject])
  else if c = '}' then (between, [.closeObject])
  else if c = ':' then (between, [.colon])
  else if c = ',' then (between, [.comma])
  else (stopped, [.stray])

/-- Whether the scan goes on after a token. -/
def after : Token → Scan
  | .faultyText f | .faultyWord f => if f.skipped.isSome then stopped else between
  | .stray => stopped
  | _ => between

/-- Takes one character. A number ends at the character after it, which is then looked at afresh. -/
def step : Scan → Char → Scan × List Token
  | between, c => onBetween c
  | text t, c =>
    match t.step c with
    | .more t => (text t, [])
    | .token k => (after k, [k])
  | number n, c =>
    match n.step c with
    | .more n => (number n, [])
    | .token k =>
      match after k with
      | between => let (s, ks) := onBetween c; (s, k :: ks)
      | s => (s, [k])
  | word due s, c =>
    match due with
    | [] => onBetween c
    | d :: due =>
      if c ≠ d then (stopped, [.faultyWord (.plain .misspeltWord)])
      else if due.isEmpty then (between, [.scalar s])
      else (word due s, [])
  | stopped, _ => (stopped, [])

/-- The token that the end of the text cuts off or completes. -/
def atEnd : Scan → List Token
  | between | stopped => []
  | text t => [.faultyText ⟨t.flaw.getD .endInText, some .endInText⟩]
  | number n => [n.ended none]
  | word _ _ => [.faultyWord (.plain .endInValue)]

/-- Takes the characters of a text one after the other, with the tokens so far in reverse. -/
def run (s : Scan) (found : List Token) (cs : List Char) : Scan × List Token :=
  cs.foldl (fun (s, found) c => let (s, ks) := s.step c; (s, ks.reverse ++ found)) (s, found)

end Scan

/-- The tokens of a text. -/
def tokens (cs : List Char) : List Token :=
  let (s, found) := Scan.between.run [] cs
  found.reverse ++ s.atEnd

end FlowDiagram.Json
