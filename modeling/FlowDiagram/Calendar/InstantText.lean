import FlowDiagram.Calendar.Instant
import FlowDiagram.Text.Blank
/-! Instants as text, after RFC 3339: printed strictly and read leniently. -/

namespace FlowDiagram.Calendar

/-- A number with zeros in front up to a width. -/
def padded (width n : Nat) : List Char :=
  let digits := Nat.toDigits 10 n
  List.replicate (width - digits.length) '0' ++ digits

namespace Instant

/-- Four digits, with a sign for years that have more or lie before the year zero. -/
def printYear (year : Int) : List Char :=
  if 0 ≤ year ∧ year ≤ 9999 then padded 4 year.toNat
  else (if year < 0 then '-' else '+') :: padded 4 year.natAbs

/-- The fewest groups of three digits that lose nothing. -/
def printFraction (nano : Nat) : List Char :=
  if nano = 0 then []
  else if nano % 1000000 = 0 then '.' :: padded 3 (nano / 1000000)
  else if nano % 1000 = 0 then '.' :: padded 6 (nano / 1000)
  else '.' :: padded 9 nano

/-- A second and its nanoseconds as they are written. The second sixty is a leap second. -/
def written (second nano : Nat) : Nat × Nat :=
  if nano < 1000000000 then (second, nano) else (second + 1, nano - 1000000000)

def print (i : Instant) : List Char :=
  let (second, nano) := written i.second i.nano
  printYear i.date.year ++ '-' :: padded 2 i.date.month ++ '-' :: padded 2 i.date.day ++
    'T' :: padded 2 i.hour ++ ':' :: padded 2 i.minute ++ ':' :: padded 2 second ++
    printFraction nano ++ ['Z']

/-- Why a text is no instant. -/
inductive Error where
  | tooShort
  | invalid
  | outOfRange
  | impossible
  | trailing
deriving DecidableEq, Repr

def Error.message : Error → String
  | .tooShort => "premature end of input"
  | .invalid => "input contains invalid characters"
  | .outOfRange => "input is out of range"
  | .impossible => "no possible date and time matching input"
  | .trailing => "trailing input"

/-- A value that is read from the front of a text, and the text after it. -/
abbrev Reader (α : Type) := List Char → Except Error (α × List Char)

/-- At least one digit, and no more than `most`. -/
def readDigits (most : Nat) : Reader (List Char)
  | [] => .error .tooShort
  | c :: cs =>
    let digits := ((c :: cs).take most).takeWhile Char.isDigit
    if digits.isEmpty then .error .invalid else .ok (digits, (c :: cs).drop digits.length)

def readNumber (most : Nat) : Reader Nat := fun cs => do
  let (digits, cs) ← readDigits most cs
  return (Nat.ofDigitChars 10 digits 0, cs)

/-- Two digits at most, after white space, for a number within bounds. -/
def readPart (low high : Nat) : Reader Nat := fun cs => do
  let (n, cs) ← readNumber 2 (Text.trimStart cs)
  if low ≤ n ∧ n ≤ high then return (n, cs) else .error .outOfRange

/-- Four digits at most, or a sign and any number of them. -/
def readYear : Reader Int := fun cs => do
  let (year, cs) ←
    match Text.trimStart cs with
    | '-' :: cs => do
      let (n, rest) ← readNumber cs.length cs
      pure (-(n : Int), rest)
    | '+' :: cs => do
      let (n, rest) ← readNumber cs.length cs
      pure ((n : Int), rest)
    | cs => do
      let (n, rest) ← readNumber 4 cs
      pure ((n : Int), rest)
  if -0x80000000 ≤ year ∧ year < 0x80000000 then return (year, cs) else .error .outOfRange

/-- A given character after white space. -/
def readMark (mark : Char) : Reader Unit := fun cs =>
  match Text.trimStart cs with
  | [] => .error .tooShort
  | c :: cs => if c = mark then .ok ((), cs) else .error .invalid

def readDate : Reader Date := fun cs => do
  let (year, cs) ← readYear cs
  let ((), cs) ← readMark '-' cs
  let (month, cs) ← readPart 1 12 cs
  let ((), cs) ← readMark '-' cs
  let (day, cs) ← readPart 1 31 cs
  return (⟨year, month, day⟩, cs)

/-- What stands between the date and the time: a letter or one space. -/
def readSeparator : Reader Unit
  | [] => .error .tooShort
  | c :: cs => if c = 'T' ∨ c = 't' ∨ c = ' ' then .ok ((), cs) else .error .invalid

/-- A fraction of a second in nanoseconds. Digits after the ninth are passed over. -/
def readFraction : Reader Nat
  | '.' :: cs => do
    let (digits, cs) ← readDigits 9 cs
    let scale := Nat.pow 10 (9 - digits.length)
    return (Nat.ofDigitChars 10 digits 0 * scale, cs.dropWhile Char.isDigit)
  | cs => .ok (0, cs)

/-- Exactly two digits. They may be cut off only within the first two bytes. -/
def readTwoDigits : Reader Nat
  | [] => .error .tooShort
  | [c] => .error (if c.utf8Size < 2 then .tooShort else .invalid)
  | c :: d :: cs =>
    if c.isDigit ∧ d.isDigit then .ok (Nat.ofDigitChars 10 [c, d] 0, cs) else .error .invalid

def readSign : Reader Bool
  | [] => .error .tooShort
  | c :: cs =>
    if c = '+' then .ok (false, cs)
    else if c = '-' ∨ c = '\u2212' then .ok (true, cs)
    else .error .invalid

/-- The distance from universal time in minutes, east of it positive. -/
def readOffset : Reader Int := fun cs => do
  let (west, cs) ← readSign cs
  let (hours, cs) ← readTwoDigits cs
  let (minutes, cs) ← readTwoDigits (cs.dropWhile fun c => c = ':' || Text.isBlank c)
  if 60 ≤ minutes then .error .outOfRange
  else
    let offset : Int := hours * 60 + minutes
    return (if west then -offset else offset, cs)

/-- A zone: a letter, the name of universal time in any case, or an offset. -/
def readZone : Reader Int := fun cs =>
  match cs with
  | 'Z' :: cs | 'z' :: cs => .ok (0, cs)
  | _ =>
    if (cs.take 3).map Char.toUpper = "UTC".toList then .ok (0, cs.drop 3) else readOffset cs

/-- The second and its nanoseconds that are meant by those that are written. -/
def ofWritten (second nano : Nat) : Nat × Nat :=
  if second = 60 then (59, nano + 1000000000) else (second, nano)

/-- The instant that written parts mean, at a distance from universal time in minutes. -/
def ofParts (date : Date) (hour minute second nano : Nat) (offset : Int) : Except Error Instant :=
  if ¬ date.IsValid ∨ 1440 ≤ offset.natAbs then .error .outOfRange
  else
    let (date, minuteOfDay) := shiftDate date (hour * 60 + minute - offset)
    let (second, nano) := ofWritten second nano
    match at? date minuteOfDay second nano with
    | some i => .ok i
    | none => .error .impossible

/-- Reads an instant. Every part is checked when it is read, and the whole at the end. -/
def read (cs : List Char) : Except Error Instant := do
  let (date, cs) ← readDate cs
  let ((), cs) ← readSeparator cs
  let (hour, cs) ← readPart 0 23 cs
  let ((), cs) ← readMark ':' cs
  let (minute, cs) ← readPart 0 59 cs
  let ((), cs) ← readMark ':' cs
  let (second, cs) ← readPart 0 60 cs
  let (nano, cs) ← readFraction cs
  let (offset, cs) ← readZone (Text.trimStart cs)
  if (Text.trimStart cs).isEmpty then ofParts date hour minute second nano offset
  else .error .trailing

end Instant

end FlowDiagram.Calendar
