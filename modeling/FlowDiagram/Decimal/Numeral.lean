/-! Written numbers, and the numbers that they are read as. -/

namespace FlowDiagram

/-- The digits of a written number. A part that is not written is `none`. -/
structure Numeral where
  negative : Bool
  whole : List Char
  fraction : Option (List Char)
  /-- Whether the exponent is negative, and its digits. -/
  exponent : Option (Bool × List Char)
deriving DecidableEq, Repr

namespace Numeral

/-- The numeral with the digits of each part in reverse. -/
def reverse (n : Numeral) : Numeral :=
  { n with
    whole := n.whole.reverse
    fraction := n.fraction.map List.reverse
    exponent := n.exponent.map fun (negative, digits) => (negative, digits.reverse) }

/-- Takes digits into a significand as long as it has 64 bits, and leaves the others. -/
def takeDigits : Nat → List Char → Nat × List Char
  | s, [] => (s, [])
  | s, c :: cs =>
    let next := 10 * s + (c.toNat - '0'.toNat)
    if next < 0x10000000000000000 then takeDigits next cs else (s, c :: cs)

/-- The float nearest to a power of ten. -/
def tenTo (k : Nat) : Float := Float.ofScientific 1 false k

/-- Divides by ten to the 308 so many times, or until nothing is left. -/
def shrink : Nat → Float → Float
  | 0, x => x
  | k + 1, x => if x == 0 then x else shrink k (x / tenTo 308)

/-- Scales by a power of ten: one multiplication or division, after steps of 308 places for
negative exponents that no float reaches. `none` if the result is too large. -/
def scale (x : Float) (e : Int) : Option Float :=
  if 308 < e then if x == 0 then some x else none
  else if 0 ≤ e then
    let y := x * tenTo e.toNat
    if y.isFinite then some y else none
  else
    let steps := (e.natAbs - 1) / 308
    some (shrink steps x / tenTo (e.natAbs - 308 * steps))

/-- The number that digits stand for, or `most` if that is less. -/
def valueUpTo (most : Nat) (digits : List Char) : Nat :=
  digits.foldl (fun n c => Nat.min (10 * n + (c.toNat - '0'.toNat)) most) 0

/-- The exponent part as a number with a sign and 31 bits. Of greater ones the bound is taken, which
is as far beyond all floats. -/
def exponentValue (n : Numeral) : Int :=
  match n.exponent with
  | none => 0
  | some (negative, digits) =>
    let e : Int := valueUpTo 0x7FFFFFFF digits
    if negative then -e else e

/-- The float that a written number is read as, `none` if it is too large. Digits that do not fit
the significand only count for the magnitude if they stand before the point. -/
def float? (n : Numeral) : Option Float :=
  let fraction := n.fraction.getD []
  let (s, wholeLeft) := takeDigits 0 n.whole
  let (s, fractionLeft) := takeDigits s fraction
  let places : Int := wholeLeft.length - (fraction.length - fractionLeft.length)
  (scale (UInt64.ofNat s).toFloat (places + n.exponentValue)).map fun y =>
    if n.negative then -y else y

/-- The integer that is written without a fraction and an exponent, in no more than the twenty digits
that 64 bits can take. -/
def integer? (n : Numeral) : Option Int :=
  if n.fraction.isSome ∨ n.exponent.isSome ∨ 20 < n.whole.length then none
  else
    let i : Int := Nat.ofDigitChars 10 n.whole 0
    some (if n.negative then -i else i)

end Numeral

end FlowDiagram
