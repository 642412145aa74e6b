/-! The fewest decimal digits that single out a binary floating-point number. -/

namespace FlowDiagram

/-- A decimal number that is not negative: a coefficient times a power of ten. -/
structure Decimal where
  coefficient : Nat
  exponent : Int
deriving DecidableEq, Repr

namespace Decimal

/-- The quotient of two numbers whose first has the factor two to a power. -/
def twoPowRatio (m : Nat) (q : Int) : Nat × Nat :=
  if 0 ≤ q then (m * Nat.pow 2 q.toNat, 1) else (m, Nat.pow 2 (-q).toNat)

/-- The power of ten at the first digit of a positive quotient. -/
def leadingExponent (num den : Nat) : Int :=
  if den ≤ num then (Nat.toDigits 10 (num / den)).length - 1
  else
    let d := (Nat.toDigits 10 (den / num)).length
    if den ≤ num * Nat.pow 10 (d - 1) then 1 - (d : Int) else -(d : Int)

/-- The real numbers that round to one floating-point number: from `low` to `high` around `mid`,
all over one denominator, with the ends if `closed`. -/
structure Interval where
  low : Nat
  mid : Nat
  high : Nat
  den : Nat
  closed : Bool

namespace Interval

def contains (i : Interval) (num den : Nat) : Bool :=
  if i.closed then i.low * den ≤ num * i.den && num * i.den ≤ i.high * den
  else i.low * den < num * i.den && num * i.den < i.high * den

/-- The multiple of ten to the `k` that lies in the interval and nearest to its `mid`, among the
two around it; of two as near the even one. -/
def hitOnGrid (i : Interval) (k : Int) : Option Decimal :=
  let unit := if 0 ≤ k then Nat.pow 10 k.toNat else 1
  let parts := if 0 ≤ k then 1 else Nat.pow 10 (-k).toNat
  let below := i.mid * parts / (i.den * unit)
  let rest := i.mid * parts % (i.den * unit)
  let hit := fun c => i.contains (c * unit) parts
  let belowIsNearer := 2 * rest < i.den * unit ∨ (2 * rest = i.den * unit ∧ below % 2 = 0)
  match hit below, hit (below + 1) with
  | true, true => some ⟨if belowIsNearer then below else below + 1, k⟩
  | true, false => some ⟨below, k⟩
  | false, true => some ⟨below + 1, k⟩
  | false, false => none

/-- The hit with the fewest digits; seventeen always suffice. -/
def shortest (i : Interval) : Decimal :=
  let e := leadingExponent i.mid i.den
  ((List.range 17).findSome? fun n => i.hitOnGrid (e - (n : Nat))).getD ⟨i.mid / i.den, 0⟩

end Interval

/-- The interval of a float that is finite and not zero, regardless of its sign. Below a power of
two the neighbour is twice as near. -/
def roundingInterval (x : Float) : Interval :=
  let bits := x.toBits.toNat
  let field : Nat := bits / 0x10000000000000 % 0x800
  let fraction : Nat := bits % 0x10000000000000
  let m := if field = 0 then fraction else fraction + 0x10000000000000
  let q : Int := if field = 0 then -1074 else (field : Int) - 1075
  let gap := if fraction = 0 ∧ 1 < field then 1 else 2
  let (low, den) := twoPowRatio (4 * m - gap) (q - 2)
  let (mid, _) := twoPowRatio (4 * m) (q - 2)
  let (high, _) := twoPowRatio (4 * m + 2) (q - 2)
  { low, mid, high, den, closed := m % 2 == 0 }

/-- The shortest decimal that reads back as the float, and of those the nearest; its sign is left
out. -/
def ofFloat (x : Float) : Decimal :=
  if x.toBits % 0x8000000000000000 = 0 then ⟨0, 0⟩ else (roundingInterval x).shortest

end Decimal

end FlowDiagram
