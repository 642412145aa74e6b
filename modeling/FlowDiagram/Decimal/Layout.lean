import FlowDiagram.Decimal.Shortest
/-! Decimal numbers as text: plain in a range of magnitudes, with an exponent outside of it. -/

namespace FlowDiagram.Decimal

/-- The digits of the coefficient without the zeros at its end, and the exponent that goes with
them. -/
def significantDigits (d : Decimal) : List Char × Int :=
  let digits := Nat.toDigits 10 d.coefficient
  let kept := (digits.reverse.dropWhile (· = '0')).reverse
  if kept.isEmpty then (['0'], 0) else (kept, d.exponent + (digits.length - kept.length : Nat))

/-- How fractional numbers are laid out: those whose first digit stands at a power of ten from
`plainFrom` to below `plainUpTo` have no exponent part. -/
structure Layout where
  plainFrom : Int
  plainUpTo : Int

/-- A plain number has a digit on either side of its point. A number with an exponent has one
digit before the point, no point if there are no more, and a sign in the exponent. -/
def Layout.write (l : Layout) (d : Decimal) : List Char :=
  let (digits, exponent) := d.significantDigits
  let first := exponent + digits.length - 1
  if l.plainFrom ≤ first ∧ first < l.plainUpTo then
    if 0 ≤ exponent then digits ++ List.replicate exponent.toNat '0' ++ ['.', '0']
    else if 0 ≤ first then
      digits.take (first + 1).toNat ++ '.' :: digits.drop (first + 1).toNat
    else '0' :: '.' :: (List.replicate (-first - 1).toNat '0' ++ digits)
  else
    let tail := if digits.length ≤ 1 then [] else '.' :: digits.drop 1
    let sign := if first < 0 then '-' else '+'
    digits.take 1 ++ tail ++ 'e' :: sign :: Nat.toDigits 10 first.natAbs

end FlowDiagram.Decimal
