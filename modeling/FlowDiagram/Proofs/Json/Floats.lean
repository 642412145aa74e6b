import FlowDiagram.Proofs.Decimal.Digits
import FlowDiagram.Proofs.Json.Finite
import FlowDiagram.Proofs.Json.Numbers
/-! The printed form of every finite float is read as a number again. -/

namespace FlowDiagram

/-! Digits before and behind a point -/

namespace Numeral

variable {ds : List Char} {k : Nat}

theorem isDigit_of_mem_zeros {c : Char} {k : Nat} (h : c ∈ List.replicate k '0') :
    c.isDigit = true := by
  rw [List.eq_of_mem_replicate h]
  rfl

theorem IsWhole.length_pos (h : IsWhole ds) : 0 < ds.length := by
  obtain rfl | ⟨c, cs, rfl, -⟩ := h.first
  · exact Nat.one_pos
  · exact Nat.succ_pos _

theorem IsWhole.take (h : IsWhole ds) (hk : 0 < k) : IsWhole (ds.take k) := by
  refine ⟨fun c hc => h.digits c (List.mem_of_mem_take hc), ?_⟩
  obtain ⟨k, rfl⟩ := Nat.exists_eq_succ_of_ne_zero (Nat.ne_of_gt hk)
  obtain rfl | ⟨c, cs, rfl, hc⟩ := h.first
  · exact .inl (by simp)
  · exact .inr ⟨c, cs.take k, rfl, hc⟩

theorem IsWhole.drop (h : IsWhole ds) (hk : k < ds.length) : IsPart (ds.drop k) where
  digits c hc := h.digits c (List.mem_of_mem_drop hc)
  ne_nil hnil := Nat.not_le_of_lt hk (List.drop_eq_nil_iff.1 hnil)

theorem IsWhole.behind_zeros (h : IsWhole ds) (k : Nat) :
    IsPart (List.replicate k '0' ++ ds) where
  digits c hc := (List.mem_append.1 hc).elim isDigit_of_mem_zeros (h.digits c)
  ne_nil hnil := List.ne_nil_of_length_pos h.length_pos (List.append_eq_nil_iff.1 hnil).2

/-! Which numerals are not too large -/

theorem exponentValue_le {n : Numeral} {negative : Bool} {k : Nat}
    (h : n.exponent = some (negative, Nat.toDigits 10 k)) :
    n.exponentValue ≤ if negative then 0 else (k : Int) := by
  have hvalue := Decimal.valueUpTo_le 0x7FFFFFFF (Nat.toDigits 10 k)
  rw [Nat.ofDigitChars_ten_toDigits] at hvalue
  simp only [exponentValue, h]
  cases negative with
  | false => simpa using hvalue
  | true => simp

theorem isSome_float? {n : Numeral} {s t : Nat} {wholeLeft fractionLeft : List Char}
    (hwhole : takeDigits 0 n.whole = (s, wholeLeft))
    (hfraction : takeDigits s (n.fraction.getD []) = (t, fractionLeft))
    (h : (scale (UInt64.ofNat t).toFloat
      (wholeLeft.length - ((n.fraction.getD []).length - fractionLeft.length) +
        n.exponentValue)).isSome) : n.float?.isSome := by
  simp only [float?, hwhole, hfraction, Option.isSome_map]
  exact h

/-- Few digits before the point and a small exponent are never too large. -/
theorem isSome_float?_of_lt {n : Numeral} (h : n.whole.length + n.exponentValue < 288) :
    n.float?.isSome := by
  have hwhole := Decimal.length_takeDigits_le 0 n.whole
  have hfraction := Decimal.length_takeDigits_le (takeDigits 0 n.whole).1 (n.fraction.getD [])
  exact isSome_float? rfl rfl (Decimal.isSome_scale_of_lt _ (by omega))

end Numeral

namespace Decimal

open Numeral

variable {l : Layout} {d : Decimal} {negative : Bool}

/-! Decimals as numerals -/

/-- The numeral that a layout makes of a decimal and a sign. -/
def Layout.numeral (l : Layout) (negative : Bool) (d : Decimal) : Numeral :=
  let (digits, exponent) := d.significantDigits
  let first := exponent + digits.length - 1
  if l.plainFrom ≤ first ∧ first < l.plainUpTo then
    if 0 ≤ exponent then
      ⟨negative, digits ++ List.replicate exponent.toNat '0', some ['0'], none⟩
    else if 0 ≤ first then
      ⟨negative, digits.take (first + 1).toNat, some (digits.drop (first + 1).toNat), none⟩
    else ⟨negative, ['0'], some (List.replicate (-first - 1).toNat '0' ++ digits), none⟩
  else
    ⟨negative, digits.take 1, if digits.length ≤ 1 then none else some (digits.drop 1),
      some (first < 0, Nat.toDigits 10 first.natAbs)⟩

theorem text_numeral (l : Layout) (negative : Bool) (d : Decimal) :
    (l.numeral negative d).text = (if negative then ['-'] else []) ++ l.write d := by
  simp only [Layout.numeral, Layout.write]
  split
  · split
    · simp [text, signText, fractionText, exponentText]
    · split <;> simp [text, signText, fractionText, exponentText]
  · by_cases hone : d.significantDigits.1.length ≤ 1 <;>
      simp [text, signText, fractionText, exponentText, hone]

theorem integer?_numeral (l : Layout) (negative : Bool) (d : Decimal) :
    (l.numeral negative d).integer? = none := by
  simp only [Layout.numeral]
  split
  · split
    · simp [integer?]
    · split <;> simp [integer?]
  · simp [integer?]

/-- Only zero has a significant digit that is one. -/
theorem significantDigits_first (d : Decimal) :
    d.significantDigits = (['0'], 0) ∨ ∃ c ds, d.significantDigits.1 = c :: ds ∧ c ≠ '0' := by
  rcases Nat.eq_zero_or_pos d.coefficient with hzero | hpos
  · exact .inl (significantDigits_zero hzero)
  · obtain ⟨ds, z, hdigits, hds, hsplit⟩ := significantDigits_eq hpos
    obtain ⟨c, cs, hc, hne⟩ := Json.toDigits_eq_cons hpos
    cases ds with
    | nil => exact absurd rfl hds
    | cons c' ds =>
      rw [hc, List.cons_append, List.cons.injEq] at hsplit
      exact .inr ⟨c', ds, by rw [hdigits], hsplit.1 ▸ hne⟩

theorem isWhole_significantDigits (d : Decimal) : IsWhole d.significantDigits.1 where
  digits _ hc := Json.isDigit_of_mem_significantDigits hc
  first := (significantDigits_first d).imp_left (congrArg Prod.fst)

/-- Zero has no zeros behind it. -/
theorem isWhole_zeros (d : Decimal) :
    IsWhole (d.significantDigits.1 ++ List.replicate d.significantDigits.2.toNat '0') := by
  obtain ⟨hdigits, -⟩ := isWhole_significantDigits d
  refine ⟨fun c hc => (List.mem_append.1 hc).elim (hdigits c) isDigit_of_mem_zeros, ?_⟩
  obtain h | ⟨c, ds, h, hc⟩ := significantDigits_first d
  · rw [h]
    exact .inl rfl
  · rw [h]
    exact .inr ⟨c, _, rfl, hc⟩

theorem isWritten_numeral (l : Layout) (negative : Bool) (d : Decimal) :
    (l.numeral negative d).IsWritten := by
  have hwhole := isWhole_significantDigits d
  have hzeros := isWhole_zeros d
  have hlength := hwhole.length_pos
  simp only [Layout.numeral]
  split
  · split
    · refine ⟨hzeros, ?_, by simp⟩
      rintro _ ⟨⟩
      exact isPart_toDigits 0
    · split
      · refine ⟨hwhole.take (by omega), ?_, by simp⟩
        rintro _ ⟨⟩
        exact hwhole.drop (by omega)
      · refine ⟨⟨(isPart_toDigits 0).digits, .inl rfl⟩, ?_, by simp⟩
        rintro _ ⟨⟩
        exact hwhole.behind_zeros _
  · refine ⟨hwhole.take Nat.one_pos, ?_, ?_⟩
    · intro fs hfs
      split at hfs
      · cases hfs
      · cases hfs
        exact hwhole.drop (by omega)
    · rintro _ _ ⟨⟩
      exact isPart_toDigits _

/-! Decimals that are not too large -/

/-- A moderate decimal whose first digit stands far in front of the point is a large one. -/
theorem IsModerate.inRange (h : d.IsModerate) {ds : List Char} {z : Nat}
    (hpos : 0 < d.coefficient)
    (hsplit : Nat.toDigits 10 d.coefficient = ds ++ List.replicate z '0')
    (hfirst : 17 ≤ d.exponent + z + ds.length - 1) : d.InRange := by
  cases h with
  | large h => exact h
  | small h =>
    have hlow := (length_toDigits_bounds hpos).1
    rw [hsplit, List.length_append, List.length_replicate] at hlow
    have hvalue := Nat.lt_of_le_of_lt (Nat.mul_le_mul_right (10 ^ d.exponent.toNat) hlow) h
    have htwo : (2 : Nat) ^ 56 ≤ 10 ^ 17 := by decide
    have hten := Nat.lt_of_lt_of_le hvalue (Nat.mul_le_mul_right _ htwo)
    rw [← Nat.pow_add, ← Nat.pow_add, Nat.pow_lt_pow_iff_right (by decide)] at hten
    omega

/-- The digits of a great number are all read, and no more zeros than it has are added. -/
theorem InRange.isSome_float? (h : d.InRange) {ds : List Char} {z : Nat} {first : Int}
    (hpos : 0 < d.coefficient)
    (hsplit : Nat.toDigits 10 d.coefficient = ds ++ List.replicate z '0') (hds : 0 < ds.length)
    (hfirst : first = d.exponent + z + ds.length - 1) {n : Numeral} (hwhole : n.whole = ds.take 1)
    (hfraction : n.fraction.getD [] = ds.drop 1) (hn : n.exponentValue ≤ first) :
    n.float?.isSome := by
  have hcoefficient : Nat.ofDigitChars 10 ds 0 * 10 ^ z = d.coefficient := by
    rw [← Nat.ofDigitChars_ten_toDigits (n := d.coefficient), hsplit, Nat.ofDigitChars_append,
      Nat.ofDigitChars_replicate_zero, Nat.mul_comm]
  have hread : Nat.ofDigitChars 10 (ds.drop 1) (Nat.ofDigitChars 10 (ds.take 1) 0) =
      Nat.ofDigitChars 10 ds 0 := by
    rw [← Nat.ofDigitChars_append, List.take_append_drop]
  have hle : Nat.ofDigitChars 10 ds 0 ≤ d.coefficient :=
    hcoefficient ▸ Nat.le_mul_of_pos_right _ (Nat.pow_pos (by decide))
  have hten : (10 : Nat) ^ 17 < 2 ^ 64 := by decide
  have hdigits := h.coefficient_le
  have hfits : Nat.ofDigitChars 10 (ds.drop 1) (Nat.ofDigitChars 10 (ds.take 1) 0) < 2 ^ 64 := by
    omega
  have htakeWhole : takeDigits 0 n.whole = (Nat.ofDigitChars 10 (ds.take 1) 0, []) := by
    rw [hwhole]
    exact takeDigits_eq (Nat.lt_of_le_of_lt (le_ofDigitChars _ _) hfits)
  have htakeFraction := takeDigits_eq hfits
  rw [hread, ← hfraction] at htakeFraction
  refine Numeral.isSome_float? htakeWhole htakeFraction (h.isSome_scale ?_ hcoefficient ?_)
  · by_contra hzero
    rw [Nat.eq_zero_of_not_pos hzero, Nat.zero_mul] at hcoefficient
    omega
  · rw [hfraction, List.length_drop]
    simp only [List.length_nil]
    omega

/-- With one digit before the point, the exponent is that of the first digit. -/
theorem isSome_float?_of_exponent (h : d.IsModerate) {ds : List Char} {z : Nat} {first : Int}
    (hpos : 0 < d.coefficient)
    (hsplit : Nat.toDigits 10 d.coefficient = ds ++ List.replicate z '0') (hds : 0 < ds.length)
    (hfirst : first = d.exponent + z + ds.length - 1) {n : Numeral} (hwhole : n.whole = ds.take 1)
    (hfraction : n.fraction.getD [] = ds.drop 1)
    (hexponent : n.exponent = some (decide (first < 0), Nat.toDigits 10 first.natAbs)) :
    n.float?.isSome := by
  have hvalue := exponentValue_le hexponent
  simp only [decide_eq_true_eq] at hvalue
  by_cases hsmall : first < 287
  · refine isSome_float?_of_lt ?_
    rw [hwhole, List.length_take]
    split at hvalue <;> omega
  · rw [if_neg (by omega)] at hvalue
    have hrange := h.inRange hpos hsplit (by omega)
    exact hrange.isSome_float? hpos hsplit hds hfirst hwhole hfraction (by omega)

theorem isSome_float?_numeral (negative : Bool) (h : d.IsModerate) :
    (Json.Number.layout.numeral negative d).float?.isSome := by
  by_cases hpos : 0 < d.coefficient
  · obtain ⟨ds, z, hdigits, hds, hsplit⟩ := significantDigits_eq hpos
    have hlength := List.length_pos_of_ne_nil hds
    simp only [Layout.numeral, hdigits, Json.Number.layout]
    split
    · -- No more than sixteen digits stand before the point.
      split
      · refine isSome_float?_of_lt ?_
        simp only [List.length_append, List.length_replicate, exponentValue]
        omega
      · split
        · refine isSome_float?_of_lt ?_
          simp only [List.length_take, exponentValue]
          omega
        · refine isSome_float?_of_lt ?_
          simp only [List.length_singleton, exponentValue]
          omega
    · refine isSome_float?_of_exponent h hpos hsplit hlength rfl rfl ?_ rfl
      split
      · rename_i hone
        exact (List.drop_eq_nil_of_le hone).symm
      · rfl
  · simp only [Layout.numeral, significantDigits_zero (Nat.eq_zero_of_not_pos hpos),
      Json.Number.layout]
    exact isSome_float?_of_lt (by cases negative <;> decide)

end Decimal

namespace Json.Number

/-- The printed form of a finite float is a numeral that is not too large. -/
theorem isSome_reread?_float {x : Float} (hx : x.isFinite = true) :
    (Number.float x).reread?.isSome := by
  have hprint : ∃ negative, (Number.float x).print =
      (layout.numeral negative (.ofFloat x)).text := by
    simp only [print, hx, if_true, Decimal.text_numeral]
    split
    · exact ⟨false, rfl⟩
    · exact ⟨true, rfl⟩
  obtain ⟨negative, hprint⟩ := hprint
  obtain ⟨y, hy⟩ := Option.isSome_iff_exists.1
    (Decimal.isSome_float?_numeral negative (Decimal.isModerate_ofFloat hx))
  have hnumber : ofNumeral? (layout.numeral negative (.ofFloat x)) = some (.float y) := by
    simp [ofNumeral?, Decimal.integer?_numeral, hy]
  have htokens := tokens_text (Decimal.isWritten_numeral _ _ _) hnumber
  simp [reread?, hprint, htokens]

theorem IsFinite.isSome_reread? {n : Number} (h : n.IsFinite) : n.reread?.isSome := by
  cases n with
  | integer n fits => simp [reread?_integer]
  | float x => exact isSome_reread?_float h

end Json.Number

end FlowDiagram
