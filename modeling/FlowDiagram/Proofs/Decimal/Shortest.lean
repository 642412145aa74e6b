import FlowDiagram.Decimal.Shortest
import FlowDiagram.Proofs.Decimal.Overflow
/-! How many digits the shortest decimal of a float has, and how great the number is that they stand
for. -/

namespace FlowDiagram.Decimal

theorem length_toDigits_bounds {n : Nat} (hn : 0 < n) :
    10 ^ ((Nat.toDigits 10 n).length - 1) ≤ n ∧ n < 10 ^ (Nat.toDigits 10 n).length := by
  have hpos : 0 < (Nat.toDigits 10 n).length := Nat.length_toDigits_pos
  constructor
  · by_cases hone : (Nat.toDigits 10 n).length = 1
    · rw [hone]
      exact hn
    · by_contra hlt
      have hle :=
        (Nat.length_toDigits_le_iff (b := 10) (by decide) (by omega)).2 (Nat.lt_of_not_le hlt)
      omega
  · exact (Nat.length_toDigits_le_iff (by decide) hpos).1 (Nat.le_refl _)

/-- The leading exponent of an integer. -/
theorem leadingExponent_one {n : Nat} (hn : 0 < n) :
    ∃ e : Nat, leadingExponent n 1 = e ∧ 10 ^ e ≤ n ∧ n < 10 ^ (e + 1) := by
  have hpos : 0 < (Nat.toDigits 10 n).length := Nat.length_toDigits_pos
  obtain ⟨hlow, hhigh⟩ := length_toDigits_bounds hn
  refine ⟨(Nat.toDigits 10 n).length - 1, ?_, hlow, ?_⟩
  · rw [leadingExponent, if_pos (by omega), Nat.div_one]
    omega
  · rwa [Nat.sub_add_cancel hpos]

namespace Interval

variable {i : Interval} {k : Int} {d : Decimal}

theorem contains_le {num den : Nat} (h : i.contains num den = true) :
    num * i.den ≤ i.high * den := by
  rw [contains] at h
  split at h
  · simp only [Bool.and_eq_true, decide_eq_true_eq] at h
    exact h.2
  · simp only [Bool.and_eq_true, decide_eq_true_eq] at h
    exact Nat.le_of_lt h.2

/-- What stands on the grid below the middle, or at it. -/
def below (i : Interval) (k : Int) : Nat :=
  i.mid * 10 ^ (-k).toNat / (i.den * 10 ^ k.toNat)

theorem unit_eq (k : Int) : (if 0 ≤ k then Nat.pow 10 k.toNat else 1) = 10 ^ k.toNat := by
  split
  · rfl
  · rw [Int.toNat_of_nonpos (by omega), Nat.pow_zero]

theorem parts_eq (k : Int) : (if 0 ≤ k then 1 else Nat.pow 10 (-k).toNat) = 10 ^ (-k).toNat := by
  split
  · rw [Int.toNat_of_nonpos (by omega), Nat.pow_zero]
  · rfl

theorem hitOnGrid_eq_some (h : i.hitOnGrid k = some d) :
    d.exponent = k ∧ d.coefficient ≤ i.below k + 1 ∧
      i.contains (d.coefficient * 10 ^ k.toNat) (10 ^ (-k).toNat) = true := by
  simp only [hitOnGrid, unit_eq, parts_eq] at h
  split at h
  · rename_i hbelow habove
    cases h
    refine ⟨rfl, ?_, ?_⟩
    · split
      · exact Nat.le_succ _
      · exact Nat.le_refl _
    · split
      · exact hbelow
      · exact habove
  · rename_i hbelow _
    cases h
    exact ⟨rfl, Nat.le_succ _, hbelow⟩
  · rename_i _ habove
    cases h
    exact ⟨rfl, Nat.le_refl _, habove⟩
  · cases h

theorem hitOnGrid_eq_none (h : i.hitOnGrid k = none) :
    i.contains (i.below k * 10 ^ k.toNat) (10 ^ (-k).toNat) = false ∧
      i.contains ((i.below k + 1) * 10 ^ k.toNat) (10 ^ (-k).toNat) = false := by
  simp only [hitOnGrid, unit_eq, parts_eq] at h
  split at h
  · cases h
  · cases h
  · cases h
  · rename_i hbelow habove
    exact ⟨hbelow, habove⟩

/-- What is shortest does not exceed the interval. -/
theorem shortest_le (h : i.mid ≤ i.high) :
    i.shortest.coefficient * 10 ^ i.shortest.exponent.toNat * i.den ≤
      i.high * 10 ^ (-i.shortest.exponent).toNat := by
  rw [shortest]
  cases hfind : (List.range 17).findSome? fun n => i.hitOnGrid (leadingExponent i.mid i.den - (n : Nat)) with
  | none =>
    simp only [Option.getD_none, Int.toNat_zero, Nat.pow_zero, Nat.mul_one, Int.neg_zero]
    exact Nat.le_trans (Nat.div_mul_le_self _ _) h
  | some d =>
    obtain ⟨n, -, hhit⟩ := List.exists_of_findSome?_eq_some hfind
    obtain ⟨hexponent, -, hcontains⟩ := hitOnGrid_eq_some hhit
    rw [Option.getD_some, hexponent]
    exact contains_le hcontains

/-- An interval of integers in which the middle lies strictly, and which is wide for it. -/
structure IsWide (i : Interval) : Prop where
  den : i.den = 1
  low_lt : i.low < i.mid
  lt_high : i.mid < i.high
  width : i.mid < 10 ^ 16 * (i.high - i.low)

theorem contains_one (h : i.IsWide) (n : Nat) (hn : i.contains n 1 = false) :
    n ≤ i.low ∨ i.high ≤ n := by
  rw [contains, h.den] at hn
  split at hn
  · simp only [Bool.and_eq_false_iff, decide_eq_false_iff_not] at hn
    omega
  · simp only [Bool.and_eq_false_iff, decide_eq_false_iff_not] at hn
    omega

/-- On the grid of seventeen digits there is a number in the interval: the grid is finer than it. -/
theorem hitOnGrid_ne_none (h : i.IsWide) {e : Nat} (hlow : 10 ^ e ≤ i.mid) (he : 16 ≤ e) :
    i.hitOnGrid ((e : Int) - 16) ≠ none := by
  intro hnone
  obtain ⟨hbelow, habove⟩ := hitOnGrid_eq_none hnone
  have hunit : ((e : Int) - 16).toNat = e - 16 := by omega
  have hparts : (-((e : Int) - 16)).toNat = 0 := by omega
  rw [hunit, hparts, Nat.pow_zero] at hbelow habove
  have hdiv : i.below ((e : Int) - 16) = i.mid / 10 ^ (e - 16) := by
    rw [below, hunit, hparts, h.den, Nat.pow_zero, Nat.mul_one, Nat.one_mul]
  rw [hdiv] at hbelow habove
  have hpos : 0 < 10 ^ (e - 16) := Nat.pow_pos (by decide)
  have hfloor : i.mid / 10 ^ (e - 16) * 10 ^ (e - 16) ≤ i.mid := Nat.div_mul_le_self _ _
  have hceil : i.mid < (i.mid / 10 ^ (e - 16) + 1) * 10 ^ (e - 16) := by
    rw [Nat.mul_comm]
    exact Nat.lt_mul_div_succ _ hpos
  have hlowSide := (contains_one h _ hbelow).resolve_right (by have hhigh := h.lt_high; omega)
  have hhighSide := (contains_one h _ habove).resolve_left (by have hlow := h.low_lt; omega)
  have hcoarse : i.high - i.low ≤ 10 ^ (e - 16) := by
    rw [Nat.add_mul, Nat.one_mul] at hhighSide
    omega
  have hsplit : 10 ^ 16 * 10 ^ (e - 16) = 10 ^ e := by
    rw [← Nat.pow_add, Nat.add_sub_cancel' he]
  have hwidth := Nat.mul_le_mul_left (10 ^ 16) hcoarse
  have hmid := h.width
  omega

/-- Seventeen digits suffice. -/
theorem shortest_of_isWide (h : i.IsWide) (hmid : 10 ^ 16 ≤ i.mid) :
    i.shortest.coefficient ≤ 10 ^ 17 ∧ 0 ≤ i.shortest.exponent := by
  obtain ⟨e, he, hlow, hhigh⟩ := leadingExponent_one (n := i.mid) (by have hlt := h.low_lt; omega)
  have hmost : 16 ≤ e := by
    by_contra hlt
    have hpow : 10 ^ (e + 1) ≤ 10 ^ 16 := Nat.pow_le_pow_right (by decide) (by omega)
    omega
  rw [shortest, h.den, he]
  cases hfind : (List.range 17).findSome? fun n => i.hitOnGrid ((e : Int) - (n : Nat)) with
  | none =>
    have hnone := List.findSome?_eq_none_iff.1 hfind 16 (by decide)
    exact absurd hnone (hitOnGrid_ne_none h hlow hmost)
  | some d =>
    obtain ⟨n, hn, hhit⟩ := List.exists_of_findSome?_eq_some hfind
    have hn := List.mem_range.1 hn
    obtain ⟨hexponent, hcoefficient, -⟩ := hitOnGrid_eq_some hhit
    rw [Option.getD_some, hexponent]
    refine ⟨Nat.le_trans hcoefficient ?_, by omega⟩
    have hunit : ((e : Int) - n).toNat = e - n := by omega
    have hparts : (-((e : Int) - n)).toNat = 0 := by omega
    rw [below, hunit, hparts, h.den, Nat.pow_zero, Nat.mul_one, Nat.one_mul]
    have hsplit : 10 ^ (e + 1) ≤ 10 ^ 17 * 10 ^ (e - n) := by
      rw [← Nat.pow_add]
      exact Nat.pow_le_pow_right (by decide) (by omega)
    exact (Nat.div_lt_iff_lt_mul (Nat.pow_pos (by decide))).2 (Nat.lt_of_lt_of_le hhigh hsplit)

end Interval

/-! The intervals of floats -/

/-- The interval around a mantissa at an exponent, in quarters of its unit. -/
def Interval.around (m gap : Nat) (q : Int) : Interval where
  low := (twoPowRatio (4 * m - gap) (q - 2)).1
  mid := (twoPowRatio (4 * m) (q - 2)).1
  high := (twoPowRatio (4 * m + 2) (q - 2)).1
  den := (twoPowRatio (4 * m - gap) (q - 2)).2
  closed := m % 2 == 0

open Float.Model UnpackedFloat in
/-- A finite float does not have the greatest exponent. -/
theorem exponentField_lt {x : Float} (hx : x.isFinite = true) :
    x.toBits.toNat / 0x10000000000000 % 0x800 < 2047 := by
  have hfield : (@unpackExponent .binary64 x.toModel.toBits.toBitVec).toNat =
      x.toBits.toNat / 0x10000000000000 % 0x800 := by
    have hbits : x.toModel.toBits.toBitVec.toNat = x.toBits.toNat := rfl
    rw [unpackExponent, BitVec.toNat_cast, BitVec.extractLsb_toNat, hbits, Nat.shiftRight_eq_div_pow]
    rfl
  have hall : @unpackExponent .binary64 x.toModel.toBits.toBitVec ≠ -1#_ := by
    intro heq
    have hunpack : x.isFinite =
        (UnpackedFloat.unpack .binary64 x.toModel.toBits.toBitVec).isFinite := rfl
    rw [hunpack, UnpackedFloat.unpack] at hx
    simp only [heq, if_true] at hx
    split at hx <;> cases hx
  have hne : (@unpackExponent .binary64 x.toModel.toBits.toBitVec).toNat ≠ 2047 :=
    fun hnat => hall (BitVec.eq_of_toNat_eq hnat)
  have hlt : x.toBits.toNat / 0x10000000000000 % 0x800 < 0x800 := Nat.mod_lt _ (by decide)
  omega

/-- A mantissa of at most 53 bits at an exponent that a float can have. -/
structure IsMantissa (m gap : Nat) (q : Int) : Prop where
  pos : 0 < m
  lt : m < 2 ^ 53
  gap : gap = 2 ∨ gap = 1 ∧ m = 2 ^ 52
  exponent : q ≤ 971

theorem roundingInterval_eq {x : Float} (hx : x.isFinite = true)
    (hne : x.toBits % 0x8000000000000000 ≠ 0) :
    ∃ m gap q, IsMantissa m gap q ∧ roundingInterval x = .around m gap q := by
  have hfield := exponentField_lt hx
  have hbits : x.toBits.toNat % 0x8000000000000000 ≠ 0 := by
    intro h
    apply hne
    apply UInt64.toNat_inj.1
    rw [UInt64.toNat_mod]
    exact h
  have hfraction : x.toBits.toNat % 0x10000000000000 < 0x10000000000000 := Nat.mod_lt _ (by decide)
  simp only [roundingInterval]
  generalize hf : x.toBits.toNat / 0x10000000000000 % 0x800 = field at hfield
  generalize hr : x.toBits.toNat % 0x10000000000000 = fraction at hfraction
  refine ⟨_, _, _, ⟨?_, ?_, ?_, ?_⟩, rfl⟩
  · split <;> omega
  · split <;> omega
  · by_cases hgap : fraction = 0 ∧ 1 < field
    · rw [if_pos hgap, if_neg (by omega), hgap.1]
      exact .inr ⟨rfl, rfl⟩
    · exact .inl (if_neg hgap)
  · split <;> omega

namespace IsMantissa

variable {m gap : Nat} {q : Int}

theorem around_of_le (m gap : Nat) (hq : 2 ≤ q) :
    Interval.around m gap q =
      ⟨(4 * m - gap) * 2 ^ (q - 2).toNat, 4 * m * 2 ^ (q - 2).toNat,
        (4 * m + 2) * 2 ^ (q - 2).toNat, 1,
        m % 2 == 0⟩ := by
  simp only [Interval.around, twoPowRatio, if_pos (show 0 ≤ q - 2 by omega)]
  rfl

theorem mid_le_high (m gap : Nat) (q : Int) :
    (Interval.around m gap q).mid ≤ (Interval.around m gap q).high := by
  simp only [Interval.around, twoPowRatio]
  split
  · exact Nat.mul_le_mul_right _ (by omega)
  · exact Nat.le_add_right _ _

theorem den_pos (m gap : Nat) (q : Int) : 0 < (Interval.around m gap q).den := by
  simp only [Interval.around, twoPowRatio]
  split
  · exact Nat.one_pos
  · exact Nat.two_pow_pos _

theorem isWide (h : IsMantissa m gap q) (hq : 2 ≤ q) : (Interval.around m gap q).IsWide := by
  obtain ⟨hpos, hlt, hgap, -⟩ := h
  have hunit := Nat.two_pow_pos (q - 2).toNat
  rw [around_of_le m gap hq]
  refine ⟨rfl, ?_, ?_, ?_⟩
  · exact Nat.mul_lt_mul_of_pos_right (by omega) hunit
  · exact Nat.mul_lt_mul_of_pos_right (by omega) hunit
  · rw [← Nat.sub_mul, ← Nat.mul_assoc]
    exact Nat.mul_lt_mul_of_pos_right (by omega) hunit

/-- All floats but the greatest round from what lies below the two greatest. -/
theorem high_le_nearMost (h : IsMantissa m gap q) (hq : 2 ≤ q)
    (hmost : ¬(m = 2 ^ 53 - 1 ∧ q = 971)) :
    (4 * m + 2) * 2 ^ (q - 2).toNat ≤ nearMost := by
  obtain ⟨hpos, hlt, -, hexponent⟩ := h
  have hnearMost : nearMost = (2 ^ 55 - 6) * 2 ^ 969 := by decide +kernel
  rw [hnearMost]
  by_cases htop : q = 971
  · have hunit : (q - 2).toNat = 969 := by omega
    have hle : 4 * m + 2 ≤ 2 ^ 55 - 6 := by omega
    rw [hunit]
    generalize 2 ^ 969 = unit
    exact Nat.mul_le_mul_right unit hle
  · have hle : 4 * m + 2 ≤ 2 ^ 55 := by omega
    have hpow : ∀ k, (q - 2).toNat ≤ k → 2 ^ (q - 2).toNat ≤ 2 ^ k :=
      fun k hk => Nat.pow_le_pow_right (by decide) hk
    refine Nat.le_trans (Nat.mul_le_mul hle (hpow 968 (by omega))) ?_
    decide +kernel

/-- Where floats lie closer than four to each other, all numbers of an interval are small. -/
theorem high_lt_of_small (h : IsMantissa m gap q)
    (hsmall : q < 2 ∨ (Interval.around m gap q).mid < 10 ^ 16) :
    (Interval.around m gap q).high < 2 ^ 56 * (Interval.around m gap q).den := by
  have hpos := h.pos
  have hlt := h.lt
  by_cases hq : q < 2
  · have hhigh : (Interval.around m gap q).high = 4 * m + 2 := by
      simp only [Interval.around, twoPowRatio, if_neg (show ¬0 ≤ q - 2 by omega)]
    have hle := Nat.mul_le_mul_left (2 ^ 56) (den_pos m gap q)
    rw [Nat.mul_one] at hle
    omega
  · have hmid := hsmall.resolve_left hq
    rw [around_of_le m gap (by omega)] at hmid ⊢
    have hdouble : (4 * m + 2) * 2 ^ (q - 2).toNat ≤ 2 * (4 * m * 2 ^ (q - 2).toNat) := by
      rw [← Nat.mul_assoc]
      exact Nat.mul_le_mul_right _ (by omega)
    simp only at hmid ⊢
    omega

end IsMantissa

/-- The greatest float has an odd mantissa and no float above it. -/
def most : Decimal := ⟨17976931348623157, 292⟩

theorem shortest_most (gap : Nat) (hgap : gap = 2 ∨ gap = 1 ∧ 2 ^ 53 - 1 = 2 ^ 52) :
    (Interval.around (2 ^ 53 - 1) gap 971).shortest = most := by
  obtain rfl | ⟨-, h⟩ := hgap
  · decide +kernel
  · cases h

/-- A whole number of no more than seventeen digits and zeros behind them, below the greatest floats
or equal to the greatest one. -/
structure InRange (d : Decimal) : Prop where
  coefficient_le : d.coefficient ≤ 10 ^ 17
  exponent_nonneg : 0 ≤ d.exponent
  value : d.coefficient * 10 ^ d.exponent.toNat ≤ nearMost ∨ d = most

/-- A small number, however many digits it has, or one of no more than seventeen. -/
inductive IsModerate (d : Decimal) : Prop
  | small (h : d.coefficient * 10 ^ d.exponent.toNat < 2 ^ 56 * 10 ^ (-d.exponent).toNat)
  | large (h : d.InRange)

theorem isModerate_ofFloat {x : Float} (hx : x.isFinite = true) : (ofFloat x).IsModerate := by
  rw [ofFloat]
  split
  · exact .small (by decide)
  · rename_i hne
    obtain ⟨m, gap, q, hmantissa, heq⟩ := roundingInterval_eq hx hne
    rw [heq]
    have hle := Interval.shortest_le (IsMantissa.mid_le_high m gap q)
    by_cases hsmall : q < 2 ∨ (Interval.around m gap q).mid < 10 ^ 16
    · refine .small ?_
      have hhigh := hmantissa.high_lt_of_small hsmall
      have hpos := IsMantissa.den_pos m gap q
      generalize Interval.around m gap q = i at hle hhigh hpos
      refine Nat.lt_of_mul_lt_mul_right (a := i.den) (Nat.lt_of_le_of_lt hle ?_)
      rw [Nat.mul_right_comm]
      exact Nat.mul_lt_mul_of_pos_right hhigh (Nat.pow_pos (by decide))
    · have hq : 2 ≤ q := by omega
      obtain ⟨hdigits, hexponent⟩ := Interval.shortest_of_isWide (hmantissa.isWide hq) (by omega)
      refine .large ⟨hdigits, hexponent, ?_⟩
      by_cases hmost : m = 2 ^ 53 - 1 ∧ q = 971
      · obtain ⟨rfl, rfl⟩ := hmost
        exact .inr (shortest_most gap hmantissa.gap)
      · refine .inl (Nat.le_trans ?_ (hmantissa.high_le_nearMost hq hmost))
        have hparts : (-(Interval.around m gap q).shortest.exponent).toNat = 0 := by omega
        have hhigh : (Interval.around m gap q).high = (4 * m + 2) * 2 ^ (q - 2).toNat := by
          rw [IsMantissa.around_of_le m gap hq]
        rwa [hparts, Nat.pow_zero, Nat.mul_one, (hmantissa.isWide hq).den, Nat.mul_one, hhigh] at hle

end FlowDiagram.Decimal
