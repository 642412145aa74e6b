import FlowDiagram.Decimal.Layout
import FlowDiagram.Proofs.Decimal.Shortest
/-! The significant digits of decimals, and what is read of them. -/

namespace FlowDiagram.Decimal

open Numeral

variable {d : Decimal} {n z : Nat} {e : Int} {ds : List Char}

/-- The digits of a positive number are its significant ones, and zeros. -/
theorem significantDigits_eq (h : 0 < d.coefficient) :
    ∃ ds z, d.significantDigits = (ds, d.exponent + (z : Nat)) ∧ ds ≠ [] ∧
      Nat.toDigits 10 d.coefficient = ds ++ List.replicate z '0' := by
  have hdigits := List.takeWhile_append_dropWhile (p := fun c => decide (c = '0'))
    (l := (Nat.toDigits 10 d.coefficient).reverse)
  have hzeros : ∀ c ∈ (Nat.toDigits 10 d.coefficient).reverse.takeWhile (· = '0'), c = '0' :=
    fun c hc => by simpa using List.mem_takeWhile_imp hc
  rw [significantDigits]
  generalize (Nat.toDigits 10 d.coefficient).reverse.takeWhile (· = '0') = zeros at hdigits hzeros
  generalize (Nat.toDigits 10 d.coefficient).reverse.dropWhile (· = '0') = kept at hdigits
  have hsplit : Nat.toDigits 10 d.coefficient =
      kept.reverse ++ List.replicate zeros.length '0' := by
    rw [← List.reverse_inj, ← hdigits, List.eq_replicate_of_mem hzeros]
    simp
  have hkept : kept ≠ [] := by
    rintro rfl
    have hvalue := Nat.ofDigitChars_ten_toDigits (n := d.coefficient)
    rw [hsplit, List.reverse_nil, List.nil_append, Nat.ofDigitChars_replicate_zero] at hvalue
    omega
  refine ⟨kept.reverse, zeros.length, ?_, by simpa using hkept, hsplit⟩
  have hlength : (Nat.toDigits 10 d.coefficient).length - kept.reverse.length = zeros.length := by
    rw [hsplit, List.length_append, List.length_replicate]
    omega
  have hempty : kept.reverse.isEmpty = false := by simpa using hkept
  simp only [hempty, hlength, Bool.false_eq_true, if_false]

theorem significantDigits_zero (h : d.coefficient = 0) : d.significantDigits = (['0'], 0) := by
  rw [significantDigits, h]
  rfl

/-! Digits that fit the significand -/

theorem le_ofDigitChars (ds : List Char) (s : Nat) : s ≤ Nat.ofDigitChars 10 ds s := by
  rw [Nat.ofDigitChars_eq_ofDigitChars_zero]
  exact Nat.le_trans (Nat.le_mul_of_pos_left _ (Nat.pow_pos (by decide))) (Nat.le_add_right _ _)

theorem takeDigits_eq {s : Nat} (h : Nat.ofDigitChars 10 ds s < 2 ^ 64) :
    takeDigits s ds = (Nat.ofDigitChars 10 ds s, []) := by
  induction ds generalizing s with
  | nil => rfl
  | cons c ds ih =>
    rw [Nat.ofDigitChars_cons] at h ⊢
    have hnext : 10 * s + (c.toNat - '0'.toNat) < 0x10000000000000000 :=
      Nat.lt_of_le_of_lt (le_ofDigitChars _ _) h
    rw [takeDigits, if_pos hnext, ih h]

theorem length_takeDigits_le (s : Nat) (ds : List Char) :
    (takeDigits s ds).2.length ≤ ds.length := by
  induction ds generalizing s with
  | nil => exact Nat.le_refl _
  | cons c ds ih =>
    rw [takeDigits]
    split
    · exact Nat.le_trans (ih _) (Nat.le_succ _)
    · exact Nat.le_refl _

theorem foldl_min_le (most : Nat) (ds : List Char) {j k : Nat} (hjk : j ≤ k) :
    ds.foldl (fun n c => Nat.min (10 * n + (c.toNat - '0'.toNat)) most) j ≤
      Nat.ofDigitChars 10 ds k := by
  induction ds generalizing j k with
  | nil => exact hjk
  | cons c ds ih =>
    rw [List.foldl_cons, Nat.ofDigitChars_cons]
    exact ih (Nat.le_trans (Nat.min_le_left _ _) (by omega))

theorem valueUpTo_le (most : Nat) (ds : List Char) : valueUpTo most ds ≤ Nat.ofDigitChars 10 ds 0 :=
  foldl_min_le most ds (Nat.le_refl 0)

/-! Scaling significant digits -/

theorem isSome_scale_most :
    (scale (UInt64.ofNat most.coefficient).toFloat most.exponent).isSome := by
  decide +kernel

/-- Digits of a number in range are scaled by the zeros that it has, or fewer. -/
theorem InRange.isSome_scale (h : d.InRange) (hpos : 0 < n) (hn : n * 10 ^ z = d.coefficient)
    (he : e ≤ d.exponent + z) : (scale (UInt64.ofNat n).toFloat e).isSome := by
  obtain ⟨hdigits, hexponent, hvalue⟩ := h
  have hle : n ≤ 10 ^ 17 := by
    have hself := Nat.le_mul_of_pos_right n (Nat.pow_pos (n := z) (show 0 < 10 by decide))
    omega
  by_cases hsmall : e < 288
  · exact isSome_scale_of_lt _ hsmall
  · obtain hvalue | rfl := hvalue
    · refine isSome_scale_of_le hpos hle (Nat.le_trans ?_ hvalue)
      rw [← hn, Nat.mul_assoc, ← Nat.pow_add]
      exact Nat.mul_le_mul_left _ (Nat.pow_le_pow_right (by decide) (by omega))
    · -- The last digit of the greatest float is not zero.
      have hz : z = 0 := by
        cases z with
        | zero => rfl
        | succ z =>
          rw [Nat.pow_succ, ← Nat.mul_assoc] at hn
          have hodd : most.coefficient % 10 = 7 := rfl
          omega
      subst hz
      obtain rfl : n = most.coefficient := by simpa using hn
      have hmost : most.exponent = 292 := rfl
      by_cases hlast : e = most.exponent
      · rw [hlast]
        exact isSome_scale_most
      · refine isSome_scale_of_le hpos hle ?_
        have hpow : ∀ k, e.toNat ≤ k → 10 ^ e.toNat ≤ 10 ^ k :=
          fun k hk => Nat.pow_le_pow_right (by decide) hk
        refine Nat.le_trans (Nat.mul_le_mul_left _ (hpow 291 (by omega))) ?_
        decide +kernel

end FlowDiagram.Decimal
