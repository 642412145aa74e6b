import FlowDiagram.Proofs.Decimal.Finite
/-! Products that do not overflow: digits are scaled to a float as long as the number that they stand
for lies below the greatest one. -/

namespace FlowDiagram.Decimal

open Float.Model UnpackedFloat

theorem AtMost.mono {u : UnpackedFloat} {j k : Int} (h : AtMost j u) (hjk : j ≤ k) :
    AtMost k u := by
  cases h with
  | zero s => exact .zero s
  | finite hlog he => exact .finite hlog (Int.le_trans he hjk)

/-! Rounding once more -/

theorem roundBit_shiftRight (em : ExtendedMantissa) (k : Nat) :
    (em >>> (k + 1)).roundBit = (em.mantissa / 2 ^ k % 2 != 0) := by
  have hstep : (em >>> (k + 1)).roundBit = ((em >>> k).mantissa % 2 != 0) := rfl
  rw [hstep, mantissa_shiftRight]

theorem roundedMantissa_of_roundBit {em : ExtendedMantissa} (h : em.roundBit = false) :
    em.roundedMantissa = em.mantissa := by
  obtain ⟨m, roundBit, stickyBit⟩ := em
  cases h
  cases stickyBit <;> rfl

/-- What is less than half a unit above a full mantissa is rounded down to it. -/
theorem roundedMantissa_lt {m k : Nat} (h : m < (2 ^ 54 - 1) * 2 ^ k) :
    (ExtendedMantissa.ofMantissaAndAccuracy m .exact >>> (k + 1)).roundedMantissa < 2 ^ 53 := by
  generalize hem : ExtendedMantissa.ofMantissaAndAccuracy m .exact >>> (k + 1) = em
  have hmantissa : em.mantissa = m / 2 ^ k / 2 := by
    rw [← hem, mantissa_shiftRight, mantissa_ofMantissaAndAccuracy, Nat.pow_succ,
      Nat.div_div_eq_div_mul]
  have hquotient : m / 2 ^ k < 2 ^ 54 - 1 := (Nat.div_lt_iff_lt_mul (Nat.two_pow_pos k)).2 h
  by_cases hfull : em.mantissa = 2 ^ 53 - 1
  · have hbit : em.roundBit = false := by
      rw [← hem, roundBit_shiftRight, mantissa_ofMantissaAndAccuracy]
      have heven : m / 2 ^ k % 2 = 0 := by omega
      rw [heven]
      rfl
    rw [roundedMantissa_of_roundBit hbit]
    omega
  · have hle := roundedMantissa_le em
    omega

/-- How far a mantissa is shifted for its target exponent. -/
def shiftOf (m : Nat) (e : Int) : Nat := (max ((m.log2 : Int) + 1 + e - 53) (-1074) - e).toNat

theorem shiftOf_eq_zero {m : Nat} {e : Int} (hlog : m.log2 ≤ 52) (he : -1074 ≤ e) :
    shiftOf m e = 0 := by
  unfold shiftOf
  omega

/-- A mantissa is shifted and rounded, and shifted once more if that has carried. -/
theorem roundWithAccuracy_eq (sign : Sign) (m : Nat) (e : Int) (a : Accuracy) {k r j : Nat}
    (hk : shiftOf m e = k)
    (hr : (ExtendedMantissa.ofMantissaAndAccuracy m a >>> k).roundedMantissa = r)
    (hj : shiftOf r (e + k) = j) :
    roundWithAccuracy .binary64 sign m e a =
      if h : r / 2 ^ j = 0 then .zero sign
      else .finite sign (r / 2 ^ j) (e + k + j) (Nat.pos_of_ne_zero h) := by
  subst hk hr hj
  have hshifted : ∀ r k,
      (ExtendedMantissa.ofMantissaAndAccuracy r .exact >>> k).mantissa = r / 2 ^ k :=
    fun r k => by rw [mantissa_shiftRight, mantissa_ofMantissaAndAccuracy]
  simp only [← hshifted]
  rfl

/-- Rounding does not overflow below the middle between the greatest float and the power of two that
would follow it. -/
theorem atMost_roundWithAccuracy_of_lt {sign : Sign} {m : Nat} {e : Int} (he : e ≤ 970)
    (h : m < (2 ^ 54 - 1) * 2 ^ (970 - e).toNat) :
    AtMost 971 (roundWithAccuracy .binary64 sign m e .exact) := by
  by_cases hsmall : (m.log2 : Int) + e - 52 < 971
  · exact atMost_roundWithAccuracy (by decide) (by omega) hsmall
  · have hlog : (m.log2 : Int) + e = 1023 := by
      have hlt : m < 2 ^ (1023 - e).toNat.succ := by
        refine Nat.lt_trans h ?_
        have hexponent : (1023 - e).toNat.succ = 54 + (970 - e).toNat := by omega
        rw [hexponent, Nat.pow_add]
        exact Nat.mul_lt_mul_of_pos_right (by decide) (Nat.two_pow_pos _)
      have hle := log2_le_of_lt hlt
      omega
    have hshift : shiftOf m e = (970 - e).toNat + 1 := by
      unfold shiftOf
      omega
    have hlogRounded := log2_le_of_lt (roundedMantissa_lt h)
    have hexponent : e + ((970 - e).toNat + 1 : Nat) = 971 := by omega
    rw [roundWithAccuracy_eq sign m e .exact hshift rfl (j := 0)
      (by rw [hexponent]; exact shiftOf_eq_zero hlogRounded (by decide)), Nat.pow_zero]
    simp only [Nat.div_one]
    exact atMost_ofMantissa hlogRounded (by omega)

/-! Values of rounded integers -/

/-- Zero, or a mantissa of all 53 bits at an exponent with which it does not exceed a bound. -/
inductive ValueAtMost (bound : Nat) : UnpackedFloat → Prop
  | zero (s : Sign) : ValueAtMost bound (.zero s)
  | finite {s : Sign} {m : Nat} {e : Int} {hm : 0 < m} (hlog : m.log2 = 52) (hlow : -1074 ≤ e)
    (h : m * 2 ^ e.toNat ≤ bound * 2 ^ (-e).toNat) : ValueAtMost bound (.finite s m e hm)

theorem roundedMantissa_le_of_le {m k bound : Nat} (h : m ≤ bound * 2 ^ k) :
    (ExtendedMantissa.ofMantissaAndAccuracy m .exact >>> k).roundedMantissa ≤ bound := by
  generalize hem : ExtendedMantissa.ofMantissaAndAccuracy m .exact >>> k = em
  have hmantissa : em.mantissa = m / 2 ^ k := by
    rw [← hem, mantissa_shiftRight, mantissa_ofMantissaAndAccuracy]
  have hle : em.mantissa ≤ bound := by
    rw [hmantissa]
    exact Nat.div_le_of_le_mul (by rwa [Nat.mul_comm])
  by_cases hfull : em.mantissa = bound
  · -- The bound is met exactly, so that nothing is rounded.
    have hexact : m = bound * 2 ^ k := by
      have hdiv := Nat.div_mul_le_self m (2 ^ k)
      rw [← hmantissa, hfull] at hdiv
      exact Nat.le_antisymm h hdiv
    have hbit : em.roundBit = false := by
      cases k with
      | zero =>
        rw [← hem]
        rfl
      | succ k =>
        rw [← hem, roundBit_shiftRight, mantissa_ofMantissaAndAccuracy, hexact, Nat.pow_succ',
          ← Nat.mul_assoc, Nat.mul_div_cancel _ (Nat.two_pow_pos k), Nat.mul_mod_left]
        rfl
    rw [roundedMantissa_of_roundBit hbit]
    exact hle
  · have hone := roundedMantissa_le em
    omega

theorem roundWithAccuracy_of_log2_le {sign : Sign} {m : Nat} {e : Int} (hm : 0 < m)
    (hlog : m.log2 ≤ 52) (he : -1074 ≤ e) :
    roundWithAccuracy .binary64 sign m e .exact = .finite sign m e hm := by
  have hsame : (ExtendedMantissa.ofMantissaAndAccuracy m .exact >>> 0).roundedMantissa = m := rfl
  have hnone := shiftOf_eq_zero hlog he
  rw [roundWithAccuracy_eq sign m e .exact hnone hsame (j := 0) (by simpa using hnone)]
  simp [Nat.ne_of_gt hm]

theorem log2_eq {m k : Nat} (hlow : 2 ^ k ≤ m) (hhigh : m < 2 ^ (k + 1)) : m.log2 = k := by
  have hne : m ≠ 0 := by
    have hpos := Nat.two_pow_pos k
    omega
  have hle := log2_le_of_lt hhigh
  have hge := (Nat.le_log2 hne).2 hlow
  omega

/-- An integer of no more than 53 bits is not rounded. -/
theorem valueAtMost_shiftLeft {n bound : Nat} (hn : n ≠ 0) (h : n ≤ bound) (hlog : n.log2 ≤ 52) :
    ValueAtMost bound
      (roundWithAccuracy .binary64 .positive (n <<< (52 - n.log2)) (-(52 - n.log2 : Nat)) .exact) := by
  have hshift : n <<< (52 - n.log2) = n * 2 ^ (52 - n.log2) := Nat.shiftLeft_eq ..
  have hlow : 2 ^ 52 ≤ n <<< (52 - n.log2) := by
    have hle := Nat.mul_le_mul_right (2 ^ (52 - n.log2)) (Nat.log2_self_le hn)
    rwa [← Nat.pow_add, Nat.add_sub_cancel' hlog, ← hshift] at hle
  have hhigh : n <<< (52 - n.log2) < 2 ^ 53 := by
    have hlt := Nat.mul_lt_mul_of_pos_right (Nat.lt_log2_self (n := n)) (Nat.two_pow_pos (52 - n.log2))
    rwa [← Nat.pow_add, show n.log2 + 1 + (52 - n.log2) = 53 by omega, ← hshift] at hlt
  have hfull := log2_eq hlow hhigh
  rw [roundWithAccuracy_of_log2_le (by omega) (by omega) (by omega)]
  refine .finite hfull (by omega) ?_
  have hzero : (-((52 - n.log2 : Nat) : Int)).toNat = 0 := by omega
  have hback : (- -((52 - n.log2 : Nat) : Int)).toNat = 52 - n.log2 := by omega
  rw [hzero, hback, Nat.pow_zero, Nat.mul_one, hshift]
  exact Nat.mul_le_mul_right _ h

theorem log2_le_of_le_mul {n r f : Nat} (h : n ≤ r * 2 ^ f) (hr : r < 2 ^ 53) :
    n.log2 ≤ 52 + f := by
  refine log2_le_of_lt (Nat.lt_of_le_of_lt h ?_)
  rw [Nat.add_right_comm, Nat.pow_add]
  exact Nat.mul_lt_mul_of_pos_right hr (Nat.two_pow_pos f)

/-- An integer that is shifted to 53 bits has so many when it is rounded, or carries once. -/
theorem roundedMantissa_bounds {n k : Nat} (hn : n ≠ 0) (hlog : n.log2 = 52 + k) :
    2 ^ 52 ≤ (ExtendedMantissa.ofMantissaAndAccuracy n .exact >>> k).roundedMantissa ∧
      (ExtendedMantissa.ofMantissaAndAccuracy n .exact >>> k).roundedMantissa ≤ 2 ^ 53 := by
  have hlow := le_roundedMantissa (ExtendedMantissa.ofMantissaAndAccuracy n .exact >>> k)
  have hhigh := roundedMantissa_le (ExtendedMantissa.ofMantissaAndAccuracy n .exact >>> k)
  rw [mantissa_shiftRight, mantissa_ofMantissaAndAccuracy] at hlow hhigh
  have hfull := le_shifted hn (Nat.le_of_eq hlog.symm)
  have hfits := shifted_lt (Nat.le_of_eq hlog)
  constructor <;> omega

/-- The second shift leaves a mantissa of all 53 bits. -/
theorem log2_shiftOf {q k : Nat} (hlow : 2 ^ 52 ≤ q) (hhigh : q ≤ 2 ^ 53) :
    (q / 2 ^ shiftOf q k).log2 = 52 := by
  by_cases hcarry : q = 2 ^ 53
  · have hlog : q.log2 = 53 := by
      subst hcarry
      decide
    have hone : shiftOf q k = 1 := by
      unfold shiftOf
      omega
    subst hcarry
    rw [hone]
    decide
  · have hlog : q.log2 = 52 := log2_eq hlow (by omega)
    have hzero : shiftOf q k = 0 := by
      unfold shiftOf
      omega
    rwa [hzero, Nat.pow_zero, Nat.div_one]

/-- A longer integer is rounded to no more than a bound that is itself a float. -/
theorem valueAtMost_shiftRight {n r f : Nat} (h : n ≤ r * 2 ^ f) (hr : r < 2 ^ 53)
    (hlog : 52 < n.log2) :
    ValueAtMost (r * 2 ^ f) (roundWithAccuracy .binary64 .positive n 0 .exact) := by
  have hn : n ≠ 0 := by
    rintro rfl
    simp at hlog
  obtain ⟨k, hk⟩ : ∃ k, n.log2 = 52 + k := ⟨n.log2 - 52, by omega⟩
  have hkf : k ≤ f := by
    have hle := log2_le_of_le_mul h hr
    omega
  have hshift : shiftOf n 0 = k := by
    unfold shiftOf
    omega
  have hvalue : (ExtendedMantissa.ofMantissaAndAccuracy n .exact >>> k).roundedMantissa * 2 ^ k ≤
      r * 2 ^ f := by
    have hsplit : r * 2 ^ f = r * 2 ^ (f - k) * 2 ^ k := by
      rw [Nat.mul_assoc, ← Nat.pow_add, Nat.sub_add_cancel hkf]
    rw [hsplit] at h ⊢
    exact Nat.mul_le_mul_right _ (roundedMantissa_le_of_le h)
  obtain ⟨hlow, hhigh⟩ := roundedMantissa_bounds hn hk
  generalize hrounded : (ExtendedMantissa.ofMantissaAndAccuracy n .exact >>> k).roundedMantissa = q
    at hvalue hlow hhigh
  have hfull : (q / 2 ^ shiftOf q (0 + k)).log2 = 52 := by
    rw [Int.zero_add]
    exact log2_shiftOf hlow hhigh
  generalize hj : shiftOf q (0 + k) = j at hfull
  have hne : q / 2 ^ j ≠ 0 := by
    intro hzero
    rw [hzero] at hfull
    cases hfull
  rw [roundWithAccuracy_eq .positive n 0 .exact hshift hrounded hj, dif_neg hne]
  refine .finite hfull (by omega) ?_
  have hexponent : ((0 : Int) + k + j).toNat = j + k := by omega
  have hback : (-((0 : Int) + k + j)).toNat = 0 := by omega
  rw [hexponent, hback, Nat.pow_zero, Nat.mul_one, Nat.pow_add, ← Nat.mul_assoc]
  exact Nat.le_trans (Nat.mul_le_mul_right _ (Nat.div_mul_le_self q (2 ^ j))) hvalue

/-- An integer that is rounded does not exceed a bound that is itself a float. -/
theorem valueAtMost_round {n r f : Nat} (hn : n ≠ 0) (h : n ≤ r * 2 ^ f) (hr : r < 2 ^ 53) :
    ValueAtMost (r * 2 ^ f) (UnpackedFloat.round .binary64 .positive n 0) := by
  have hdecrease : UnpackedFloat.round .binary64 .positive n 0 =
      roundWithAccuracy .binary64 .positive (n <<< (52 - n.log2)) (-(52 - n.log2 : Nat)) .exact := by
    have hamount : (-max ((n.log2 : Int) + 1 + 0 - 53) (-1074)).toNat = 52 - n.log2 := by omega
    simp only [UnpackedFloat.round, decreaseExponent, targetExponent_eq, totalExponent, Int.zero_sub,
      hamount]
  rw [hdecrease]
  by_cases hlog : n.log2 ≤ 52
  · exact valueAtMost_shiftLeft hn h hlog
  · have hlong : 52 < n.log2 := by omega
    rw [Nat.sub_eq_zero_of_le (Nat.le_of_lt hlong)]
    exact valueAtMost_shiftRight h hr hlong

theorem ValueAtMost.unpack_pack {u : UnpackedFloat} {bound : Nat} (h : ValueAtMost bound u)
    (hmost : AtMost 971 u) : ValueAtMost bound (Float.Model.pack u).unpack := by
  cases h with
  | zero s => cases s <;> exact .zero _
  | finite hlog hlow h =>
    cases hmost with
    | finite _ hhigh =>
      obtain ⟨t, ht⟩ := Decimal.unpack_pack hlog hlow hhigh
      rw [Float.Model.unpack, Float.Model.pack, ht]
      exact .finite hlog hlow h

/-- The float for a number that has no more than 64 bits. -/
theorem valueAtMost_toFloat {n r f : Nat} (hn : n ≤ r * 2 ^ f) (hr : r < 2 ^ 53) (h : n < 2 ^ 64) :
    ValueAtMost (r * 2 ^ f) (UInt64.ofNat n).toFloat.toModel.unpack := by
  have htoNat : (UInt64.ofNat n).toNat = n := UInt64.toNat_ofNat_of_lt' h
  have hvalue : ValueAtMost (r * 2 ^ f) (UnpackedFloat.ofNat .binary64 (UInt64.ofNat n).toNat) := by
    rw [htoNat]
    simp only [UnpackedFloat.ofNat, UnpackedFloat.ofInt, UnpackedFloat.normalize]
    split
    · rename_i hlt
      rw [Int.compare_eq_lt] at hlt
      omega
    · exact .zero _
    · rename_i hgt
      rw [Int.compare_eq_gt] at hgt
      exact valueAtMost_round (by omega) hn hr
  exact hvalue.unpack_pack ((atMost_ofNat (UInt64.toNat_lt _)).mono (by decide))

/-! Products -/

/-- The middle between the greatest float and the power of two that would follow it. -/
def overflow : Nat := (2 ^ 54 - 1) * 2 ^ 970

theorem overflow_pos : 0 < overflow := by decide +kernel

theorem two_pow_le_of_log2_eq {m k : Nat} (hm : 0 < m) (hlog : m.log2 = k) : 2 ^ k ≤ m :=
  hlog ▸ Nat.log2_self_le (Nat.ne_of_gt hm)

theorem mul_lt_of_values {m n a b : Nat} {e f : Int} (hm : 2 ^ 52 ≤ m) (hn : 2 ^ 52 ≤ n)
    (hvalue : m * 2 ^ e.toNat ≤ a * 2 ^ (-e).toNat) (hvalue' : n * 2 ^ f.toNat ≤ b * 2 ^ (-f).toNat)
    (h : a * b < overflow) :
    e + f ≤ 970 ∧ m * n < (2 ^ 54 - 1) * 2 ^ (970 - (e + f)).toNat := by
  -- Both sides are multiplied by the powers of two that make all exponents positive.
  have hproduct : m * n * 2 ^ (e.toNat + f.toNat) <
      (2 ^ 54 - 1) * 2 ^ (970 + ((-e).toNat + (-f).toNat)) := by
    calc m * n * 2 ^ (e.toNat + f.toNat)
        = m * 2 ^ e.toNat * (n * 2 ^ f.toNat) := by rw [Nat.pow_add]; ring
      _ ≤ a * 2 ^ (-e).toNat * (b * 2 ^ (-f).toNat) := Nat.mul_le_mul hvalue hvalue'
      _ = a * b * 2 ^ ((-e).toNat + (-f).toNat) := by rw [Nat.pow_add]; ring
      _ < overflow * 2 ^ ((-e).toNat + (-f).toNat) :=
        Nat.mul_lt_mul_of_pos_right h (Nat.two_pow_pos _)
      _ = (2 ^ 54 - 1) * 2 ^ (970 + ((-e).toNat + (-f).toNat)) := by
        rw [overflow, Nat.mul_assoc, ← Nat.pow_add]
  have hsum : e + f ≤ 970 := by
    by_contra hlarge
    have hmn : 2 ^ 52 * 2 ^ 52 ≤ m * n := Nat.mul_le_mul hm hn
    have hpow : 2 ^ (971 + ((-e).toNat + (-f).toNat)) ≤ 2 ^ (e.toNat + f.toNat) :=
      Nat.pow_le_pow_right (by decide) (by omega)
    have hle := Nat.mul_le_mul hmn hpow
    rw [show 971 + ((-e).toNat + (-f).toNat) = 970 + ((-e).toNat + (-f).toNat) + 1 by omega,
      Nat.pow_succ] at hle
    omega
  refine ⟨hsum, Nat.lt_of_mul_lt_mul_right (a := 2 ^ (e.toNat + f.toNat)) ?_⟩
  have hexponent :
      (970 - (e + f)).toNat + (e.toNat + f.toNat) = 970 + ((-e).toNat + (-f).toNat) := by
    omega
  rwa [Nat.mul_assoc (2 ^ 54 - 1), ← Nat.pow_add, hexponent]

/-- A product does not overflow if the bounds of its factors do not. -/
theorem ValueAtMost.mul {u v : UnpackedFloat} {a b : Nat} (hu : ValueAtMost a u)
    (hv : ValueAtMost b v) (h : a * b < overflow) :
    AtMost 971 (.mul .binary64 u v) := by
  cases hu with
  | zero s =>
    cases hv with
    | zero t => exact .zero _
    | finite hlog hlow hvalue => exact .zero _
  | @finite _ m _ hm hlog hlow hvalue =>
    cases hv with
    | zero t => exact .zero _
    | @finite _ n _ hn hlog' hlow' hvalue' =>
      obtain ⟨hsum, hlt⟩ := mul_lt_of_values (two_pow_le_of_log2_eq hm hlog)
        (two_pow_le_of_log2_eq hn hlog') hvalue hvalue' h
      rw [mul_finite]
      exact atMost_roundWithAccuracy_of_lt hsum hlt

/-! Powers of ten -/

instance (bound : Nat) (u : UnpackedFloat) : Decidable (ValueAtMost bound u) :=
  match u with
  | .zero s => .isTrue (.zero s)
  | .finite _ m e _ =>
    if h : m.log2 = 52 ∧ -1074 ≤ e ∧ m * 2 ^ e.toNat ≤ bound * 2 ^ (-e).toNat then
      .isTrue (.finite h.1 h.2.1 h.2.2)
    else .isFalse fun hvalue => h (by
      cases hvalue
      exact ⟨by assumption, by assumption, by assumption⟩)
  | .infinity _ | .notANumber => .isFalse fun hvalue => nomatch hvalue

instance (limit : Int) (u : UnpackedFloat) : Decidable (AtMost limit u) :=
  match u with
  | .zero s => .isTrue (.zero s)
  | .finite _ m e _ =>
    if h : m.log2 ≤ 52 ∧ e ≤ limit then .isTrue (.finite h.1 h.2)
    else .isFalse fun hmost => h (by cases hmost; exact ⟨by assumption, by assumption⟩)
  | .infinity _ | .notANumber => .isFalse fun hmost => nomatch hmost

theorem atMost_ofScientific_one {k : Nat} (hk : k < 288) :
    AtMost 904 (UnpackedFloat.ofScientific .binary64 1 k) := by
  have hpower : (2 : Int) ^ Format.binary64.exponentBits = 2048 := rfl
  have hbits : Format.binary64.mantissaBits = 53 := rfl
  have hall : ∀ k < 288, (1 <<< 53 * 10 ^ k).log2 ≤ 1007 := by decide +kernel
  have hlog := hall k hk
  rw [UnpackedFloat.ofScientific, dif_neg (by decide), if_neg (by omega), if_neg (by omega),
    if_pos (by omega), mul_finite, Int.toNat_natCast, hbits]
  exact atMost_roundWithAccuracy (by decide) (by omega) (by omega)

theorem atMost_tenTo {k : Nat} (hk : k < 288) : AtMost 904 (Numeral.tenTo k).toModel.unpack := by
  by_cases h : k ≤ 22
  · have hall : ∀ k < 23, AtMost 904 (Numeral.tenTo k).toModel.unpack := by decide +kernel
    exact hall k (by omega)
  · rw [Numeral.tenTo, Float.ofScientific, dif_neg (by omega)]
    exact atMost_unpack_pack (atMost_ofScientific_one hk) (by decide) (by decide)

/-- The middle between the two greatest floats but one. -/
def nearMost : Nat := 2 ^ 1024 - 3 * 2 ^ 970

/-- The most that seventeen digits stand for before a number of zeros, if that stays below the
greatest floats. -/
def mostBefore (zeros : Nat) : Nat := min (10 ^ 17) (nearMost / 10 ^ zeros)

/-- Seventeen digits before many zeros are a float, and multiplying them does not overflow. -/
theorem mostBefore_spec : ∀ k < 309, 288 ≤ k →
    (∃ f < 18, mostBefore k / 2 ^ f < 2 ^ 53 ∧ mostBefore k / 2 ^ f * 2 ^ f = mostBefore k) ∧
    ValueAtMost ((overflow - 1) / mostBefore k) (Numeral.tenTo k).toModel.unpack := by
  decide +kernel

/-! Scaling -/

theorem isFinite_mul_tenTo {x : Float} {k : Nat}
    (h : AtMost 971 (.mul .binary64 x.toModel.unpack (Numeral.tenTo k).toModel.unpack)) :
    (x * Numeral.tenTo k).isFinite = true := isFinite_pack h

theorem isSome_scale_of_neg {x : Float} {e : Int} (he : e < 0) : (Numeral.scale x e).isSome := by
  rw [Numeral.scale, if_neg (by omega), if_neg (by omega)]
  rfl

theorem isSome_scale_of_isFinite {x : Float} {e : Int} (hlow : 0 ≤ e) (hhigh : e ≤ 308)
    (h : (x * Numeral.tenTo e.toNat).isFinite = true) : (Numeral.scale x e).isSome := by
  rw [Numeral.scale, if_neg (by omega), if_pos hlow]
  simp only [h, if_true, Option.isSome_some]

/-- No digits that are taken into a significand are too many before few zeros. -/
theorem isSome_scale_of_lt (n : UInt64) {e : Int} (he : e < 288) :
    (Numeral.scale n.toFloat e).isSome := by
  by_cases hneg : e < 0
  · exact isSome_scale_of_neg hneg
  · refine isSome_scale_of_isFinite (by omega) (by omega) (isFinite_mul_tenTo ?_)
    exact (atMost_toFloat n).mul (atMost_tenTo (by omega)) (by decide)

/-- Nor are seventeen before more zeros, if their number is not among the greatest. -/
theorem isSome_scale_of_le {n : Nat} {e : Int} (hpos : 0 < n) (hn : n ≤ 10 ^ 17)
    (hvalue : n * 10 ^ e.toNat ≤ nearMost) : (Numeral.scale (UInt64.ofNat n).toFloat e).isSome := by
  by_cases hsmall : e < 288
  · exact isSome_scale_of_lt _ hsmall
  · have hmost : e.toNat < 309 := by
      by_contra hlarge
      have hten : ∀ k, k ≤ e.toNat → 10 ^ k ≤ n * 10 ^ e.toNat := fun k hk =>
        Nat.le_trans (Nat.pow_le_pow_right (by decide) hk) (Nat.le_mul_of_pos_left _ hpos)
      have hbound : nearMost < 10 ^ 309 := by decide +kernel
      exact Nat.not_lt_of_le (Nat.le_trans (hten 309 (by omega)) hvalue) hbound
    obtain ⟨⟨f, -, hfits, hsplit⟩, hten⟩ := mostBefore_spec e.toNat hmost (by omega)
    have hle : n ≤ mostBefore e.toNat := by
      refine Nat.le_min.2 ⟨hn, ?_⟩
      exact (Nat.le_div_iff_mul_le (Nat.pow_pos (by decide))).2 hvalue
    have hvalues := (valueAtMost_toFloat (hsplit ▸ hle) hfits (by omega)).mul hten
    rw [hsplit] at hvalues
    refine isSome_scale_of_isFinite (by omega) (by omega) (isFinite_mul_tenTo (hvalues ?_))
    exact Nat.lt_of_le_of_lt (Nat.mul_div_le _ _) (Nat.sub_lt overflow_pos Nat.one_pos)

end FlowDiagram.Decimal
