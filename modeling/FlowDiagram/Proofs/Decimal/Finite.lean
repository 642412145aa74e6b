import FlowDiagram.Decimal.Numeral
import Mathlib
/-! Numbers that are read are finite: a float overflows only where its exponent does. -/

namespace FlowDiagram.Decimal

open Float.Model UnpackedFloat

/-- Zero, or finite with a mantissa that fits and an exponent that is no more than a limit. -/
inductive AtMost (limit : Int) : UnpackedFloat → Prop
  | zero (s : Sign) : AtMost limit (.zero s)
  | finite {s : Sign} {m : Nat} {e : Int} {hm : 0 < m} (hlog : m.log2 ≤ 52) (he : e ≤ limit) :
    AtMost limit (.finite s m e hm)

theorem AtMost.isFinite {limit : Int} {u : UnpackedFloat} (h : AtMost limit u) :
    u.isFinite = true := by
  cases h <;> rfl

/-! Rounding -/

theorem mantissa_shiftRight (em : ExtendedMantissa) (k : Nat) :
    (em >>> k).mantissa = em.mantissa / 2 ^ k := by
  induction k with
  | zero => exact (Nat.div_one _).symm
  | succ k ih =>
    have hstep : (em >>> (k + 1)).mantissa = (em >>> k).mantissa / 2 := rfl
    rw [hstep, ih, Nat.div_div_eq_div_mul, Nat.pow_succ]

theorem mantissa_ofMantissaAndAccuracy (m : Nat) (a : Accuracy) :
    (ExtendedMantissa.ofMantissaAndAccuracy m a).mantissa = m := by
  unfold ExtendedMantissa.ofMantissaAndAccuracy
  split <;> rfl

theorem roundedMantissa_le (em : ExtendedMantissa) : em.roundedMantissa ≤ em.mantissa + 1 := by
  obtain ⟨m, roundBit, stickyBit⟩ := em
  have hround : ∀ a : Accuracy, a.roundToNearestEven m ≤ m + 1 := by
    intro a
    unfold Accuracy.roundToNearestEven
    split <;> omega
  exact hround _

theorem targetExponent_eq (total : Int) :
    Format.binary64.targetExponent total = max (total - 53) (-1074) := rfl

/-- What is left of a mantissa at its target exponent has no more than 53 bits. -/
theorem shifted_lt {m k : Nat} (h : m.log2 ≤ 52 + k) : m / 2 ^ k < 2 ^ 53 := by
  rw [Nat.div_lt_iff_lt_mul (Nat.two_pow_pos k), ← Nat.pow_add]
  exact Nat.lt_of_lt_of_le Nat.lt_log2_self (Nat.pow_le_pow_right (by decide) (by omega))

theorem log2_le_of_lt {m k : Nat} (h : m < 2 ^ (k + 1)) : m.log2 ≤ k := by
  by_cases hm : m = 0
  · simp [hm]
  · exact Nat.le_of_lt_succ ((Nat.log2_lt hm).2 h)

theorem log2_shiftLeft_le (m k : Nat) : (m <<< k).log2 ≤ m.log2 + k := by
  refine log2_le_of_lt ?_
  have hm := Nat.mul_lt_mul_of_pos_right (Nat.lt_log2_self (n := m)) (Nat.two_pow_pos k)
  rw [← Nat.pow_add] at hm
  rw [Nat.shiftLeft_eq, show m.log2 + k + 1 = m.log2 + 1 + k by omega]
  exact hm

theorem log2_mul_le (m n : Nat) : (m * n).log2 ≤ m.log2 + n.log2 + 1 := by
  refine log2_le_of_lt ?_
  have hmn := Nat.mul_lt_mul'' (Nat.lt_log2_self (n := m)) (Nat.lt_log2_self (n := n))
  rw [← Nat.pow_add] at hmn
  rw [show m.log2 + n.log2 + 1 + 1 = m.log2 + 1 + (n.log2 + 1) by omega]
  exact hmn

theorem log2_div_add_le {m n : Nat} (h : m / n ≠ 0) : (m / n).log2 + n.log2 ≤ m.log2 := by
  have hn : n ≠ 0 := by
    rintro rfl
    exact h (Nat.div_zero m)
  have hle : m / n * n ≤ m := Nat.div_mul_le_self m n
  have hm : m ≠ 0 := by
    rintro rfl
    exact h (Nat.zero_div n)
  rw [Nat.le_log2 hm, Nat.pow_add]
  exact Nat.le_trans (Nat.mul_le_mul (Nat.log2_self_le h) (Nat.log2_self_le hn)) hle

theorem atMost_ofMantissa {sign : Sign} {m : Nat} {e limit : Int} (hlog : m.log2 ≤ 52)
    (he : e ≤ limit) :
    AtMost limit (if h : m = 0 then .zero sign else .finite sign m e (Nat.pos_of_ne_zero h)) := by
  split
  · exact .zero sign
  · exact .finite hlog he

/-- The second shift of a rounding, after which the mantissa fits. -/
theorem bounds_of_carry {r : Nat} {e limit : Int} (hr : r ≤ 2 ^ 53) (hlimit : -1074 < limit)
    (he : e < limit) :
    ((ExtendedMantissa.ofMantissaAndAccuracy r .exact >>>
        (max ((r.log2 : Int) + 1 + e - 53) (-1074) - e).toNat).mantissa.log2 ≤ 52) ∧
      e + ((max ((r.log2 : Int) + 1 + e - 53) (-1074) - e).toNat : Int) ≤ limit := by
  have hlog : r.log2 ≤ 53 := log2_le_of_lt (by omega)
  rw [mantissa_shiftRight, mantissa_ofMantissaAndAccuracy]
  exact ⟨log2_le_of_lt (shifted_lt (by omega)), by omega⟩

/-- Rounding raises the exponent by no more than the mantissa has bits too many, and once more if
it carries. -/
theorem atMost_roundWithAccuracy {sign : Sign} {m : Nat} {e limit : Int} {a : Accuracy}
    (hlimit : -1074 < limit) (he : e < limit) (htotal : (m.log2 : Int) + e - 52 < limit) :
    AtMost limit (roundWithAccuracy .binary64 sign m e a) := by
  have hrounded : ∀ k, m.log2 ≤ 52 + k →
      (ExtendedMantissa.ofMantissaAndAccuracy m a >>> k).roundedMantissa ≤ 2 ^ 53 := by
    intro k hk
    have hle := roundedMantissa_le (ExtendedMantissa.ofMantissaAndAccuracy m a >>> k)
    rw [mantissa_shiftRight, mantissa_ofMantissaAndAccuracy] at hle
    have hlt := shifted_lt hk
    omega
  have hcarry := bounds_of_carry (hrounded (max ((m.log2 : Int) + 1 + e - 53) (-1074) - e).toNat
    (by omega)) hlimit (e := e + (max ((m.log2 : Int) + 1 + e - 53) (-1074) - e).toNat) (by omega)
  exact atMost_ofMantissa hcarry.1 hcarry.2

theorem atMost_round {sign : Sign} {m : Nat} {e limit : Int} (hlimit : -1074 < limit)
    (htotal : (m.log2 : Int) + e - 52 < limit) : AtMost limit (UnpackedFloat.round .binary64 sign m e) := by
  simp only [UnpackedFloat.round, decreaseExponent, targetExponent_eq, totalExponent]
  generalize hk : (e - max ((m.log2 : Int) + 1 + e - 53) (-1074)).toNat = k
  have hlog := log2_shiftLeft_le m k
  exact atMost_roundWithAccuracy hlimit (by omega) (by omega)

/-! Packing -/

theorem exponentBias_eq : Format.binary64.exponentBias = 1023 := by decide

theorem toNat_unpackExponent_pack_le {u : UnpackedFloat} {limit : Int} (h : AtMost limit u)
    (hlow : -1074 ≤ limit) (hhigh : limit ≤ 971) :
    ((unpackExponent (UnpackedFloat.pack .binary64 u)).toNat : Int) ≤ limit + 1075 := by
  cases h with
  | zero s =>
    have hzero : (unpackExponent (UnpackedFloat.pack .binary64 (.zero s))).toNat = 0 := by
      simp only [UnpackedFloat.pack, packedZero, unpackExponent_packComponents]
      rfl
    omega
  | finite hlog he =>
    simp only [UnpackedFloat.pack, exponentBias_eq]
    split
    · omega
    · split
      · rw [unpackExponent_packComponents, BitVec.toNat_ofNat]
        omega
      · rw [unpackExponent_packComponents]
        have hzero : (0#11).toNat = 0 := rfl
        omega

/-- An unpacked float is infinite or not a number only if all bits of its exponent are set. -/
theorem atMost_unpack {b : BitVec Format.binary64.numBits} {limit : Int}
    (h : ((unpackExponent b).toNat : Int) ≤ limit + 1075) (hlow : -1074 ≤ limit)
    (hhigh : limit ≤ 971) : AtMost limit (UnpackedFloat.unpack .binary64 b) := by
  have hall : unpackExponent b ≠ -1#_ := by
    intro heq
    have hnat : (unpackExponent b).toNat = 2047 := congrArg BitVec.toNat heq
    omega
  have hmantissa : (unpackMantissa b).toNat < 2 ^ 52 := (unpackMantissa b).isLt
  have hnormal : (1#1 ++ unpackMantissa b).toNat < 2 ^ 53 := (1#1 ++ unpackMantissa b).isLt
  simp only [UnpackedFloat.unpack, if_neg hall, exponentBias_eq]
  split
  · rename_i hzero
    have hnat : (unpackExponent b).toNat = 0 := congrArg BitVec.toNat hzero
    split
    · exact .zero _
    · exact .finite (log2_le_of_lt (by omega)) (by omega)
  · exact .finite (log2_le_of_lt hnormal) (by omega)

theorem atMost_unpack_pack {u : UnpackedFloat} {limit : Int} (h : AtMost limit u)
    (hlow : -1074 ≤ limit) (hhigh : limit ≤ 971) :
    AtMost limit (Float.Model.pack u).unpack :=
  atMost_unpack (toNat_unpackExponent_pack_le h hlow hhigh) hlow hhigh

theorem isFinite_pack {u : UnpackedFloat} (h : AtMost 971 u) :
    (Float.ofModel (Float.Model.pack u)).isFinite = true :=
  (atMost_unpack_pack h (by decide) (by decide)).isFinite

theorem atMost_of_isFinite_unpack {b : BitVec Format.binary64.numBits}
    (h : (UnpackedFloat.unpack .binary64 b).isFinite = true) :
    AtMost 971 (UnpackedFloat.unpack .binary64 b) := by
  have hexponent : (unpackExponent b).toNat < 2048 := (unpackExponent b).isLt
  refine atMost_unpack ?_ (by decide) (by decide)
  by_cases hall : unpackExponent b = -1#_
  · rw [UnpackedFloat.unpack, if_pos hall] at h
    split at h <;> cases h
  · have hmost : (unpackExponent b).toNat ≠ 2047 := fun hnat => hall (BitVec.eq_of_toNat_eq hnat)
    omega

theorem atMost_of_isFinite {x : Float} (h : x.isFinite = true) : AtMost 971 x.toModel.unpack :=
  atMost_of_isFinite_unpack h

/-! Operations -/

theorem AtMost.neg {u : UnpackedFloat} {limit : Int} (h : AtMost limit u) : AtMost limit u.neg := by
  cases h with
  | zero s => exact .zero (-s)
  | finite hlog he => exact .finite hlog he

theorem isFinite_neg {x : Float} (h : x.isFinite = true) : (-x).isFinite = true :=
  isFinite_pack (atMost_of_isFinite h).neg

theorem atMost_ofNat {n : Nat} (h : n < 2 ^ 64) : AtMost 13 (UnpackedFloat.ofNat .binary64 n) := by
  simp only [UnpackedFloat.ofNat, UnpackedFloat.ofInt, UnpackedFloat.normalize]
  split
  · rename_i hlt
    rw [Int.compare_eq_lt] at hlt
    omega
  · exact .zero _
  · have hlog : n.log2 ≤ 63 := log2_le_of_lt h
    refine atMost_round (by decide) ?_
    rw [Int.toNat_natCast]
    omega

theorem atMost_toFloat (n : UInt64) : AtMost 13 n.toFloat.toModel.unpack :=
  atMost_unpack_pack (atMost_ofNat n.toNat_lt) (by decide) (by decide)

theorem isFinite_toFloat (n : UInt64) : n.toFloat.isFinite = true := (atMost_toFloat n).isFinite

theorem mul_finite {s t : Sign} {m n : Nat} {e f : Int} {hm : 0 < m} {hn : 0 < n} :
    UnpackedFloat.mul .binary64 (.finite s m e hm) (.finite t n f hn) =
      roundWithAccuracy .binary64 (s * t) (m * n) (e + f) .exact := rfl

theorem atMost_mul {s t : Sign} {m n j k : Nat} {e f limit : Int} {hm : 0 < m} {hn : 0 < n}
    (hlimit : -1074 < limit) (hj : m.log2 ≤ j) (hk : n.log2 ≤ k) (hef : e + f < limit)
    (h : (j : Int) + k + 1 + (e + f) - 52 < limit) :
    AtMost limit (.mul .binary64 (.finite s m e hm) (.finite t n f hn)) := by
  have hproduct := log2_mul_le m n
  rw [mul_finite]
  exact atMost_roundWithAccuracy hlimit hef (by omega)

theorem AtMost.mul {u v : UnpackedFloat} {j k : Int} (hu : AtMost j u) (hv : AtMost k v)
    (h : j + k < 918) : AtMost 971 (.mul .binary64 u v) := by
  cases hu with
  | zero s =>
    cases hv with
    | zero t => exact .zero _
    | finite hlog he => exact .zero _
  | finite hlog he =>
    cases hv with
    | zero t => exact .zero _
    | finite hlog' he' => exact atMost_mul (by decide) hlog hlog' (by omega) (by omega)

theorem atMost_ofScientific {n : Nat} (h : n < 2 ^ 64) :
    AtMost 971 (UnpackedFloat.ofScientific .binary64 n 0) := by
  have hlog : (n <<< 53).log2 ≤ 116 :=
    Nat.le_trans (log2_shiftLeft_le n 53) (Nat.add_le_add_right (log2_le_of_lt h) 53)
  have hhigh : ¬(0 : Int) > 2 ^ Format.binary64.exponentBits := by decide
  have hlow : ¬(0 : Int) < -(2 ^ Format.binary64.exponentBits + n.log2) := by
    have hpower : (2 : Int) ^ Format.binary64.exponentBits = 2048 := rfl
    omega
  rw [UnpackedFloat.ofScientific]
  by_cases hn : n = 0
  · rw [dif_pos hn]
    exact .zero _
  · rw [dif_neg hn, if_neg hhigh, if_neg hlow, if_pos (Int.le_refl 0)]
    exact atMost_mul (by decide) hlog (Nat.le_refl 0) (by decide) (by decide)

theorem isFinite_ofNat {n : Nat} (h : n < 2 ^ 64) : (Float.ofNat n).isFinite = true := by
  have hofNat : Float.ofNat n = Float.ofScientific n false 0 := rfl
  rw [hofNat, Float.ofScientific]
  split
  · -- A float for the number is multiplied by the float for one.
    have hunpack : (Float.ofBits 0x3FF0000000000000).toModel.unpack =
        .finite .positive (2 ^ 52) (-52) (by decide) := rfl
    have hone : AtMost (-52) (Float.ofBits 0x3FF0000000000000).toModel.unpack := by
      rw [hunpack]
      exact .finite (Nat.le_refl 52) (Int.le_refl (-52))
    exact isFinite_pack ((atMost_toFloat n.toUInt64).mul hone (by decide))
  · exact isFinite_pack (atMost_ofScientific h)

theorem isFinite_ofInt {n : Int} (h : -2 ^ 64 < n ∧ n < 2 ^ 64) : (Float.ofInt n).isFinite = true := by
  cases n with
  | ofNat n =>
    have hn : (n : Int) < 2 ^ 64 := h.2
    exact isFinite_ofNat (by omega)
  | negSucc n => exact isFinite_neg (isFinite_ofNat (n := n.succ) (by omega))

/-! Division -/

/-- Infinite, or at least two. -/
inductive IsLarge : UnpackedFloat → Prop
  | infinity (s : Sign) : IsLarge (.infinity s)
  | finite {s : Sign} {m : Nat} {e : Int} {hm : 0 < m} (h : 0 < (m.log2 : Int) + e) :
    IsLarge (.finite s m e hm)

theorem atMost_div {s t : Sign} {m n : Nat} {e f : Int} {hm : 0 < m} {hn : 0 < n}
    (hlog : m.log2 ≤ 52) (he : e ≤ 971) (h : 0 < (n.log2 : Int) + f) :
    AtMost 971 (.div .binary64 (.finite s m e hm) (.finite t n f hn)) := by
  have htarget : min (e - f) (Format.binary64.targetExponent
      (totalExponent m e - totalExponent n f)) < 971 := by
    rw [targetExponent_eq]
    unfold totalExponent
    omega
  have hquotient : ∀ target : Int, target < 971 → target ≤ e - f →
      ((m <<< (e - f - target).toNat / n).log2 : Int) + target - 52 < 971 := by
    intro target hbelow hle
    by_cases hzero : m <<< (e - f - target).toNat / n = 0
    · rw [hzero, Nat.log2_zero]
      omega
    · have hdiv := log2_div_add_le hzero
      have hshift := log2_shiftLeft_le m (e - f - target).toNat
      omega
  exact atMost_roundWithAccuracy (by decide) htarget (hquotient _ htarget (Int.min_le_left _ _))

theorem AtMost.div {u v : UnpackedFloat} (hu : AtMost 971 u) (hv : IsLarge v) :
    AtMost 971 (.div .binary64 u v) := by
  cases hu with
  | zero s => cases hv <;> exact .zero _
  | finite hlog he =>
    cases hv with
    | infinity t => exact .zero _
    | finite h => exact atMost_div hlog he h

theorem isFinite_div {x y : Float} (hx : x.isFinite = true) (hy : IsLarge y.toModel.unpack) :
    (x / y).isFinite = true :=
  isFinite_pack ((atMost_of_isFinite hx).div hy)

/-! Powers of ten -/

instance (u : UnpackedFloat) : Decidable (IsLarge u) :=
  match u with
  | .infinity s => .isTrue (.infinity s)
  | .finite _ m e _ =>
    if h : 0 < (m.log2 : Int) + e then .isTrue (.finite h)
    else .isFalse fun hlarge => h (by cases hlarge; assumption)
  | .zero _ | .notANumber => .isFalse fun hlarge => nomatch hlarge

theorem le_shifted {m k : Nat} (hm : m ≠ 0) (h : 52 + k ≤ m.log2) : 2 ^ 52 ≤ m / 2 ^ k := by
  rw [Nat.le_div_iff_mul_le (Nat.two_pow_pos k), ← Nat.pow_add]
  exact (Nat.le_log2 hm).1 h

theorem le_roundedMantissa (em : ExtendedMantissa) : em.mantissa ≤ em.roundedMantissa := by
  obtain ⟨m, roundBit, stickyBit⟩ := em
  have hround : ∀ a : Accuracy, m ≤ a.roundToNearestEven m := by
    intro a
    unfold Accuracy.roundToNearestEven
    split <;> omega
  exact hround _

/-- The second shift of a rounding keeps all bits of a mantissa that already fits. -/
theorem le_carry {r : Nat} {e : Int} (hr : 2 ^ 52 ≤ r) (he : -1074 ≤ e) :
    2 ^ 52 ≤ (ExtendedMantissa.ofMantissaAndAccuracy r .exact >>>
      (max ((r.log2 : Int) + 1 + e - 53) (-1074) - e).toNat).mantissa := by
  have hne : r ≠ 0 := by omega
  have hlog : 52 ≤ r.log2 := (Nat.le_log2 hne).2 hr
  rw [mantissa_shiftRight, mantissa_ofMantissaAndAccuracy]
  exact le_shifted hne (by omega)

/-- A mantissa with enough bits keeps its magnitude when it is rounded. -/
theorem roundWithAccuracy_of_le (sign : Sign) {m : Nat} {e : Int} (a : Accuracy)
    (hlog : 52 ≤ m.log2) (h : -1074 ≤ (m.log2 : Int) + e - 52) :
    ∃ r f hr, roundWithAccuracy .binary64 sign m e a = .finite sign r f hr ∧ 2 ^ 52 ≤ r ∧
      (m.log2 : Int) + e - 52 ≤ f := by
  have hne : m ≠ 0 := by
    rintro rfl
    rw [Nat.log2_zero] at hlog
    omega
  have hrounded : ∀ k, 52 + k ≤ m.log2 →
      2 ^ 52 ≤ (ExtendedMantissa.ofMantissaAndAccuracy m a >>> k).roundedMantissa := by
    intro k hk
    refine Nat.le_trans ?_ (le_roundedMantissa _)
    rw [mantissa_shiftRight, mantissa_ofMantissaAndAccuracy]
    exact le_shifted hne hk
  have hcarry := le_carry (hrounded (max ((m.log2 : Int) + 1 + e - 53) (-1074) - e).toNat
    (by omega)) (e := e + (max ((m.log2 : Int) + 1 + e - 53) (-1074) - e).toNat) (by omega)
  have hpositive := Nat.lt_of_lt_of_le (Nat.two_pow_pos 52) hcarry
  refine ⟨_, _, hpositive, dif_neg (Nat.ne_of_gt hpositive), hcarry, ?_⟩
  simp only [targetExponent_eq, totalExponent]
  omega

theorem unpack_packedInfinity (s : Sign) :
    UnpackedFloat.unpack .binary64 (packedInfinity .binary64 s) =
      .infinity (.ofBitVec (unpackSign (packedInfinity .binary64 s))) := by
  have hexponent : unpackExponent (packedInfinity .binary64 s) = -1#_ :=
    unpackExponent_packComponents
  have hmantissa : unpackMantissa (packedInfinity .binary64 s) = 0#_ :=
    unpackMantissa_packComponents
  rw [UnpackedFloat.unpack, if_pos hexponent, if_pos hmantissa]

theorem toNat_append_ofNat {m : Nat} (hlog : m.log2 = 52) :
    (1#1 ++ BitVec.ofNat 52 m).toNat = m := by
  have hne : m ≠ 0 := by
    rintro rfl
    cases hlog
  have hlow : 2 ^ 52 ≤ m := hlog ▸ Nat.log2_self_le hne
  have hhigh : m < 2 ^ 53 := by
    have hlt := Nat.lt_log2_self (n := m)
    rwa [hlog] at hlt
  have hrest : (BitVec.ofNat 52 m).toNat = m - 2 ^ 52 := by
    rw [BitVec.toNat_ofNat]
    omega
  rw [BitVec.toNat_append, ← Nat.shiftLeft_add_eq_or_of_lt (BitVec.isLt _), hrest]
  have hone : (1#1).toNat <<< 52 = 2 ^ 52 := by decide
  omega

/-- A float with a full mantissa is packed without loss. -/
theorem unpack_pack {s : Sign} {m : Nat} {e : Int} {hm : 0 < m} (hlog : m.log2 = 52)
    (hlow : -1074 ≤ e) (hhigh : e ≤ 971) :
    ∃ t, UnpackedFloat.unpack .binary64 (UnpackedFloat.pack .binary64 (.finite s m e hm)) =
      .finite t m e hm := by
  have hbits : m.log2 + 1 = Format.binary64.mantissaBits := by rw [hlog]; rfl
  have hpack : UnpackedFloat.pack .binary64 (.finite s m e hm) =
      packComponents .binary64 s (BitVec.ofNat 11 (e + 1023 + 52).toNat) (BitVec.ofNat 52 m) := by
    simp only [UnpackedFloat.pack, exponentBias_eq, if_pos hbits]
    split
    · omega
    · rfl
  generalize hx : BitVec.ofNat 11 (e + 1023 + 52).toNat = x at hpack
  have hnat : (x.toNat : Int) = e + 1075 := by
    rw [← hx, BitVec.toNat_ofNat]
    omega
  have hall : x ≠ -1#11 := by
    intro heq
    have hmost : x.toNat = 2047 := congrArg BitVec.toNat heq
    omega
  have hzero : x ≠ 0#11 := by
    intro heq
    have hleast : x.toNat = 0 := congrArg BitVec.toNat heq
    omega
  have hexponent : (x.toNat : Int) - ((1023 : Nat) + (52 : Nat)) = e := by omega
  rw [hpack, UnpackedFloat.unpack]
  simp only [unpackExponent_packComponents, unpackMantissa_packComponents, if_neg hall, if_neg hzero,
    exponentBias_eq, toNat_append_ofNat hlog]
  exact ⟨_, by congr 1⟩

theorem isLarge_unpack_pack {s : Sign} {m : Nat} {e : Int} {hm : 0 < m} (hlog : m.log2 = 52)
    (he : -51 ≤ e) :
    IsLarge (UnpackedFloat.unpack .binary64 (UnpackedFloat.pack .binary64 (.finite s m e hm))) := by
  by_cases hhigh : e ≤ 971
  · obtain ⟨t, ht⟩ := @unpack_pack s m e hm hlog (by omega) hhigh
    rw [ht]
    exact .finite (by omega)
  · have hbits : m.log2 + 1 = Format.binary64.mantissaBits := by rw [hlog]; rfl
    simp only [UnpackedFloat.pack, exponentBias_eq, if_pos hbits]
    rw [if_pos (by omega), unpack_packedInfinity]
    exact .infinity _

theorem isLarge_roundWithAccuracy {sign : Sign} {m : Nat} {e : Int} {a : Accuracy}
    (hlog : 52 ≤ m.log2) (h : 0 < (m.log2 : Int) + e) :
    IsLarge (UnpackedFloat.unpack .binary64
      (UnpackedFloat.pack .binary64 (roundWithAccuracy .binary64 sign m e a))) := by
  obtain ⟨r, f, hr, heq, hle, hf⟩ := roundWithAccuracy_of_le sign a hlog
    (show -1074 ≤ (m.log2 : Int) + e - 52 by omega)
  have hmost : AtMost (max ((m.log2 : Int) + e + 1) 0) (.finite sign r f hr) := by
    rw [← heq]
    exact atMost_roundWithAccuracy (by omega) (by omega) (by omega)
  rw [heq]
  cases hmost with
  | finite hbits _ =>
    have hleast : 52 ≤ r.log2 := (Nat.le_log2 (by omega)).2 hle
    exact isLarge_unpack_pack (by omega) (by omega)

theorem isLarge_ofScientific {k : Nat} (hlow : 0 < k) (hhigh : k ≤ 308) :
    IsLarge (UnpackedFloat.unpack .binary64
      (UnpackedFloat.pack .binary64 (UnpackedFloat.ofScientific .binary64 1 k))) := by
  have hpower : (2 : Int) ^ Format.binary64.exponentBits = 2048 := rfl
  have hbits : Format.binary64.mantissaBits = 53 := rfl
  have htwo : 2 ≤ 10 ^ k := Nat.le_trans (by decide) (Nat.pow_le_pow_right (by decide) hlow)
  have hlog : 54 ≤ (1 <<< 53 * 10 ^ k).log2 := by
    rw [Nat.le_log2 (by omega)]
    omega
  rw [UnpackedFloat.ofScientific, dif_neg (by decide), if_neg (by omega), if_neg (by omega),
    if_pos (by omega), mul_finite, Int.toNat_natCast, hbits]
  generalize 1 <<< 53 * 10 ^ k = m at hlog
  exact isLarge_roundWithAccuracy (by omega) (by omega)

theorem isLarge_tenTo {k : Nat} (hlow : 0 < k) (hhigh : k ≤ 308) :
    IsLarge (Numeral.tenTo k).toModel.unpack := by
  by_cases h : k ≤ 22
  · have hall : ∀ k < 23, 0 < k → IsLarge (Numeral.tenTo k).toModel.unpack := by decide +kernel
    exact hall k (by omega) hlow
  · rw [Numeral.tenTo, Float.ofScientific, dif_neg (by omega)]
    exact isLarge_ofScientific hlow hhigh

/-! Written numbers -/

theorem isFinite_shrink {x : Float} (hx : x.isFinite = true) (k : Nat) :
    (Numeral.shrink k x).isFinite = true := by
  induction k generalizing x with
  | zero => exact hx
  | succ k ih =>
    rw [Numeral.shrink]
    split
    · exact hx
    · exact ih (isFinite_div hx (isLarge_tenTo (by decide) (by decide)))

theorem isFinite_of_scale {x y : Float} {e : Int} (hx : x.isFinite = true)
    (h : Numeral.scale x e = some y) : y.isFinite = true := by
  rw [Numeral.scale] at h
  split at h
  · split at h
    · cases h
      exact hx
    · cases h
  · split at h
    · simp only at h
      split at h
      · rename_i hy
        cases h
        exact hy
      · cases h
    · cases h
      exact isFinite_div (isFinite_shrink hx _) (isLarge_tenTo (by omega) (by omega))

/-- A written number is read as a finite float or not at all. -/
theorem isFinite_of_float? {n : Numeral} {x : Float} (h : n.float? = some x) :
    x.isFinite = true := by
  obtain ⟨y, hy, hx⟩ := Option.map_eq_some_iff.1 h
  have hscaled := isFinite_of_scale (isFinite_toFloat _) hy
  split at hx
  · rw [← hx]
    exact isFinite_neg hscaled
  · rw [← hx]
    exact hscaled

end FlowDiagram.Decimal
