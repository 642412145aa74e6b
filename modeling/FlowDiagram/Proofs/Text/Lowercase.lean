import FlowDiagram.Text.Alphanumeric
import FlowDiagram.Text.Blank
import FlowDiagram.Text.Lowercase
/-! The lower case of letters and numbers: never nothing, and neither white space, nor a capital of
ASCII, nor a mark that sets parts of names or paths apart. -/

namespace FlowDiagram.Text

/-- White space, a capital of ASCII, a dot, or a mark between the names of a path. -/
def IsBarred (c : Char) : Prop :=
  isBlank c = true ∨ ('A' ≤ c ∧ c ≤ 'Z') ∨ c ∈ ['.', '/', '\\']

instance (c : Char) : Decidable (IsBarred c) := inferInstanceAs (Decidable (_ ∨ _))

/-- The ranges of all such characters and of the hyphen. -/
def barredRanges : List (Nat × Nat) :=
  [(0x09, 0x0D), (0x20, 0x20), (0x2D, 0x2F), (0x41, 0x5A), (0x5C, 0x5C), (0x85, 0x85),
   (0xA0, 0xA0), (0x1680, 0x1680), (0x2000, 0x200A), (0x2028, 0x2029), (0x202F, 0x202F),
   (0x205F, 0x205F), (0x3000, 0x3000)]

/-- A code point that no barred character has. -/
def IsClear (n : Nat) : Prop := ∀ r ∈ barredRanges, n < r.1 ∨ r.2 < n

instance (n : Nat) : Decidable (IsClear n) := inferInstanceAs (Decidable (∀ r ∈ _, _))

theorem IsClear.not_isBarred {c : Char} (h : IsClear c.toNat) : ¬IsBarred c ∧ c ≠ '-' := by
  simp only [IsClear, barredRanges, List.forall_mem_cons, List.not_mem_nil, false_imp_iff,
    implies_true, and_true] at h
  refine ⟨?_, by rintro rfl; revert h; decide⟩
  rintro (hblank | hcapital | hmark)
  · simp only [isBlank, Bool.or_eq_true, Bool.and_eq_true, decide_eq_true_eq, beq_iff_eq] at hblank
    omega
  · have hlow : 'A'.toNat ≤ c.toNat := hcapital.1
    have hhigh : c.toNat ≤ 'Z'.toNat := hcapital.2
    have hends : 'A'.toNat = 0x41 ∧ 'Z'.toNat = 0x5A := ⟨rfl, rfl⟩
    omega
  · simp only [List.mem_cons, List.not_mem_nil, or_false] at hmark
    rcases hmark with rfl | rfl | rfl <;> revert h <;> decide

/-! The tables -/

theorem isClear_ofNat {n : Nat} (h : IsClear n) : IsClear (Char.ofNat n).toNat := by
  by_cases hn : n.isValidChar
  · have hchar : Char.ofNat n = Char.ofNatAux n hn := dif_pos hn
    rw [hchar]
    exact h
  · have hzero : Char.ofNat n = '\x00' := dif_neg hn
    rw [hzero]
    decide

/-- No row leads to a barred character. -/
theorem lowercaseRows_clear : ∀ row ∈ lowercaseRows, ∀ r ∈ barredRanges,
    (row.2.1 : Int) + row.2.2.2 < r.1 ∨ (r.2 : Int) < row.1 + row.2.2.2 := by
  decide +kernel

/-- Of the barred characters only capitals are letters or numbers. -/
theorem alphanumericRanges_clear : ∀ range ∈ alphanumericRanges, ∀ r ∈ barredRanges,
    range.2 < r.1 ∨ r.2 < range.1 ∨ r = (0x41, 0x5A) := by
  decide +kernel

theorem isClear_of_row {row : Nat × Nat × Nat × Int} (hrow : row ∈ lowercaseRows) {n : Nat}
    (hlow : row.1 ≤ n) (hhigh : n ≤ row.2.1) : IsClear ((n : Int) + row.2.2.2).toNat := by
  intro r hr
  have hstart : ∀ r ∈ barredRanges, 0 < r.1 := by decide
  have hpositive := hstart r hr
  rcases lowercaseRows_clear row hrow r hr with h | h <;> omega

/-- A letter or number that has no row is no capital. -/
theorem isClear_of_no_row {c : Char} (hc : isAlphanumeric c = true)
    (hcapital : ¬(0x41 ≤ c.toNat ∧ c.toNat ≤ 0x5A)) : IsClear c.toNat := by
  intro r hr
  obtain ⟨range, hrange, hin⟩ := List.any_eq_true.1 hc
  simp only [Bool.and_eq_true, decide_eq_true_eq] at hin
  rcases alphanumericRanges_clear range hrange r hr with h | h | rfl
  · omega
  · omega
  · omega

theorem toLowercase_ne_nil (c : Char) : toLowercase c ≠ [] := by
  simp only [toLowercase]
  split
  · simp
  · split <;> simp

/-- What the lower case of letters and numbers never has. -/
theorem not_isBarred_of_mem_toLowercase {c d : Char} (hc : isAlphanumeric c = true)
    (hd : d ∈ toLowercase c) : ¬IsBarred d ∧ d ≠ '-' := by
  refine IsClear.not_isBarred ?_
  simp only [toLowercase] at hd
  split at hd
  · simp only [List.mem_cons, List.not_mem_nil, or_false] at hd
    rcases hd with rfl | rfl <;> decide
  · split at hd
    · rename_i lo hi stride distance hfind
      obtain rfl := List.mem_singleton.1 hd
      have hin := List.find?_some hfind
      simp only [Bool.and_eq_true, decide_eq_true_eq] at hin
      exact isClear_ofNat (isClear_of_row (List.mem_of_find?_eq_some hfind) hin.1.1 hin.1.2)
    · rename_i hnone
      obtain rfl := List.mem_singleton.1 hd
      refine isClear_of_no_row hc fun hcapital => ?_
      -- The first row has all capitals.
      have hrow := List.find?_eq_none.1 hnone (0x41, 0x5A, 1, 32) List.mem_cons_self
      simp [hcapital, Nat.mod_one] at hrow

end FlowDiagram.Text
