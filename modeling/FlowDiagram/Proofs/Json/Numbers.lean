import FlowDiagram.Proofs.Json.Numerals
/-! What the scan makes of printed numbers: integers come back, floats as they are reread. -/

namespace FlowDiagram.Json

/-- What the number reader makes of the printed form of a number, if that is a number at all. -/
def Number.reread? (n : Number) : Option Number :=
  match tokens n.print with
  | [.scalar (.number m)] => some m
  | _ => none

/-- The number with a float replaced by what the reader makes of it. Integers stay. -/
def Number.reread : Number → Number
  | .integer n fits => .integer n fits
  | .float x => ((Number.float x).reread?).getD (.float x)

/-- The characters that printed numbers have. -/
def isNumberChar (c : Char) : Bool := c.isDigit || c = '-' || c = '+' || c = '.' || c = 'e'

namespace Scan

theorem rest_number_ne_nil (n : NumberScan) (cs : List Char) : (number n).rest cs ≠ [] := by
  induction cs generalizing n with
  | nil => simp [rest, atEnd]
  | cons c cs ih =>
    cases h : n.goOn? c with
    | some n' => simpa [rest, step, NumberScan.step, h] using ih n'
    | none =>
      simp only [rest, step, NumberScan.step, h]
      cases after (n.ended (some c)) <;> simp

/-- A character of a number starts another number or ends the scan. -/
theorem rest_between_numberChar {c : Char} (h : isNumberChar c = true) (cs : List Char) :
    between.rest (c :: cs) ≠ [] := by
  simp only [isNumberChar, Bool.or_eq_true, decide_eq_true_eq] at h
  rcases h with (((h | rfl) | rfl) | rfl) | rfl
  · simp [rest, step, onBetween_digit h, rest_number_ne_nil]
  · exact rest_number_ne_nil _ cs
  · simp [rest, step, onBetween, isSpace]
  · simp [rest, step, onBetween, isSpace]
  · simp [rest, step, onBetween, isSpace]

theorem not_isDigit_of_delimits {c : Char}
    (h : isSpace c = true ∨ c = ',' ∨ c = ']' ∨ c = '}') :
    isNumberChar c = false ∧ c.isDigit = false ∧ c ≠ 'E' := by
  simp only [isSpace, Bool.or_eq_true, decide_eq_true_eq] at h
  rcases h with (((rfl | rfl) | rfl) | rfl) | rfl | rfl | rfl <;> decide

theorem goOn?_of_delimits {c : Char} (n : NumberScan)
    (h : isSpace c = true ∨ c = ',' ∨ c = ']' ∨ c = '}') : n.goOn? c = none := by
  obtain ⟨hchar, hdigit, hmark⟩ := not_isDigit_of_delimits h
  simp only [isNumberChar, Bool.or_eq_false_iff, decide_eq_false_iff_not] at hchar
  obtain ⟨⟨⟨⟨-, hminus⟩, hplus⟩, hpoint⟩, he⟩ := hchar
  have hzero : c ≠ '0' := by rintro rfl; exact absurd hdigit (by decide)
  cases hpart : n.part <;>
    simp [NumberScan.goOn?, hpart, hdigit, hminus, hplus, hpoint, he, hmark, hzero]

/-- A number that may end with the text may as well end before a delimiter. -/
theorem ended_of_delimits {n : NumberScan} {m : Number} {c : Char}
    (hend : n.ended none = .scalar (.number m))
    (h : isSpace c = true ∨ c = ',' ∨ c = ']' ∨ c = '}') :
    n.ended (some c) = .scalar (.number m) := by
  have hdigit := (not_isDigit_of_delimits h).2.1
  unfold NumberScan.ended at hend ⊢
  split at hend
  · rename_i hlast
    rw [if_pos hlast, if_neg (by simp [hdigit])]
    simpa using hend
  · exact absurd hend (by simp)

theorem rest_number_of_delimits {n : NumberScan} {m : Number}
    (hend : n.ended none = .scalar (.number m)) {cs : List Char} (h : Delimits cs) :
    (number n).rest cs = .scalar (.number m) :: between.rest cs := by
  cases cs with
  | nil => simp [rest, atEnd, hend]
  | cons c cs =>
    have hc := h c rfl
    simp [rest, step, NumberScan.step, goOn?_of_delimits n hc, ended_of_delimits hend hc, after]

theorem after_eq (k : Token) : after k = between ∨ after k = stopped := by
  cases k with
  | faultyText f | faultyWord f =>
    simp only [after]
    split <;> simp
  | _ => simp [after]

/-- A number all of whose characters are scanned as one is so in front of a delimiter. -/
theorem rest_number_append {w cs : List Char} {n : NumberScan} {m : Number}
    (hw : ∀ c ∈ w, isNumberChar c = true) (hcs : Delimits cs)
    (h : (number n).rest w = [.scalar (.number m)]) :
    (number n).rest (w ++ cs) = .scalar (.number m) :: between.rest cs := by
  induction w generalizing n with
  | nil => exact rest_number_of_delimits (by simpa [rest, atEnd] using h) hcs
  | cons c w ih =>
    cases hgo : n.goOn? c with
    | some n' =>
      simp only [rest, step, NumberScan.step, hgo, List.nil_append, List.cons_append] at h ⊢
      exact ih (fun d hd => hw d (List.mem_cons_of_mem c hd)) h
    | none =>
      -- The token before the character would not be the only one.
      have hmore := rest_between_numberChar (hw c List.mem_cons_self) w
      simp only [rest, step] at hmore
      simp only [rest, step, NumberScan.step, hgo] at h
      rcases after_eq (n.ended (some c)) with hafter | hafter
      · simp only [hafter, List.cons_append, List.cons.injEq] at h
        exact absurd h.2 hmore
      · simp only [hafter, List.cons_append, List.nil_append, List.cons.injEq] at h
        rw [h.1] at hafter
        exact absurd hafter (by simp [after])

/-- The scan of a number that starts with this character. -/
def startNumber? (c : Char) : Option NumberScan :=
  if c = '-' then some .startMinus else if c.isDigit then some (.startDigit c) else none

theorem onBetween_of_startNumber? {c : Char} {n : NumberScan} (h : startNumber? c = some n) :
    onBetween c = (number n, []) := by
  simp only [startNumber?] at h
  split at h
  · subst c
    cases h
    rfl
  · rename_i hminus
    split at h
    · rename_i hdigit
      cases h
      exact onBetween_digit hdigit
    · cases h

theorem onBetween_of_numberChar {c : Char} (h : isNumberChar c = true)
    (hstart : startNumber? c = none) : onBetween c = (stopped, [.stray]) := by
  simp only [startNumber?] at hstart
  split at hstart
  · cases hstart
  · rename_i hminus
    split at hstart
    · cases hstart
    · rename_i hdigit
      simp only [isNumberChar, Bool.or_eq_true, decide_eq_true_eq] at h
      rcases h with (((h | rfl) | rfl) | rfl) | rfl
      · exact absurd h hdigit
      · exact absurd rfl hminus
      all_goals rfl

theorem rest_stopped (cs : List Char) : stopped.rest cs = [] := by
  induction cs with
  | nil => rfl
  | cons c cs ih => simpa [rest, step] using ih

/-- Characters that are scanned as one number are so in front of a delimiter. -/
theorem rest_append_of_number {w cs : List Char} {m : Number}
    (hw : ∀ c ∈ w, isNumberChar c = true) (h : between.rest w = [.scalar (.number m)])
    (hcs : Delimits cs) : between.rest (w ++ cs) = .scalar (.number m) :: between.rest cs := by
  cases w with
  | nil => simp [rest, atEnd] at h
  | cons c w =>
    cases hstart : startNumber? c with
    | some n =>
      simp only [List.cons_append, rest, step, onBetween_of_startNumber? hstart,
        List.nil_append] at h ⊢
      exact rest_number_append (fun d hd => hw d (List.mem_cons_of_mem c hd)) hcs h
    | none =>
      have hc := onBetween_of_numberChar (hw c List.mem_cons_self) hstart
      simp [rest, step, hc, rest_stopped] at h

end Scan

/-! The characters of printed numbers -/

theorem isNumberChar_of_isDigit {c : Char} (h : c.isDigit = true) : isNumberChar c = true := by
  simp [isNumberChar, h]

theorem isNumberChar_of_mem_toDigits {c : Char} {k : Nat} (h : c ∈ Nat.toDigits 10 k) :
    isNumberChar c = true :=
  isNumberChar_of_isDigit (Nat.isDigit_of_mem_toDigits (by decide) (by decide) h)

theorem isDigit_of_mem_significantDigits {c : Char} {d : Decimal}
    (h : c ∈ d.significantDigits.1) : c.isDigit = true := by
  simp only [Decimal.significantDigits] at h
  split at h
  · obtain rfl := List.mem_singleton.1 h
    decide
  · rw [List.mem_reverse] at h
    have hc := (List.dropWhile_sublist _).subset h
    exact Nat.isDigit_of_mem_toDigits (by decide) (by decide) (List.mem_reverse.1 hc)

theorem isNumberChar_of_mem_write {l : Decimal.Layout} {d : Decimal} :
    ∀ c ∈ l.write d, isNumberChar c = true := by
  have hdigits : ∀ c ∈ d.significantDigits.1, isNumberChar c = true :=
    fun c hc => isNumberChar_of_isDigit (isDigit_of_mem_significantDigits hc)
  have htake : ∀ k, ∀ c ∈ d.significantDigits.1.take k, isNumberChar c = true :=
    fun k c hc => hdigits c (List.mem_of_mem_take hc)
  have hdrop : ∀ k, ∀ c ∈ d.significantDigits.1.drop k, isNumberChar c = true :=
    fun k c hc => hdigits c (List.mem_of_mem_drop hc)
  have hzeros : ∀ k, ∀ c ∈ List.replicate k '0', isNumberChar c = true := by
    intro k c hc
    rw [List.eq_of_mem_replicate hc]
    decide
  intro c h
  simp only [Decimal.Layout.write] at h
  split at h
  · split at h
    · simp only [List.mem_append, List.mem_cons, List.not_mem_nil, or_false] at h
      rcases h with (h | h) | rfl | rfl
      · exact hdigits c h
      · exact hzeros _ c h
      all_goals decide
    · split at h
      · simp only [List.mem_append, List.mem_cons] at h
        rcases h with h | rfl | h
        · exact htake _ c h
        · decide
        · exact hdrop _ c h
      · simp only [List.mem_append, List.mem_cons] at h
        rcases h with rfl | rfl | h | h
        · decide
        · decide
        · exact hzeros _ c h
        · exact hdigits c h
  · simp only [List.mem_append, List.mem_cons] at h
    rcases h with (h | h) | rfl | rfl | h
    · exact htake _ c h
    · split at h
      · cases h
      · rcases List.mem_cons.1 h with rfl | h
        · decide
        · exact hdrop _ c h
    · decide
    · split <;> decide
    · exact isNumberChar_of_mem_toDigits h

/-- A number whose printed form is not a number at all is an infinite one or none. -/
theorem isNumberChar_of_reread? {n m : Number} (h : n.reread? = some m) :
    ∀ c ∈ n.print, isNumberChar c = true := by
  intro c hc
  cases n with
  | integer n fits =>
    simp only [Number.print] at hc
    split at hc
    · rcases List.mem_cons.1 hc with rfl | hc
      · decide
      · exact isNumberChar_of_mem_toDigits hc
    · exact isNumberChar_of_mem_toDigits hc
  | float x =>
    by_cases hx : x.isFinite = true
    · simp only [Number.print, hx, if_true] at hc
      split at hc
      · exact isNumberChar_of_mem_write c hc
      · rcases List.mem_cons.1 hc with rfl | hc
        · decide
        · exact isNumberChar_of_mem_write c hc
    · have hnull : Number.reread? (.float x) = none := by
        simp only [Number.reread?, Number.print, hx]
        rfl
      rw [hnull] at h
      cases h

theorem tokens_of_reread? {n m : Number} (h : n.reread? = some m) :
    tokens n.print = [.scalar (.number m)] := by
  simp only [Number.reread?] at h
  split at h
  · rename_i htokens
    cases h
    exact htokens
  · cases h

theorem Scan.rest_number {n m : Number} (h : n.reread? = some m) {cs : List Char}
    (hcs : Delimits cs) :
    between.rest (n.print ++ cs) = .scalar (.number m) :: between.rest cs := by
  have htokens := tokens_of_reread? h
  rw [Scan.tokens_eq_rest] at htokens
  exact rest_append_of_number (isNumberChar_of_reread? h) htokens hcs

/-! Integers -/

/-- Only the number zero starts with a zero. -/
theorem toDigits_eq_cons {k : Nat} (h : 0 < k) :
    ∃ c ds, Nat.toDigits 10 k = c :: ds ∧ c ≠ '0' := by
  induction k using Nat.strongRecOn with
  | ind k ih =>
    rw [Nat.toDigits_eq_if (by decide)]
    split
    · rename_i hk
      have hall : ∀ k < 10, 0 < k → Nat.digitChar k ≠ '0' := by decide
      exact ⟨_, [], rfl, hall k hk h⟩
    · obtain ⟨c, ds, hds, hc⟩ := ih (k / 10) (by omega) (by omega)
      exact ⟨c, _, by rw [hds, List.cons_append], hc⟩

theorem ofNumeral?_toDigits {negative : Bool} {k : Nat} {n : Int}
    (hn : n = if negative then -(k : Int) else k) (hzero : negative = true → 0 < k)
    (fits : Fits n) :
    Number.ofNumeral? ⟨negative, Nat.toDigits 10 k, none, none⟩ = some (.integer n fits) := by
  have hlength : (Nat.toDigits 10 k).length ≤ 20 := by
    rw [Nat.length_toDigits_le_iff (by decide) (by decide)]
    obtain ⟨hlow, hhigh⟩ := fits
    split at hn <;> omega
  have hinteger : Numeral.integer? ⟨negative, Nat.toDigits 10 k, none, none⟩ = some n := by
    simp [Numeral.integer?, Nat.not_lt.2 hlength, Nat.ofDigitChars_ten_toDigits, hn]
  have hsigned : ¬(negative = true ∧ n = 0) := by
    rintro ⟨hnegative, rfl⟩
    have hk := hzero hnegative
    rw [if_pos hnegative] at hn
    omega
  simp only [Number.ofNumeral?, hinteger, if_neg hsigned]
  exact dif_pos fits

theorem isWritten_toDigits (negative : Bool) (k : Nat) :
    Numeral.IsWritten ⟨negative, Nat.toDigits 10 k, none, none⟩ where
  whole := by
    refine ⟨(Numeral.isPart_toDigits k).digits, ?_⟩
    rcases Nat.eq_zero_or_pos k with rfl | hk
    · exact .inl rfl
    · exact .inr (toDigits_eq_cons hk)
  fraction := by simp
  exponent := by simp

theorem tokens_integer (n : Int) (fits : Fits n) :
    tokens (Number.integer n fits).print = [.scalar (.number (.integer n fits))] := by
  have hprint : (Number.integer n fits).print =
      Numeral.text ⟨n < 0, Nat.toDigits 10 n.natAbs, none, none⟩ := by
    by_cases hneg : n < 0 <;>
      simp [Number.print, Numeral.text, Numeral.signText, Numeral.fractionText,
        Numeral.exponentText, hneg]
  have hn : n = if decide (n < 0) then -(n.natAbs : Int) else n.natAbs := by
    by_cases hneg : n < 0
    · rw [if_pos (decide_eq_true hneg)]
      omega
    · rw [if_neg (by rwa [decide_eq_true_eq])]
      omega
  have hzero : decide (n < 0) = true → 0 < n.natAbs := by
    simp only [decide_eq_true_eq]
    omega
  rw [hprint]
  exact tokens_text (isWritten_toDigits _ _) (ofNumeral?_toDigits hn hzero fits)

theorem Number.reread?_integer (n : Int) (fits : Fits n) :
    (Number.integer n fits).reread? = some (.integer n fits) := by
  simp [reread?, tokens_integer]

theorem fits_of_lt {n : Nat} (h : n < 0x10000000000000000) : Fits n := by
  constructor <;> omega

theorem Number.reread?_ofNat {n : Nat} (h : Fits n) : (ofNat n).reread? = some (ofNat n) := by
  have hnat : ofNat n = .integer n h := dif_pos h
  rw [hnat]
  exact reread?_integer n h

/-- Every number that can be read back is read as its reread. -/
theorem Number.reread?_eq_reread {n : Number} (h : n.reread?.isSome) : n.reread? = some n.reread := by
  cases n with
  | integer n fits => exact reread?_integer n fits
  | float x =>
    obtain ⟨m, hm⟩ := Option.isSome_iff_exists.1 h
    simp [reread, hm]

end FlowDiagram.Json
