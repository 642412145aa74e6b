import FlowDiagram.Proofs.Json.Scan
/-! Numerals as they are written, and what the scan makes of them. -/

namespace FlowDiagram

namespace Numeral

def signText (n : Numeral) : List Char := if n.negative then ['-'] else []

def fractionText (n : Numeral) : List Char :=
  match n.fraction with
  | none => []
  | some ds => '.' :: ds

def exponentText (n : Numeral) : List Char :=
  match n.exponent with
  | none => []
  | some (negative, ds) => 'e' :: (if negative then '-' else '+') :: ds

/-- The text of a numeral: its sign, its digits, and the parts that it has. -/
def text (n : Numeral) : List Char :=
  n.signText ++ (n.whole ++ (n.fractionText ++ n.exponentText))

/-- Digits behind a point or a mark. -/
structure IsPart (ds : List Char) : Prop where
  digits : ∀ c ∈ ds, c.isDigit = true
  ne_nil : ds ≠ []

/-- Digits in front of a point: no zero comes before others. -/
structure IsWhole (ds : List Char) : Prop where
  digits : ∀ c ∈ ds, c.isDigit = true
  first : ds = ['0'] ∨ ∃ c cs, ds = c :: cs ∧ c ≠ '0'

structure IsWritten (n : Numeral) : Prop where
  whole : IsWhole n.whole
  fraction : ∀ ds, n.fraction = some ds → IsPart ds
  exponent : ∀ negative ds, n.exponent = some (negative, ds) → IsPart ds

theorem isPart_toDigits (k : Nat) : IsPart (Nat.toDigits 10 k) where
  digits _ hc := Nat.isDigit_of_mem_toDigits (by decide) (by decide) hc
  ne_nil := List.ne_nil_of_length_pos Nat.length_toDigits_pos

theorem reverse_reverse (n : Numeral) : n.reverse.reverse = n := by
  obtain ⟨negative, whole, fraction, exponent⟩ := n
  cases fraction <;> cases exponent <;> simp [reverse]

end Numeral

namespace Json

namespace NumberScan

theorem foldl_addWhole (ds : List Char) (m : NumberScan) (hpart : m.part = .whole) :
    ds.foldl (fun m c => m.addWhole c .whole) m =
      ⟨{ m.reversed with whole := ds.reverse ++ m.reversed.whole }, .whole⟩ := by
  induction ds generalizing m with
  | nil =>
    obtain ⟨r, p⟩ := m
    cases hpart
    rfl
  | cons c ds ih =>
    rw [List.foldl_cons, ih _ rfl]
    simp [addWhole]

theorem foldl_addFraction {ds fs : List Char} {m : NumberScan} (hds : ds ≠ [])
    (hfs : m.reversed.fraction = some fs) :
    ds.foldl addFraction m =
      ⟨{ m.reversed with fraction := some (ds.reverse ++ fs) }, .fraction⟩ := by
  induction ds generalizing m fs with
  | nil => exact absurd rfl hds
  | cons c ds ih =>
    rw [List.foldl_cons]
    by_cases hnil : ds = []
    · subst hnil
      simp [addFraction, hfs]
    · have hfirst : (m.addFraction c).reversed.fraction = some (c :: fs) := by
        simp [addFraction, hfs]
      rw [ih hnil hfirst]
      simp [addFraction]

theorem foldl_addPower {ds es : List Char} {negative : Bool} {m : NumberScan} (hds : ds ≠ [])
    (hes : m.reversed.exponent = some (negative, es)) :
    ds.foldl addPower m =
      ⟨{ m.reversed with exponent := some (negative, ds.reverse ++ es) }, .power⟩ := by
  induction ds generalizing m es with
  | nil => exact absurd rfl hds
  | cons c ds ih =>
    rw [List.foldl_cons]
    by_cases hnil : ds = []
    · subst hnil
      simp [addPower, hes]
    · have hfirst : (m.addPower c).reversed.exponent = some (negative, c :: es) := by
        simp [addPower, hes]
      rw [ih hnil hfirst]
      simp [addPower]

end NumberScan

namespace Scan

open NumberScan

variable {n : Numeral} {p : NumberPart}

theorem rest_goOn {m m' : NumberScan} {c : Char} (h : m.goOn? c = some m') (cs : List Char) :
    (number m).rest (c :: cs) = (number m').rest cs := by
  simp [rest, step, NumberScan.step, h]

/-- Digits of one part are taken one by one. -/
theorem rest_digits {f : NumberScan → Char → NumberScan} {P : NumberPart → Prop}
    (hgo : ∀ m c, P m.part → c.isDigit = true → m.goOn? c = some (f m c))
    (hpart : ∀ m c, P (f m c).part) {ds : List Char} (hds : ∀ c ∈ ds, c.isDigit = true)
    {m : NumberScan} (hm : P m.part) (cs : List Char) :
    (number m).rest (ds ++ cs) = (number (ds.foldl f m)).rest cs := by
  induction ds generalizing m with
  | nil => rfl
  | cons c ds ih =>
    rw [List.cons_append, rest_goOn (hgo m c hm (hds c List.mem_cons_self)), List.foldl_cons]
    exact ih (fun d hd => hds d (List.mem_cons_of_mem c hd)) (hpart m c)

theorem onBetween_digit {c : Char} (h : c.isDigit = true) :
    onBetween c = (number (startDigit c), []) := by
  have hspace : isSpace c = false := by
    cases hs : isSpace c with
    | false => rfl
    | true =>
      simp only [isSpace, Bool.or_eq_true, decide_eq_true_eq] at hs
      rcases hs with ((rfl | rfl) | rfl) | rfl <;> exact absurd h (by decide)
  have hquote : c ≠ '"' := by rintro rfl; exact absurd h (by decide)
  have hminus : c ≠ '-' := by rintro rfl; exact absurd h (by decide)
  simp [onBetween, hspace, hquote, hminus, h]

/-- The first digit, after the sign if there is one, tells whether others may follow. -/
theorem rest_first (negative : Bool) {c : Char} (h : c.isDigit = true) (cs : List Char) :
    between.rest ((if negative then ['-'] else []) ++ c :: cs) =
      (number ⟨⟨negative, [c], none, none⟩, if c = '0' then .zero else .whole⟩).rest cs := by
  cases negative with
  | false =>
    have hstart : between.rest (c :: cs) = (number (startDigit c)).rest cs := by
      simp [rest, step, onBetween_digit h]
    exact hstart
  | true =>
    have hgo : startMinus.goOn? c =
        some ⟨⟨true, [c], none, none⟩, if c = '0' then .zero else .whole⟩ := by
      by_cases hzero : c = '0'
      · subst hzero
        rfl
      · simp [goOn?, startMinus, addWhole, hzero, h]
    exact rest_goOn hgo cs

theorem rest_whole (h : n.IsWritten) (cs : List Char) :
    ∃ p, (p = .zero ∨ p = .whole) ∧
      between.rest (n.signText ++ (n.whole ++ cs)) =
        (number ⟨⟨n.negative, n.whole.reverse, none, none⟩, p⟩).rest cs := by
  obtain hwhole | ⟨c, ds, hwhole, hc⟩ := h.whole.first
  · exact ⟨.zero, .inl rfl, by rw [Numeral.signText, hwhole]; exact rest_first n.negative rfl cs⟩
  · have hdigits := h.whole.digits
    rw [hwhole] at hdigits
    refine ⟨.whole, .inr rfl, ?_⟩
    have hrest := rest_first n.negative (hdigits c List.mem_cons_self) (ds ++ cs)
    rw [if_neg hc] at hrest
    rw [Numeral.signText, hwhole, List.cons_append, hrest,
      rest_digits (f := fun m c => m.addWhole c .whole) (P := (· = .whole))
        (fun m c hm hc => by simp [goOn?, hm, hc]) (fun _ _ => rfl)
        (fun d hd => hdigits d (List.mem_cons_of_mem c hd)) rfl,
      foldl_addWhole _ _ rfl]
    simp

theorem rest_fraction (h : n.IsWritten) (hp : p = .zero ∨ p = .whole) (cs : List Char) :
    ∃ p', (p' = .zero ∨ p' = .whole ∨ p' = .fraction) ∧
      (number ⟨⟨n.negative, n.whole.reverse, none, none⟩, p⟩).rest
        (n.fractionText ++ cs) =
        (number ⟨⟨n.negative, n.whole.reverse, n.fraction.map List.reverse, none⟩, p'⟩).rest
          cs := by
  cases hfraction : n.fraction with
  | none =>
    refine ⟨p, by rcases hp with rfl | rfl <;> simp, ?_⟩
    rw [Numeral.fractionText, hfraction]
    rfl
  | some ds =>
    obtain ⟨hdigits, hds⟩ := h.fraction ds hfraction
    refine ⟨.fraction, .inr (.inr rfl), ?_⟩
    have hpoint : NumberScan.goOn? ⟨⟨n.negative, n.whole.reverse, none, none⟩, p⟩ '.' =
        some ⟨⟨n.negative, n.whole.reverse, some [], none⟩, .point⟩ := by
      rcases hp with rfl | rfl <;> rfl
    rw [Numeral.fractionText, hfraction, List.cons_append, rest_goOn hpoint,
      rest_digits (f := addFraction) (P := fun p => p = .point ∨ p = .fraction)
        (fun m c hm hc => by rcases hm with hm | hm <;> simp [goOn?, hm, hc])
        (fun _ _ => .inr rfl) hdigits (.inl rfl),
      foldl_addFraction hds rfl]
    simp

theorem rest_exponent (h : n.IsWritten) (hp : p = .zero ∨ p = .whole ∨ p = .fraction) :
    ∃ p', p'.isLast = true ∧
      (number ⟨⟨n.negative, n.whole.reverse, n.fraction.map List.reverse, none⟩, p⟩).rest
        n.exponentText = [NumberScan.ended ⟨n.reverse, p'⟩ none] := by
  cases hexponent : n.exponent with
  | none =>
    refine ⟨p, by rcases hp with rfl | rfl | rfl <;> rfl, ?_⟩
    simp [Numeral.exponentText, rest, atEnd, Numeral.reverse, hexponent]
  | some e =>
    obtain ⟨negative, ds⟩ := e
    obtain ⟨hdigits, hds⟩ := h.exponent negative ds hexponent
    refine ⟨.power, rfl, ?_⟩
    have hmark : NumberScan.goOn?
        ⟨⟨n.negative, n.whole.reverse, n.fraction.map List.reverse, none⟩, p⟩ 'e' =
        some ⟨⟨n.negative, n.whole.reverse, n.fraction.map List.reverse, some (false, [])⟩,
          .mark⟩ := by
      rcases hp with rfl | rfl | rfl <;> rfl
    have hsign : NumberScan.goOn?
        ⟨⟨n.negative, n.whole.reverse, n.fraction.map List.reverse, some (false, [])⟩, .mark⟩
          (if negative then '-' else '+') =
        some ⟨⟨n.negative, n.whole.reverse, n.fraction.map List.reverse, some (negative, [])⟩,
          .sign⟩ := by
      cases negative <;> rfl
    have hpower := rest_digits (f := addPower) (P := fun p => p = .sign ∨ p = .power)
      (fun m c hm hc => by rcases hm with hm | hm <;> simp [goOn?, hm, hc])
      (fun _ _ => .inr rfl) hdigits
      (m := ⟨⟨n.negative, n.whole.reverse, n.fraction.map List.reverse, some (negative, [])⟩,
        .sign⟩) (.inl rfl) []
    rw [List.append_nil, foldl_addPower hds rfl] at hpower
    simp only [Numeral.exponentText, hexponent, rest_goOn hmark, rest_goOn hsign, hpower]
    simp [rest, atEnd, Numeral.reverse, hexponent]

end Scan

/-- A numeral that stands for a number is scanned as that number. -/
theorem tokens_text {n : Numeral} (h : n.IsWritten) {x : Number}
    (hx : Number.ofNumeral? n = some x) : tokens n.text = [.scalar (.number x)] := by
  obtain ⟨p, hp, hwhole⟩ := Scan.rest_whole h (n.fractionText ++ n.exponentText)
  obtain ⟨p, hp, hfraction⟩ := Scan.rest_fraction h hp n.exponentText
  obtain ⟨p, hp, hexponent⟩ := Scan.rest_exponent h hp
  rw [Scan.tokens_eq_rest, Numeral.text, hwhole, hfraction, hexponent]
  simp [NumberScan.ended, hp, Numeral.reverse_reverse, hx]

end Json

end FlowDiagram
