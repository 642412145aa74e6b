import FlowDiagram.Calendar.InstantText
import FlowDiagram.Proofs.Except
import Mathlib.Algebra.Order.Ring.Nat
/-! Instants are read back as they are printed, but for leap seconds within a minute: they are
printed, and read, as the second after them. -/

namespace FlowDiagram.Calendar

/-! Padded numbers -/

theorem isDigit_of_mem_padded {width n : Nat} {c : Char} (h : c ∈ padded width n) :
    c.isDigit = true := by
  rcases List.mem_append.1 h with h | h
  · rw [List.eq_of_mem_replicate h]
    decide
  · exact Nat.isDigit_of_mem_toDigits (by decide) (by decide) h

theorem length_padded {width n : Nat} (hwidth : 0 < width) (h : n < 10 ^ width) :
    (padded width n).length = width := by
  have hdigits := (Nat.length_toDigits_le_iff (b := 10) (by decide) hwidth).2 h
  simp only [padded, List.length_append, List.length_replicate]
  omega

theorem padded_eq_cons (width n : Nat) :
    ∃ c cs, padded width n = c :: cs ∧ c.isDigit = true := by
  cases h : padded width n with
  | nil =>
    have hpositive := Nat.length_toDigits_pos (b := 10) (n := n)
    have hlength := congrArg List.length h
    simp only [padded, List.length_append, List.length_nil] at hlength
    omega
  | cons c cs => exact ⟨c, cs, rfl, isDigit_of_mem_padded (h ▸ List.mem_cons_self)⟩

theorem ofDigitChars_padded (width n : Nat) : Nat.ofDigitChars 10 (padded width n) 0 = n := by
  simp [padded, Nat.ofDigitChars_append]

/-! Readers in front of more text -/

/-- No digit and no white space is next. -/
def IsMarked (cs : List Char) : Prop :=
  ∀ c ∈ cs.head?, c.isDigit = false ∧ Text.isBlank c = false

theorem isBlank_of_isDigit {c : Char} (h : c.isDigit = true) : Text.isBlank c = false := by
  simp only [Char.isDigit, Bool.and_eq_true, decide_eq_true_eq] at h
  have hlow : 48 ≤ c.toNat := h.1
  have hhigh : c.toNat ≤ 57 := h.2
  simp only [Text.isBlank, Bool.or_eq_false_iff, Bool.and_eq_false_iff, decide_eq_false_iff_not,
    beq_eq_false_iff_ne]
  omega

theorem trimStart_cons {c : Char} {cs : List Char} (h : Text.isBlank c = false) :
    Text.trimStart (c :: cs) = c :: cs := by
  simp [Text.trimStart, h]

theorem trimStart_padded (width n : Nat) (cs : List Char) :
    Text.trimStart (padded width n ++ cs) = padded width n ++ cs := by
  obtain ⟨c, ds, hc, hdigit⟩ := padded_eq_cons width n
  rw [hc, List.cons_append, trimStart_cons (isBlank_of_isDigit hdigit)]

theorem takeWhile_take_of_isMarked {cs : List Char} (h : IsMarked cs) (k : Nat) :
    (cs.take k).takeWhile Char.isDigit = [] := by
  cases cs with
  | nil => simp
  | cons c cs =>
    cases k with
    | zero => rfl
    | succ k => simp [(h c rfl).1]

namespace Instant

theorem readDigits_append {most : Nat} {ds cs : List Char} (hds : ∀ c ∈ ds, c.isDigit = true)
    (hne : ds ≠ []) (hlength : ds.length ≤ most) (hcs : IsMarked cs) :
    readDigits most (ds ++ cs) = .ok (ds, cs) := by
  have htake : ((ds ++ cs).take most).takeWhile Char.isDigit = ds := by
    rw [List.take_append, List.take_of_length_le hlength, List.takeWhile_append_of_pos hds,
      takeWhile_take_of_isMarked hcs, List.append_nil]
  obtain ⟨d, ds', rfl⟩ := List.exists_cons_of_ne_nil hne
  rw [List.cons_append] at htake
  simp only [List.cons_append, readDigits, htake]
  simp

theorem digits_of_readDigits {most : Nat} {cs ds rest : List Char}
    (h : readDigits most cs = .ok (ds, rest)) :
    (∀ c ∈ ds, c.isDigit = true) ∧ ds.length ≤ most := by
  unfold readDigits at h
  split at h
  · cases h
  · dsimp only at h
    split at h
    · cases h
    · cases h
      exact ⟨fun c hc => List.all_eq_true.1 List.all_takeWhile c hc,
        Nat.le_trans (List.takeWhile_sublist _).length_le (List.length_take_le _ _)⟩

theorem readNumber_padded {most width n : Nat} {cs : List Char}
    (hlength : (padded width n).length ≤ most) (hcs : IsMarked cs) :
    readNumber most (padded width n ++ cs) = .ok (n, cs) := by
  have hne : padded width n ≠ [] := by
    obtain ⟨c, ds, hc, -⟩ := padded_eq_cons width n
    simp [hc]
  have hdigits := readDigits_append (fun _ hc => isDigit_of_mem_padded hc) hne hlength hcs
  simp only [readNumber, hdigits, bind, Except.bind, ofDigitChars_padded]
  rfl

theorem readPart_padded {low high n : Nat} {cs : List Char} (hlow : low ≤ n) (hhigh : n ≤ high)
    (h : n < 100) (hcs : IsMarked cs) : readPart low high (padded 2 n ++ cs) = .ok (n, cs) := by
  have hlength := length_padded (n := n) (by decide : 0 < 2) h
  have hnumber := readNumber_padded (Nat.le_of_eq hlength) hcs
  simp only [readPart, trimStart_padded, hnumber, bind, Except.bind, if_pos (And.intro hlow hhigh)]
  rfl

theorem readMark_cons {mark : Char} (h : Text.isBlank mark = false) (cs : List Char) :
    readMark mark (mark :: cs) = .ok ((), cs) := by
  simp [readMark, trimStart_cons h]

theorem year_inRange {year : Int} (hlow : firstYear ≤ year) (hhigh : year ≤ lastYear) :
    -0x80000000 ≤ year ∧ year < 0x80000000 := by
  unfold firstYear at hlow
  unfold lastYear at hhigh
  omega

theorem readYear_print {year : Int} {cs : List Char} (hlow : firstYear ≤ year)
    (hhigh : year ≤ lastYear) (hcs : IsMarked cs) :
    readYear (printYear year ++ cs) = .ok (year, cs) := by
  have hrange := year_inRange hlow hhigh
  unfold printYear
  split
  · rename_i hplain
    have hlength := length_padded (n := year.toNat) (by decide : 0 < 4) (by omega)
    have hnumber := readNumber_padded (Nat.le_of_eq hlength) hcs
    have hyear : (year.toNat : Int) = year := by omega
    obtain ⟨c, ds, hc, hdigit⟩ := padded_eq_cons 4 year.toNat
    have htrim := trimStart_padded 4 year.toNat cs
    rw [hc, List.cons_append] at hnumber htrim
    rw [hc, List.cons_append, readYear, htrim]
    split
    · rename_i heq
      cases heq
      exact absurd hdigit (by decide)
    · rename_i heq
      cases heq
      exact absurd hdigit (by decide)
    · refine bind_eq_ok_iff.2 ⟨_, hnumber, bind_eq_ok_iff.2 ⟨_, rfl, ?_⟩⟩
      simp only [hyear]
      exact if_pos hrange
  · have hnumber : readNumber (padded 4 year.natAbs ++ cs).length (padded 4 year.natAbs ++ cs) =
        .ok (year.natAbs, cs) := readNumber_padded (by simp) hcs
    by_cases hneg : year < 0
    · have hyear : -(year.natAbs : Int) = year := by omega
      rw [if_pos hneg, List.cons_append, readYear, trimStart_cons rfl]
      refine bind_eq_ok_iff.2 ⟨_, hnumber, bind_eq_ok_iff.2 ⟨_, rfl, ?_⟩⟩
      simp only [hyear]
      exact if_pos hrange
    · have hyear : (year.natAbs : Int) = year := by omega
      rw [if_neg hneg, List.cons_append, readYear, trimStart_cons rfl]
      refine bind_eq_ok_iff.2 ⟨_, hnumber, bind_eq_ok_iff.2 ⟨_, rfl, ?_⟩⟩
      simp only [hyear]
      exact if_pos hrange

theorem readFraction_padded {width n : Nat} {cs : List Char} (hwidth : 0 < width ∧ width ≤ 9)
    (h : n < 10 ^ width) (hcs : IsMarked cs) :
    readFraction ('.' :: padded width n ++ cs) = .ok (n * 10 ^ (9 - width), cs) := by
  have hlength := length_padded hwidth.1 h
  have hne : padded width n ≠ [] := by
    obtain ⟨c, ds, hc, -⟩ := padded_eq_cons width n
    simp [hc]
  have hdigits := readDigits_append (fun _ hc => isDigit_of_mem_padded hc) hne
    (hlength ▸ hwidth.2) hcs
  have hdrop : cs.dropWhile Char.isDigit = cs := by
    cases cs with
    | nil => rfl
    | cons c cs => simp [(hcs c rfl).1]
  simp only [List.cons_append, readFraction, hdigits, bind, Except.bind, pure, Except.pure, hdrop,
    hlength, ofDigitChars_padded]
  rfl

theorem readFraction_print {nano : Nat} {cs : List Char} (h : nano < 1000000000)
    (hcs : IsMarked cs) (hpoint : cs.head? ≠ some '.') :
    readFraction (printFraction nano ++ cs) = .ok (nano, cs) := by
  unfold printFraction
  split
  · subst nano
    cases cs with
    | nil => rfl
    | cons c cs =>
      have hc : c ≠ '.' := by simpa using hpoint
      simp only [List.nil_append]
      unfold readFraction
      split
      · rename_i heq
        cases heq
        exact absurd rfl hc
      · rfl
  · split
    · rw [readFraction_padded (by decide) (by omega) hcs]
      exact congrArg (fun n => Except.ok (n, cs)) (by omega)
    · split
      · rw [readFraction_padded (by decide) (by omega) hcs]
        exact congrArg (fun n => Except.ok (n, cs)) (by omega)
      · rw [readFraction_padded (by decide) (by omega) hcs]
        exact congrArg (fun n => Except.ok (n, cs)) (by omega)

theorem readDate_print {date : Date} {cs : List Char} (hdate : date.IsValid) (hcs : IsMarked cs) :
    readDate (printYear date.year ++ '-' :: (padded 2 date.month ++ '-' ::
      (padded 2 date.day ++ cs))) = .ok (date, cs) := by
  obtain ⟨⟨hfirst, hlast⟩, ⟨hmonth, hmonth'⟩, hday, hday'⟩ := hdate
  have hdays : daysInMonth date.year date.month ≤ 31 := by
    unfold daysInMonth
    split
    · split <;> omega
    · split <;> omega
  have hdash : ∀ cs, IsMarked ('-' :: cs) := fun cs c hc => by
    cases hc
    decide
  have hyear := readYear_print hfirst hlast (hdash (padded 2 date.month ++ '-' ::
    (padded 2 date.day ++ cs)))
  have hmonths := readPart_padded hmonth hmonth' (by omega) (hdash (padded 2 date.day ++ cs))
  have hlatest : date.day ≤ 31 := by omega
  have hdayOfMonth := readPart_padded hday hlatest (by omega) hcs
  refine bind_eq_ok_iff.2 ⟨_, hyear, bind_eq_ok_iff.2 ⟨_, readMark_cons rfl _, ?_⟩⟩
  refine bind_eq_ok_iff.2 ⟨_, hmonths, bind_eq_ok_iff.2 ⟨_, readMark_cons rfl _, ?_⟩⟩
  exact bind_eq_ok_iff.2 ⟨_, hdayOfMonth, rfl⟩

theorem isMarked_printFraction (nano : Nat) : IsMarked (printFraction nano ++ ['Z']) := by
  intro c hc
  unfold printFraction at hc
  split at hc
  · cases hc
    decide
  · split at hc
    · cases hc
      decide
    · split at hc <;>
      · cases hc
        decide

theorem written_lt (i : Instant) :
    (written i.second i.nano).1 ≤ 60 ∧ (written i.second i.nano).2 < 1000000000 := by
  have hsecond := i.second_lt
  have hnano := i.nano_lt
  unfold written
  split
  · exact ⟨by omega, by assumption⟩
  · exact ⟨by simp only; omega, by simp only; omega⟩

/-! Leap seconds -/

/-- A leap second, if there is one, comes at the end of a minute. -/
def LeapsAtMinuteEnd (i : Instant) : Prop := 1000000000 ≤ i.nano → i.second = 59

instance (i : Instant) : Decidable i.LeapsAtMinuteEnd := inferInstanceAs (Decidable (_ → _))

/-- The instant with the second after it for a leap second that is not at the end of a minute. -/
def reread (i : Instant) : Instant :=
  if h : 1000000000 ≤ i.nano ∧ i.second < 59 then
    { i with
      second := i.second + 1
      nano := i.nano - 1000000000
      second_lt := by omega
      nano_lt := Nat.lt_of_le_of_lt (Nat.sub_le _ _) i.nano_lt }
  else i

theorem reread_eq_self_iff {i : Instant} : i.reread = i ↔ i.LeapsAtMinuteEnd := by
  have hsecond := i.second_lt
  unfold reread LeapsAtMinuteEnd
  split
  · rename_i h
    constructor
    · intro heq
      have hnext : i.second + 1 = i.second := congrArg Instant.second heq
      omega
    · intro hlast
      have hlast := hlast h.1
      omega
  · exact ⟨fun _ _ => by omega, fun _ => rfl⟩

theorem ofWritten_written (i : Instant) :
    ofWritten (written i.second i.nano).1 (written i.second i.nano).2 =
      (i.reread.second, i.reread.nano) := by
  have hsecond := i.second_lt
  by_cases hnano : i.nano < 1000000000
  · have hplain : ¬(1000000000 ≤ i.nano ∧ i.second < 59) := by omega
    rw [reread, dif_neg hplain, written, if_pos hnano, ofWritten, if_neg (by simp only; omega)]
  · rw [written, if_neg hnano]
    by_cases hlast : i.second = 59
    · have hleap : ¬(1000000000 ≤ i.nano ∧ i.second < 59) := by omega
      rw [reread, dif_neg hleap, ofWritten, if_pos (by simp only; omega)]
      exact Prod.ext hlast.symm (by simp only; omega)
    · have hwithin : 1000000000 ≤ i.nano ∧ i.second < 59 := by omega
      rw [reread, dif_pos hwithin, ofWritten, if_neg (by simp only; omega)]

theorem reread_rest (i : Instant) :
    i.reread.date = i.date ∧ i.reread.hour = i.hour ∧ i.reread.minute = i.minute := by
  unfold reread
  split <;> exact ⟨rfl, rfl, rfl⟩

/-- The instant at its own date and time. -/
theorem at?_self (i : Instant) :
    at? i.date (i.hour * 60 + i.minute) i.second i.nano = some i := by
  obtain ⟨date, hour, minute, second, nano, hdate, hhour, hminute, hsecond, hnano⟩ := i
  have hhours : (hour * 60 + minute) / 60 = hour := by omega
  have hminutes : (hour * 60 + minute) % 60 = minute := by omega
  have hday : hour * 60 + minute < 1440 := by omega
  unfold at?
  rw [dif_pos ⟨hdate, hday, hsecond, hnano⟩]
  simp only [hhours, hminutes]

/-- The parts of an instant in universal time mean the instant as it is reread. -/
theorem ofParts_written (i : Instant) :
    ofParts i.date i.hour i.minute (written i.second i.nano).1 (written i.second i.nano).2 0 =
      .ok i.reread := by
  have hhour := i.hour_lt
  have hminute := i.minute_lt
  have hshift : shiftDate i.date (i.hour * 60 + i.minute - 0) =
      (i.date, i.hour * 60 + i.minute) := by
    unfold shiftDate
    rw [if_neg (by omega), if_neg (by omega)]
    exact congrArg (Prod.mk i.date) (by omega)
  have hvalid : ¬(¬i.date.IsValid ∨ 1440 ≤ Int.natAbs 0) := by simp [i.date_valid]
  obtain ⟨hdate, hhour, hminute⟩ := reread_rest i
  have hat := at?_self i.reread
  rw [hdate, hhour, hminute] at hat
  simp only [ofParts, if_neg hvalid, hshift, ofWritten_written, hat]

/-- Every instant is read back as it was printed, but for a leap second within a minute. -/
theorem read_print (i : Instant) : read i.print = .ok i.reread := by
  have hmark : ∀ mark, mark = 'T' ∨ mark = ':' ∨ mark = 'Z' → ∀ cs, IsMarked (mark :: cs) := by
    intro mark hmark cs c hc
    cases hc
    rcases hmark with rfl | rfl | rfl <;> decide
  have hhour := i.hour_lt
  have hminute := i.minute_lt
  obtain ⟨hsecond, hnano⟩ := written_lt i
  have hfraction := isMarked_printFraction (written i.second i.nano).2
  simp only [print, List.append_assoc, List.cons_append]
  refine bind_eq_ok_iff.2 ⟨_, readDate_print i.date_valid (hmark 'T' (by simp) _), ?_⟩
  refine bind_eq_ok_iff.2 ⟨_, rfl, ?_⟩
  refine bind_eq_ok_iff.2 ⟨_, readPart_padded (by omega) (by omega) (by omega)
    (hmark ':' (by simp) _), ?_⟩
  refine bind_eq_ok_iff.2 ⟨_, readMark_cons rfl _, ?_⟩
  refine bind_eq_ok_iff.2 ⟨_, readPart_padded (by omega) (by omega) (by omega)
    (hmark ':' (by simp) _), ?_⟩
  refine bind_eq_ok_iff.2 ⟨_, readMark_cons rfl _, ?_⟩
  refine bind_eq_ok_iff.2 ⟨_, readPart_padded (by omega) hsecond (by omega) hfraction, ?_⟩
  refine bind_eq_ok_iff.2 ⟨_, readFraction_print hnano (hmark 'Z' (by simp) _) (by simp), ?_⟩
  refine bind_eq_ok_iff.2 ⟨_, rfl, ?_⟩
  exact ofParts_written i

theorem ofDigitChars_lt {ds : List Char} (hds : ∀ c ∈ ds, c.isDigit = true) (n : Nat) :
    Nat.ofDigitChars 10 ds n < (n + 1) * 10 ^ ds.length := by
  induction ds generalizing n with
  | nil => simp [Nat.ofDigitChars]
  | cons d ds ih =>
    have hd := hds d List.mem_cons_self
    simp only [Char.isDigit, Bool.and_eq_true, decide_eq_true_eq] at hd
    have hdigit : d.toNat - '0'.toNat < 10 := by
      have hhigh : d.toNat ≤ 57 := hd.2
      have hzero : '0'.toNat = 48 := rfl
      omega
    have hrest := ih (fun c hc => hds c (List.mem_cons_of_mem d hc))
      (10 * n + (d.toNat - '0'.toNat))
    calc Nat.ofDigitChars 10 (d :: ds) n
        = Nat.ofDigitChars 10 ds (10 * n + (d.toNat - '0'.toNat)) := rfl
      _ < (10 * n + (d.toNat - '0'.toNat) + 1) * 10 ^ ds.length := hrest
      _ ≤ ((n + 1) * 10) * 10 ^ ds.length := Nat.mul_le_mul_right _ (by omega)
      _ = (n + 1) * 10 ^ (d :: ds).length := by
        rw [List.length_cons, Nat.pow_succ, Nat.mul_assoc, Nat.mul_comm 10]

/-- A fraction is less than a second. -/
theorem lt_of_readFraction {cs rest : List Char} {nano : Nat}
    (h : readFraction cs = .ok (nano, rest)) : nano < 1000000000 := by
  unfold readFraction at h
  split at h
  · obtain ⟨⟨digits, rest'⟩, hdigits, hnano⟩ := bind_eq_ok_iff.1 h
    cases hnano
    obtain ⟨hall, hlength⟩ := digits_of_readDigits hdigits
    have hlt := ofDigitChars_lt hall 0
    calc Nat.ofDigitChars 10 digits 0 * 10 ^ (9 - digits.length)
        < ((0 + 1) * 10 ^ digits.length) * 10 ^ (9 - digits.length) :=
          Nat.mul_lt_mul_of_pos_right hlt (Nat.pow_pos (by decide))
      _ = 10 ^ 9 := by rw [Nat.zero_add, Nat.one_mul, ← Nat.pow_add, Nat.add_sub_cancel' hlength]
      _ = 1000000000 := by rfl
  · cases h
    decide

theorem second_nano_of_at? {date : Date} {minuteOfDay second nano : Nat} {i : Instant}
    (h : at? date minuteOfDay second nano = some i) : i.second = second ∧ i.nano = nano := by
  unfold at? at h
  split at h
  · cases h
    exact ⟨rfl, rfl⟩
  · cases h

theorem leapsAtMinuteEnd_of_ofParts {date : Date} {hour minute second nano : Nat} {offset : Int}
    {i : Instant} (hnano : nano < 1000000000)
    (h : ofParts date hour minute second nano offset = .ok i) : i.LeapsAtMinuteEnd := by
  unfold ofParts at h
  split at h
  · cases h
  · dsimp only at h
    split at h
    · rename_i hat
      cases h
      obtain ⟨hsecond, hnano'⟩ := second_nano_of_at? hat
      unfold ofWritten at hsecond hnano'
      intro hleap
      split at hsecond
      · exact hsecond
      · rename_i hne
        rw [if_neg hne] at hnano'
        simp only at hnano'
        omega
    · cases h

/-- If what is read leaps, then at the end of a minute. -/
theorem leapsAtMinuteEnd_of_read {cs : List Char} {i : Instant} (h : read cs = .ok i) :
    i.LeapsAtMinuteEnd := by
  obtain ⟨⟨date, _⟩, -, h⟩ := bind_eq_ok_iff.1 h
  obtain ⟨⟨_, _⟩, -, h⟩ := bind_eq_ok_iff.1 h
  obtain ⟨⟨hour, _⟩, -, h⟩ := bind_eq_ok_iff.1 h
  obtain ⟨⟨_, _⟩, -, h⟩ := bind_eq_ok_iff.1 h
  obtain ⟨⟨minute, _⟩, -, h⟩ := bind_eq_ok_iff.1 h
  obtain ⟨⟨_, _⟩, -, h⟩ := bind_eq_ok_iff.1 h
  obtain ⟨⟨second, _⟩, -, h⟩ := bind_eq_ok_iff.1 h
  obtain ⟨⟨nano, _⟩, hnano, h⟩ := bind_eq_ok_iff.1 h
  obtain ⟨⟨offset, _⟩, -, h⟩ := bind_eq_ok_iff.1 h
  dsimp only at h
  split at h
  · exact leapsAtMinuteEnd_of_ofParts (lt_of_readFraction hnano) h
  · cases h

end Instant

end FlowDiagram.Calendar
