import FlowDiagram.Text.Blank
import Mathlib.Algebra.Order.Ring.Nat
/-! Lines of a text that is put together from pieces, and what trimming and replacing make of its
characters. -/

namespace FlowDiagram.Text

variable {p : Char → Bool} {c : Char} {cs part : List Char} {parts : List (List Char)}

theorem splitAt_eq_splitOnP (p : Char → Bool) (cs : List Char) : splitAt p cs = cs.splitOnP p := by
  induction cs with
  | nil => simp [splitAt]
  | cons c cs ih =>
    rw [splitAt, List.splitOnP_cons_eq_if_modifyHead, ih]
    cases hp : p c with
    | true => simp
    | false =>
      obtain ⟨part, parts, h⟩ := List.exists_cons_of_ne_nil (List.splitOnP_ne_nil p cs)
      simp [h]

theorem lines_eq_splitOn (cs : List Char) : lines cs = cs.splitOn '\n' := by
  rw [lines, splitAt_eq_splitOnP, List.splitOn_eq_splitOnP]
  rfl

theorem lines_ne_nil (cs : List Char) : lines cs ≠ [] := by
  simp [lines_eq_splitOn]

theorem lines_of_not_mem (h : '\n' ∉ cs) : lines cs = [cs] := by
  rw [lines_eq_splitOn, List.splitOn_eq_singleton h]

/-- A piece that itself has line breaks contributes its own lines. -/
theorem lines_intercalate (h : parts ≠ []) :
    lines (['\n'].intercalate parts) = parts.flatMap lines := by
  induction parts with
  | nil => exact absurd rfl h
  | cons part parts ih =>
    cases parts with
    | nil => simp
    | cons next parts =>
      have ih := ih (List.cons_ne_nil next parts)
      simp only [lines_eq_splitOn, List.intercalate_cons_cons, List.append_assoc, List.cons_append,
        List.nil_append, List.flatMap_cons] at ih ⊢
      rw [List.splitOn_append_cons_self, ih]

theorem intercalate_lines (cs : List Char) : ['\n'].intercalate (lines cs) = cs := by
  simp [lines_eq_splitOn]

theorem length_lines (cs : List Char) : (lines cs).length = cs.count '\n' + 1 := by
  induction cs with
  | nil => rfl
  | cons c cs ih =>
    have hne := lines_ne_nil cs
    rw [lines_eq_splitOn] at *
    rw [List.splitOn_cons_eq_if_modifyHead]
    by_cases hc : c = '\n'
    · simp [hc, ih]
    · simp [hc, ih]

/-- Between every two lines there is one character more. -/
theorem length_intercalate (h : parts ≠ []) :
    (['\n'].intercalate parts).length + 1 = (parts.map List.length).sum + parts.length := by
  induction parts with
  | nil => exact absurd rfl h
  | cons part parts ih =>
    cases parts with
    | nil => simp
    | cons next parts =>
      have ih := ih (List.cons_ne_nil next parts)
      simp only [List.intercalate_cons_cons, List.length_append, List.map_cons, List.sum_cons,
        List.length_cons, List.length_nil] at ih ⊢
      omega

theorem mem_intercalate {sep : Char} (h : c ∈ [sep].intercalate parts) :
    c = sep ∨ ∃ part ∈ parts, c ∈ part := by
  induction parts with
  | nil => simp at h
  | cons part parts ih =>
    cases parts with
    | nil => exact Or.inr ⟨part, List.mem_cons_self, by simpa using h⟩
    | cons next parts =>
      simp only [List.intercalate_cons_cons, List.append_assoc, List.mem_append,
        List.mem_singleton] at h
      obtain h | h | h := h
      · exact Or.inr ⟨part, List.mem_cons_self, h⟩
      · exact Or.inl h
      · obtain h | ⟨other, hmem, hc⟩ := ih h
        · exact Or.inl h
        · exact Or.inr ⟨other, List.mem_cons_of_mem _ hmem, hc⟩

/-- A newline comes last if and only if the last of several pieces is empty. -/
theorem getLast?_intercalate_eq_newline_iff (hlength : 2 ≤ parts.length)
    (h : ∀ part ∈ parts, part.getLast? ≠ some '\n') :
    (['\n'].intercalate parts).getLast? = some '\n' ↔ parts.getLast? = some [] := by
  induction parts with
  | nil => simp at hlength
  | cons part parts ih =>
    cases parts with
    | nil => simp at hlength
    | cons next parts =>
      rw [List.intercalate_cons_cons, List.append_assoc, List.getLast?_append,
        List.getLast?_cons_cons, List.singleton_append, List.getLast?_cons]
      cases parts with
      | nil =>
        have hnext := h next (by simp)
        cases hlast : next.getLast? with
        | none => simp [List.getLast?_eq_none_iff.1 hlast]
        | some c =>
          have hne : next ≠ [] := by
            intro hnil
            simp [hnil] at hlast
          simp_all
      | cons other parts =>
        have ih := ih (by simp) fun p hp => h p (List.mem_cons_of_mem part hp)
        rw [← ih]
        cases hlast : (['\n'].intercalate (next :: other :: parts)).getLast? with
        | none => simp [List.getLast?_eq_none_iff] at hlast
        | some c => simp

theorem not_mem_of_mem_splitAt (hpart : part ∈ splitAt p cs) (hc : c ∈ part) : p c = false := by
  induction cs generalizing part with
  | nil => simp_all [splitAt]
  | cons d cs ih =>
    rw [splitAt_eq_splitOnP] at *
    rw [List.splitOnP_cons_eq_if_modifyHead] at hpart
    obtain ⟨first, rest, h⟩ := List.exists_cons_of_ne_nil (List.splitOnP_ne_nil p cs)
    rw [h] at ih
    cases hp : p d with
    | true =>
      simp only [hp, if_true, h, List.mem_cons] at hpart
      obtain rfl | hpart := hpart
      · simp at hc
      · exact ih (List.mem_cons.2 hpart) hc
    | false =>
      simp only [hp, Bool.false_eq_true, if_false, h, List.modifyHead_cons, List.mem_cons] at hpart
      obtain rfl | hpart := hpart
      · obtain rfl | hc := List.mem_cons.1 hc
        · exact hp
        · exact ih List.mem_cons_self hc
      · exact ih (List.mem_cons_of_mem first hpart) hc

theorem mem_of_mem_trim (h : c ∈ trim cs) : c ∈ cs := by
  have h := (List.dropWhile_suffix isBlank).subset (List.mem_reverse.1 h)
  exact (List.dropWhile_suffix isBlank).subset (List.mem_reverse.1 h)

theorem replaceChar_append (old : Char) (new cs ds : List Char) :
    replaceChar old new (cs ++ ds) = replaceChar old new cs ++ replaceChar old new ds :=
  List.flatMap_append

theorem replaceChar_singleton_of_ne {old : Char} {new : List Char} (h : ¬c = old) :
    replaceChar old new [c] = [c] := by
  simp [replaceChar, h]

end FlowDiagram.Text
