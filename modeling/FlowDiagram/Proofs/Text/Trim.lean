import FlowDiagram.Text.Blank
import Mathlib.Data.List.Basic
import Mathlib.Data.List.TakeWhile
/-! Trimming takes all white space from both ends of a text, and nothing else. -/

namespace FlowDiagram.Text

variable {before word after cs : List Char}

theorem takeWhile_isBlank (cs : List Char) : ∀ c ∈ cs.takeWhile isBlank, isBlank c = true := by
  intro c hc
  exact List.all_eq_true.1 List.all_takeWhile c hc

/-- What is trimmed away. -/
theorem exists_trim_eq (cs : List Char) :
    ∃ before after, cs = before ++ trim cs ++ after ∧ ∀ c ∈ before ++ after, isBlank c = true := by
  refine ⟨cs.takeWhile isBlank, ((trimStart cs).reverse.takeWhile isBlank).reverse, ?_, ?_⟩
  · have hend : trim cs ++ ((trimStart cs).reverse.takeWhile isBlank).reverse = trimStart cs := by
      rw [trim, trimEnd, ← List.reverse_append, List.takeWhile_append_dropWhile,
        List.reverse_reverse]
    rw [List.append_assoc, hend]
    exact List.takeWhile_append_dropWhile.symm
  · intro c hc
    rcases List.mem_append.1 hc with hc | hc
    · exact takeWhile_isBlank _ c hc
    · exact takeWhile_isBlank _ c (List.mem_reverse.1 hc)

theorem trimStart_append (hbefore : ∀ c ∈ before, isBlank c = true) :
    trimStart (before ++ cs) = trimStart cs := by
  unfold trimStart
  rw [List.dropWhile_append, if_pos]
  rw [List.isEmpty_iff, List.dropWhile_eq_nil_iff]
  exact hbefore

theorem trimEnd_append (hafter : ∀ c ∈ after, isBlank c = true) :
    trimEnd (cs ++ after) = trimEnd cs := by
  have hreverse : ∀ c ∈ after.reverse, isBlank c = true := by simpa using hafter
  have hsame : trimStart (after.reverse ++ cs.reverse) = trimStart cs.reverse :=
    trimStart_append hreverse
  unfold trimStart at hsame
  simp only [trimEnd, List.reverse_append, hsame]

theorem trimStart_of_head (h : ∀ c ∈ cs.head?, isBlank c = false) : trimStart cs = cs := by
  cases cs with
  | nil => rfl
  | cons c cs =>
    have hc : isBlank c = false := h c rfl
    simp [trimStart, hc]

theorem trimEnd_of_getLast (h : ∀ c ∈ cs.getLast?, isBlank c = false) : trimEnd cs = cs := by
  have hstart : trimStart cs.reverse = cs.reverse := trimStart_of_head (by simpa using h)
  unfold trimStart at hstart
  rw [trimEnd, hstart, List.reverse_reverse]

/-- A text without white space at its ends is what is left of it between white space. -/
theorem trim_append (hbefore : ∀ c ∈ before, isBlank c = true)
    (hafter : ∀ c ∈ after, isBlank c = true) (hhead : ∀ c ∈ word.head?, isBlank c = false)
    (hlast : ∀ c ∈ word.getLast?, isBlank c = false) : trim (before ++ word ++ after) = word := by
  rw [trim, List.append_assoc, trimStart_append hbefore]
  cases word with
  | nil =>
    have hnone : trimStart after = [] := List.dropWhile_eq_nil_iff.2 hafter
    rw [List.nil_append, hnone]
    rfl
  | cons c word =>
    have hstart : trimStart (c :: word ++ after) = c :: word ++ after :=
      trimStart_of_head (by simpa using hhead)
    rw [hstart, trimEnd_append hafter, trimEnd_of_getLast hlast]

/-! What is left -/

/-- Neither begins nor ends with white space. -/
structure IsTrimmed (cs : List Char) : Prop where
  head : ∀ c ∈ cs.head?, isBlank c = false
  last : ∀ c ∈ cs.getLast?, isBlank c = false

theorem isBlank_of_mem_head?_trimStart (cs : List Char) :
    ∀ c ∈ (trimStart cs).head?, isBlank c = false := by
  intro c hc
  have hnot := List.head?_dropWhile_not isBlank cs
  unfold trimStart at hc
  rw [Option.mem_def.1 hc] at hnot
  simpa using hnot

theorem trimEnd_prefix (cs : List Char) : trimEnd cs <+: cs := by
  rw [trimEnd, ← List.reverse_suffix, List.reverse_reverse]
  exact List.dropWhile_suffix isBlank

theorem isTrimmed_trim (cs : List Char) : IsTrimmed (trim cs) where
  head := by
    intro c hc
    -- Trimming the end leaves the front as it was.
    obtain ⟨after, hafter⟩ := trimEnd_prefix (trimStart cs)
    have hfirst : (trimEnd (trimStart cs)).head? = some c := hc
    apply isBlank_of_mem_head?_trimStart cs c
    rw [← hafter, List.head?_append, hfirst]
    rfl
  last := by
    rw [trim, trimEnd, List.getLast?_reverse]
    exact isBlank_of_mem_head?_trimStart (trimStart cs).reverse

theorem IsTrimmed.trim_eq (h : IsTrimmed cs) : trim cs = cs := by
  rw [trim, trimStart_of_head h.head, trimEnd_of_getLast h.last]

/-- Whatever stands between them. -/
theorem IsTrimmed.append {ds : List Char} (hcs : IsTrimmed cs) (hcs_ne : cs ≠ [])
    (hds : IsTrimmed ds) (hds_ne : ds ≠ []) (between : List Char) :
    IsTrimmed (cs ++ between ++ ds) where
  head := by
    rw [List.append_assoc, List.head?_append_of_ne_nil _ hcs_ne]
    exact hcs.head
  last := by
    rw [List.getLast?_append_of_ne_nil _ hds_ne]
    exact hds.last

theorem isTrimmed_intercalate {sep : List Char} {parts : List (List Char)}
    (h : ∀ part ∈ parts, part ≠ [] ∧ IsTrimmed part) :
    IsTrimmed (sep.intercalate parts) ∧ (parts ≠ [] → sep.intercalate parts ≠ []) := by
  induction parts with
  | nil => exact ⟨⟨by simp, by simp⟩, fun hne => absurd rfl hne⟩
  | cons part parts ih =>
    obtain ⟨⟨hne, hpart⟩, hparts⟩ := List.forall_mem_cons.1 h
    cases parts with
    | nil => simpa using ⟨hpart, hne⟩
    | cons next parts =>
      obtain ⟨hrest, hrest_ne⟩ := ih hparts
      rw [List.intercalate_cons_cons]
      refine ⟨hpart.append hne hrest (hrest_ne (List.cons_ne_nil _ _)) sep, fun _ => ?_⟩
      simp [hne]

end FlowDiagram.Text
