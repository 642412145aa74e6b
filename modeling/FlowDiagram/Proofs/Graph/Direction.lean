import FlowDiagram.Graph.Direction
import FlowDiagram.Proofs.Text.Trim
/-! Which texts name a direction. -/

namespace FlowDiagram.Direction

open Text

/-- Between white space, the text is the keyword of the direction in any case of its letters. -/
def Names (d : Direction) (s : String) : Prop :=
  ∃ before word after, s.toList = before ++ word ++ after ∧
    (∀ c ∈ before ++ after, isBlank c = true) ∧ word.map Char.toUpper = d.keyword.toList

/-- White space has no case. -/
theorem toUpper_of_isBlank {c : Char} (h : isBlank c = true) : c.toUpper = c := by
  unfold Char.toUpper
  split
  · rename_i hletter
    have hlow : 97 ≤ c.toNat := hletter.1
    have hhigh : c.toNat ≤ 122 := hletter.2
    simp only [isBlank, Bool.or_eq_true, Bool.and_eq_true, decide_eq_true_eq, beq_iff_eq] at h
    omega
  · rfl

theorem isBlank_of_mem_keyword (d : Direction) : ∀ c ∈ d.keyword.toList, isBlank c = false := by
  have hall : d.keyword.toList.all (!isBlank ·) = true := by cases d <;> decide
  simpa using hall

/-- No two directions have the same keyword. -/
theorem find?_keyword_eq_some_iff {word : List Char} {d : Direction} :
    (all.find? fun e => e.keyword.toList = word) = some d ↔ d.keyword.toList = word := by
  constructor
  · intro h
    simpa using List.find?_some h
  · rintro rfl
    cases d <;> decide

theorem trim_of_names {d : Direction} {s : String} (h : d.Names s) :
    (trim s.toList).map Char.toUpper = d.keyword.toList := by
  obtain ⟨before, word, after, hs, hblank, hword⟩ := h
  have hsolid : ∀ c ∈ word, isBlank c = false := by
    intro c hc
    have hupper : c.toUpper ∈ d.keyword.toList := hword ▸ List.mem_map_of_mem hc
    have hfree := d.isBlank_of_mem_keyword _ hupper
    cases hc : isBlank c with
    | false => rfl
    | true =>
      rw [toUpper_of_isBlank hc, hc] at hfree
      cases hfree
  rw [hs, trim_append, hword]
  · exact fun c hc => hblank c (List.mem_append_left _ hc)
  · exact fun c hc => hblank c (List.mem_append_right _ hc)
  · exact fun c hc => hsolid c (List.mem_of_head? hc)
  · exact fun c hc => hsolid c (List.mem_of_getLast? hc)

theorem names_iff {d : Direction} {s : String} :
    d.Names s ↔ (trim s.toList).map Char.toUpper = d.keyword.toList := by
  refine ⟨trim_of_names, fun h => ?_⟩
  obtain ⟨before, after, hs, hblank⟩ := exists_trim_eq s.toList
  exact ⟨before, _, after, hs, hblank, h⟩

/-- A text is read as the direction that it names. -/
theorem ofText_eq_ok_iff {d : Direction} {s : String} : ofText s = .ok d ↔ d.Names s := by
  rw [names_iff, eq_comm (b := d.keyword.toList), ← find?_keyword_eq_some_iff, ofText]
  cases all.find? fun e => e.keyword.toList = (trim s.toList).map Char.toUpper with
  | some e => simp
  | none => simp

theorem Names.unique {d e : Direction} {s : String} (hd : d.Names s) (he : e.Names s) : d = e := by
  rw [← ofText_eq_ok_iff] at hd he
  exact Except.ok.inj (hd.symm.trans he)

/-- A text that names none is refused as it is. -/
theorem ofText_eq_error_iff {e : Unknown} {s : String} :
    ofText s = .error e ↔ (∀ d : Direction, ¬d.Names s) ∧ e = ⟨s⟩ := by
  simp only [← ofText_eq_ok_iff]
  unfold ofText
  simp only []
  split
  · simp
  · simp [eq_comm]

end FlowDiagram.Direction
