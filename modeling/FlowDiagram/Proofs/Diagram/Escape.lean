import FlowDiagram.Diagram.Label
import FlowDiagram.Proofs.Text.Lines
import FlowDiagram.Proofs.Text.Visible
/-! Escaped labels: every character has a stand-in of its own, and what they spell is trimmed. -/

namespace FlowDiagram.Label

open Text

/-- A quote, an apostrophe or a line break. -/
def IsReplaced (c : Char) : Prop := c = '"' ∨ c = '\'' ∨ c = '\n' ∨ c = '\r'

instance (c : Char) : Decidable (IsReplaced c) := inferInstanceAs (Decidable (_ ∨ _))

/-- What stands for a character in a label. -/
def standIn : Char → List Char
  | '"' => "#quot;".toList
  | '\'' => "#39;".toList
  | '\n' => "<br/>".toList
  | '\r' => []
  | c => [c]

/-- Whether a label may lose the character. A newline is blank and shown all the same, as a
break. -/
def isHidden (c : Char) : Bool := isBlank c && c != '\n'

variable {c d : Char} {cs : List Char} {s : String}

/-! Stand-ins -/

theorem standIn_of_not_isReplaced (h : ¬IsReplaced c) : standIn c = [c] := by
  unfold standIn
  split
  case h_5 => rfl
  all_goals exact absurd (by decide) h

/-- No stand-in is spelt with a character that is itself replaced. -/
theorem not_isReplaced_of_mem_standIn (h : d ∈ standIn c) : ¬IsReplaced d := by
  by_cases hc : IsReplaced c
  · have hspelt : (standIn c).all (¬IsReplaced ·) = true := by
      rcases hc with rfl | rfl | rfl | rfl <;> decide
    simpa using List.all_eq_true.1 hspelt d h
  · rw [standIn_of_not_isReplaced hc] at h
    obtain rfl := List.mem_singleton.1 h
    exact hc

theorem flatMap_standIn_eq_self (h : ∀ c ∈ cs, ¬IsReplaced c) : cs.flatMap standIn = cs := by
  induction cs with
  | nil => rfl
  | cons c cs ih =>
    obtain ⟨hc, hcs⟩ := List.forall_mem_cons.1 h
    rw [List.flatMap_cons, standIn_of_not_isReplaced hc, ih hcs, List.singleton_append]

/-- Nothing of a stand-in is left by trimming if and only if the character is hidden. -/
theorem all_isBlank_standIn (c : Char) : (standIn c).all isBlank = isHidden c := by
  by_cases hc : IsReplaced c
  · rcases hc with rfl | rfl | rfl | rfl <;> decide
  · rw [standIn_of_not_isReplaced hc]
    simp only [IsReplaced, not_or] at hc
    have hnewline : (c != '\n') = true := bne_iff_ne.2 hc.2.2.1
    rw [isHidden, hnewline, List.all_cons, List.all_nil]

/-! One replacement after the other -/

/-- A single character passes through all four replacements as its stand-in: none of them changes
what another one has put there. -/
theorem replaceChar_singleton_eq_standIn (c : Char) :
    replaceChar '\r' [] (replaceChar '\n' "<br/>".toList (replaceChar '\'' "#39;".toList
      (replaceChar '"' "#quot;".toList [c]))) = standIn c := by
  by_cases hc : IsReplaced c
  · rcases hc with rfl | rfl | rfl | rfl <;> decide
  · rw [standIn_of_not_isReplaced hc]
    simp only [IsReplaced, not_or] at hc
    simp only [replaceChar_singleton_of_ne, hc, not_false_eq_true]

theorem escapeChars_eq_trim_flatMap (cs : List Char) :
    escapeChars cs = trim (cs.flatMap standIn) := by
  rw [escapeChars]
  congr 1
  induction cs with
  | nil => rfl
  | cons c cs ih =>
    rw [List.flatMap_cons, ← ih, ← replaceChar_singleton_eq_standIn, ← List.singleton_append]
    simp only [replaceChar_append]

theorem toList_escape (s : String) : (escape s).toList = trim (s.toList.flatMap standIn) := by
  rw [escape, String.toList_ofList, escapeChars_eq_trim_flatMap]

/-! Escaped labels -/

theorem not_isReplaced_of_mem_escape (h : c ∈ (escape s).toList) : ¬IsReplaced c := by
  rw [toList_escape] at h
  obtain ⟨d, -, hc⟩ := List.mem_flatMap.1 (mem_of_mem_trim h)
  exact not_isReplaced_of_mem_standIn hc

theorem isTrimmed_escape (s : String) : IsTrimmed (escape s).toList := by
  rw [toList_escape]
  exact isTrimmed_trim _

/-- Escaping changes all labels but those that it can lead to. -/
theorem escape_eq_self_iff :
    escape s = s ↔ (∀ c ∈ s.toList, ¬IsReplaced c) ∧ IsTrimmed s.toList := by
  constructor
  · intro h
    rw [← h]
    exact ⟨fun c hc => not_isReplaced_of_mem_escape hc, isTrimmed_escape s⟩
  · rintro ⟨hfree, htrimmed⟩
    rw [← String.toList_inj, toList_escape, flatMap_standIn_eq_self hfree, htrimmed.trim_eq]

theorem escape_eq_empty_iff : escape s = "" ↔ ∀ c ∈ s.toList, isHidden c = true := by
  rw [← String.toList_eq_nil_iff, toList_escape, trim_eq_nil_iff, ← List.all_eq_true,
    List.all_flatMap, ← List.all_eq_true]
  simp only [all_isBlank_standIn]

/-- A label is escaped character by character. It holds no quote and no line break, has no white
space at its ends, and escaping it again changes nothing. Nothing is left only of white space in
which there is no newline. -/
theorem escape_spelt_by_characters (s : String) :
    escape s = String.ofList (trim (s.toList.flatMap standIn)) ∧
    (∃ before after, s.toList.flatMap standIn = before ++ (escape s).toList ++ after ∧
      ∀ c ∈ before ++ after, isBlank c = true) ∧
    (∀ c ∈ (escape s).toList, ¬IsReplaced c) ∧
    IsTrimmed (escape s).toList ∧
    escape (escape s) = escape s ∧
    (escape s = "" ↔ ∀ c ∈ s.toList, isBlank c = true ∧ c ≠ '\n') := by
  have hfree : ∀ c ∈ (escape s).toList, ¬IsReplaced c := fun c hc => not_isReplaced_of_mem_escape hc
  have htrimmed := isTrimmed_escape s
  refine ⟨?_, ?_, hfree, htrimmed, escape_eq_self_iff.2 ⟨hfree, htrimmed⟩, ?_⟩
  · rw [← toList_escape, String.ofList_toList]
  · rw [toList_escape]
    exact exists_trim_eq _
  · rw [escape_eq_empty_iff]
    simp only [isHidden, Bool.and_eq_true, bne_iff_ne]

example : escape " it's\r\nso \t" = "it#39;s<br/>so" := by decide +kernel

end FlowDiagram.Label
