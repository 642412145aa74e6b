import FlowDiagram.Proofs.Text.Trim
/-! What is visible of a text: trimming, splitting and joining leave that as it is. -/

namespace FlowDiagram.Text

variable {cs : List Char} {p : Char → Bool}

/-- The characters that are not white space, in their order. -/
def visible (cs : List Char) : List Char := cs.filter fun c => !isBlank c

theorem visible_eq_nil_iff : visible cs = [] ↔ ∀ c ∈ cs, isBlank c = true := by
  simp [visible]

theorem visible_append (cs ds : List Char) : visible (cs ++ ds) = visible cs ++ visible ds :=
  List.filter_append ..

/-! Trimming -/

theorem visible_trim (cs : List Char) : visible (trim cs) = visible cs := by
  obtain ⟨before, after, hcs, hblank⟩ := exists_trim_eq cs
  obtain ⟨hbefore, hafter⟩ := List.forall_mem_append.1 hblank
  have hvisible := congrArg visible hcs
  rw [visible_append, visible_append, visible_eq_nil_iff.2 hbefore, visible_eq_nil_iff.2 hafter,
    List.nil_append, List.append_nil] at hvisible
  exact hvisible.symm

/-- A trimmed text begins with something visible. -/
theorem IsTrimmed.visible_eq_nil_iff (h : IsTrimmed cs) : visible cs = [] ↔ cs = [] := by
  constructor
  · intro hnone
    cases cs with
    | nil => rfl
    | cons c cs =>
      have hc := Text.visible_eq_nil_iff.1 hnone c List.mem_cons_self
      rw [h.head c rfl] at hc
      cases hc
  · rintro rfl
    rfl

theorem trim_eq_nil_iff : trim cs = [] ↔ ∀ c ∈ cs, isBlank c = true := by
  rw [← (isTrimmed_trim cs).visible_eq_nil_iff, visible_trim, visible_eq_nil_iff]

theorem visible_flatten_map_trim (parts : List (List Char)) :
    visible (parts.map trim).flatten = visible parts.flatten := by
  induction parts with
  | nil => rfl
  | cons part parts ih =>
    rw [List.map_cons, List.flatten_cons, List.flatten_cons, visible_append, visible_append,
      visible_trim, ih]

/-! Splitting and joining -/

/-- All that splitting takes away are the breaks. -/
theorem flatten_splitAt (p : Char → Bool) (cs : List Char) :
    (splitAt p cs).flatten = cs.filter fun c => !p c := by
  induction cs with
  | nil => rfl
  | cons c cs ih =>
    rw [splitAt]
    cases hc : p c with
    | true => simp [hc, ih]
    | false =>
      -- The character goes to the first part.
      rw [List.filter_cons_of_pos (by simp [hc]), ← ih]
      cases splitAt p cs <;> simp

theorem visible_flatten_splitAt (hp : ∀ c, p c = true → isBlank c = true) (cs : List Char) :
    visible (splitAt p cs).flatten = visible cs := by
  rw [flatten_splitAt, visible, List.filter_filter, visible]
  apply List.filter_congr
  intro c _
  cases hc : p c with
  | true => simp [hp c hc]
  | false => simp

theorem visible_intercalate {sep : List Char} (hsep : ∀ c ∈ sep, isBlank c = true)
    (parts : List (List Char)) : visible (sep.intercalate parts) = visible parts.flatten := by
  induction parts with
  | nil => rfl
  | cons part parts ih =>
    cases parts with
    | nil => simp
    | cons next parts =>
      rw [List.intercalate_cons_cons, visible_append, visible_append, visible_eq_nil_iff.2 hsep, ih,
        List.append_nil, List.flatten_cons (l := part), visible_append]

end FlowDiagram.Text
