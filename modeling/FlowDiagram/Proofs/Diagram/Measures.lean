import FlowDiagram.Proofs.Diagram.Sections
import Mathlib.Data.List.Basic
/-! The size of a graph's text, line by line. -/

namespace FlowDiagram.Graph

open Diagram Label

variable (g : Graph) (metadata : Option Metadata) (o : Options)

def preview : Preview := Preview.ofText (g.diagramText metadata o)

/-- The lines of the text, of which that of the theme may itself break. -/
def logicalLines : List String :=
  if g.nodes = [] then frontLines metadata o ++ [placeholder]
  else frontLines metadata o ++ g.nodeLines ++ g.edgeSection ++ backLines metadata o

/-- The number of lines by sections. -/
def lineTotal : Nat :=
  (if (titleNote metadata o).isSome then 3 else 0) + 1 +
    if g.nodes = [] then 1
    else
      g.nodeLines.length + (if g.edges = [] then 0 else 1 + (g.edges.filter g.joins).length) +
        (if (descriptionNote metadata o).isSome then 1 else 0) +
        match o.theme with
        | some theme => 1 + theme.toList.count '\n'
        | none => 0

theorem lines_eq_logicalLines : (ofGraph g metadata o).lines = g.logicalLines metadata o := by
  unfold logicalLines
  split
  · rename_i h
    exact g.lines_of_nodes_eq_nil metadata o h
  · rename_i h
    exact g.lines_of_nodes_ne_nil metadata o h

theorem toList_diagramText :
    (g.diagramText metadata o).toList =
      ['\n'].intercalate ((g.logicalLines metadata o).map String.toList) := by
  rw [diagramText, toList_text, lines_eq_logicalLines]

/-! Lines other than that of the theme -/

theorem isOneLine_frontLines : ∀ l ∈ frontLines metadata o, IsOneLine l := by
  simp only [frontLines, List.mem_append, List.mem_singleton]
  rintro l (hl | rfl)
  · exact isOneLine_titleLines note?_isOneLine l hl
  · exact isOneLine_header o.direction

theorem isOneLine_nodeLines : ∀ l ∈ g.nodeLines, IsOneLine l := by
  intro l hl
  obtain ⟨n, -, rfl⟩ := List.mem_map.1 (List.mem_eraseDups.1 hl)
  exact n.box_wellFormed.isOneLine_line

theorem isOneLine_edgeLines : ∀ l ∈ g.edgeLines, IsOneLine l := by
  intro l hl
  obtain ⟨a, ha, rfl⟩ := List.mem_map.1 hl
  obtain ⟨e, -, he⟩ := List.mem_filterMap.1 ha
  exact (arrow?_wellFormed he).isOneLine_line

theorem isOneLine_edgeSection : ∀ l ∈ g.edgeSection, IsOneLine l := by
  unfold edgeSection
  split
  · simp
  · rintro l hl
    obtain rfl | hl := List.mem_cons.1 hl
    · exact ⟨by decide, by decide⟩
    · exact g.isOneLine_edgeLines l hl

theorem isOneLine_placeholder : IsOneLine placeholder := ⟨by decide, by decide⟩

/-- A line of the text is that of the theme or without breaks. -/
theorem isOneLine_of_mem_logicalLines {l : String} (h : l ∈ g.logicalLines metadata o) :
    IsOneLine l ∨ l ∈ themeLines o.theme := by
  unfold logicalLines at h
  split at h
  · obtain h | h := List.mem_append.1 h
    · exact Or.inl (isOneLine_frontLines metadata o l h)
    · obtain rfl := List.mem_singleton.1 h
      exact Or.inl isOneLine_placeholder
  · simp only [backLines, List.mem_append] at h
    obtain ((h | h) | h) | h | h := h
    · exact Or.inl (isOneLine_frontLines metadata o l h)
    · exact Or.inl (g.isOneLine_nodeLines l h)
    · exact Or.inl (g.isOneLine_edgeSection l h)
    · exact Or.inl (isOneLine_descriptionLines note?_isOneLine l h)
    · exact Or.inr h

theorem not_mem_of_mem_themeLines {c : Char} {theme : Option String} {l : String}
    (hfree : c ∉ "%%\x7binit: \x7b'theme':''\x7d\x7d%%".toList)
    (htheme : ∀ text ∈ theme, c ∉ text.toList) (h : l ∈ themeLines theme) : c ∉ l.toList := by
  cases theme with
  | none => simp [themeLines] at h
  | some text =>
    have htext := htheme text rfl
    simp only [themeLines, List.mem_singleton] at h
    subst l
    simp_all

/-! Counting -/

theorem length_flatMap_lines (ls : List String) :
    (ls.flatMap fun l => Text.lines l.toList).length =
      ls.length + (ls.map fun l => l.toList.count '\n').sum := by
  induction ls with
  | nil => rfl
  | cons l ls ih =>
    simp only [List.flatMap_cons, List.length_append, ih, Text.length_lines, List.length_cons,
      List.map_cons, List.sum_cons]
    omega

theorem sum_count_newline_eq_zero {ls : List String} (h : ∀ l ∈ ls, IsOneLine l) :
    (ls.map fun l => l.toList.count '\n').sum = 0 := by
  induction ls with
  | nil => rfl
  | cons l ls ih =>
    rw [List.map_cons, List.sum_cons, List.count_eq_zero_of_not_mem (h l List.mem_cons_self).1,
      ih fun m hm => h m (List.mem_cons_of_mem l hm)]

theorem length_frontLines :
    (frontLines metadata o).length = (if (titleNote metadata o).isSome then 3 else 0) + 1 := by
  cases h : titleNote metadata o <;> simp [frontLines, titleLines, h]

theorem length_edgeSection :
    g.edgeSection.length = if g.edges = [] then 0 else 1 + (g.edges.filter g.joins).length := by
  unfold edgeSection
  split
  · rfl
  · simp [edgeLines, length_arrows, Nat.add_comm]

theorem length_backLines :
    (backLines metadata o).length +
        ((backLines metadata o).map fun l => l.toList.count '\n').sum =
      (if (descriptionNote metadata o).isSome then 1 else 0) +
        match o.theme with
        | some theme => 1 + theme.toList.count '\n'
        | none => 0 := by
  have hdescription : ((descriptionLines (descriptionNote metadata o)).map fun l =>
      l.toList.count '\n').sum = 0 :=
    sum_count_newline_eq_zero (isOneLine_descriptionLines note?_isOneLine)
  simp only [backLines, List.length_append, List.map_append, List.sum_append, hdescription]
  cases descriptionNote metadata o <;> cases o.theme
  all_goals simp [descriptionLines, themeLines]
  omega

theorem lineCount_eq_lineTotal :
    (g.preview metadata o).lineCount = g.lineTotal metadata o := by
  have hcount : (g.preview metadata o).lineCount =
      (g.logicalLines metadata o).length +
        ((g.logicalLines metadata o).map fun l => l.toList.count '\n').sum := by
    rw [preview, Preview.ofText, diagramText, Diagram.lines_text, length_flatMap_lines,
      lines_eq_logicalLines]
  rw [hcount, logicalLines, lineTotal]
  split
  · have hfront : ∀ l ∈ frontLines metadata o ++ [placeholder], IsOneLine l := by
      intro l hl
      obtain hl | hl := List.mem_append.1 hl
      · exact isOneLine_frontLines metadata o l hl
      · exact List.mem_singleton.1 hl ▸ isOneLine_placeholder
    rw [sum_count_newline_eq_zero hfront, List.length_append, length_frontLines]
    rfl
  · have hback := length_backLines metadata o
    simp only [List.map_append, List.sum_append, List.length_append, length_frontLines,
      length_edgeSection, sum_count_newline_eq_zero (isOneLine_frontLines metadata o),
      sum_count_newline_eq_zero g.isOneLine_nodeLines,
      sum_count_newline_eq_zero g.isOneLine_edgeSection]
    omega

/-! The end of the text -/

theorem getLast?_ne_newline {l : String} (h : l ∈ g.logicalLines metadata o) :
    l.toList.getLast? ≠ some '\n' := by
  rcases g.isOneLine_of_mem_logicalLines metadata o h with hl | hl
  · intro hlast
    exact hl.1 (List.mem_of_getLast? hlast)
  · cases htheme : o.theme with
    | none => simp [htheme, themeLines] at hl
    | some theme =>
      simp only [htheme, themeLines, List.mem_singleton] at hl
      subst l
      rw [String.toList_append, List.getLast?_append]
      simp

theorem empty_not_mem_nodeLines : "" ∉ g.nodeLines := by
  intro h
  obtain ⟨n, -, hn⟩ := List.mem_map.1 (List.mem_eraseDups.1 h)
  have hn := congrArg String.toList hn
  simp [n.box.toList_line, indent] at hn

theorem empty_not_mem_edgeLines : "" ∉ g.edgeLines := by
  intro h
  obtain ⟨a, -, ha⟩ := List.mem_map.1 h
  have ha := congrArg String.toList ha
  simp [a.toList_line, indent] at ha

theorem nodeLines_ne_nil (h : g.nodes ≠ []) : g.nodeLines ≠ [] := by
  obtain ⟨n, nodes, hcons⟩ := List.exists_cons_of_ne_nil h
  simp [nodeLines, hcons, List.eraseDups_cons]

theorem getLast?_backLines :
    (backLines metadata o).getLast? ≠ some "" ∧
      (backLines metadata o = [] ↔ descriptionNote metadata o = none ∧ o.theme = none) := by
  unfold backLines
  cases descriptionNote metadata o <;> cases o.theme <;> simp [descriptionLines, themeLines]

theorem edgeSection_eq_nil_iff : g.edgeSection = [] ↔ g.edges = [] := by
  unfold edgeSection
  split <;> simp_all

theorem getLast?_edgeSection :
    g.edgeSection.getLast? = some "" ↔ g.edges ≠ [] ∧ g.arrows = [] := by
  unfold edgeSection
  split
  · simp_all
  · rename_i hedges
    cases harrows : g.arrows with
    | nil => simp [edgeLines, harrows, hedges]
    | cons a arrows =>
      have hfree := g.empty_not_mem_edgeLines
      simp only [edgeLines, harrows, List.map_cons] at hfree ⊢
      rw [List.getLast?_cons_cons]
      simp only [reduceCtorEq, and_false, iff_false]
      exact fun h => hfree (List.mem_of_getLast? h)

theorem two_le_length_logicalLines : 2 ≤ (g.logicalLines metadata o).length := by
  have hfront := length_frontLines metadata o
  unfold logicalLines
  split
  · simp only [List.length_append, List.length_singleton]
    omega
  · rename_i hnodes
    have hlines := List.length_pos_iff.2 (g.nodeLines_ne_nil hnodes)
    simp only [List.length_append]
    omega

/-- Only the line that sets off edges is empty. -/
theorem getLast?_logicalLines_eq_empty_iff :
    (g.logicalLines metadata o).getLast? = some "" ↔
      g.nodes ≠ [] ∧ g.edges ≠ [] ∧ g.arrows = [] ∧ descriptionNote metadata o = none ∧
        o.theme = none := by
  unfold logicalLines
  split
  · rename_i hnodes
    simp [hnodes, placeholder, indent]
  · rename_i hnodes
    obtain ⟨hback, hback_nil⟩ := getLast?_backLines metadata o
    rw [← hback_nil]
    by_cases hnil : backLines metadata o = []
    · rw [hnil, List.append_nil]
      by_cases hedges : g.edges = []
      · have hlast : g.nodeLines.getLast? ≠ some "" :=
          fun h => g.empty_not_mem_nodeLines (List.mem_of_getLast? h)
        rw [g.edgeSection_eq_nil_iff.2 hedges, List.append_nil,
          List.getLast?_append_of_ne_nil _ (g.nodeLines_ne_nil hnodes)]
        simp [hlast, hedges]
      · rw [List.getLast?_append_of_ne_nil _ (mt g.edgeSection_eq_nil_iff.1 hedges),
          g.getLast?_edgeSection]
        simp [hnodes]
    · rw [List.getLast?_append_of_ne_nil _ hnil]
      simp [hback, hnil]

/-! All measures -/

theorem code_preview :
    (g.preview metadata o).code.toList =
      ['\n'].intercalate ((g.logicalLines metadata o).map String.toList) :=
  g.toList_diagramText metadata o

theorem lines_code_preview (htheme : ∀ theme ∈ o.theme, '\n' ∉ theme.toList) :
    Text.lines (g.preview metadata o).code.toList =
      (g.logicalLines metadata o).map String.toList := by
  have hfree : ∀ l ∈ g.logicalLines metadata o, '\n' ∉ l.toList := by
    intro l hl
    rcases g.isOneLine_of_mem_logicalLines metadata o hl with hl | hl
    · exact hl.1
    · exact not_mem_of_mem_themeLines (by decide) htheme hl
  rw [← flatMap_lines_of_not_mem hfree, ← lines_eq_logicalLines, ← Diagram.lines_text]
  rfl

theorem return_not_mem_code_preview (htheme : ∀ theme ∈ o.theme, '\r' ∉ theme.toList) :
    '\r' ∉ (g.preview metadata o).code.toList := by
  intro hmem
  rw [code_preview] at hmem
  rcases Text.mem_intercalate hmem with h | ⟨part, hpart, h⟩
  · exact absurd h (by decide)
  · obtain ⟨l, hl, rfl⟩ := List.mem_map.1 hpart
    rcases g.isOneLine_of_mem_logicalLines metadata o hl with hl | hl
    · exact hl.2 h
    · exact not_mem_of_mem_themeLines (by decide) htheme hl h

theorem getLast?_code_preview_eq_newline_iff :
    (g.preview metadata o).code.toList.getLast? = some '\n' ↔
      (g.logicalLines metadata o).getLast? = some "" := by
  have hlast : ∀ part ∈ (g.logicalLines metadata o).map String.toList,
      part.getLast? ≠ some '\n' := by
    intro part hpart
    obtain ⟨l, hl, rfl⟩ := List.mem_map.1 hpart
    exact g.getLast?_ne_newline metadata o hl
  have htwo := g.two_le_length_logicalLines metadata o
  rw [code_preview, Text.getLast?_intercalate_eq_newline_iff (by simpa using htwo) hlast,
    List.getLast?_map, Option.map_eq_some_iff]
  constructor
  · rintro ⟨l, hl, hempty⟩
    rw [hl, String.toList_eq_nil_iff.1 hempty]
  · intro h
    exact ⟨"", h, rfl⟩

theorem characterCount_preview :
    (g.preview metadata o).characterCount =
      ((Text.lines (g.preview metadata o).code.toList).map List.length).sum +
        ((g.preview metadata o).lineCount - 1) := by
  have hne := Text.lines_ne_nil (g.preview metadata o).code.toList
  have hlength := Text.length_intercalate hne
  rw [Text.intercalate_lines] at hlength
  have hcount : (g.preview metadata o).characterCount =
      (g.preview metadata o).code.toList.length := rfl
  have hlines : (g.preview metadata o).lineCount =
      (Text.lines (g.preview metadata o).code.toList).length := rfl
  have hpos := List.length_pos_iff.2 hne
  rw [hcount, hlines]
  omega

/-- Lines and characters of the text, and what it is made of. -/
theorem preview_measures_diagramText :
    (g.preview metadata o).lineCount = g.lineTotal metadata o ∧
    ((∀ theme ∈ o.theme, '\n' ∉ theme.toList) →
      Text.lines (g.preview metadata o).code.toList =
        (g.logicalLines metadata o).map String.toList) ∧
    ((∀ theme ∈ o.theme, '\r' ∉ theme.toList) → '\r' ∉ (g.preview metadata o).code.toList) ∧
    ((g.preview metadata o).code.toList.getLast? = some '\n' ↔
      g.nodes ≠ [] ∧ g.edges ≠ [] ∧ (∀ e ∈ g.edges, e ∈ g.looseEdges) ∧
        descriptionNote metadata o = none ∧ o.theme = none) ∧
    (g.preview metadata o).characterCount =
      ((Text.lines (g.preview metadata o).code.toList).map List.length).sum +
        ((g.preview metadata o).lineCount - 1) := by
  refine ⟨g.lineCount_eq_lineTotal metadata o, g.lines_code_preview metadata o,
    g.return_not_mem_code_preview metadata o, ?_, g.characterCount_preview metadata o⟩
  rw [getLast?_code_preview_eq_newline_iff, getLast?_logicalLines_eq_empty_iff, arrows_eq_nil_iff]

end FlowDiagram.Graph
