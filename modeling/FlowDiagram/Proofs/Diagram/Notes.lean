import FlowDiagram.Proofs.Diagram.Nodes
import FlowDiagram.Proofs.Diagram.Measures
import FlowDiagram.Proofs.Text.Visible
/-! Titles and descriptions: what is kept of them on one line, and when they have lines at all. -/

namespace FlowDiagram

open Text

namespace Label

variable {s : String} {cs : List Char}

/-! Parts of a text -/

/-- Where a text is split into lines. -/
def isBreak (c : Char) : Bool := c = '\r' || c = '\n'

/-- The parts of a text that are put on one line. -/
def lineParts (cs : List Char) : List (List Char) :=
  ((splitAt isBreak cs).map trim).filter (!·.isEmpty)

theorem oneLineChars_eq_intercalate (cs : List Char) :
    oneLineChars cs = [' '].intercalate (lineParts cs) := rfl

theorem isTrimmed_of_mem_lineParts : ∀ part ∈ lineParts cs, part ≠ [] ∧ IsTrimmed part := by
  intro part hpart
  obtain ⟨hmem, hne⟩ := List.mem_filter.1 hpart
  obtain ⟨whole, -, rfl⟩ := List.mem_map.1 hmem
  exact ⟨by simpa using hne, isTrimmed_trim whole⟩

theorem isBlank_of_isBreak (c : Char) (h : isBreak c = true) : isBlank c = true := by
  simp only [isBreak, Bool.or_eq_true, decide_eq_true_eq] at h
  rcases h with rfl | rfl <;> rfl

/-- Without breaks there is one part, which is the whole text. -/
theorem lineParts_of_isTrimmed (hbreak : ∀ c ∈ cs, isBreak c = false) (h : IsTrimmed cs) :
    lineParts cs = if cs = [] then [] else [cs] := by
  have hsplit : splitAt isBreak cs = [cs] := by
    rw [splitAt_eq_splitOnP, List.splitOnP_eq_singleton hbreak]
  rw [lineParts, hsplit, List.map_singleton, h.trim_eq]
  cases cs <;> rfl

/-! Texts on one line -/

theorem isTrimmed_oneLine (s : String) : IsTrimmed (oneLine s).toList := by
  rw [oneLine, String.toList_ofList, oneLineChars_eq_intercalate]
  exact (isTrimmed_intercalate isTrimmed_of_mem_lineParts).1

/-- Neither the breaks, nor what is trimmed, nor the spaces between the parts are visible. -/
theorem visible_oneLineChars (cs : List Char) : visible (oneLineChars cs) = visible cs :=
  calc visible (oneLineChars cs)
    _ = visible (lineParts cs).flatten :=
      visible_intercalate (List.forall_mem_singleton.2 rfl) _
    _ = visible ((splitAt isBreak cs).map trim).flatten := by
      rw [lineParts, List.flatten_filter_not_isEmpty]
    _ = visible (splitAt isBreak cs).flatten := visible_flatten_map_trim _
    _ = visible cs := visible_flatten_splitAt isBlank_of_isBreak cs

theorem visible_oneLine (s : String) : visible (oneLine s).toList = visible s.toList := by
  rw [oneLine, String.toList_ofList, visible_oneLineChars]

theorem oneLine_eq_empty_iff : oneLine s = "" ↔ ∀ c ∈ s.toList, isBlank c = true := by
  rw [← visible_eq_nil_iff, ← visible_oneLine, (isTrimmed_oneLine s).visible_eq_nil_iff,
    String.toList_eq_nil_iff]

theorem IsOneLine.isBreak_eq_false (h : IsOneLine s) : ∀ c ∈ s.toList, isBreak c = false := by
  intro c hc
  simp only [isBreak, Bool.or_eq_false_iff, decide_eq_false_iff_not]
  constructor
  · rintro rfl
    exact h.2 hc
  · rintro rfl
    exact h.1 hc

theorem oneLine_eq_self_iff : oneLine s = s ↔ IsOneLine s ∧ IsTrimmed s.toList := by
  constructor
  · intro h
    rw [← h]
    exact ⟨isOneLine_oneLine s, isTrimmed_oneLine s⟩
  · rintro ⟨hline, htrimmed⟩
    have hparts := lineParts_of_isTrimmed hline.isBreak_eq_false htrimmed
    rw [oneLine, oneLineChars_eq_intercalate, hparts]
    split
    · rename_i hnil
      rw [String.toList_eq_nil_iff.1 hnil]
      rfl
    · rw [List.intercalate_singleton, String.ofList_toList]

/-- There is more to the text than white space, of which line breaks are a part here. -/
def HasVisible (s : String) : Prop := ∃ c ∈ s.toList, isBlank c = false

theorem oneLine_ne_empty_iff : oneLine s ≠ "" ↔ HasVisible s := by
  rw [ne_eq, oneLine_eq_empty_iff]
  simp [HasVisible]

theorem HasVisible.ne_empty (h : HasVisible s) : s ≠ "" := by
  rintro rfl
  obtain ⟨c, hc, -⟩ := h
  simp at hc

end Label

namespace Diagram

open Label

/-- A text that is asked for is shown on the line if there is more to it than white space. -/
def ShowsOn (included : Bool) (text : Option String) (line : String) : Prop :=
  included = true ∧ ∃ t, text = some t ∧ HasVisible t ∧ line = oneLine t

theorem note?_eq_some_iff {included : Bool} {text : Option String} {line : String} :
    note? included text = some line ↔ ShowsOn included text line := by
  simp only [note?, ShowsOn, Option.filter_eq_some_iff, Option.map_eq_some_iff, decide_eq_true_eq]
  constructor
  · rintro ⟨⟨t, ⟨htext, hincluded⟩, rfl⟩, hne⟩
    exact ⟨hincluded, t, htext, oneLine_ne_empty_iff.1 hne, rfl⟩
  · rintro ⟨hincluded, t, htext, hvisible, rfl⟩
    exact ⟨⟨t, ⟨htext, hincluded⟩, rfl⟩, oneLine_ne_empty_iff.2 hvisible⟩

/-- That an empty text counts as none makes no difference. -/
theorem showsOn_filter_iff {included : Bool} {text : Option String} {line : String} :
    ShowsOn included (text.filter (· ≠ "")) line ↔ ShowsOn included text line := by
  simp only [ShowsOn, Option.filter_eq_some_iff, decide_eq_true_eq]
  constructor
  · rintro ⟨hincluded, t, ⟨htext, -⟩, hvisible, hline⟩
    exact ⟨hincluded, t, htext, hvisible, hline⟩
  · rintro ⟨hincluded, t, htext, hvisible, hline⟩
    exact ⟨hincluded, t, ⟨htext, hvisible.ne_empty⟩, hvisible, hline⟩

theorem exists_showsOn_iff {included : Bool} {text : Option String} :
    (∃ line, ShowsOn included text line) ↔
      included = true ∧ ∃ t, text = some t ∧ HasVisible t := by
  constructor
  · rintro ⟨-, hincluded, t, htext, hvisible, rfl⟩
    exact ⟨hincluded, t, htext, hvisible⟩
  · rintro ⟨hincluded, t, htext, hvisible⟩
    exact ⟨oneLine t, hincluded, t, htext, hvisible, rfl⟩

end Diagram

namespace Graph

open Diagram Label

variable {g : Graph} {metadata : Option Metadata} {o : Options} {l line : String}

theorem titleNote_eq_some_iff :
    titleNote metadata o = some line ↔
      ShowsOn o.includeTitle (metadata.bind (·.title)) line := by
  have hfilter : metadata.bind (·.title?) = (metadata.bind (·.title)).filter (· ≠ "") := by
    cases metadata <;> rfl
  rw [titleNote, hfilter, note?_eq_some_iff, showsOn_filter_iff]

theorem descriptionNote_eq_some_iff :
    descriptionNote metadata o = some line ↔
      ShowsOn o.includeDescription (metadata.bind (·.description)) line := by
  have hfilter :
      metadata.bind (·.description?) = (metadata.bind (·.description)).filter (· ≠ "") := by
    cases metadata <;> rfl
  rw [descriptionNote, hfilter, note?_eq_some_iff, showsOn_filter_iff]

/-! All other lines -/

/-- Neither the rule around a title nor a comment. -/
structure IsOther (l : String) : Prop where
  ne_rule : l ≠ "---"
  not_comment : ¬"%% ".toList <+: l.toList

theorem isOther_of_isIndented (h : isIndented l = true) : IsOther l := by
  simp only [isIndented, decide_eq_true_eq] at h
  constructor
  · rintro rfl
    simp at h
  · rintro ⟨rest, hrest⟩
    simp [← hrest] at h

theorem isOther_header (direction : Direction) : IsOther (header direction) := by
  cases direction <;> exact ⟨by decide, by decide⟩

theorem isOther_of_mem_themeLines {theme : Option String} (h : l ∈ themeLines theme) :
    IsOther l := by
  cases theme with
  | none => simp [themeLines] at h
  | some theme =>
    obtain rfl := List.mem_singleton.1 h
    constructor
    · intro hrule
      have hrule := congrArg String.toList hrule
      simp at hrule
    · simp

theorem isOther_of_mem_nodeLines (h : l ∈ g.nodeLines) : IsOther l := by
  obtain ⟨n, -, rfl⟩ := g.mem_nodeLines.1 h
  exact isOther_of_isIndented (isIndented_box n.box)

theorem isOther_of_mem_edgeSection (h : l ∈ g.edgeSection) : IsOther l := by
  unfold edgeSection at h
  split at h
  · simp at h
  · obtain rfl | h := List.mem_cons.1 h
    · exact ⟨by decide, by decide⟩
    · obtain ⟨a, -, rfl⟩ := List.mem_map.1 h
      exact isOther_of_isIndented (isIndented_arrow a)

theorem mem_logicalLines_cases (h : l ∈ g.logicalLines metadata o) :
    l ∈ titleLines (titleNote metadata o) ∨
      (g.nodes ≠ [] ∧ l ∈ descriptionLines (descriptionNote metadata o)) ∨ IsOther l := by
  unfold logicalLines at h
  split at h
  · simp only [frontLines, List.append_assoc, List.mem_append, List.mem_singleton] at h
    obtain h | rfl | rfl := h
    · exact Or.inl h
    · exact Or.inr (Or.inr (isOther_header o.direction))
    · exact Or.inr (Or.inr (isOther_of_isIndented rfl))
  · rename_i hnodes
    simp only [frontLines, backLines, List.append_assoc, List.mem_append, List.mem_singleton] at h
    obtain h | rfl | h | h | h | h := h
    · exact Or.inl h
    · exact Or.inr (Or.inr (isOther_header o.direction))
    · exact Or.inr (Or.inr (isOther_of_mem_nodeLines h))
    · exact Or.inr (Or.inr (isOther_of_mem_edgeSection h))
    · exact Or.inr (Or.inl ⟨hnodes, h⟩)
    · exact Or.inr (Or.inr (isOther_of_mem_themeLines h))

/-! The sections of title and description -/

theorem titleLines_prefix_logicalLines :
    ∃ rest, g.logicalLines metadata o =
      titleLines (titleNote metadata o) ++ header o.direction :: rest := by
  unfold logicalLines frontLines
  split <;> simp

theorem rule_mem_logicalLines_iff :
    "---" ∈ g.logicalLines metadata o ↔ ∃ line, titleNote metadata o = some line := by
  constructor
  · intro h
    rcases mem_logicalLines_cases h with h | ⟨-, h⟩ | h
    · cases htitle : titleNote metadata o with
      | none => simp [htitle, titleLines] at h
      | some line => exact ⟨line, rfl⟩
    · cases hdescription : descriptionNote metadata o with
      | none => simp [hdescription, descriptionLines] at h
      | some line =>
        have h := congrArg String.toList (by simpa [hdescription, descriptionLines] using h)
        simp at h
    · exact absurd rfl h.ne_rule
  · rintro ⟨line, hline⟩
    obtain ⟨rest, hrest⟩ := g.titleLines_prefix_logicalLines
    rw [hrest, hline]
    exact List.mem_cons_self

theorem frontMatter_prefix_iff :
    ["---", "title: " ++ line, "---"] <+: g.logicalLines metadata o ↔
      titleNote metadata o = some line := by
  obtain ⟨rest, hrest⟩ := g.titleLines_prefix_logicalLines
  rw [hrest]
  cases titleNote metadata o with
  | none =>
    have hheader := (isOther_header o.direction).ne_rule
    simp [titleLines, hheader.symm]
  | some title => simp [titleLines, String.append_right_inj, eq_comm]

theorem comment_mem_logicalLines_iff :
    l ∈ g.logicalLines metadata o ∧ "%% ".toList <+: l.toList ↔
      g.nodes ≠ [] ∧ ∃ line, descriptionNote metadata o = some line ∧ l = "%% " ++ line := by
  constructor
  · rintro ⟨h, hcomment⟩
    rcases mem_logicalLines_cases h with h | ⟨hnodes, h⟩ | h
    · cases htitle : titleNote metadata o with
      | none => simp [htitle, titleLines] at h
      | some line =>
        simp only [htitle, titleLines, List.mem_cons, List.not_mem_nil, or_false] at h
        obtain rfl | rfl | rfl := h <;> simp at hcomment
    · cases hdescription : descriptionNote metadata o with
      | none => simp [hdescription, descriptionLines] at h
      | some line => exact ⟨hnodes, line, rfl, by simpa [hdescription, descriptionLines] using h⟩
    · exact absurd hcomment h.not_comment
  · rintro ⟨hnodes, line, hline, rfl⟩
    refine ⟨?_, by simp⟩
    simp [logicalLines, hnodes, backLines, hline, descriptionLines]

/-- On one line a text keeps all that is visible of it, and nothing is left only of white space.
Hence a title has its front matter and a description its comment exactly if they are asked for and
there is something visible in them; a comment needs nodes as well. -/
theorem notes_shown_iff_visible :
    (∀ s : String,
      IsOneLine (oneLine s) ∧ IsTrimmed (oneLine s).toList ∧ oneLine (oneLine s) = oneLine s ∧
      visible (oneLine s).toList = visible s.toList ∧
      (oneLine s = "" ↔ ∀ c ∈ s.toList, isBlank c = true)) ∧
    ∀ (g : Graph) (metadata : Option Metadata) (o : Options),
      g.diagramText metadata o = "\n".intercalate (g.logicalLines metadata o) ∧
      ("---" ∈ g.logicalLines metadata o ↔
        o.includeTitle = true ∧ ∃ t, metadata.bind (·.title) = some t ∧ HasVisible t) ∧
      (∀ line, ["---", "title: " ++ line, "---"] <+: g.logicalLines metadata o ↔
        ShowsOn o.includeTitle (metadata.bind (·.title)) line) ∧
      ((∃ l ∈ g.logicalLines metadata o, "%% ".toList <+: l.toList) ↔
        g.nodes ≠ [] ∧ o.includeDescription = true ∧
          ∃ t, metadata.bind (·.description) = some t ∧ HasVisible t) ∧
      ∀ l, l ∈ g.logicalLines metadata o ∧ "%% ".toList <+: l.toList ↔
        g.nodes ≠ [] ∧
          ∃ line, ShowsOn o.includeDescription (metadata.bind (·.description)) line ∧
            l = "%% " ++ line := by
  refine ⟨fun s => ?_, fun g metadata o => ⟨?_, ?_, ?_, ?_, ?_⟩⟩
  · have hline := isOneLine_oneLine s
    have htrimmed := isTrimmed_oneLine s
    exact ⟨hline, htrimmed, oneLine_eq_self_iff.2 ⟨hline, htrimmed⟩, visible_oneLine s,
      oneLine_eq_empty_iff⟩
  · rw [diagramText_eq_intercalate, lines_eq_logicalLines]
  · simp only [rule_mem_logicalLines_iff, titleNote_eq_some_iff, exists_showsOn_iff]
  · intro line
    rw [frontMatter_prefix_iff, titleNote_eq_some_iff]
  · rw [← exists_showsOn_iff]
    constructor
    · rintro ⟨l, hl⟩
      obtain ⟨hnodes, line, hline, -⟩ := comment_mem_logicalLines_iff.1 hl
      exact ⟨hnodes, line, descriptionNote_eq_some_iff.1 hline⟩
    · rintro ⟨hnodes, line, hline⟩
      exact ⟨_, comment_mem_logicalLines_iff.2
        ⟨hnodes, line, descriptionNote_eq_some_iff.2 hline, rfl⟩⟩
  · intro l
    simp only [comment_mem_logicalLines_iff, descriptionNote_eq_some_iff]

end Graph

end FlowDiagram
