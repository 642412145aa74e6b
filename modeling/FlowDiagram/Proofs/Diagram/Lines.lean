import FlowDiagram.Proofs.Diagram.Label
/-! The lines of a diagram: which of them may break, and what splitting its text gives back. -/

namespace FlowDiagram

open Text Label Identifier

theorem Label.IsOneLine.append {s t : String} (hs : IsOneLine s) (ht : IsOneLine t) :
    IsOneLine (s ++ t) := by
  simp_all [IsOneLine]

theorem Identifier.IsWord.isOneLine {s : String} (h : IsWord s) : IsOneLine s :=
  ⟨h.not_mem (by decide), h.not_mem (by decide)⟩

theorem Shape.isOneLine_brackets (s : Shape) :
    IsOneLine s.brackets.1 ∧ IsOneLine s.brackets.2 := by
  cases s <;> exact ⟨⟨by decide, by decide⟩, ⟨by decide, by decide⟩⟩

theorem Direction.isOneLine_keyword (d : Direction) : IsOneLine d.keyword := by
  cases d <;> exact ⟨by decide, by decide⟩

theorem isOneLine_indent : IsOneLine indent := ⟨by decide, by decide⟩

theorem Box.WellFormed.isOneLine_line {b : Box} (h : b.WellFormed) : IsOneLine b.line := by
  have hbrackets := b.shape.isOneLine_brackets
  exact (isOneLine_indent.append h.id.isOneLine).append
    ((hbrackets.1.append h.caption).append hbrackets.2)

theorem Arrow.WellFormed.isOneLine_line {a : Arrow} (h : a.WellFormed) : IsOneLine a.line := by
  have hsource := isOneLine_indent.append h.source.isOneLine
  have htarget := h.target.isOneLine
  unfold line
  split
  · rename_i caption hcaption
    have hopen : IsOneLine " -->|" := ⟨by decide, by decide⟩
    have hclose : IsOneLine "| " := ⟨by decide, by decide⟩
    exact (((hsource.append hopen).append (h.caption caption hcaption)).append hclose).append
      htarget
  · have hplain : IsOneLine " --> " := ⟨by decide, by decide⟩
    exact (hsource.append hplain).append htarget

namespace Diagram

/-- All lines of a body but that of the theme. -/
def Body.plainLines (b : Body) : List String :=
  b.boxes.map Box.line ++ arrowLines b.arrows ++ descriptionLines b.description

def bodyPlainLines : Option Body → List String
  | some b => b.plainLines
  | none => [placeholder]

/-- All lines but that of the theme. -/
def plainLines (d : Diagram) : List String :=
  titleLines d.title ++ header d.direction :: bodyPlainLines d.body

def theme? (d : Diagram) : Option String := d.body.bind (·.theme)

theorem lines_eq_plainLines_append (d : Diagram) :
    d.lines = d.plainLines ++ themeLines d.theme? := by
  unfold lines plainLines theme?
  cases d.body with
  | none => simp [bodyLines, bodyPlainLines, themeLines]
  | some b => simp [bodyLines, bodyPlainLines, Body.lines, Body.plainLines]

theorem lines_ne_nil (d : Diagram) : d.lines ≠ [] := by
  simp [lines]

theorem isOneLine_titleLines {title : Option String} (h : ∀ text ∈ title, IsOneLine text) :
    ∀ l ∈ titleLines title, IsOneLine l := by
  have hrule : IsOneLine "---" := ⟨by decide, by decide⟩
  have hname : IsOneLine "title: " := ⟨by decide, by decide⟩
  cases title with
  | none => simp [titleLines]
  | some text => simp [titleLines, hrule, hname.append (h text rfl)]

theorem isOneLine_header (direction : Direction) : IsOneLine (header direction) := by
  have hname : IsOneLine "flowchart " := ⟨by decide, by decide⟩
  exact hname.append direction.isOneLine_keyword

theorem isOneLine_arrowLines {arrows : Option (List Arrow)}
    (h : ∀ as ∈ arrows, ∀ a ∈ as, a.WellFormed) : ∀ l ∈ arrowLines arrows, IsOneLine l := by
  have hempty : IsOneLine "" := ⟨by decide, by decide⟩
  cases arrows with
  | none => simp [arrowLines]
  | some as =>
    simp only [arrowLines, List.mem_cons, List.mem_map]
    rintro l (rfl | ⟨a, ha, rfl⟩)
    · exact hempty
    · exact (h as rfl a ha).isOneLine_line

theorem isOneLine_descriptionLines {description : Option String}
    (h : ∀ text ∈ description, IsOneLine text) :
    ∀ l ∈ descriptionLines description, IsOneLine l := by
  have hmark : IsOneLine "%% " := ⟨by decide, by decide⟩
  cases description with
  | none => simp [descriptionLines]
  | some text => simp [descriptionLines, hmark.append (h text rfl)]

theorem isOneLine_bodyPlainLines {body : Option Body} (h : ∀ b ∈ body, b.WellFormed) :
    ∀ l ∈ bodyPlainLines body, IsOneLine l := by
  have hplaceholder : IsOneLine placeholder := ⟨by decide, by decide⟩
  cases body with
  | none => simp [bodyPlainLines, hplaceholder]
  | some b =>
    have hb := h b rfl
    simp only [bodyPlainLines, Body.plainLines, List.mem_append, List.mem_map]
    rintro l ((⟨box, hbox, rfl⟩ | hl) | hl)
    · exact (hb.boxes box hbox).isOneLine_line
    · exact isOneLine_arrowLines hb.arrows l hl
    · exact isOneLine_descriptionLines hb.description l hl

theorem WellFormed.isOneLine_plainLines {d : Diagram} (h : d.WellFormed) :
    ∀ l ∈ d.plainLines, IsOneLine l := by
  simp only [plainLines, List.mem_append, List.mem_cons]
  rintro l (hl | rfl | hl)
  · exact isOneLine_titleLines h.title l hl
  · exact isOneLine_header d.direction
  · exact isOneLine_bodyPlainLines h.body l hl

theorem toList_text (d : Diagram) :
    d.text.toList = ['\n'].intercalate (d.lines.map String.toList) := by
  simp [text, String.toList_intercalate]

theorem lines_text (d : Diagram) :
    Text.lines d.text.toList = d.lines.flatMap fun l => Text.lines l.toList := by
  rw [toList_text, lines_intercalate (by simp [lines_ne_nil]), List.flatMap_map]

theorem flatMap_lines_of_not_mem {ls : List String} (h : ∀ l ∈ ls, '\n' ∉ l.toList) :
    (ls.flatMap fun l => Text.lines l.toList) = ls.map String.toList := by
  induction ls with
  | nil => rfl
  | cons l ls ih =>
    have hl := lines_of_not_mem (h l List.mem_cons_self)
    have ih := ih fun m hm => h m (List.mem_cons_of_mem l hm)
    simp [hl, ih]

/-- Only the line of the theme may be split. -/
theorem WellFormed.lines_text {d : Diagram} (h : d.WellFormed) :
    Text.lines d.text.toList =
      d.plainLines.map String.toList ++
        (themeLines d.theme?).flatMap fun l => Text.lines l.toList := by
  rw [Diagram.lines_text, lines_eq_plainLines_append, List.flatMap_append,
    flatMap_lines_of_not_mem fun l hl => (h.isOneLine_plainLines l hl).1]

end Diagram

end FlowDiagram
