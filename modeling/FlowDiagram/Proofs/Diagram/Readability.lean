import FlowDiagram.Proofs.Diagram.Lines
/-! The text of a diagram determines all that is shown of a graph. -/

namespace FlowDiagram

open Text Label Identifier

/-- The first element that fails a test tells where the front part ends. -/
theorem Text.append_inj_of_test {α : Type} {p : α → Bool} {front front' rest rest' : List α}
    (hfront : ∀ x ∈ front, p x = true) (hfront' : ∀ x ∈ front', p x = true)
    (hrest : ∀ x ∈ rest.head?, p x = false) (hrest' : ∀ x ∈ rest'.head?, p x = false)
    (h : front ++ rest = front' ++ rest') : front = front' ∧ rest = rest' := by
  have hnil : ∀ {xs : List α}, (∀ x ∈ xs.head?, p x = false) → xs.takeWhile p = [] := by
    intro xs hxs
    cases xs with
    | nil => rfl
    | cons x xs => simp [hxs x rfl]
  have htake := congrArg (List.takeWhile p) h
  rw [List.takeWhile_append_of_pos hfront, List.takeWhile_append_of_pos hfront', hnil hrest,
    hnil hrest', List.append_nil, List.append_nil] at htake
  exact ⟨htake, List.append_cancel_left (htake ▸ h)⟩

/-! Single lines -/

theorem Shape.toList_enclose (s : Shape) (text : String) :
    (s.enclose text).toList = s.brackets.1.toList ++ text.toList ++ s.brackets.2.toList := by
  simp [enclose]

theorem Shape.enclose_inj {s s' : Shape} {text text' : String}
    (h : s.enclose text = s'.enclose text') : s = s' ∧ text = text' := by
  have h := congrArg String.toList h
  rw [toList_enclose, toList_enclose] at h
  cases s <;> cases s' <;> simp [brackets, String.toList_inj] at h <;> simp [h]

theorem Shape.head_enclose (s : Shape) (text : String) :
    ∀ c ∈ (s.enclose text).toList.head?, isIdentifierChar c = false ∧ c ≠ '%' := by
  rw [toList_enclose]
  cases s <;> simp [brackets] <;> decide

theorem Box.toList_line (b : Box) :
    b.line.toList = indent.toList ++ (b.id.toList ++ (b.shape.enclose b.caption).toList) := by
  simp [line]

theorem Box.WellFormed.line_inj {b b' : Box} (hb : b.WellFormed) (hb' : b'.WellFormed)
    (h : b.line = b'.line) : b = b' := by
  have h := congrArg String.toList h
  rw [b.toList_line, b'.toList_line] at h
  obtain ⟨hid, hrest⟩ := append_inj_of_test hb.id hb'.id
    (fun c hc => (Shape.head_enclose _ _ c hc).1) (fun c hc => (Shape.head_enclose _ _ c hc).1)
    (List.append_cancel_left h)
  obtain ⟨hshape, hcaption⟩ := Shape.enclose_inj (String.toList_inj.1 hrest)
  cases b
  cases b'
  simp_all [String.toList_inj]

theorem Box.WellFormed.line_ne_placeholder {b : Box} (hb : b.WellFormed) :
    b.line ≠ Diagram.placeholder := by
  intro h
  have h := congrArg String.toList h
  simp only [Diagram.placeholder, String.toList_append, b.toList_line] at h
  have h := congrArg List.head? (List.append_cancel_left h)
  rw [List.head?_append] at h
  cases hid : b.id.toList with
  | nil =>
    rw [hid] at h
    exact (Shape.head_enclose _ _ _ h).2 rfl
  | cons c cs =>
    have hc := hb.id c (by simp [hid])
    simp only [hid, List.head?_cons, Option.some_or] at h
    obtain rfl := Option.some.inj h
    exact absurd hc (by decide)

/-- What follows the source of an arrow. -/
def Arrow.tail (a : Arrow) : List Char :=
  match a.caption with
  | some caption => " -->|".toList ++ caption.toList ++ "| ".toList ++ a.target.toList
  | none => " --> ".toList ++ a.target.toList

theorem Arrow.toList_line (a : Arrow) :
    a.line.toList = indent.toList ++ (a.source.toList ++ a.tail) := by
  cases h : a.caption <;> simp [line, tail, h]

theorem Arrow.head_tail (a : Arrow) : ∀ c ∈ a.tail.head?, isIdentifierChar c = false := by
  unfold tail
  split <;> simp <;> decide

/-- The target is what follows the last space, whatever the caption holds. -/
theorem Arrow.WellFormed.tail_inj {a a' : Arrow} (ha : a.WellFormed) (ha' : a'.WellFormed)
    (h : a.tail = a'.tail) : a.caption = a'.caption ∧ a.target = a'.target := by
  unfold tail at h
  cases hcaption : a.caption with
  | none =>
    cases hcaption' : a'.caption with
    | none => simpa [hcaption, hcaption', String.toList_inj] using h
    | some caption' => simp [hcaption, hcaption'] at h
  | some caption =>
    cases hcaption' : a'.caption with
    | none => simp [hcaption, hcaption'] at h
    | some caption' =>
      simp only [hcaption, hcaption', List.append_assoc] at h
      have h := congrArg List.reverse (List.append_cancel_left h)
      simp only [List.reverse_append, List.append_assoc] at h
      have hword : ∀ {s : String}, IsWord s → ∀ c ∈ s.toList.reverse, isIdentifierChar c = true :=
        fun hs c hc => hs c (List.mem_reverse.1 hc)
      obtain ⟨htarget, hrest⟩ := append_inj_of_test (hword ha.target) (hword ha'.target)
        (by simp; decide) (by simp; decide) h
      have hcaptions := List.append_cancel_left hrest
      rw [List.reverse_inj, String.toList_inj] at htarget hcaptions
      exact ⟨congrArg some hcaptions, htarget⟩

theorem Arrow.WellFormed.line_inj {a a' : Arrow} (ha : a.WellFormed) (ha' : a'.WellFormed)
    (h : a.line = a'.line) : a = a' := by
  have h := congrArg String.toList h
  rw [a.toList_line, a'.toList_line] at h
  obtain ⟨hsource, htail⟩ := append_inj_of_test ha.source ha'.source a.head_tail a'.head_tail
    (List.append_cancel_left h)
  obtain ⟨hcaption, htarget⟩ := ha.tail_inj ha' htail
  cases a
  cases a'
  simp_all [String.toList_inj]

theorem map_inj_of_mem {α β : Type} {f : α → β} {P : α → Prop}
    (hf : ∀ {x y}, P x → P y → f x = f y → x = y) {xs ys : List α} (hxs : ∀ x ∈ xs, P x)
    (hys : ∀ y ∈ ys, P y) (h : xs.map f = ys.map f) : xs = ys := by
  induction xs generalizing ys with
  | nil => simpa using h.symm
  | cons x xs ih =>
    cases ys with
    | nil => simp at h
    | cons y ys =>
      obtain ⟨hhead, htail⟩ := List.cons.inj h
      have hxy := hf (hxs x List.mem_cons_self) (hys y List.mem_cons_self) hhead
      have htails := ih (fun z hz => hxs z (List.mem_cons_of_mem x hz))
        (fun z hz => hys z (List.mem_cons_of_mem y hz)) htail
      rw [hxy, htails]

namespace Diagram

theorem header_inj {direction direction' : Direction} (h : header direction = header direction') :
    direction = direction' := by
  have h := String.append_right_inj _ |>.1 h
  cases direction <;> cases direction' <;> simp [Direction.keyword] at h <;> rfl

/-! Sections. Boxes and arrows are indented; what follows them is not. -/

def isIndented (l : String) : Bool := l.toList.head? = some ' '

theorem isIndented_box (b : Box) : isIndented b.line = true := by
  simp [isIndented, b.toList_line, indent]

theorem isIndented_arrow (a : Arrow) : isIndented a.line = true := by
  simp [isIndented, a.toList_line, indent]

theorem isIndented_of_mem_map_box {boxes : List Box} :
    ∀ l ∈ boxes.map Box.line, isIndented l = true := by
  simp [isIndented_box]

theorem isIndented_of_mem_map_arrow {arrows : List Arrow} :
    ∀ l ∈ arrows.map Arrow.line, isIndented l = true := by
  simp [isIndented_arrow]

theorem isIndented_head_descriptionLines (description : Option String) :
    ∀ l ∈ (descriptionLines description).head?, isIndented l = false := by
  cases description <;> simp [descriptionLines, isIndented]

theorem isIndented_head_rest (arrows : Option (List Arrow)) (description : Option String) :
    ∀ l ∈ (arrowLines arrows ++ descriptionLines description).head?, isIndented l = false := by
  cases arrows with
  | none => exact isIndented_head_descriptionLines description
  | some arrows => simp [arrowLines, isIndented]

theorem descriptionLines_inj {description description' : Option String}
    (h : descriptionLines description = descriptionLines description') :
    description = description' := by
  cases description <;> cases description' <;> simp_all [descriptionLines]

theorem plainLines_inj {b b' : Body} (hb : b.WellFormed) (hb' : b'.WellFormed)
    (h : b.plainLines = b'.plainLines) :
    b.boxes = b'.boxes ∧ b.arrows = b'.arrows ∧ b.description = b'.description := by
  simp only [Body.plainLines, List.append_assoc] at h
  obtain ⟨hboxes, hrest⟩ := append_inj_of_test isIndented_of_mem_map_box isIndented_of_mem_map_box
    (isIndented_head_rest _ _) (isIndented_head_rest _ _) h
  refine ⟨map_inj_of_mem Box.WellFormed.line_inj hb.boxes hb'.boxes hboxes, ?_⟩
  cases harrows : b.arrows with
  | none =>
    cases harrows' : b'.arrows with
    | none => exact ⟨rfl, descriptionLines_inj (by simpa [harrows, harrows', arrowLines] using hrest)⟩
    | some arrows' => cases hd : b.description <;> simp [harrows, harrows', arrowLines, hd,
        descriptionLines] at hrest
  | some arrows =>
    cases harrows' : b'.arrows with
    | none => cases hd : b'.description <;> simp [harrows, harrows', arrowLines, hd,
        descriptionLines] at hrest
    | some arrows' =>
      simp only [harrows, harrows', arrowLines, List.cons_append, List.cons.injEq, true_and]
        at hrest
      obtain ⟨hlines, hdescription⟩ := append_inj_of_test isIndented_of_mem_map_arrow
        isIndented_of_mem_map_arrow (isIndented_head_descriptionLines _)
        (isIndented_head_descriptionLines _) hrest
      have heq := map_inj_of_mem Arrow.WellFormed.line_inj (hb.arrows arrows harrows)
        (hb'.arrows arrows' harrows') hlines
      exact ⟨congrArg some heq, descriptionLines_inj hdescription⟩

/-- No body reads as that of a graph without nodes. -/
theorem placeholder_ne_plainLines {b : Body} (hb : b.WellFormed) :
    [placeholder] ≠ b.plainLines := by
  intro h
  simp only [Body.plainLines, List.append_assoc] at h
  have hplaceholder : ∀ l ∈ [placeholder], isIndented l = true := by
    simp [isIndented, placeholder, indent]
  rw [← List.append_nil [placeholder]] at h
  have hboxes := (append_inj_of_test hplaceholder isIndented_of_mem_map_box (by simp)
    (isIndented_head_rest _ _) h).1
  obtain ⟨box, hbox, hline⟩ := List.mem_map.1 (hboxes ▸ List.mem_singleton_self placeholder)
  exact (hb.boxes box hbox).line_ne_placeholder hline

/-! The theme, which may itself hold line breaks, comes last and has a mark of its own. -/

def themeMark : List Char := "%%\x7b".toList

def isPlain (l : List Char) : Bool := l.take 3 ≠ themeMark

theorem isPlain_of_isIndented {l : String} (h : isIndented l = true) : isPlain l.toList = true := by
  simp only [isIndented, decide_eq_true_eq] at h
  cases hl : l.toList with
  | nil => rfl
  | cons c cs =>
    rw [hl] at h
    obtain rfl := Option.some.inj h
    rfl

theorem isPlain_bodyPlainLines (body : Option Body) :
    ∀ l ∈ bodyPlainLines body, isPlain l.toList = true := by
  cases body with
  | none => simp [bodyPlainLines, isPlain, themeMark, placeholder, indent]
  | some b =>
    simp only [bodyPlainLines, Body.plainLines, List.mem_append, List.mem_map]
    rintro l ((⟨box, -, rfl⟩ | hl) | hl)
    · exact isPlain_of_isIndented (isIndented_box box)
    · cases harrows : b.arrows with
      | none => simp [harrows, arrowLines] at hl
      | some arrows =>
        simp only [harrows, arrowLines, List.mem_cons, List.mem_map] at hl
        obtain rfl | ⟨a, -, rfl⟩ := hl
        · rfl
        · exact isPlain_of_isIndented (isIndented_arrow a)
    · cases hdescription : b.description <;>
        simp_all [descriptionLines, isPlain, themeMark]

theorem isPlain_plainLines (d : Diagram) : ∀ l ∈ d.plainLines, isPlain l.toList = true := by
  simp only [plainLines, List.mem_append, List.mem_cons]
  rintro l (hl | rfl | hl)
  · cases htitle : d.title with
    | none => simp [htitle, titleLines] at hl
    | some title =>
      simp only [htitle, titleLines, List.mem_cons, List.not_mem_nil, or_false] at hl
      obtain rfl | rfl | rfl := hl <;> simp [isPlain, themeMark]
  · simp [header, isPlain, themeMark]
  · exact isPlain_bodyPlainLines d.body l hl

/-- The lines that the theme takes up. -/
def themeText (theme : Option String) : List (List Char) :=
  (themeLines theme).flatMap fun l => Text.lines l.toList

theorem lines_cons_of_ne {c : Char} (hc : c ≠ '\n') (cs : List Char) :
    Text.lines (c :: cs) = (Text.lines cs).modifyHead (c :: ·) := by
  simp [lines_eq_splitOn, List.splitOn_cons_eq_if_modifyHead, hc]

theorem isPlain_head_themeText (theme : Option String) :
    ∀ l ∈ (themeText theme).head?, isPlain l = false := by
  cases theme with
  | none => simp [themeText, themeLines]
  | some theme =>
    have hmark : "%%\x7binit: \x7b'theme':'".toList = themeMark ++ "init: \x7b'theme':'".toList := by
      decide
    obtain ⟨first, rest, h⟩ := List.exists_cons_of_ne_nil
      (Text.lines_ne_nil ("init: \x7b'theme':'".toList ++ (theme.toList ++ "'\x7d\x7d%%".toList)))
    have htext : themeText (some theme) = (themeMark ++ first) :: rest := by
      simp only [themeText, themeLines, List.flatMap_cons, List.flatMap_nil, List.append_nil,
        String.toList_append, hmark, List.append_assoc]
      rw [show themeMark = ['%', '%', '\x7b'] from rfl]
      simp only [List.cons_append, List.nil_append, lines_cons_of_ne (show '%' ≠ '\n' by decide),
        lines_cons_of_ne (show '\x7b' ≠ '\n' by decide), h, List.modifyHead_cons]
    intro l hl
    rw [htext] at hl
    obtain rfl := Option.some.inj hl
    simp [isPlain, themeMark]

theorem themeText_some_ne_nil (theme : String) : themeText (some theme) ≠ [] := by
  simp [themeText, themeLines, Text.lines_ne_nil]

theorem themeText_inj {theme theme' : Option String} (h : themeText theme = themeText theme') :
    theme = theme' := by
  cases theme with
  | none =>
    cases theme' with
    | none => rfl
    | some theme' => exact absurd h.symm (themeText_some_ne_nil theme')
  | some theme =>
    cases theme' with
    | none => exact absurd h (themeText_some_ne_nil theme)
    | some theme' =>
      have h := congrArg (['\n'].intercalate ·) h
      simp only [themeText, themeLines, List.flatMap_cons, List.flatMap_nil, List.append_nil,
        intercalate_lines, String.toList_inj] at h
      exact congrArg some (String.append_right_inj _ |>.1 (String.append_left_inj _ |>.1 h))

/-- With a title the first line is a rule, without one it is the header. -/
theorem front_inj {d d' : Diagram} (h : d.plainLines = d'.plainLines) :
    d.title = d'.title ∧ d.direction = d'.direction ∧
      bodyPlainLines d.body = bodyPlainLines d'.body := by
  have hrule : ∀ direction, header direction ≠ "---" := by
    intro direction
    cases direction <;> decide
  unfold plainLines at h
  cases htitle : d.title <;> cases htitle' : d'.title <;>
    simp only [htitle, htitle', titleLines, List.nil_append, List.cons_append, List.cons.injEq,
      true_and] at h
  · exact ⟨rfl, header_inj h.1, h.2⟩
  · exact absurd h.1 (hrule _)
  · exact absurd h.1.symm (hrule _)
  · exact ⟨congrArg some (String.append_right_inj _ |>.1 h.1), header_inj h.2.1, h.2.2⟩

theorem body_inj {d d' : Diagram} (hd : ∀ b ∈ d.body, b.WellFormed)
    (hd' : ∀ b ∈ d'.body, b.WellFormed) (h : bodyPlainLines d.body = bodyPlainLines d'.body)
    (htheme : d.theme? = d'.theme?) : d.body = d'.body := by
  unfold theme? at htheme
  cases hbody : d.body with
  | none =>
    cases hbody' : d'.body with
    | none => rfl
    | some b' =>
      rw [hbody, hbody'] at h
      exact absurd h (placeholder_ne_plainLines (hd' b' hbody'))
  | some b =>
    cases hbody' : d'.body with
    | none =>
      rw [hbody, hbody'] at h
      exact absurd h.symm (placeholder_ne_plainLines (hd b hbody))
    | some b' =>
      rw [hbody, hbody'] at h htheme
      obtain ⟨hboxes, harrows, hdescription⟩ := plainLines_inj (hd b hbody) (hd' b' hbody') h
      cases b
      cases b'
      simp_all

/-- A well-formed diagram is read off its text. -/
theorem WellFormed.text_inj {d d' : Diagram} (hd : d.WellFormed) (hd' : d'.WellFormed)
    (h : d.text = d'.text) : d = d' := by
  have hlines := congrArg (fun text => Text.lines text.toList) h
  simp only [hd.lines_text, hd'.lines_text] at hlines
  have hplain : ∀ {d : Diagram}, ∀ l ∈ d.plainLines.map String.toList, isPlain l = true := by
    intro d l hl
    obtain ⟨line, hline, rfl⟩ := List.mem_map.1 hl
    exact isPlain_plainLines d line hline
  obtain ⟨hfront, htheme⟩ := append_inj_of_test hplain hplain (isPlain_head_themeText _)
    (isPlain_head_themeText _) hlines
  have htheme := themeText_inj htheme
  have hfront := (List.map_inj_right fun _ _ => String.toList_inj.1).1 hfront
  obtain ⟨htitle, hdirection, hbody⟩ := front_inj hfront
  have hbodies := body_inj hd.body hd'.body hbody htheme
  cases d
  cases d'
  simp_all

end Diagram

/-! The text of a graph -/

/-- Two graphs with what is told of them and how they are to be shown, of which the same is shown:
title, direction and, if there are nodes, boxes, arrows, description and theme. -/
structure Graph.SameDisplay (g : Graph) (metadata : Option Metadata) (o : Options) (g' : Graph)
    (metadata' : Option Metadata) (o' : Options) : Prop where
  title : Diagram.note? o.includeTitle (metadata.bind (·.title?)) =
    Diagram.note? o'.includeTitle (metadata'.bind (·.title?))
  direction : o.direction = o'.direction
  nodes : g.nodes = [] ↔ g'.nodes = []
  boxes : g.nodes ≠ [] → g.boxes = g'.boxes
  edges : g.nodes ≠ [] → (g.edges = [] ↔ g'.edges = [])
  arrows : g.nodes ≠ [] → g.arrows = g'.arrows
  description : g.nodes ≠ [] →
    Diagram.note? o.includeDescription (metadata.bind (·.description?)) =
      Diagram.note? o'.includeDescription (metadata'.bind (·.description?))
  theme : g.nodes ≠ [] → o.theme = o'.theme

section

variable {g g' : Graph} {metadata metadata' : Option Metadata} {o o' : Options}

theorem Graph.SameDisplay.ofGraph_eq (h : g.SameDisplay metadata o g' metadata' o') :
    Diagram.ofGraph g metadata o = Diagram.ofGraph g' metadata' o' := by
  simp only [Diagram.ofGraph, h.title, h.direction, List.isEmpty_iff]
  by_cases hnodes : g.nodes = []
  · simp [hnodes, h.nodes.1 hnodes]
  · have hnodes' : g'.nodes ≠ [] := fun h' => hnodes (h.nodes.2 h')
    simp [hnodes, hnodes', h.boxes hnodes, h.arrows hnodes, h.description hnodes, h.theme hnodes,
      h.edges hnodes]

theorem Graph.sameDisplay_of_ofGraph_eq
    (h : Diagram.ofGraph g metadata o = Diagram.ofGraph g' metadata' o') :
    g.SameDisplay metadata o g' metadata' o' := by
  obtain ⟨htitle, hdirection, hbody⟩ := Diagram.mk.inj h
  have hiff : g.nodes = [] ↔ g'.nodes = [] := by
    by_cases hnodes : g.nodes = [] <;> by_cases hnodes' : g'.nodes = [] <;> simp_all
  by_cases hnodes : g.nodes = []
  · have hvacuous : ∀ {P : Prop}, g.nodes ≠ [] → P := fun h => absurd hnodes h
    exact ⟨htitle, hdirection, hiff, hvacuous, hvacuous, hvacuous, hvacuous, hvacuous⟩
  · have hnodes' : g'.nodes ≠ [] := fun h => hnodes (hiff.2 h)
    simp only [List.isEmpty_iff, hnodes, hnodes', if_false, Option.some.injEq,
      Diagram.Body.mk.injEq] at hbody
    obtain ⟨hboxes, harrows, hdescription, htheme⟩ := hbody
    have hedges : g.edges = [] ↔ g'.edges = [] := by
      by_cases he : g.edges = [] <;> by_cases he' : g'.edges = [] <;> simp_all
    refine ⟨htitle, hdirection, hiff, fun _ => hboxes, fun _ => hedges,
      fun _ => ?_, fun _ => hdescription, fun _ => htheme⟩
    by_cases he : g.edges = []
    · simp [Graph.arrows, he, hedges.1 he]
    · have he' : g'.edges ≠ [] := fun h => he (hedges.2 h)
      simpa [he, he'] using harrows

/-- The text tells graphs apart exactly by what is shown of them. -/
theorem Graph.diagramText_eq_iff_sameDisplay :
    g.diagramText metadata o = g'.diagramText metadata' o' ↔
      g.SameDisplay metadata o g' metadata' o' := by
  constructor
  · intro h
    exact Graph.sameDisplay_of_ofGraph_eq ((Diagram.ofGraph_wellFormed g metadata o).text_inj
      (Diagram.ofGraph_wellFormed g' metadata' o') h)
  · intro h
    rw [Graph.diagramText, Graph.diagramText, h.ofGraph_eq]

end

end FlowDiagram
