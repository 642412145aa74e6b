import FlowDiagram.Diagram.Text
import FlowDiagram.Proofs.Diagram.Escape
import FlowDiagram.Proofs.Diagram.Index
/-! What labels, notes and identifiers are free of: line breaks, and all that is no letter, digit or
underscore. -/

namespace FlowDiagram

open Text

/-- Neither a newline nor a carriage return. -/
def Label.IsOneLine (s : String) : Prop := '\n' ∉ s.toList ∧ '\r' ∉ s.toList

/-- Letters, digits and underscores only. -/
def Identifier.IsWord (s : String) : Prop := ∀ c ∈ s.toList, isIdentifierChar c = true

namespace Label

theorem isOneLine_escape (s : String) : IsOneLine (escape s) :=
  ⟨fun h => not_isReplaced_of_mem_escape h (by decide),
    fun h => not_isReplaced_of_mem_escape h (by decide)⟩

/-- A break ends a part, so none is within one. -/
theorem break_not_mem_oneLineChars {c : Char} (cs : List Char) (hc : c = '\r' ∨ c = '\n') :
    c ∉ oneLineChars cs := by
  intro h
  obtain h | ⟨part, hpart, h⟩ := mem_intercalate h
  · obtain rfl | rfl := hc <;> simp at h
  · obtain ⟨whole, hwhole, rfl⟩ := List.mem_map.1 (List.mem_filter.1 hpart).1
    have hbreak := not_mem_of_mem_splitAt hwhole (mem_of_mem_trim h)
    obtain rfl | rfl := hc <;> simp at hbreak

theorem isOneLine_oneLine (s : String) : IsOneLine (oneLine s) := by
  simp [IsOneLine, oneLine, break_not_mem_oneLineChars]

end Label

namespace Identifier

theorem isIdentifierChar_of_mem_replaceOthers {c : Char} {cs : List Char}
    (h : c ∈ replaceOthers cs) : isIdentifierChar c = true := by
  obtain ⟨d, _, rfl⟩ := List.mem_map.1 h
  split
  · assumption
  · rfl

theorem isWord_ofId (id : String) : IsWord (ofId id) := by
  intro c hc
  simp only [ofId, ofChars, String.toList_ofList] at hc
  split at hc
  · exact isIdentifierChar_of_mem_replaceOthers hc
  · obtain hc | hc := List.mem_append.1 hc
    · have hlead : lead.all isIdentifierChar = true := by decide
      exact List.all_eq_true.1 hlead c hc
    · exact isIdentifierChar_of_mem_replaceOthers hc

theorem IsWord.not_mem {s : String} {c : Char} (h : IsWord s)
    (hc : isIdentifierChar c = false) : c ∉ s.toList := by
  intro hmem
  simp [h c hmem] at hc

end Identifier

/-! Well-formed parts of a diagram: what keeps its lines apart. -/

structure Box.WellFormed (b : Box) : Prop where
  id : Identifier.IsWord b.id
  caption : Label.IsOneLine b.caption

structure Arrow.WellFormed (a : Arrow) : Prop where
  source : Identifier.IsWord a.source
  target : Identifier.IsWord a.target
  caption : ∀ text ∈ a.caption, Label.IsOneLine text

/-- The theme is left out: it is shown as it is. -/
structure Diagram.Body.WellFormed (b : Body) : Prop where
  boxes : ∀ box ∈ b.boxes, box.WellFormed
  arrows : ∀ arrows ∈ b.arrows, ∀ arrow ∈ arrows, arrow.WellFormed
  description : ∀ text ∈ b.description, Label.IsOneLine text

structure Diagram.WellFormed (d : Diagram) : Prop where
  title : ∀ text ∈ d.title, Label.IsOneLine text
  body : ∀ b ∈ d.body, b.WellFormed

theorem Node.box_wellFormed (n : Node) : n.box.WellFormed where
  id := Identifier.isWord_ofId n.id
  caption := by
    simp only [box, boxAs, Shape.caption]
    split
    · simp [Label.IsOneLine, bullet]
    · exact Label.isOneLine_escape _

theorem Arrow.between_wellFormed {source target : String} (label : Option String) :
    (Arrow.between (Identifier.ofId source) (Identifier.ofId target) label).WellFormed where
  source := Identifier.isWord_ofId source
  target := Identifier.isWord_ofId target
  caption := by
    intro text h
    simp only [between, Option.mem_def, Option.filter_eq_some_iff, Option.map_eq_some_iff] at h
    obtain ⟨⟨label, _, rfl⟩, _⟩ := h
    exact Label.isOneLine_escape label

theorem Graph.arrow?_wellFormed {g : Graph} {e : Edge} {a : Arrow} (h : g.arrow? e = some a) :
    a.WellFormed := by
  rw [arrow?_eq_find?] at h
  split at h
  · obtain rfl := Option.some.inj h
    exact Arrow.between_wellFormed _
  · exact absurd h (by simp)

namespace Diagram

theorem note?_isOneLine {shown : Bool} {note : Option String} :
    ∀ text ∈ note? shown note, Label.IsOneLine text := by
  intro text h
  simp only [note?, Option.mem_def, Option.filter_eq_some_iff, Option.map_eq_some_iff] at h
  obtain ⟨⟨label, _, rfl⟩, _⟩ := h
  exact Label.isOneLine_oneLine label

theorem ofGraph_wellFormed (g : Graph) (metadata : Option Metadata) (o : Options) :
    (ofGraph g metadata o).WellFormed where
  title := note?_isOneLine
  body := by
    intro b hb
    simp only [ofGraph, Option.mem_def] at hb
    split at hb
    · exact absurd hb (by simp)
    · obtain rfl := Option.some.inj hb
      refine ⟨?_, ?_, note?_isOneLine⟩
      · intro box hbox
        rw [Graph.boxes_eq_eraseDups_map] at hbox
        obtain ⟨n, _, rfl⟩ := List.mem_map.1 (List.mem_eraseDups.1 hbox)
        exact n.box_wellFormed
      · intro arrows harrows arrow harrow
        simp only [Option.mem_def] at harrows
        split at harrows
        · exact absurd harrows (by simp)
        · obtain rfl := Option.some.inj harrows
          obtain ⟨e, _, he⟩ := List.mem_filterMap.1 harrow
          exact Graph.arrow?_wellFormed he

end Diagram

end FlowDiagram
