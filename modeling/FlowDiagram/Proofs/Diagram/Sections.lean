import FlowDiagram.Proofs.Diagram.Readability
/-! The sections of a graph's text, and which nodes and edges have a line in them. -/

namespace FlowDiagram.Graph

open Diagram

variable (g : Graph) (metadata : Option Metadata) (o : Options)

/-- The title that is shown. -/
def titleNote (metadata : Option Metadata) (o : Options) : Option String :=
  note? o.includeTitle (metadata.bind (·.title?))

/-- The description that is shown if there are nodes. -/
def descriptionNote (metadata : Option Metadata) (o : Options) : Option String :=
  note? o.includeDescription (metadata.bind (·.description?))

/-- Title and header. -/
def frontLines (metadata : Option Metadata) (o : Options) : List String :=
  titleLines (titleNote metadata o) ++ [header o.direction]

/-- The lines that nodes have, each once. -/
def nodeLines : List String := (g.nodes.map fun n => n.box.line).eraseDups

def edgeLines : List String := g.arrows.map Arrow.line

/-- The lines of edges after an empty line, if there are edges at all. -/
def edgeSection : List String := if g.edges = [] then [] else "" :: g.edgeLines

/-- Description and theme. -/
def backLines (metadata : Option Metadata) (o : Options) : List String :=
  descriptionLines (descriptionNote metadata o) ++ themeLines o.theme

theorem eraseDups_map_of_inj {α β : Type} [DecidableEq α] [DecidableEq β] {f : α → β}
    {xs : List α} (hf : ∀ x ∈ xs, ∀ y ∈ xs, f x = f y → x = y) :
    (xs.map f).eraseDups = xs.eraseDups.map f := by
  generalize hn : xs.length = n
  induction n using Nat.strongRecOn generalizing xs with
  | ind n ih =>
    cases xs with
    | nil => rfl
    | cons x xs =>
      -- Both sides keep the head and go on with what differs from it.
      have hfilter : (xs.map f).filter (fun y => !y == f x) =
          (xs.filter fun y => !y == x).map f := by
        rw [List.filter_map]
        congr 1
        apply List.filter_congr
        intro y hy
        have hxy := hf y (List.mem_cons_of_mem x hy) x List.mem_cons_self
        have hbeq : (f y == f x) = (y == x) := by
          rw [Bool.eq_iff_iff, beq_iff_eq, beq_iff_eq]
          exact ⟨hxy, congrArg f⟩
        simp only [Function.comp_apply, hbeq]
      have hlength := List.length_filter_le (fun y => !y == x) xs
      have hsub : ∀ y ∈ xs.filter (fun y => !y == x), y ∈ x :: xs :=
        fun y hy => List.mem_cons_of_mem x (List.mem_filter.1 hy).1
      rw [List.map_cons, List.eraseDups_cons, List.eraseDups_cons, hfilter, List.map_cons,
        ih _ (by simp at hn; omega) (fun y hy z hz => hf y (hsub y hy) z (hsub z hz)) rfl]

/-- Nodes have one line if and only if they are shown alike. -/
theorem line_box_inj {n m : Node} (h : n.box.line = m.box.line) : n.box = m.box :=
  n.box_wellFormed.line_inj m.box_wellFormed h

theorem nodeLines_eq_map_boxes : g.nodeLines = g.boxes.map Box.line := by
  rw [nodeLines, boxes_eq_eraseDups_map, ← eraseDups_map_of_inj, List.map_map]
  · rfl
  · intro b hb c hc h
    obtain ⟨n, -, rfl⟩ := List.mem_map.1 hb
    obtain ⟨m, -, rfl⟩ := List.mem_map.1 hc
    exact line_box_inj h

theorem lines_of_nodes_eq_nil (h : g.nodes = []) :
    (ofGraph g metadata o).lines = frontLines metadata o ++ [placeholder] := by
  simp [ofGraph, lines, bodyLines, frontLines, titleNote, h]

theorem lines_of_nodes_ne_nil (h : g.nodes ≠ []) :
    (ofGraph g metadata o).lines =
      frontLines metadata o ++ g.nodeLines ++ g.edgeSection ++ backLines metadata o := by
  have harrows : arrowLines (if g.edges = [] then none else some g.arrows) = g.edgeSection := by
    unfold edgeSection
    split <;> simp [arrowLines, edgeLines]
  simp [ofGraph, lines, bodyLines, Body.lines, frontLines, backLines, titleNote, descriptionNote, h,
    harrows, nodeLines_eq_map_boxes]

theorem diagramText_eq_intercalate :
    g.diagramText metadata o = "\n".intercalate (ofGraph g metadata o).lines := rfl

/-! Edges with both of their nodes -/

theorem id_of_find?_eq_some {id : String} {n : Node} (h : g.find? id = some n) : n.id = id := by
  simpa using List.find?_some h

theorem isSome_find? (id : String) : (g.find? id).isSome = g.hasNode id := by
  rw [find?, hasNode, List.isSome_find?]

/-- Whether an edge has both of its nodes. -/
def joins (e : Edge) : Bool := g.hasNode e.source && g.hasNode e.target

theorem isSome_arrow? (e : Edge) : (g.arrow? e).isSome = g.joins e := by
  rw [joins, ← isSome_find?, ← isSome_find?, arrow?_eq_find?]
  cases g.find? e.source <;> cases g.find? e.target <;> rfl

theorem arrow?_eq_some {e : Edge} {n : Node} (hn : g.find? e.source = some n)
    (htarget : g.hasNode e.target = true) :
    g.arrow? e = some
      (.between (Identifier.ofId e.source) (Identifier.ofId e.target) (e.shownLabel n)) := by
  rw [← isSome_find?, Option.isSome_iff_exists] at htarget
  obtain ⟨m, hm⟩ := htarget
  simp [arrow?_eq_find?, hn, hm, g.id_of_find?_eq_some hn, g.id_of_find?_eq_some hm]

theorem mem_looseEdges {e : Edge} : e ∈ g.looseEdges ↔ e ∈ g.edges ∧ g.joins e = false := by
  simp only [looseEdges, joins, List.mem_filter, Bool.not_eq_true']

theorem filter_not_mem_looseEdges :
    g.edges.filter (fun e => e ∉ g.looseEdges) = g.edges.filter g.joins := by
  apply List.filter_congr
  intro e he
  simp [mem_looseEdges, he]

theorem length_arrows : g.arrows.length = (g.edges.filter g.joins).length := by
  have hjoins : (fun e => (g.arrow? e).isSome) = g.joins := funext g.isSome_arrow?
  rw [arrows_eq_filterMap, List.length_filterMap_eq_countP, List.countP_eq_length_filter, hjoins]

/-- An edge is loose or has an arrow. -/
theorem length_arrows_add_length_looseEdges :
    g.arrows.length + g.looseEdges.length = g.edges.length := by
  rw [length_arrows, looseEdges, ← List.countP_eq_length_filter, ← List.countP_eq_length_filter,
    List.length_eq_countP_add_countP g.joins]
  simp [joins]

theorem arrows_eq_nil_iff : g.arrows = [] ↔ ∀ e ∈ g.edges, e ∈ g.looseEdges := by
  rw [← List.length_eq_zero_iff, length_arrows, List.length_eq_zero_iff, List.filter_eq_nil_iff]
  constructor
  · intro h e he
    exact g.mem_looseEdges.2 ⟨he, by simpa using h e he⟩
  · intro h e he
    simpa using (g.mem_looseEdges.1 (h e he)).2

end FlowDiagram.Graph
