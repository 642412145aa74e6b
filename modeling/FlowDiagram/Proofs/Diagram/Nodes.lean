import FlowDiagram.Proofs.Diagram.Sections
import Mathlib.Data.List.Basic
import Mathlib.Data.List.Induction
/-! The lines of nodes: every node has one, no two are equal, and edges refer to no others. -/

namespace FlowDiagram

/-- The label of a node between the brackets of its shape. A connector never shows an empty one. -/
def Node.displayedLabel (n : Node) : String := n.kind.shape.caption (Label.escape n.shownLabel)

/-- The line of a node: indentation, identifier, and the shape around the label. -/
def Node.line (n : Node) : String :=
  indent ++ Identifier.ofId n.id ++ n.kind.shape.enclose n.displayedLabel

theorem Node.line_box (n : Node) : n.box.line = n.line := rfl

/-- Nodes that look different have different lines, whatever brackets their labels hold. -/
theorem Node.line_eq_iff {n m : Node} :
    n.line = m.line ↔
      Identifier.ofId n.id = Identifier.ofId m.id ∧ n.kind.shape = m.kind.shape ∧
        n.displayedLabel = m.displayedLabel := by
  constructor
  · intro h
    rw [← n.line_box, ← m.line_box] at h
    have hbox := Graph.line_box_inj h
    exact ⟨congrArg Box.id hbox, congrArg Box.shape hbox, congrArg Box.caption hbox⟩
  · rintro ⟨hid, hshape, hlabel⟩
    simp only [Node.line, hid, hshape, hlabel]

namespace Graph

open Diagram

/-- What is kept comes in the order of its first occurrences. -/
theorem pairwise_idxOf_eraseDups {α : Type} [DecidableEq α] (xs : List α) :
    xs.eraseDups.Pairwise fun x y => xs.idxOf x < xs.idxOf y := by
  induction xs using List.reverseRecOn with
  | nil => exact List.Pairwise.nil
  | append_singleton xs x ih =>
    have hold : xs.eraseDups.Pairwise fun y z => (xs ++ [x]).idxOf y < (xs ++ [x]).idxOf z := by
      refine ih.imp_of_mem fun hy hz h => ?_
      rwa [List.idxOf_append_of_mem (List.mem_eraseDups.1 hy),
        List.idxOf_append_of_mem (List.mem_eraseDups.1 hz)]
    rw [List.eraseDups_append]
    by_cases hx : x ∈ xs
    · have hnone : [x].removeAll xs = [] := by simp [List.removeAll, hx]
      simpa [hnone] using hold
    · have hone : ([x].removeAll xs).eraseDups = [x] := by
        simp [List.removeAll, hx, List.eraseDups_cons]
      rw [hone, List.pairwise_append]
      refine ⟨hold, List.pairwise_singleton _ _, fun y hy z hz => ?_⟩
      obtain rfl := List.mem_singleton.1 hz
      have hy := List.mem_eraseDups.1 hy
      rw [List.idxOf_append_of_mem hy, List.idxOf_append_of_notMem hx]
      exact Nat.lt_add_right _ (List.idxOf_lt_length_of_mem hy)

theorem nodup_eraseDups {α : Type} [DecidableEq α] (xs : List α) : xs.eraseDups.Nodup := by
  refine (pairwise_idxOf_eraseDups xs).imp ?_
  rintro x y h rfl
  exact Nat.lt_irrefl _ h

variable (g : Graph) (metadata : Option Metadata) (o : Options)

theorem nodeLines_eq : g.nodeLines = (g.nodes.map Node.line).eraseDups := rfl

theorem mem_nodeLines {l : String} : l ∈ g.nodeLines ↔ ∃ n ∈ g.nodes, l = n.line := by
  rw [nodeLines_eq, List.mem_eraseDups, List.mem_map]
  exact exists_congr fun n => and_congr_right fun _ => eq_comm

/-- Both ends of an arrow are nodes. -/
theorem exists_node_of_arrow {e : Edge} {a : Arrow} (h : g.arrow? e = some a) :
    ∀ id ∈ [a.source, a.target], ∃ n ∈ g.nodes, Identifier.ofId n.id = id := by
  rw [arrow?_eq_find?] at h
  split at h
  · rename_i source target hsource htarget
    cases h
    simp only [List.mem_cons, List.not_mem_nil, or_false]
    rintro id (rfl | rfl)
    · exact ⟨source, List.mem_of_find?_eq_some hsource, rfl⟩
    · exact ⟨target, List.mem_of_find?_eq_some htarget, rfl⟩
  · cases h

theorem arrow_of_mem_edgeLines {l : String} (h : l ∈ g.edgeLines) :
    ∃ e a, g.arrow? e = some a ∧ a.WellFormed ∧ l = a.line := by
  obtain ⟨a, ha, rfl⟩ := List.mem_map.1 h
  obtain ⟨e, -, he⟩ := List.mem_filterMap.1 ha
  exact ⟨e, a, he, arrow?_wellFormed he, rfl⟩

/-- However a line of an edge is read as an arrow, its ends have lines of their own. -/
theorem exists_nodeLine_of_edgeLine {a : Arrow} (ha : a.WellFormed) (h : a.line ∈ g.edgeLines) :
    ∀ id ∈ [a.source, a.target],
      ∃ n ∈ g.nodes, Identifier.ofId n.id = id ∧ n.line ∈ g.nodeLines := by
  obtain ⟨e, a', he, ha', hline⟩ := g.arrow_of_mem_edgeLines h
  obtain rfl := ha.line_inj ha' hline
  intro id hid
  obtain ⟨n, hn, hname⟩ := g.exists_node_of_arrow he id hid
  exact ⟨n, hn, hname, g.mem_nodeLines.2 ⟨n, hn, rfl⟩⟩

/-- The section of the nodes has a line for every node and no other, each once and in the order of
the nodes. Nodes share a line exactly if they look alike, and all that edges refer to is defined. -/
theorem nodeLines_complete_distinct_ordered (hnodes : g.nodes ≠ []) :
    g.diagramText metadata o =
      "\n".intercalate
        (frontLines metadata o ++ g.nodeLines ++
          (if g.edges = [] then [] else "" :: g.edgeLines) ++ backLines metadata o) ∧
    g.nodeLines.Nodup ∧
    (∀ l, l ∈ g.nodeLines ↔ ∃ n ∈ g.nodes, l = n.line) ∧
    (g.nodeLines.Pairwise fun l k =>
      (g.nodes.map Node.line).idxOf l < (g.nodes.map Node.line).idxOf k) ∧
    (∀ n ∈ g.nodes, ∀ m ∈ g.nodes,
      n.line = m.line ↔
        Identifier.ofId n.id = Identifier.ofId m.id ∧ n.kind.shape = m.kind.shape ∧
          n.displayedLabel = m.displayedLabel) ∧
    (∀ l ∈ g.edgeLines, ∃ a : Arrow, a.WellFormed ∧ l = a.line) ∧
    ∀ a : Arrow, a.WellFormed → a.line ∈ g.edgeLines →
      ∀ id ∈ [a.source, a.target],
        ∃ n ∈ g.nodes, Identifier.ofId n.id = id ∧ n.line ∈ g.nodeLines := by
  refine ⟨?_, nodup_eraseDups _, fun l => g.mem_nodeLines, pairwise_idxOf_eraseDups _,
    fun n _ m _ => Node.line_eq_iff, ?_, fun a ha h => g.exists_nodeLine_of_edgeLine ha h⟩
  · rw [diagramText_eq_intercalate, g.lines_of_nodes_ne_nil metadata o hnodes]
    rfl
  · intro l hl
    obtain ⟨-, a, -, ha, hline⟩ := g.arrow_of_mem_edgeLines hl
    exact ⟨a, ha, hline⟩

/-- Two starts whose ids have one identifier, and an edge between them. -/
def lookAlikes : Graph := ⟨[.start "a b", .start "a_b"], [.between "a b" "a_b"]⟩

theorem nodeLines_lookAlikes :
    lookAlikes.nodes ≠ [] ∧ lookAlikes.nodeLines.Nodup ∧ lookAlikes.nodeLines.length = 1 ∧
      ∃ n ∈ lookAlikes.nodes, Identifier.ofId n.id = "a_b" ∧ n.line ∈ lookAlikes.nodeLines := by
  have hnodes : lookAlikes.nodes ≠ [] := by simp [lookAlikes]
  obtain ⟨-, hnodup, -, -, -, -, hends⟩ :=
    lookAlikes.nodeLines_complete_distinct_ordered none .default hnodes
  refine ⟨hnodes, hnodup, by decide +kernel, ?_⟩
  have hedge : lookAlikes.edgeLines = [(Arrow.between "a_b" "a_b" none).line] := by decide +kernel
  have hformed : (Arrow.between (Identifier.ofId "a b") (Identifier.ofId "a_b") none).WellFormed :=
    Arrow.between_wellFormed none
  have hword : Identifier.ofId "a b" = "a_b" ∧ Identifier.ofId "a_b" = "a_b" := by decide +kernel
  rw [hword.1, hword.2] at hformed
  exact hends _ hformed (by simp [hedge]) "a_b" (by simp [Arrow.between])

end Graph

end FlowDiagram
