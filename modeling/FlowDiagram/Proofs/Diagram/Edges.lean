import FlowDiagram.Command.Run
import FlowDiagram.Proofs.Diagram.Sections
import Mathlib.Data.List.Forall2
/-! The lines of edges: which edges have one, and what becomes of a text without the others. -/

namespace FlowDiagram.Graph

open Diagram

/-- The line of an edge that leaves a node. -/
def lineFrom (e : Edge) (source : Node) : String :=
  (Arrow.between (Identifier.ofId e.source) (Identifier.ofId e.target) (e.shownLabel source)).line

/-- The graph of which only the edges with both of their nodes are left. -/
def withoutLooseEdges (g : Graph) : Graph :=
  { g with edges := g.edges.filter fun e => e ∉ g.looseEdges }

variable (g : Graph) (metadata : Option Metadata) (o : Options)

theorem arrow?_of_joins {e : Edge} (h : g.joins e = true) :
    ∃ n, g.find? e.source = some n ∧ (g.arrow? e).map Arrow.line = some (lineFrom e n) := by
  obtain ⟨hsource, htarget⟩ := Bool.and_eq_true_iff.1 h
  rw [← isSome_find?, Option.isSome_iff_exists] at hsource
  obtain ⟨n, hn⟩ := hsource
  exact ⟨n, hn, by rw [g.arrow?_eq_some hn htarget]; rfl⟩

theorem arrow?_of_not_joins {e : Edge} (h : g.joins e = false) : g.arrow? e = none := by
  rw [← isSome_arrow?] at h
  exact Option.not_isSome_iff_eq_none.1 (by simp [h])

theorem forall₂_lineFrom (edges : List Edge) :
    List.Forall₂ (fun e l => ∃ n, g.find? e.source = some n ∧ l = lineFrom e n)
      (edges.filter g.joins) ((edges.filterMap g.arrow?).map Arrow.line) := by
  induction edges with
  | nil => exact List.Forall₂.nil
  | cons e edges ih =>
    cases h : g.joins e with
    | true =>
      obtain ⟨n, hn, hline⟩ := g.arrow?_of_joins h
      obtain ⟨a, ha, hline⟩ := Option.map_eq_some_iff.1 hline
      rw [List.filter_cons_of_pos h, List.filterMap_cons_some ha, List.map_cons]
      exact List.Forall₂.cons ⟨n, hn, hline⟩ ih
    | false =>
      rw [List.filter_cons_of_neg (by simp [h]), List.filterMap_cons_none (g.arrow?_of_not_joins h)]
      exact ih

theorem length_edgeLines_add_length_looseEdges :
    g.edgeLines.length + g.looseEdges.length = g.edges.length := by
  rw [edgeLines, List.length_map, length_arrows_add_length_looseEdges]

theorem looseEdges_of_nodes_eq_nil (h : g.nodes = []) : g.looseEdges = g.edges := by
  simp [looseEdges, hasNode, h]

/-! Leaving out the loose edges -/

theorem arrows_withoutLooseEdges : g.withoutLooseEdges.arrows = g.arrows := by
  have harrow : g.withoutLooseEdges.arrow? = g.arrow? := rfl
  rw [arrows_eq_filterMap, arrows_eq_filterMap, harrow, withoutLooseEdges,
    filter_not_mem_looseEdges, List.filterMap_filter]
  congr 1
  funext e
  cases h : g.joins e with
  | true => simp
  | false => simp [g.arrow?_of_not_joins h]

theorem edges_withoutLooseEdges_eq_nil_iff :
    g.withoutLooseEdges.edges = [] ↔ ∀ e ∈ g.edges, e ∈ g.looseEdges := by
  simp [withoutLooseEdges, List.filter_eq_nil_iff]

/-- All that changes is the empty line, where only loose edges asked for it. -/
theorem edgeSection_withoutLooseEdges (h : g.edges = [] ∨ ¬ ∀ e ∈ g.edges, e ∈ g.looseEdges) :
    g.withoutLooseEdges.edgeSection = g.edgeSection := by
  have hlines : g.withoutLooseEdges.edgeLines = g.edgeLines := by
    rw [edgeLines, edgeLines, arrows_withoutLooseEdges]
  unfold edgeSection
  obtain h | h := h
  · simp [withoutLooseEdges, h]
  · have hne : g.edges ≠ [] := by
      intro hnil
      simp [hnil] at h
    rw [if_neg (mt g.edges_withoutLooseEdges_eq_nil_iff.1 h), if_neg hne, hlines]

theorem edgeSection_of_all_loose (hedges : g.edges ≠ []) (h : ∀ e ∈ g.edges, e ∈ g.looseEdges) :
    g.edgeSection = [""] ∧ g.withoutLooseEdges.edgeSection = [] := by
  constructor
  · rw [edgeSection, if_neg hedges, edgeLines, g.arrows_eq_nil_iff.2 h, List.map_nil]
  · rw [edgeSection, if_pos (g.edges_withoutLooseEdges_eq_nil_iff.2 h)]

theorem lines_withoutLooseEdges :
    (ofGraph g.withoutLooseEdges metadata o).lines = (ofGraph g metadata o).lines ∨
      g.nodes ≠ [] ∧ g.edges ≠ [] ∧ (∀ e ∈ g.edges, e ∈ g.looseEdges) ∧
        (ofGraph g metadata o).lines =
          frontLines metadata o ++ g.nodeLines ++ "" :: backLines metadata o ∧
        (ofGraph g.withoutLooseEdges metadata o).lines =
          frontLines metadata o ++ g.nodeLines ++ backLines metadata o := by
  by_cases hnodes : g.nodes = []
  · left
    rw [lines_of_nodes_eq_nil g metadata o hnodes,
      lines_of_nodes_eq_nil g.withoutLooseEdges metadata o hnodes]
  · rw [lines_of_nodes_ne_nil g metadata o hnodes,
      lines_of_nodes_ne_nil g.withoutLooseEdges metadata o hnodes]
    have hnodeLines : g.withoutLooseEdges.nodeLines = g.nodeLines := rfl
    by_cases hloose : g.edges ≠ [] ∧ ∀ e ∈ g.edges, e ∈ g.looseEdges
    · right
      obtain ⟨hedges, hloose⟩ := hloose
      obtain ⟨hsection, hsection'⟩ := g.edgeSection_of_all_loose hedges hloose
      refine ⟨hnodes, hedges, hloose, ?_, ?_⟩
      · simp [hsection]
      · simp [hsection', hnodeLines]
    · left
      have h : g.edges = [] ∨ ¬ ∀ e ∈ g.edges, e ∈ g.looseEdges := by
        by_cases hedges : g.edges = []
        · exact Or.inl hedges
        · exact Or.inr fun hall => hloose ⟨hedges, hall⟩
      rw [g.edgeSection_withoutLooseEdges h, hnodeLines]

/-- The lines of edges are, in order, those of the edges that are not loose, each as it leaves the
first node of its source's id. What is left out are the loose edges, as many as are told of, and
without them the text at most loses its empty line. -/
theorem edgeLines_agree_with_looseEdges :
    (ofGraph g metadata o).lines =
      (if g.nodes = [] then frontLines metadata o ++ [placeholder]
      else
        frontLines metadata o ++ g.nodeLines ++ (if g.edges = [] then [] else "" :: g.edgeLines) ++
          backLines metadata o) ∧
    List.Forall₂ (fun e l => ∃ n, g.find? e.source = some n ∧ l = lineFrom e n)
      (g.edges.filter fun e => e ∉ g.looseEdges) g.edgeLines ∧
    (g.nodes = [] → g.looseEdges = g.edges ∧ g.edgeLines = []) ∧
    g.edges.length - g.edgeLines.length = g.looseEdges.length ∧
    Command.notices g =
      g.review.warnings.map ("warning: " ++ ·) ++ g.review.errors.map ("error: " ++ ·) ++
        (let left := g.edges.length - g.edgeLines.length
        if left = 0 then []
        else [s!"note: {left} edge(s) reference missing nodes and were skipped"]) ∧
    (g.withoutLooseEdges.diagramText metadata o = g.diagramText metadata o ∨
      g.nodes ≠ [] ∧ g.edges ≠ [] ∧ (∀ e ∈ g.edges, e ∈ g.looseEdges) ∧
        (ofGraph g metadata o).lines =
          frontLines metadata o ++ g.nodeLines ++ "" :: backLines metadata o ∧
        (ofGraph g.withoutLooseEdges metadata o).lines =
          frontLines metadata o ++ g.nodeLines ++ backLines metadata o) := by
  have hcount := g.length_edgeLines_add_length_looseEdges
  have hleft : g.edges.length - g.edgeLines.length = g.looseEdges.length := by omega
  refine ⟨?_, ?_, ?_, hleft, ?_, ?_⟩
  · split
    · rename_i h
      exact g.lines_of_nodes_eq_nil metadata o h
    · rename_i h
      exact g.lines_of_nodes_ne_nil metadata o h
  · rw [filter_not_mem_looseEdges]
    exact g.forall₂_lineFrom g.edges
  · intro h
    have hloose := g.looseEdges_of_nodes_eq_nil h
    rw [hloose] at hcount
    exact ⟨hloose, List.length_eq_zero_iff.1 (by omega)⟩
  · simp only [Command.notices, hleft, List.isEmpty_iff, List.length_eq_zero_iff]
  · obtain h | h := g.lines_withoutLooseEdges metadata o
    · exact Or.inl (by rw [diagramText_eq_intercalate, h, diagramText_eq_intercalate])
    · exact Or.inr h

end FlowDiagram.Graph
