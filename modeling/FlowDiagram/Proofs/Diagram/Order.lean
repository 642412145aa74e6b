import FlowDiagram.Proofs.Diagram.Nodes
import FlowDiagram.Proofs.Review.Remarks
import Mathlib.Data.List.Nodup
/-! The order of nodes and edges: it is that of the lines, and decides nothing else. -/

namespace FlowDiagram.Graph

open Diagram

/-- The same nodes and edges, perhaps in another order. -/
structure Reordered (g k : Graph) : Prop where
  nodes : k.nodes.Perm g.nodes
  edges : k.edges.Perm g.edges

/-- No two nodes have the same id. -/
def IdsDiffer (g : Graph) : Prop := (g.nodes.map (·.id)).Nodup

/-- The line of an edge, if both of its nodes exist. -/
def edgeLine? (g : Graph) (e : Edge) : Option String := (g.arrow? e).map Arrow.line

theorem edgeLines_eq_filterMap (g : Graph) : g.edgeLines = g.edges.filterMap g.edgeLine? := by
  rw [edgeLines, arrows_eq_filterMap, List.map_filterMap]
  rfl

theorem IdsDiffer.find?_eq_some_iff {g : Graph} (hids : g.IdsDiffer) {id : String} {n : Node} :
    g.find? id = some n ↔ n ∈ g.nodes ∧ n.id = id := by
  constructor
  · intro h
    exact ⟨List.mem_of_find?_eq_some h, g.id_of_find?_eq_some h⟩
  · rintro ⟨hn, rfl⟩
    have hsome : (g.find? n.id).isSome = true := by
      rw [isSome_find?, hasNode, List.any_eq_true]
      exact ⟨n, hn, by simp⟩
    obtain ⟨m, hm⟩ := Option.isSome_iff_exists.1 hsome
    have hsame : m.id = n.id := g.id_of_find?_eq_some hm
    obtain rfl := List.inj_on_of_nodup_map hids (List.mem_of_find?_eq_some hm) hn hsame
    exact hm

namespace Reordered

variable {g k : Graph} (hgk : g.Reordered k)

include hgk

theorem nodes_eq_nil_iff : k.nodes = [] ↔ g.nodes = [] := by
  rw [← List.length_eq_zero_iff, hgk.nodes.length_eq, List.length_eq_zero_iff]

theorem edges_eq_nil_iff : k.edges = [] ↔ g.edges = [] := by
  rw [← List.length_eq_zero_iff, hgk.edges.length_eq, List.length_eq_zero_iff]

/-! The text -/

theorem idsDiffer (hids : g.IdsDiffer) : k.IdsDiffer :=
  (hgk.nodes.map _).nodup_iff.2 hids

/-- With one node to an id, being the first one means nothing. -/
theorem find?_eq (hids : g.IdsDiffer) (id : String) : k.find? id = g.find? id := by
  apply Option.ext
  intro n
  rw [(hgk.idsDiffer hids).find?_eq_some_iff, hids.find?_eq_some_iff, hgk.nodes.mem_iff]

theorem edgeLine?_eq (hids : g.IdsDiffer) : k.edgeLine? = g.edgeLine? := by
  funext e
  simp only [edgeLine?, arrow?_eq_find?, hgk.find?_eq hids]

theorem edgeLines_eq (hids : g.IdsDiffer) : k.edgeLines = k.edges.filterMap g.edgeLine? := by
  rw [edgeLines_eq_filterMap, hgk.edgeLine?_eq hids]

theorem edgeLines_perm (hids : g.IdsDiffer) : k.edgeLines.Perm g.edgeLines := by
  rw [hgk.edgeLines_eq hids, edgeLines_eq_filterMap]
  exact hgk.edges.filterMap _

theorem mem_nodeLines_iff {l : String} : l ∈ k.nodeLines ↔ l ∈ g.nodeLines := by
  simp only [mem_nodeLines, hgk.nodes.mem_iff]

/-- What stands before, between and after the two sections. -/
theorem logicalLines_eq (metadata : Option Metadata) (o : Options) :
    (ofGraph k metadata o).lines =
      if g.nodes = [] then frontLines metadata o ++ [placeholder]
      else
        frontLines metadata o ++ k.nodeLines ++ (if g.edges = [] then [] else "" :: k.edgeLines) ++
          backLines metadata o := by
  by_cases hnodes : g.nodes = []
  · rw [if_pos hnodes]
    exact k.lines_of_nodes_eq_nil metadata o (hgk.nodes_eq_nil_iff.2 hnodes)
  · rw [if_neg hnodes, k.lines_of_nodes_ne_nil metadata o (mt hgk.nodes_eq_nil_iff.1 hnodes)]
    simp only [edgeSection, hgk.edges_eq_nil_iff]

/-! The review -/

theorem mentions_iff (id : String) : Mentions k.edges id ↔ Mentions g.edges id :=
  ⟨Mentions.mono hgk.edges.subset, Mentions.mono hgk.edges.symm.subset⟩

theorem unconnectedNodes_perm : k.unconnectedNodes.Perm g.unconnectedNodes := by
  simp only [unconnectedNodes, hgk.mentions_iff]
  exact hgk.nodes.filter _

theorem structureRemarks_eq : k.structureRemarks = g.structureRemarks := by
  have hlength := hgk.unconnectedNodes_perm.length_eq
  have hnil : k.unconnectedNodes = [] ↔ g.unconnectedNodes = [] := by
    rw [← List.length_eq_zero_iff, hlength, List.length_eq_zero_iff]
  simp only [structureRemarks, hgk.nodes_eq_nil_iff, hnil, hlength]

theorem labelRemarks_perm : k.labelRemarks.Perm g.labelRemarks :=
  (hgk.nodes.filter _).map _

theorem remarks_perm : k.remarks.Perm g.remarks := by
  rw [remarks_eq_append, remarks_eq_append, hgk.structureRemarks_eq]
  exact hgk.labelRemarks_perm.append_left _

/-- If only edges have changed places, the review is the same. -/
theorem review_eq (hnodes : k.nodes = g.nodes) : k.review = g.review := by
  have hk : k = { g with edges := k.edges } := by
    rw [← hnodes]
  rw [hk, review, review, remarks_of_mentions_iff hgk.mentions_iff]

omit hgk in
theorem refl (g : Graph) : g.Reordered g := ⟨.refl _, .refl _⟩

/-- Where no two nodes have the same id, the order of nodes and edges is that of their lines: the
nodes have the same lines, and every edge has its own. All other lines stay as they are, and so does
what is remarked on in the graph as a whole; remarks on single nodes change places. If only edges
change places, the review stays the same, whatever the ids are. -/
theorem only_orders_lines :
    (g.IdsDiffer →
      (∀ metadata o,
        let text (nodeLines edgeLines : List String) :=
          "\n".intercalate
            (if g.nodes = [] then frontLines metadata o ++ [placeholder]
            else
              frontLines metadata o ++ nodeLines ++
                (if g.edges = [] then [] else "" :: edgeLines) ++ backLines metadata o)
        g.diagramText metadata o = text g.nodeLines g.edgeLines ∧
          k.diagramText metadata o = text k.nodeLines k.edgeLines) ∧
      (g.nodeLines.Nodup ∧ k.nodeLines.Nodup ∧ ∀ l, l ∈ k.nodeLines ↔ l ∈ g.nodeLines) ∧
      (g.edgeLines = g.edges.filterMap g.edgeLine? ∧
        k.edgeLines = k.edges.filterMap g.edgeLine? ∧ k.edgeLines.Perm g.edgeLines ∧
        (k.edges = g.edges → k.edgeLines = g.edgeLines)) ∧
      (∃ first, g.remarks = first ++ g.labelRemarks ∧ k.remarks = first ++ k.labelRemarks) ∧
      k.labelRemarks.Perm g.labelRemarks ∧
      (∀ count, .unconnected count ∈ k.remarks ↔ .unconnected count ∈ g.remarks) ∧
      k.review.warnings.Perm g.review.warnings ∧ k.review.errors = g.review.errors) ∧
    (k.nodes = g.nodes → k.review = g.review) := by
  refine ⟨?_, hgk.review_eq⟩
  intro hids
  refine ⟨?_, ?_, ?_, ?_, hgk.labelRemarks_perm, ?_, hgk.remarks_perm.map _, rfl⟩
  · intro metadata o text
    constructor
    · rw [diagramText_eq_intercalate, (refl g).logicalLines_eq metadata o]
    · rw [diagramText_eq_intercalate, hgk.logicalLines_eq metadata o]
  · exact ⟨nodup_eraseDups _, nodup_eraseDups _, fun l => hgk.mem_nodeLines_iff⟩
  · refine ⟨g.edgeLines_eq_filterMap, hgk.edgeLines_eq hids, hgk.edgeLines_perm hids, ?_⟩
    intro hedges
    rw [hgk.edgeLines_eq hids, hedges, edgeLines_eq_filterMap]
  · refine ⟨g.structureRemarks, g.remarks_eq_append, ?_⟩
    rw [remarks_eq_append, hgk.structureRemarks_eq]
  · intro count
    exact hgk.remarks_perm.mem_iff

end Reordered

/-- A decision with both of its outputs, and the same drawn from its end. -/
def forked : Graph where
  nodes := [.decision "d" "Go?", .finish "a b", .finish "a_b"]
  edges := [.ofBranch "d" "a b" .yes, .ofBranch "d" "a_b" .no, .between "d" "gone"]

def forkedBackwards : Graph := ⟨forked.nodes.reverse, forked.edges.reverse⟩

theorem reordered_forkedBackwards : forked.Reordered forkedBackwards :=
  ⟨List.reverse_perm _, List.reverse_perm _⟩

theorem only_orders_lines_forked :
    forked.Reordered forkedBackwards ∧ forked.IdsDiffer ∧
      forkedBackwards.nodeLines = ["    a_b([End])", "    d\x7bGo?\x7d"] ∧
      (∀ l, l ∈ forked.nodeLines ↔ l = "    a_b([End])" ∨ l = "    d\x7bGo?\x7d") ∧
      forkedBackwards.edgeLines = ["    d -->|No| a_b", "    d -->|Yes| a_b"] ∧
      forkedBackwards.edgeLines.Perm forked.edgeLines := by
  have hids : forked.IdsDiffer := by
    unfold IdsDiffer
    decide +kernel
  have hlines : forkedBackwards.nodeLines = ["    a_b([End])", "    d\x7bGo?\x7d"] := by
    decide +kernel
  obtain ⟨-, ⟨-, -, hmem⟩, ⟨-, -, hperm, -⟩, -⟩ :=
    reordered_forkedBackwards.only_orders_lines.1 hids
  refine ⟨reordered_forkedBackwards, hids, hlines, fun l => ?_, by decide +kernel, hperm⟩
  rw [← hmem, hlines]
  simp

end FlowDiagram.Graph
