import FlowDiagram.Codec.Graph
import FlowDiagram.Proofs.Codec.Node
/-! Graphs and metadata that are saved are read back. -/

namespace FlowDiagram

open Json

theorem Edge.decoder_toTree (e : Edge) : decoder .kept (.ofTree e.toTree.reread) = .ok e := by
  obtain ⟨id, source, target, label, sourceHandle⟩ := e
  cases id <;> cases label <;> cases sourceHandle <;> rfl

theorem Metadata.decoder_toTree (m : Metadata) :
    decoder (.text 1) (.ofTree m.toTree.reread) = .ok m := by
  obtain ⟨title, description⟩ := m
  cases title <;> cases description <;> rfl

namespace Graph

def IsWellTagged (g : Graph) : Prop := ∀ n ∈ g.nodes, n.IsWellTagged

def IsSavable (g : Graph) : Prop := ∀ n ∈ g.nodes, n.IsSavable

def IsReadable (g : Graph) : Prop := ∀ n ∈ g.nodes, n.IsReadable

/-- The graph with every float as it is reread. -/
def reread (g : Graph) : Graph := { g with nodes := g.nodes.map Node.reread }

def nodesTree (g : Graph) : Tree := .array (g.nodes.map Node.toTree)

def edgesTree (g : Graph) : Tree := .array (g.edges.map Edge.toTree)

/-- A graph is read back from members that were held back. -/
theorem decoder_members {g : Graph} (htag : g.IsWellTagged) (hsavable : g.IsSavable) :
    decoder .kept (.object [(.ok "nodes", .ofTree g.nodesTree.reread),
      (.ok "edges", .ofTree g.edgesTree.reread)] none) = .ok g.reread := by
  have hnodes : Decoder.list Node.decoder .kept (.ofTree g.nodesTree.reread) =
      .ok (g.nodes.map Node.reread) :=
    Decoder.list_ofTree fun n hn => Node.decoder_toTree (htag n hn) (hsavable n hn).unlabelled
  have hedges : Decoder.list Edge.decoder .kept (.ofTree g.edgesTree.reread) =
      .ok (g.edges.map id) := Decoder.list_ofTree fun e _ => Edge.decoder_toTree e
  have hread : record.readMembers Record.ignoreRest .kept
      [(.ok "nodes", .ofTree g.nodesTree.reread), (.ok "edges", .ofTree g.edgesTree.reread)] []
      record.blank = .ok (["edges", "nodes"], g.reread) := by
    rw [Record.readMembers_field rfl (by decide) (congrArg (Except.map _) hnodes),
      Record.readMembers_field rfl (by decide) (congrArg (Except.map _) hedges), List.map_id]
    rfl
  exact Record.readObject_of_readMembers rfl hread rfl

/-- The nodes of a graph that is read from members held back, each found to be free of faults. -/
theorem isSavable_of_decoder {members : List (Name × Reading)} {g : Graph}
    (h : decoder .kept (.object members none) = .ok g)
    (hheld : ∀ m ∈ members, ∃ t, m.2 = .ofTree t ∧ t.HasRoom 1) :
    g.IsWellTagged ∧ g.IsSavable := by
  have hnodes : ∀ n ∈ g.nodes, n.IsWellTagged ∧ n.IsSavable := by
    refine Record.decode_induction (fun g => ∀ n ∈ g.nodes, n.IsWellTagged ∧ n.IsSavable) h ?_ ?_
    · intro n hn
      cases hn
    · intro inner henter f hf y hy set g hset hg
      cases henter
      obtain ⟨m, hm, rfl⟩ := List.mem_map.1 hy
      obtain ⟨t, ht, hroom⟩ := hheld m hm
      simp only [record, List.mem_cons, List.not_mem_nil, or_false] at hf
      rcases hf with rfl | rfl
      · obtain ⟨nodes, hlist, rfl⟩ := map_eq_ok_iff.1 hset
        intro n hn
        rw [ht] at hlist
        obtain ⟨x, hx, hdecode⟩ := Tree.mem_of_list hlist hn
        exact Node.isSavable_of_decoder hdecode (hroom.of_inside (Tree.inside_of_mem_children hx))
      · obtain ⟨edges, -, rfl⟩ := map_eq_ok_iff.1 hset
        exact hg
  exact ⟨fun n hn => (hnodes n hn).1, fun n hn => (hnodes n hn).2⟩

end Graph

end FlowDiagram
