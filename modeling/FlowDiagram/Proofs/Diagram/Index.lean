import FlowDiagram.Diagram.Basic
import Mathlib.Data.List.Basic
/-! Looking a node up in the index of a graph finds the first node of its id. -/

namespace FlowDiagram

namespace Index

/-- What an index says of a node that it knows. -/
def entry (n : Node) : Node × String := (n, Identifier.ofId n.id)

theorem lookup_insert (index : Index) (n : Node) (id : String) :
    (index.insert n).lookup id =
      (index.lookup id).or (if n.id = id then some (entry n) else none) := by
  unfold insert
  cases hn : index.lookup n.id with
  | some known =>
    by_cases h : n.id = id
    · subst id
      simp [hn]
    · simp [h]
  | none =>
    by_cases h : n.id = id
    · subst id
      simp [hn, entry]
    · have hne : (id == n.id) = false := by simpa using Ne.symm h
      simp [List.lookup_cons, hne, h]

/-- What an index knows stays; what it does not know it learns from the first node that comes. -/
theorem lookup_foldl_insert (nodes : List Node) (index : Index) (id : String) :
    (nodes.foldl insert index).lookup id =
      (index.lookup id).or ((nodes.find? (·.id = id)).map entry) := by
  induction nodes generalizing index with
  | nil => simp
  | cons n nodes ih =>
    rw [List.foldl_cons, ih, lookup_insert, Option.or_assoc]
    by_cases h : n.id = id <;> simp [h]

end Index

namespace Graph

variable (g : Graph)

theorem lookup_index (id : String) : g.index.lookup id = (g.find? id).map Index.entry := by
  rw [index, Index.lookup_foldl_insert, List.lookup_nil, Option.none_or, find?]

/-- The arrow of an edge, by searching the nodes for both of its ends. -/
theorem arrow?_eq_find? (e : Edge) :
    g.arrow? e =
      match g.find? e.source, g.find? e.target with
      | some source, some target =>
        some (.between (Identifier.ofId source.id) (Identifier.ofId target.id)
          (e.shownLabel source))
      | _, _ => none := by
  simp only [arrow?, Index.arrow?, lookup_index]
  cases g.find? e.source <;> cases g.find? e.target <;> rfl

theorem arrows_eq_filterMap : g.arrows = g.edges.filterMap g.arrow? := rfl

/-- Every node is in the index, under an id of its own or that of a node before it. -/
theorem box?_index {n : Node} (hn : n ∈ g.nodes) : g.index.box? n = some n.box := by
  have hsome : (g.find? n.id).isSome := List.find?_isSome.2 ⟨n, hn, by simp⟩
  obtain ⟨first, hfirst⟩ := Option.isSome_iff_exists.1 hsome
  have hid : first.id = n.id := by simpa using List.find?_some hfirst
  simp only [Index.box?, lookup_index, hfirst, Option.map_some, Index.entry, hid]
  rfl

theorem boxes_eq_eraseDups_map : g.boxes = (g.nodes.map Node.box).eraseDups := by
  have hboxes : g.nodes.filterMap g.index.box? = g.nodes.filterMap (some ∘ Node.box) :=
    List.filterMap_congr fun n hn => g.box?_index hn
  rw [boxes, hboxes, List.filterMap_eq_map]

end Graph

end FlowDiagram
