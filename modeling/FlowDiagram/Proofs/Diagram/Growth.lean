import FlowDiagram.Graph.Connection
import FlowDiagram.Proofs.Diagram.Edges
import FlowDiagram.Proofs.Review.Remarks
/-! What is added to the text of a graph when nodes or edges are added at its end. -/

namespace FlowDiagram.Graph

open Diagram

/-- The graph with more nodes at the end. -/
def withNodes (g : Graph) (nodes : List Node) : Graph := { g with nodes := g.nodes ++ nodes }

/-- The graph with more edges at the end. -/
def withEdges (g : Graph) (edges : List Edge) : Graph := { g with edges := g.edges ++ edges }

variable {g h : Graph} {nodes : List Node} {edges : List Edge} {e : Edge}

/-! More nodes -/

theorem nodeLines_prefix_withNodes (g : Graph) (nodes : List Node) :
    g.nodeLines <+: (g.withNodes nodes).nodeLines := by
  simp only [nodeLines, withNodes, List.map_append, List.eraseDups_append]
  exact List.prefix_append _ _

/-- The first node of an id stays the first. -/
theorem find?_withNodes (g : Graph) (nodes : List Node) (id : String) :
    (g.withNodes nodes).find? id = (g.find? id).or (nodes.find? (·.id = id)) :=
  List.find?_append

/-- An arrow that was there stays as it was. -/
theorem arrow?_withNodes {a : Arrow} (ha : g.arrow? e = some a) :
    (g.withNodes nodes).arrow? e = some a := by
  rw [arrow?_eq_find?] at ha ⊢
  split at ha
  · rename_i source target hsource htarget
    simpa [find?_withNodes, hsource, htarget] using ha
  · cases ha

theorem filterMap_sublist_filterMap {α β : Type} {f k : α → Option β}
    (hfk : ∀ x y, f x = some y → k x = some y) (xs : List α) :
    (xs.filterMap f).Sublist (xs.filterMap k) := by
  induction xs with
  | nil => exact List.Sublist.refl _
  | cons x xs ih =>
    cases hx : f x with
    | some y =>
      rw [List.filterMap_cons_some hx, List.filterMap_cons_some (hfk x y hx)]
      exact ih.cons_cons y
    | none =>
      rw [List.filterMap_cons_none hx]
      exact ih.trans ((List.sublist_cons_self x xs).filterMap k)

theorem edgeLines_sublist_withNodes (g : Graph) (nodes : List Node) :
    g.edgeLines.Sublist (g.withNodes nodes).edgeLines := by
  apply List.Sublist.map
  exact filterMap_sublist_filterMap (fun _ _ => arrow?_withNodes) g.edges

theorem edgeSection_sublist_withNodes (g : Graph) (nodes : List Node) :
    g.edgeSection.Sublist (g.withNodes nodes).edgeSection := by
  have hedges : (g.withNodes nodes).edges = g.edges := rfl
  unfold edgeSection
  rw [hedges]
  split
  · exact List.Sublist.refl _
  · exact (g.edgeLines_sublist_withNodes nodes).cons_cons ""

/-- A node changes nothing for the edges if there is one of its id before it, or if no edge mentions
its id. -/
def Unneeded (g : Graph) (n : Node) : Prop :=
  (∃ m ∈ g.nodes, m.id = n.id) ∨ ¬Mentions g.edges n.id

theorem find?_withNodes_of_unneeded (hnodes : ∀ n ∈ nodes, g.Unneeded n) {id : String}
    (hid : Mentions g.edges id) : (g.withNodes nodes).find? id = g.find? id := by
  rw [find?_withNodes]
  cases hfound : g.find? id with
  | some n => rfl
  | none =>
    rw [Option.none_or, List.find?_eq_none]
    intro n hn heq
    obtain rfl : n.id = id := by simpa using heq
    rcases hnodes n hn with ⟨m, hm, hmn⟩ | hno
    · have hnot := List.find?_eq_none.1 hfound m hm
      simp [hmn] at hnot
    · exact hno hid

theorem edgeLines_withNodes (hnodes : ∀ n ∈ nodes, g.Unneeded n) :
    (g.withNodes nodes).edgeLines = g.edgeLines := by
  have harrow : ∀ e ∈ g.edges, (g.withNodes nodes).arrow? e = g.arrow? e := by
    intro e he
    have hsource := find?_withNodes_of_unneeded hnodes ⟨e, he, Or.inl rfl⟩
    have htarget := find?_withNodes_of_unneeded hnodes ⟨e, he, Or.inr rfl⟩
    simp only [arrow?_eq_find?, hsource, htarget]
  simp only [edgeLines, arrows_eq_filterMap]
  congr 1
  exact List.filterMap_congr harrow

theorem edgeSection_withNodes (hnodes : ∀ n ∈ nodes, g.Unneeded n) :
    (g.withNodes nodes).edgeSection = g.edgeSection := by
  unfold edgeSection
  rw [edgeLines_withNodes hnodes]
  rfl

/-! More edges -/

theorem edgeLines_withEdges (g : Graph) (edges : List Edge) :
    (g.withEdges edges).edgeLines = g.edgeLines ++ (edges.filterMap g.arrow?).map Arrow.line := by
  have harrow : (g.withEdges edges).arrow? = g.arrow? := rfl
  have hedges : (g.withEdges edges).edges = g.edges ++ edges := rfl
  simp only [edgeLines, arrows_eq_filterMap, harrow, hedges, List.filterMap_append, List.map_append]

/-- The empty line comes with the first edges. -/
theorem edgeSection_withEdges (g : Graph) (hedges : edges ≠ []) :
    (g.withEdges edges).edgeSection =
      g.edgeSection ++ (if g.edges = [] then [""] else []) ++
        (edges.filterMap g.arrow?).map Arrow.line := by
  have hne : (g.withEdges edges).edges ≠ [] := by simp [withEdges, hedges]
  unfold edgeSection
  rw [if_neg hne, edgeLines_withEdges]
  split
  · rename_i hnil
    simp [edgeLines, arrows, hnil]
  · simp

theorem edgeSection_prefix_withEdges (g : Graph) (edges : List Edge) :
    g.edgeSection <+: (g.withEdges edges).edgeSection := by
  by_cases hedges : edges = []
  · subst edges
    simp [withEdges]
  · rw [g.edgeSection_withEdges hedges, List.append_assoc]
    exact List.prefix_append _ _

/-- Whatever the policy is, a connection is an edge more between nodes that there are. -/
theorem connect_eq_ok {p : Policy} (hok : g.connect e p = .ok h) :
    ∃ n, g.find? e.source = some n ∧ g.hasNode e.target = true ∧ h = g.withEdges [e] := by
  unfold connect at hok
  split at hok
  · cases hok
  · rename_i source hsource
    split at hok
    · cases hok
    · rename_i target htarget
      split at hok
      · cases hok
        refine ⟨source, hsource, ?_, rfl⟩
        rw [← isSome_find?, htarget]
        rfl
      · cases hok

theorem edgeSection_connect {p : Policy} (hok : g.connect e p = .ok h) :
    ∃ n, g.find? e.source = some n ∧
      h.edgeSection =
        g.edgeSection ++ (if g.edges = [] then [""] else []) ++ [lineFrom e n] := by
  obtain ⟨n, hn, htarget, rfl⟩ := connect_eq_ok hok
  refine ⟨n, hn, ?_⟩
  rw [g.edgeSection_withEdges (List.cons_ne_nil e []),
    List.filterMap_cons_some (g.arrow?_eq_some hn htarget)]
  rfl

/-! The whole text -/

/-- Title and header, the lines of the nodes, those of the edges, description and theme. -/
theorem diagramText_of_nodes_ne_nil (hnodes : g.nodes ≠ []) (metadata : Option Metadata)
    (o : Options) :
    g.diagramText metadata o =
      "\n".intercalate
        (frontLines metadata o ++ g.nodeLines ++ g.edgeSection ++ backLines metadata o) := by
  rw [diagramText_eq_intercalate, g.lines_of_nodes_ne_nil metadata o hnodes]

/-- All that changes as nodes are added at the end is that lines of nodes are added after those that
there were, and lines of edges among them; the latter stay as they were if no edge waits for the new
nodes. As edges are added at the end, lines of edges are added after those that there were. A
connection adds its own line, and an empty one before it if it is the first edge. -/
theorem sections_grow (hnodes : g.nodes ≠ []) (metadata : Option Metadata) (o : Options) :
    let text (h : Graph) :=
      "\n".intercalate
        (frontLines metadata o ++ h.nodeLines ++ h.edgeSection ++ backLines metadata o)
    g.diagramText metadata o = text g ∧
    (∀ nodes,
      (g.withNodes nodes).diagramText metadata o = text (g.withNodes nodes) ∧
      g.nodeLines <+: (g.withNodes nodes).nodeLines ∧
      g.edgeSection.Sublist (g.withNodes nodes).edgeSection ∧
      ((∀ n ∈ nodes, g.Unneeded n) → (g.withNodes nodes).edgeSection = g.edgeSection)) ∧
    (∀ edges,
      (g.withEdges edges).diagramText metadata o = text (g.withEdges edges) ∧
      (g.withEdges edges).nodeLines = g.nodeLines ∧
      g.edgeSection <+: (g.withEdges edges).edgeSection) ∧
    ∀ e p h, g.connect e p = .ok h →
      h.diagramText metadata o = text h ∧ h.nodeLines = g.nodeLines ∧
      ∃ n, g.find? e.source = some n ∧
        h.edgeSection =
          g.edgeSection ++ (if g.edges = [] then [""] else []) ++ [lineFrom e n] := by
  intro text
  refine ⟨diagramText_of_nodes_ne_nil hnodes metadata o, ?_, ?_, ?_⟩
  · intro nodes
    have hmore : (g.withNodes nodes).nodes ≠ [] := by simp [withNodes, hnodes]
    exact ⟨diagramText_of_nodes_ne_nil hmore metadata o, g.nodeLines_prefix_withNodes nodes,
      g.edgeSection_sublist_withNodes nodes, edgeSection_withNodes⟩
  · intro edges
    have hsame : (g.withEdges edges).nodes ≠ [] := hnodes
    exact ⟨diagramText_of_nodes_ne_nil hsame metadata o, rfl, g.edgeSection_prefix_withEdges edges⟩
  · intro e p h hok
    obtain ⟨n, hn, -, rfl⟩ := connect_eq_ok hok
    have hsame : (g.withEdges [e]).nodes ≠ [] := hnodes
    exact ⟨diagramText_of_nodes_ne_nil hsame metadata o, rfl, edgeSection_connect hok⟩

/-- A start with an edge to a node that is still to come. -/
def expecting : Graph := ⟨[.start "s"], [.between "s" "t"]⟩

/-- The node that was missing gets its line and the edge its own, while a second start changes
nothing for the edges, and a connection adds its line. -/
theorem sections_grow_expecting :
    expecting.nodes ≠ [] ∧
      expecting.edgeSection = [""] ∧
      expecting.nodeLines <+: (expecting.withNodes [.finish "t"]).nodeLines ∧
      (expecting.withNodes [.finish "t"]).edgeSection = ["", "    s --> t"] ∧
      (expecting.withNodes [.process "s" "again"]).edgeSection = expecting.edgeSection ∧
      ∃ h, expecting.connect (.between "s" "s") .any = .ok h ∧
        h.edgeSection = ["", "    s --> s"] := by
  have hnodes : expecting.nodes ≠ [] := List.cons_ne_nil _ _
  obtain ⟨-, hmore, -, hconnect⟩ := sections_grow hnodes none .default
  obtain ⟨-, hprefix, -, -⟩ := hmore [.finish "t"]
  obtain ⟨-, -, -, hsame⟩ := hmore [.process "s" "again"]
  have hok : expecting.connect (.between "s" "s") .any =
      .ok (expecting.withEdges [.between "s" "s"]) := by decide +kernel
  obtain ⟨-, -, n, hn, hsection⟩ := hconnect _ _ _ hok
  have hstart : expecting.find? "s" = some (.start "s") := by decide +kernel
  rw [show (Edge.between "s" "s").source = "s" from rfl, hstart] at hn
  obtain rfl := Option.some.inj hn
  refine ⟨hnodes, by decide +kernel, hprefix, by decide +kernel, hsame ?_, _, hok, ?_⟩
  · intro n hn
    obtain rfl := List.mem_singleton.1 hn
    exact Or.inl ⟨.start "s", List.mem_cons_self, rfl⟩
  · rw [hsection]
    decide +kernel

end FlowDiagram.Graph
