import FlowDiagram.Editing.Session
import FlowDiagram.Proofs.Diagram.Edges
/-! Editing sessions in which edges come from connections only: what holds of their graphs. -/

namespace FlowDiagram

namespace Session

/-- The session after a list of changes, whether they are made or refused. -/
def afterAll (s : Session) (edits : List Edit) : Session := edits.foldl after s

/-- The edges of the connections that are made, in order. -/
def connected (s : Session) : List Edit → List Edge
  | [] => []
  | edit :: edits =>
    let later := (s.after edit).connected edits
    match edit, s.apply edit with
    | .connect e _, .ok _ => e :: later
    | _, _ => later

end Session

/-- A change that adds an edge only by a connection under the rules of categories, and takes nothing
away. -/
inductive Edit.IsGuarded : Edit → Prop
  | addNode (n : Node) : IsGuarded (.addNode n)
  | connect (e : Edge) : IsGuarded (.connect e .byCategory)
  | relabel (index : Nat) (label : Option String) : IsGuarded (.relabel index label)
  | nameBranches (index : Nat) (yes no : String) : IsGuarded (.nameBranches index yes no)
  | move (index : Nat) (x y : Float) : IsGuarded (.move index x y)
  | describe (m : Metadata) : IsGuarded (.describe m)

/-! Connections -/

namespace Graph

variable {g h : Graph} {e : Edge}

/-- The rules of categories for the first nodes of two ids: they differ, and the edge neither leaves
an end nor enters a start. -/
structure MayJoin (source target : Node) : Prop where
  ids_ne : source.id ≠ target.id
  source_ne : source.category ≠ .finish
  target_ne : target.category ≠ .start

/-- An edge whose ends are nodes that the rules let it join. -/
def Admits (g : Graph) (e : Edge) : Prop :=
  ∃ source target, g.find? e.source = some source ∧ g.find? e.target = some target ∧
    MayJoin source target

/-- Why a graph refuses an edge: the source counts before the target, and both before the rules. -/
inductive Refuses (g : Graph) (e : Edge) : Refusal → Prop
  | unknownSource (hsource : g.find? e.source = none) : Refuses g e (.unknownSource e.source)
  | unknownTarget {source : Node} (hsource : g.find? e.source = some source)
    (htarget : g.find? e.target = none) : Refuses g e (.unknownTarget e.target)
  | rejected {source target : Node} (hsource : g.find? e.source = some source)
    (htarget : g.find? e.target = some target) (hrules : ¬MayJoin source target) :
    Refuses g e (.rejected source target)

theorem allows_byCategory_iff {source target : Node} :
    Policy.byCategory.allows source target = true ↔ MayJoin source target := by
  simp only [Policy.byCategory, Bool.and_eq_true, decide_eq_true_eq]
  exact ⟨fun ⟨⟨hids, hsource⟩, htarget⟩ => ⟨hids, hsource, htarget⟩,
    fun ⟨hids, hsource, htarget⟩ => ⟨⟨hids, hsource⟩, htarget⟩⟩

theorem connect_byCategory_cases (g : Graph) (e : Edge) :
    (g.Admits e ∧ g.connect e .byCategory = .ok (g.addEdge e)) ∨
      ∃ r, g.Refuses e r ∧ g.connect e .byCategory = .error r := by
  rw [connect]
  cases hsource : g.find? e.source with
  | none => exact .inr ⟨_, .unknownSource hsource, rfl⟩
  | some source =>
    cases htarget : g.find? e.target with
    | none => exact .inr ⟨_, .unknownTarget hsource htarget, rfl⟩
    | some target =>
      by_cases hrules : MayJoin source target
      · refine .inl ⟨⟨source, target, hsource, htarget, hrules⟩, ?_⟩
        simp only [if_pos (allows_byCategory_iff.2 hrules), addEdge]
      · refine .inr ⟨_, .rejected hsource htarget hrules, ?_⟩
        simp only [if_neg (mt allows_byCategory_iff.1 hrules)]

theorem Admits.joins (h : g.Admits e) : g.joins e = true := by
  obtain ⟨source, target, hsource, htarget, -⟩ := h
  rw [Graph.joins, ← isSome_find?, ← isSome_find?, hsource, htarget]
  rfl

theorem Refuses.not_admits {r : Refusal} (h : g.Refuses e r) : ¬g.Admits e := by
  rintro ⟨source, target, hsource, htarget, hrules⟩
  cases h with
  | unknownSource hnone => simp [hnone] at hsource
  | unknownTarget _ hnone => simp [hnone] at htarget
  | rejected hsource' htarget' hnot =>
    rw [hsource] at hsource'
    rw [htarget] at htarget'
    cases hsource'
    cases htarget'
    exact hnot hrules

/-- There is at most one reason. -/
theorem Refuses.unique {r r' : Refusal} (h : g.Refuses e r) (h' : g.Refuses e r') : r = r' := by
  cases h <;> cases h' <;> simp_all

/-! What ids lead to -/

/-- Every id that leads to a node leads to one of the same id and category. -/
def Preserves (g h : Graph) : Prop :=
  ∀ id n, g.find? id = some n →
    ∃ m, h.find? id = some m ∧ m.id = n.id ∧ m.category = n.category

theorem preserves_of_nodes_eq (hnodes : h.nodes = g.nodes) : g.Preserves h := by
  intro id n hn
  exact ⟨n, by rw [find?, hnodes]; exact hn, rfl, rfl⟩

theorem preserves_addNode (g : Graph) (n : Node) : g.Preserves (g.addNode n) := by
  intro id m hm
  refine ⟨m, ?_, rfl, rfl⟩
  rw [find?] at hm ⊢
  rw [addNode, List.find?_append, hm, Option.some_or]

/-- A change of one node that keeps its id leaves all first nodes in their places. -/
theorem find?_modify {change : Node → Node} (hid : ∀ n, (change n).id = n.id) (id : String)
    (nodes : List Node) (index : Nat) {n : Node} (hn : nodes.find? (·.id = id) = some n) :
    (nodes.modify index change).find? (·.id = id) = some n ∨
      (nodes.modify index change).find? (·.id = id) = some (change n) := by
  induction nodes generalizing index with
  | nil => cases hn
  | cons m nodes ih =>
    cases index with
    | zero =>
      rw [List.modify_zero_cons]
      by_cases hm : m.id = id
      · have hchange : (change m).id = id := (hid m).trans hm
        simp_all
      · have hchange : (change m).id ≠ id := fun heq => hm ((hid m).symm.trans heq)
        simp_all
    | succ index =>
      rw [List.modify_succ_cons]
      by_cases hm : m.id = id
      · simp_all
      · simp only [hm, decide_false, Bool.false_eq_true, not_false_eq_true,
          List.find?_cons_of_neg] at hn ⊢
        exact ih index hn

theorem preserves_changeNode (g : Graph) (index : Nat) {change : Node → Node}
    (hid : ∀ n, (change n).id = n.id) (hcategory : ∀ n, (change n).category = n.category) :
    g.Preserves (g.changeNode index change) := by
  intro id n hn
  obtain hsame | hchanged := find?_modify hid id g.nodes index hn
  · exact ⟨n, hsame, rfl, rfl⟩
  · exact ⟨change n, hchanged, hid n, hcategory n⟩

theorem Admits.of_preserves (hgh : g.Preserves h) (he : g.Admits e) : h.Admits e := by
  obtain ⟨source, target, hsource, htarget, hids, hfinish, hstart⟩ := he
  obtain ⟨source', hsource', hid, hcategory⟩ := hgh _ _ hsource
  obtain ⟨target', htarget', hid', hcategory'⟩ := hgh _ _ htarget
  exact ⟨source', target', hsource', htarget', by rwa [hid, hid'], by rwa [hcategory],
    by rwa [hcategory']⟩

end Graph

theorem Node.category_nameBranches (n : Node) (yes no : String) :
    (n.nameBranches yes no).category = n.category := by
  obtain ⟨id, position, label, kind⟩ := n
  cases kind <;> rfl

theorem Node.id_nameBranches (n : Node) (yes no : String) :
    (n.nameBranches yes no).id = n.id := by
  obtain ⟨id, position, label, kind⟩ := n
  cases kind <;> rfl

/-! Sessions -/

namespace Session

open Diagram

variable {s : Session} {edit : Edit} {edits : List Edit}

theorem apply_connect_cases (s : Session) (e : Edge) :
    (s.graph.Admits e ∧ s.apply (.connect e .byCategory) = .ok ⟨s.metadata, s.graph.addEdge e⟩) ∨
      ∃ r, s.graph.Refuses e r ∧ s.apply (.connect e .byCategory) = .error r := by
  obtain ⟨hadmits, hok⟩ | ⟨r, hrefuses, herror⟩ := s.graph.connect_byCategory_cases e
  · exact .inl ⟨hadmits, by simp only [apply, hok, Except.map]⟩
  · exact .inr ⟨r, hrefuses, by simp only [apply, herror, Except.map]⟩

theorem apply_connect_eq_error_iff {e : Edge} {r : Graph.Refusal} :
    s.apply (.connect e .byCategory) = .error r ↔ s.graph.Refuses e r := by
  obtain ⟨hadmits, hok⟩ | ⟨r', hrefuses, herror⟩ := s.apply_connect_cases e
  · simp only [hok, reduceCtorEq, false_iff]
    exact fun hrefuses => hrefuses.not_admits hadmits
  · rw [herror, Except.error.injEq]
    exact ⟨fun heq => heq ▸ hrefuses, hrefuses.unique⟩

theorem apply_connect_eq_ok_iff {e : Edge} {t : Session} :
    s.apply (.connect e .byCategory) = .ok t ↔
      s.graph.Admits e ∧ t = ⟨s.metadata, s.graph.addEdge e⟩ := by
  obtain ⟨hadmits, hok⟩ | ⟨r, hrefuses, herror⟩ := s.apply_connect_cases e
  · rw [hok, Except.ok.injEq]
    exact ⟨fun heq => ⟨hadmits, heq.symm⟩, fun heq => heq.2.symm⟩
  · simp only [herror, reduceCtorEq, false_iff]
    exact fun hok => hrefuses.not_admits hok.1

theorem after_of_apply_eq_error {r : Graph.Refusal} (h : s.apply edit = .error r) :
    s.after edit = s := by
  rw [after, h]

/-- What a guarded change does: all ids lead where they led, and the only edge that is new is that
of a connection that the graph admits. -/
theorem preserves_after (h : edit.IsGuarded) (s : Session) :
    s.graph.Preserves (s.after edit).graph := by
  cases h with
  | addNode n => exact s.graph.preserves_addNode n
  | connect e =>
    obtain ⟨-, hok⟩ | ⟨r, -, herror⟩ := s.apply_connect_cases e
    · rw [after, hok]
      exact Graph.preserves_of_nodes_eq rfl
    · rw [after_of_apply_eq_error herror]
      exact Graph.preserves_of_nodes_eq rfl
  | relabel index label => exact s.graph.preserves_changeNode index (fun _ => rfl) fun _ => rfl
  | nameBranches index yes no =>
    exact s.graph.preserves_changeNode index (fun n => n.id_nameBranches yes no)
      fun n => n.category_nameBranches yes no
  | move index x y => exact s.graph.preserves_changeNode index (fun _ => rfl) fun _ => rfl
  | describe m => exact Graph.preserves_of_nodes_eq rfl

theorem edges_after (h : edit.IsGuarded) (s : Session) :
    (s.after edit).graph.edges = s.graph.edges ++ s.connected [edit] ∧
      ∀ e ∈ s.connected [edit], s.graph.Admits e := by
  cases h with
  | connect e =>
    obtain ⟨hadmits, hok⟩ | ⟨r, -, herror⟩ := s.apply_connect_cases e
    · simp [connected, after, hok, Graph.addEdge, hadmits]
    · simp [connected, after, herror]
  | _ => simp [connected, after, apply, Graph.addNode, Graph.changeNode]

theorem connected_cons (s : Session) (edit : Edit) (edits : List Edit) :
    s.connected (edit :: edits) = s.connected [edit] ++ (s.after edit).connected edits := by
  simp only [connected]
  split <;> rfl

/-- The invariant: the graph admits each of its edges. -/
def KeepsRules (s : Session) : Prop := ∀ e ∈ s.graph.edges, s.graph.Admits e

theorem KeepsRules.after (hs : s.KeepsRules) (h : edit.IsGuarded) : (s.after edit).KeepsRules := by
  intro e he
  obtain ⟨hedges, hnew⟩ := s.edges_after h
  rw [hedges, List.mem_append] at he
  obtain he | he := he
  · exact (hs e he).of_preserves (preserves_after h s)
  · exact (hnew e he).of_preserves (preserves_after h s)

theorem KeepsRules.afterAll (hs : s.KeepsRules) (h : ∀ edit ∈ edits, edit.IsGuarded) :
    (s.afterAll edits).KeepsRules := by
  induction edits generalizing s with
  | nil => exact hs
  | cons edit edits ih =>
    obtain ⟨hedit, hedits⟩ := List.forall_mem_cons.1 h
    exact ih (hs.after hedit) hedits

theorem edges_afterAll (h : ∀ edit ∈ edits, edit.IsGuarded) (s : Session) :
    (s.afterAll edits).graph.edges = s.graph.edges ++ s.connected edits := by
  induction edits generalizing s with
  | nil => simp [Session.afterAll, connected]
  | cons edit edits ih =>
    obtain ⟨hedit, hedits⟩ := List.forall_mem_cons.1 h
    have hrest := ih hedits (s.after edit)
    rw [(s.edges_after hedit).1] at hrest
    rw [connected_cons, ← List.append_assoc, ← hrest]
    rfl

theorem KeepsRules.filter_joins (hs : s.KeepsRules) :
    s.graph.edges.filter s.graph.joins = s.graph.edges :=
  List.filter_eq_self.2 fun e he => (hs e he).joins

theorem KeepsRules.looseEdges_eq_nil (hs : s.KeepsRules) : s.graph.looseEdges = [] := by
  refine List.eq_nil_iff_forall_not_mem.2 fun e he => ?_
  obtain ⟨he, hloose⟩ := s.graph.mem_looseEdges.1 he
  rw [(hs e he).joins] at hloose
  cases hloose

theorem KeepsRules.nodes_ne_nil (hs : s.KeepsRules) (hedges : s.graph.edges ≠ []) :
    s.graph.nodes ≠ [] := by
  obtain ⟨e, he⟩ := List.exists_mem_of_ne_nil _ hedges
  obtain ⟨source, -, hsource, -⟩ := hs e he
  exact List.ne_nil_of_mem (List.mem_of_find?_eq_some hsource)

/-- However a session goes on from a graph without edges by guarded changes, its graph admits each
of its edges, none of them is loose, and they are those of the connections that were made. A
connection is made exactly if the graph admits its edge, and one that is refused changes nothing.
Every edge has its own line in the text. -/
theorem connections_keepRules (hs : s.graph.edges = []) (h : ∀ edit ∈ edits, edit.IsGuarded) :
    let t := s.afterAll edits
    (∀ e ∈ t.graph.edges, t.graph.Admits e) ∧
    t.graph.looseEdges = [] ∧
    t.graph.edges = s.connected edits ∧
    (∀ e u, t.apply (.connect e .byCategory) = .ok u ↔
      t.graph.Admits e ∧ u = ⟨t.metadata, t.graph.addEdge e⟩) ∧
    (∀ e r, t.apply (.connect e .byCategory) = .error r ↔ t.graph.Refuses e r) ∧
    (∀ e r, t.graph.Refuses e r → t.after (.connect e .byCategory) = t) ∧
    List.Forall₂ (fun e l => ∃ n, t.graph.find? e.source = some n ∧ l = Graph.lineFrom e n)
      t.graph.edges t.graph.edgeLines ∧
    ∀ metadata o, t.graph.edges ≠ [] →
      t.graph.diagramText metadata o =
        "\n".intercalate
          (Graph.frontLines metadata o ++ t.graph.nodeLines ++ "" :: t.graph.edgeLines ++
            Graph.backLines metadata o) := by
  intro t
  have hstart : s.KeepsRules := by
    intro e he
    rw [hs] at he
    cases he
  have ht : t.KeepsRules := hstart.afterAll h
  have hedges : t.graph.edges = s.graph.edges ++ s.connected edits := edges_afterAll h s
  have hlines := t.graph.forall₂_lineFrom t.graph.edges
  rw [ht.filter_joins] at hlines
  refine ⟨ht, ht.looseEdges_eq_nil, by rw [hedges, hs, List.nil_append],
    fun e u => apply_connect_eq_ok_iff, fun e r => apply_connect_eq_error_iff,
    fun e r hrefuses => ?_, hlines, fun metadata o hne => ?_⟩
  · exact after_of_apply_eq_error (apply_connect_eq_error_iff.2 hrefuses)
  · rw [Graph.diagramText_eq_intercalate,
      t.graph.lines_of_nodes_ne_nil metadata o (ht.nodes_ne_nil hne), Graph.edgeSection, if_neg hne]

/-- A connection, one against it, and one out of an id that then is given a second time. -/
def visit : List Edit :=
  [.addNode (.start "in"), .addNode (.finish "out"), .connect (.between "in" "out") .byCategory,
    .connect (.between "out" "in") .byCategory, .addNode (.finish "in"), .relabel 0 (some "Go"),
    .connect (.between "in" "out") .byCategory]

theorem connections_visit :
    empty.graph.edges = [] ∧ (∀ edit ∈ visit, edit.IsGuarded) ∧
      (empty.afterAll visit).graph.edges = [.between "in" "out", .between "in" "out"] ∧
      (empty.afterAll visit).graph.looseEdges = [] ∧
      (empty.afterAll visit).graph.edgeLines.length = 2 := by
  have hguarded : ∀ edit ∈ visit, edit.IsGuarded := by
    simp only [visit, List.forall_mem_cons, List.not_mem_nil, false_implies, implies_true, and_true]
    exact ⟨.addNode _, .addNode _, .connect _, .connect _, .addNode _, .relabel _ _, .connect _⟩
  obtain ⟨-, hloose, hedges, -, -, -, hlines, -⟩ := connections_keepRules (s := empty) rfl hguarded
  have hconnected : empty.connected visit = [.between "in" "out", .between "in" "out"] := by
    decide +kernel
  rw [hconnected] at hedges
  refine ⟨rfl, hguarded, hedges, hloose, ?_⟩
  rw [← hlines.length_eq, hedges]
  rfl

end Session

end FlowDiagram
