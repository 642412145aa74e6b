import FlowDiagram.Editing.Session
import FlowDiagram.Proofs.Diagram.Nodes
/-! Changes of a node: what they leave of it as it is, and what they leave of the text. -/

namespace FlowDiagram

/-- A change that is made to a node by itself. -/
inductive Node.Change where
  | relabel (label : Option String)
  | labelled (text : String)
  | nameBranches (yes no : String)
  | moveTo (x y : Float)

namespace Node

namespace Change

def apply : Change → Node → Node
  | .relabel label, n => n.relabel label
  | .labelled text, n => n.labelled text
  | .nameBranches yes no, n => n.nameBranches yes no
  | .moveTo x y, n => n.moveTo x y

def label? : Change → Option (Option String)
  | .relabel label => some label
  | .labelled text => some (some text)
  | .nameBranches _ _ | .moveTo _ _ => none

def position? : Change → Option Position
  | .moveTo x y => some ⟨x, y⟩
  | .relabel _ | .labelled _ | .nameBranches _ _ => none

/-- A decision with the names that the change gives to its outputs. -/
def decision? : Change → Option Kind
  | .nameBranches yes no => some (.decision (some yes) (some no))
  | .relabel _ | .labelled _ | .moveTo _ _ => none

/-- What becomes of a kind. Only that of a decision may change. -/
def kindAfter (c : Change) : Kind → Kind
  | .decision yes no => c.decision?.getD (.decision yes no)
  | k => k

/-- All that a change does. -/
theorem apply_eq (c : Change) (n : Node) :
    c.apply n =
      ⟨n.id, c.position?.getD n.position, c.label?.getD n.label, c.kindAfter n.kind⟩ := by
  obtain ⟨id, position, label, kind⟩ := n
  cases c <;> cases kind <;> rfl

theorem category_kindAfter (c : Change) (k : Kind) : (c.kindAfter k).category = k.category := by
  cases k with
  | decision yes no => cases c <;> rfl
  | _ => rfl

theorem kindAfter_of_decision?_eq_none {c : Change} (h : c.decision? = none) (k : Kind) :
    c.kindAfter k = k := by
  cases k with
  | decision yes no => rw [kindAfter, h, Option.getD_none]
  | _ => rfl

/-- The last that changes set of something, or what was there before them. -/
def lastSet {α : Type} (set? : Change → Option α) (changes : List Change) (before : α) : α :=
  (changes.filterMap set?).getLast?.getD before

theorem lastSet_cons {α : Type} (set? : Change → Option α) (c : Change) (changes : List Change)
    (before : α) :
    lastSet set? (c :: changes) before = lastSet set? changes ((set? c).getD before) := by
  rw [lastSet, lastSet, List.filterMap_cons]
  cases set? c with
  | none => rfl
  | some a => rw [List.getLast?_cons, Option.getD_some, Option.getD_some]

end Change

/-- The node after changes, one by one. -/
def changed (n : Node) (changes : List Change) : Node := changes.foldl (fun n c => c.apply n) n

variable {n : Node} {changes : List Change}

/-- What every single change sets of a node, or leaves as it is, the last of a list sets. -/
theorem changed_part {α : Type} {part : Node → α} {set? : Change → Option α}
    (hstep : ∀ c n, part (Change.apply c n) = (set? c).getD (part n)) (changes : List Change)
    (n : Node) : part (n.changed changes) = Change.lastSet set? changes (part n) := by
  induction changes generalizing n with
  | nil => rfl
  | cons c changes ih =>
    rw [Change.lastSet_cons, ← hstep]
    exact ih (c.apply n)

theorem label_changed (n : Node) (changes : List Change) :
    (n.changed changes).label = Change.lastSet Change.label? changes n.label :=
  changed_part (fun c n => by rw [c.apply_eq]) changes n

theorem position_changed (n : Node) (changes : List Change) :
    (n.changed changes).position = Change.lastSet Change.position? changes n.position :=
  changed_part (fun c n => by rw [c.apply_eq]) changes n

/-- What no change of a list touches stays as it is. -/
theorem changed_kept {α : Type} {part : Node → α}
    (hstep : ∀ c ∈ changes, ∀ n, part (Change.apply c n) = part n) (n : Node) :
    part (n.changed changes) = part n := by
  induction changes generalizing n with
  | nil => rfl
  | cons c changes ih =>
    rw [List.forall_mem_cons] at hstep
    exact (ih hstep.2 (c.apply n)).trans (hstep.1 n)

theorem id_changed (n : Node) (changes : List Change) : (n.changed changes).id = n.id :=
  changed_kept (fun c _ n => by rw [c.apply_eq]) n

theorem category_changed (n : Node) (changes : List Change) :
    (n.changed changes).category = n.category := by
  have hstep : ∀ c ∈ changes, ∀ n : Node, (Change.apply c n).category = n.category := by
    intro c _ n
    rw [c.apply_eq]
    exact c.category_kindAfter n.kind
  exact changed_kept hstep n

theorem kind_changed_of_decision?_eq_none (h : ∀ c ∈ changes, c.decision? = none) (n : Node) :
    (n.changed changes).kind = n.kind := by
  have hstep : ∀ c ∈ changes, ∀ n : Node, (Change.apply c n).kind = n.kind := by
    intro c hc n
    rw [c.apply_eq]
    exact Change.kindAfter_of_decision?_eq_none (h c hc) n.kind
  exact changed_kept hstep n

/-- Each kind goes its own way, so that the changes are made to the kind alone. -/
theorem kind_changed (n : Node) (changes : List Change) :
    (n.changed changes).kind = changes.foldl (fun k c => c.kindAfter k) n.kind := by
  induction changes generalizing n with
  | nil => rfl
  | cons c changes ih =>
    have hc : (c.apply n).kind = c.kindAfter n.kind := by rw [c.apply_eq]
    rw [List.foldl_cons, ← hc]
    exact ih (c.apply n)

theorem kind_changed_of_ne_decision (h : ∀ yes no, n.kind ≠ .decision yes no)
    (changes : List Change) : (n.changed changes).kind = n.kind := by
  rw [kind_changed]
  induction changes with
  | nil => rfl
  | cons c changes ih =>
    have hc : c.kindAfter n.kind = n.kind := by
      cases hkind : n.kind with
      | decision yes no => exact absurd hkind (h yes no)
      | _ => rfl
    rw [List.foldl_cons, hc, ih]

theorem kind_changed_of_decision {yes no : Option String} (h : n.kind = .decision yes no)
    (changes : List Change) :
    (n.changed changes).kind = Change.lastSet Change.decision? changes (.decision yes no) := by
  rw [kind_changed, h]
  clear h
  induction changes generalizing yes no with
  | nil => rfl
  | cons c changes ih =>
    rw [Change.lastSet_cons, List.foldl_cons, Change.kindAfter]
    cases c with
    | nameBranches yes' no' => exact ih
    | _ => exact ih

/-- What a node is after changes, told by the node before and by what was last set. -/
structure Framed (n m : Node) (changes : List Change) : Prop where
  id : m.id = n.id
  category : m.category = n.category
  process : ∀ description, n.kind = .process description → m.kind = .process description
  other : ∀ tag extra, n.kind = .other tag extra → m.kind = .other tag extra
  label : m.label = Change.lastSet Change.label? changes n.label
  position : m.position = Change.lastSet Change.position? changes n.position
  decision : ∀ yes no, n.kind = .decision yes no →
    m.kind = Change.lastSet Change.decision? changes (.decision yes no)

theorem framed_changed (n : Node) (changes : List Change) :
    n.Framed (n.changed changes) changes where
  id := id_changed n changes
  category := category_changed n changes
  process description h := by
    rw [kind_changed_of_ne_decision (by simp [h]), h]
  other tag extra h := by
    rw [kind_changed_of_ne_decision (by simp [h]), h]
  label := label_changed n changes
  position := position_changed n changes
  decision yes no h := kind_changed_of_decision h changes

theorem nameBranches_of_ne_decision (h : ∀ yes no, n.kind ≠ .decision yes no) (yes no : String) :
    n.nameBranches yes no = n := by
  rw [nameBranches]
  split
  · rename_i hkind
    exact absurd hkind (h _ _)
  · rfl

end Node

/-! A node of a graph -/

namespace Graph

open Diagram

variable {g h : Graph} {n : Node} {index : Nat} {change : Node → Node}

/-- The nodes around the one that is meant stay where they are. -/
theorem nodes_around (hn : g.nodes[index]? = some n) :
    ∃ before after, g.nodes = before ++ n :: after ∧
      (g.removeNode index).nodes = before ++ after ∧
      ∀ change, (g.changeNode index change).nodes = before ++ change n :: after := by
  obtain ⟨hindex, hn⟩ := List.getElem?_eq_some_iff.1 hn
  refine ⟨g.nodes.take index, g.nodes.drop (index + 1), ?_, ?_, fun change => ?_⟩
  · rw [← hn, ← List.drop_eq_getElem_cons hindex, List.take_append_drop]
  · exact List.eraseIdx_eq_take_drop_succ _ _
  · rw [changeNode, List.modify_eq_take_cons_drop hindex, hn]

/-- What edges read of the nodes that they leave and enter. -/
theorem edgeSection_eq (hedges : h.edges = g.edges)
    (hfind : ∀ id, (h.find? id).map (fun n => (n.id, n.kind)) =
      (g.find? id).map fun n => (n.id, n.kind)) : h.edgeSection = g.edgeSection := by
  have harrow : h.arrow? = g.arrow? := by
    funext e
    have hsource := hfind e.source
    have htarget := hfind e.target
    clear hfind
    rw [arrow?_eq_find?, arrow?_eq_find?]
    revert hsource htarget
    cases h.find? e.source <;> cases g.find? e.source <;> cases h.find? e.target <;>
      cases g.find? e.target <;> simp +contextual [Edge.shownLabel]
  rw [edgeSection, edgeSection, edgeLines, edgeLines, arrows_eq_filterMap, arrows_eq_filterMap,
    hedges, harrow]

theorem edgeSection_changeNode (hn : g.nodes[index]? = some n) (hid : (change n).id = n.id)
    (hkind : (change n).kind = n.kind) :
    (g.changeNode index change).edgeSection = g.edgeSection := by
  obtain ⟨before, after, hnodes, -, hchanged⟩ := nodes_around hn
  refine edgeSection_eq rfl fun id => ?_
  rw [find?, find?, hchanged, hnodes, List.find?_append, List.find?_append]
  cases before.find? (·.id = id) with
  | some m => rfl
  | none => by_cases h : n.id = id <;> simp [h, hid, hkind]

theorem mem_nodeLines_of_around (hn : g.nodes[index]? = some n) (l : String) :
    (l ∈ g.nodeLines ↔ l = n.line ∨ l ∈ (g.removeNode index).nodeLines) ∧
      ∀ change, l ∈ (g.changeNode index change).nodeLines ↔
        l = (change n).line ∨ l ∈ (g.removeNode index).nodeLines := by
  obtain ⟨before, after, hnodes, hremoved, hchanged⟩ := nodes_around hn
  have hline : ∀ m : Node, (∃ k ∈ before ++ m :: after, l = k.line) ↔
      l = m.line ∨ ∃ k ∈ before ++ after, l = k.line := by
    intro m
    simp only [List.mem_append, List.mem_cons, or_and_right, exists_or, exists_eq_left]
    exact or_left_comm
  refine ⟨?_, fun change => ?_⟩
  · rw [mem_nodeLines, mem_nodeLines, hnodes, hremoved, hline]
  · rw [mem_nodeLines, mem_nodeLines, hchanged, hremoved, hline]

end Graph

/-- Changes keep all of a node but what they set, and the last one counts. In a graph, those that
name no branches keep the whole text but for the line of the node itself. -/
theorem Node.changed_framed (n : Node) (changes : List Change) :
    n.Framed (n.changed changes) changes ∧
    ((∀ yes no, n.kind ≠ .decision yes no) → ∀ yes no, n.nameBranches yes no = n) ∧
    ∀ (g : Graph) (index : Nat) (metadata : Option Metadata) (o : Options),
      g.nodes[index]? = some n → (∀ c ∈ changes, c.decision? = none) →
      g.diagramText metadata o =
        "\n".intercalate (Graph.frontLines metadata o ++ g.nodeLines ++ g.edgeSection ++
          Graph.backLines metadata o) ∧
      (g.changeNode index (·.changed changes)).diagramText metadata o =
        "\n".intercalate (Graph.frontLines metadata o ++
          (g.changeNode index (·.changed changes)).nodeLines ++ g.edgeSection ++
          Graph.backLines metadata o) ∧
      ∀ l, (l ∈ g.nodeLines ↔ l = n.line ∨ l ∈ (g.removeNode index).nodeLines) ∧
        (l ∈ (g.changeNode index (·.changed changes)).nodeLines ↔
          l = (n.changed changes).line ∨ l ∈ (g.removeNode index).nodeLines) := by
  refine ⟨framed_changed n changes, nameBranches_of_ne_decision, ?_⟩
  intro g index metadata o hn hchanges
  obtain ⟨before, after, hnodes, -, hchanged⟩ := Graph.nodes_around hn
  refine ⟨?_, ?_, fun l => ?_⟩
  · rw [Graph.diagramText_eq_intercalate, Graph.lines_of_nodes_ne_nil _ _ _ (by simp [hnodes])]
  · rw [Graph.diagramText_eq_intercalate, Graph.lines_of_nodes_ne_nil _ _ _ (by simp [hchanged]),
      Graph.edgeSection_changeNode hn (id_changed n changes)
        (kind_changed_of_decision?_eq_none hchanges n)]
  · have hl := Graph.mem_nodeLines_of_around hn l
    exact ⟨hl.1, hl.2 _⟩

/-- A decision and the process behind its output. -/
def Graph.asked : Graph := ⟨[.decision "d" "Ok?", .process "p" "Pay"], [.ofBranch "d" "p" .yes]⟩

theorem Node.changed_framed_asked :
    ((Node.decision "d" "Ok?").changed
        [.nameBranches "A" "B", .relabel none, .nameBranches "Y" "N"]).kind =
      .decision (some "Y") (some "N") ∧
    (Node.process "p" "Pay").nameBranches "Y" "N" = .process "p" "Pay" ∧
    Graph.asked.nodes[0]? = some (.decision "d" "Ok?") ∧
    "    d{Paid?}" ∈
      (Graph.asked.changeNode 0 (·.changed [.labelled "Paid?", .moveTo 1 2])).nodeLines := by
  have hnamed := changed_framed (.decision "d" "Ok?")
    [.nameBranches "A" "B", .relabel none, .nameBranches "Y" "N"]
  have hprocess := changed_framed (.process "p" "Pay") []
  have hgraph := (changed_framed (.decision "d" "Ok?") [.labelled "Paid?", .moveTo 1 2]).2.2
    Graph.asked 0 none .default rfl (by simp [Change.decision?])
  have hline : "    d{Paid?}" =
      ((Node.decision "d" "Ok?").changed [.labelled "Paid?", .moveTo 1 2]).line := by decide +kernel
  exact ⟨hnamed.1.decision none none rfl, hprocess.2.1 (by simp [Node.process]) "Y" "N", rfl,
    (hgraph.2.2 _).2.2 (.inl hline)⟩

end FlowDiagram
