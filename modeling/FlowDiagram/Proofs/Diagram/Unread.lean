import FlowDiagram.Proofs.Diagram.Sections
import FlowDiagram.Review.Remark
import Mathlib.Data.List.Forall2
import Mathlib.Data.Option.Basic
/-! What of a graph is read for its text and its review, and that nothing else counts for them. -/

namespace FlowDiagram

/-- An absent label and an empty one count as the same. -/
def SameLabel (label label' : Option String) : Prop :=
  label.filter (· ≠ "") = label'.filter (· ≠ "")

/-- One kind, with the same names for the two outputs of a decision. -/
inductive Kind.Alike : Kind → Kind → Prop
  | start : Alike .start .start
  | finish : Alike .finish .finish
  | process (description description' : Option String) :
    Alike (.process description) (.process description')
  | decision {yesLabel noLabel yesLabel' noLabel' : Option String}
    (yes : SameLabel yesLabel yesLabel') (no : SameLabel noLabel noLabel') :
    Alike (.decision yesLabel noLabel) (.decision yesLabel' noLabel')
  | connector : Alike .connector .connector
  | other (tag tag' : String) (extra extra' : Json.Attributes) :
    Alike (.other tag extra) (.other tag' extra')

structure Node.Alike (n m : Node) : Prop where
  id : n.id = m.id
  label : SameLabel n.label m.label
  kind : n.kind.Alike m.kind

structure Edge.Alike (e f : Edge) : Prop where
  source : e.source = f.source
  target : e.target = f.target
  label : SameLabel e.label f.label
  branch : e.branch = f.branch

/-- Graphs that agree, position by position, in all that is read. -/
structure Graph.Alike (g h : Graph) : Prop where
  nodes : List.Forall₂ Node.Alike g.nodes h.nodes
  edges : List.Forall₂ Edge.Alike g.edges h.edges

theorem map_eq_of_forall₂ {α β : Type} {r : α → α → Prop} {f g : α → β} {xs ys : List α}
    (hfg : ∀ {x y}, r x y → f x = g y) (h : List.Forall₂ r xs ys) : xs.map f = ys.map g := by
  induction h with
  | nil => rfl
  | cons hxy _ ih => rw [List.map_cons, List.map_cons, hfg hxy, ih]

theorem filterMap_eq_of_forall₂ {α β : Type} {r : α → α → Prop} {f g : α → Option β}
    {xs ys : List α} (hfg : ∀ {x y}, r x y → f x = g y) (h : List.Forall₂ r xs ys) :
    xs.filterMap f = ys.filterMap g := by
  induction h with
  | nil => rfl
  | cons hxy _ ih => rw [List.filterMap_cons, List.filterMap_cons, hfg hxy, ih]

/-! Nodes -/

section Nodes

variable {k l : Kind} {n m : Node} {ns ms : List Node}

theorem Kind.Alike.shape_eq (h : k.Alike l) : k.shape = l.shape := by
  cases h <;> rfl

theorem Kind.Alike.defaultLabel_eq (h : k.Alike l) : k.defaultLabel = l.defaultLabel := by
  cases h <;> rfl

theorem Node.shownLabel_eq (n : Node) :
    n.shownLabel = (n.label.filter (· ≠ "")).getD n.kind.defaultLabel := by
  rw [shownLabel]
  cases n.label with
  | none => rfl
  | some label => by_cases h : label = "" <;> simp [h, Option.filter]

theorem Node.Alike.shownLabel_eq (h : n.Alike m) : n.shownLabel = m.shownLabel := by
  rw [n.shownLabel_eq, m.shownLabel_eq, h.label, h.kind.defaultLabel_eq]

theorem Node.Alike.box_eq (h : n.Alike m) : n.box = m.box := by
  simp only [Node.box, Node.boxAs, h.id, h.kind.shape_eq, h.shownLabel_eq]

theorem Node.Alike.longLabel?_eq (h : n.Alike m) : Graph.longLabel? n = Graph.longLabel? m := by
  simp only [Graph.longLabel?, h.id, h.shownLabel_eq]

/-- The first nodes of an id are alike, if there are any. -/
theorem rel_find? (h : List.Forall₂ Node.Alike ns ms) (id : String) :
    Option.Rel Node.Alike (ns.find? (·.id = id)) (ms.find? (·.id = id)) := by
  induction h with
  | nil => exact .none
  | @cons n m ns ms hn _ ih =>
    by_cases hid : m.id = id
    · have hid' : n.id = id := hn.id.trans hid
      simpa [hid, hid'] using Option.Rel.some hn
    · have hid' : n.id ≠ id := fun heq => hid (hn.id.symm.trans heq)
      simpa [hid, hid'] using ih

end Nodes

/-! Edges -/

theorem Branch.label_eq_of_sameLabel {yesLabel noLabel yesLabel' noLabel' : Option String}
    (hyes : SameLabel yesLabel yesLabel') (hno : SameLabel noLabel noLabel') (branch : Branch) :
    branch.label yesLabel noLabel = branch.label yesLabel' noLabel' := by
  cases branch with
  | yes => exact congrArg (·.getD "Yes") hyes
  | no => exact congrArg (·.getD "No") hno

/-- What an edge shows as it leaves a node. -/
theorem Edge.Alike.shownLabel_eq {e f : Edge} {n m : Node} (he : e.Alike f) (hn : n.Alike m) :
    e.shownLabel n = f.shownLabel m := by
  have hlabel : e.label.filter (· ≠ "") = f.label.filter (· ≠ "") := he.label
  have hkind := hn.kind
  simp only [Edge.shownLabel, he.branch, hlabel]
  generalize n.kind = k at hkind
  generalize m.kind = l at hkind
  cases hkind with
  | decision hyes hno =>
    cases f.branch with
    | none => rfl
    | some branch => exact congrArg some (Branch.label_eq_of_sameLabel hyes hno branch)
  | _ => rfl

/-- For each edge in order, whether it is loose. -/
def Graph.loosePlaces (g : Graph) : List Bool := g.edges.map fun e => e ∈ g.looseEdges

theorem Graph.loosePlaces_eq_map (g : Graph) : g.loosePlaces = g.edges.map fun e => !g.joins e := by
  refine List.map_congr_left fun e he => ?_
  simp [mem_looseEdges, he]

namespace Graph.Alike

variable {g h : Graph}

theorem nodes_eq_nil_iff (hgh : g.Alike h) : g.nodes = [] ↔ h.nodes = [] := by
  rw [← List.length_eq_zero_iff, ← List.length_eq_zero_iff, hgh.nodes.length_eq]

theorem edges_eq_nil_iff (hgh : g.Alike h) : g.edges = [] ↔ h.edges = [] := by
  rw [← List.length_eq_zero_iff, ← List.length_eq_zero_iff, hgh.edges.length_eq]

theorem ids_eq (hgh : g.Alike h) : g.nodes.map (·.id) = h.nodes.map (·.id) :=
  map_eq_of_forall₂ Node.Alike.id hgh.nodes

theorem boxes_eq (hgh : g.Alike h) : g.boxes = h.boxes := by
  have hmap := map_eq_of_forall₂ (f := Node.box) (g := Node.box) Node.Alike.box_eq hgh.nodes
  rw [boxes_eq_eraseDups_map, boxes_eq_eraseDups_map, hmap]

theorem hasNode_eq (hgh : g.Alike h) (id : String) : g.hasNode id = h.hasNode id := by
  have hfind := rel_find? hgh.nodes id
  rw [← isSome_find?, ← isSome_find?, find?, find?]
  generalize g.nodes.find? _ = found at hfind
  generalize h.nodes.find? _ = found' at hfind
  cases hfind <;> rfl

theorem joins_eq (hgh : g.Alike h) {e f : Edge} (he : e.Alike f) : g.joins e = h.joins f := by
  rw [joins, joins, he.source, he.target, hgh.hasNode_eq, hgh.hasNode_eq]

theorem arrow?_eq (hgh : g.Alike h) {e f : Edge} (he : e.Alike f) : g.arrow? e = h.arrow? f := by
  have hsource := rel_find? hgh.nodes f.source
  have htarget := rel_find? hgh.nodes f.target
  simp only [arrow?_eq_find?, find?, he.source, he.target]
  generalize g.nodes.find? (·.id = f.source) = source at hsource
  generalize h.nodes.find? (·.id = f.source) = source' at hsource
  generalize g.nodes.find? (·.id = f.target) = target at htarget
  generalize h.nodes.find? (·.id = f.target) = target' at htarget
  cases hsource with
  | none => rfl
  | some hn =>
    cases htarget with
    | none => rfl
    | some hm => simp only [hn.id, hm.id, he.shownLabel_eq hn]

theorem arrows_eq (hgh : g.Alike h) : g.arrows = h.arrows :=
  filterMap_eq_of_forall₂ hgh.arrow?_eq hgh.edges

theorem sameDisplay (hgh : g.Alike h) (metadata : Option Metadata) (o : Options) :
    g.SameDisplay metadata o h metadata o where
  title := rfl
  direction := rfl
  nodes := hgh.nodes_eq_nil_iff
  boxes _ := hgh.boxes_eq
  edges _ := hgh.edges_eq_nil_iff
  arrows _ := hgh.arrows_eq
  description _ := rfl
  theme _ := rfl

/-- Loose edges stand in the same places. -/
theorem loosePlaces_eq (hgh : g.Alike h) : g.loosePlaces = h.loosePlaces := by
  rw [loosePlaces_eq_map, loosePlaces_eq_map]
  exact map_eq_of_forall₂ (fun he => by rw [hgh.joins_eq he]) hgh.edges

/-! The review -/

theorem isReferenced_eq (hgh : g.Alike h) (id : String) :
    g.isReferenced id = h.isReferenced id := by
  have hends : g.edges.map (fun e => decide (e.source = id) || decide (e.target = id)) =
      h.edges.map (fun e => decide (e.source = id) || decide (e.target = id)) :=
    map_eq_of_forall₂ (fun he => by rw [he.source, he.target]) hgh.edges
  have hany (g : Graph) : g.isReferenced id =
      (g.edges.map fun e => decide (e.source = id) || decide (e.target = id)).any (·) := by
    rw [List.any_map]
    rfl
  rw [hany, hany, hends]

theorem unconnectedIds_eq (hgh : g.Alike h) : g.unconnectedIds = h.unconnectedIds := by
  simp only [unconnectedIds, hgh.ids_eq, hgh.isReferenced_eq]

theorem remarks_eq (hgh : g.Alike h) : g.remarks = h.remarks := by
  have hlong : g.nodes.filterMap longLabel? = h.nodes.filterMap longLabel? :=
    filterMap_eq_of_forall₂ Node.Alike.longLabel?_eq hgh.nodes
  simp only [remarks, hgh.unconnectedIds_eq, hlong, List.isEmpty_iff, hgh.nodes_eq_nil_iff]

/-- Graphs that are alike have one text, whatever is told of them and however they are shown, and
one report, and the same of their edges are loose. -/
theorem text_report_loosePlaces_eq (hgh : g.Alike h) :
    (∀ metadata o, g.diagramText metadata o = h.diagramText metadata o) ∧
      g.review = h.review ∧ g.loosePlaces = h.loosePlaces :=
  ⟨fun metadata o => diagramText_eq_iff_sameDisplay.2 (hgh.sameDisplay metadata o),
    by rw [review, review, hgh.remarks_eq], hgh.loosePlaces_eq⟩

end Graph.Alike

namespace Graph

/-- A decision that leads to a service, which leads nowhere. -/
def bare : Graph where
  nodes := [.decision "d" "Go?", .process "p" "", .other "s" "service"]
  edges := [.ofBranch "d" "s" .yes, .between "s" "gone"]

/-- The same with all that is not read: positions, a description, attributes, another tag, ids and
a handle, and with empty labels in place of none. -/
def dressed : Graph where
  nodes :=
    [⟨"d", ⟨3, 4⟩, some "Go?", .decision (some "") none⟩,
      ⟨"p", ⟨1, 2⟩, none, .process (some "packs")⟩,
      ⟨"s", .origin, some "", .other "gateway" (.ofMembers [("port", .nat 80)])⟩]
  edges :=
    [⟨some "e", "d", "s", some "", some Branch.yes.handle⟩,
      ⟨some "f", "s", "gone", none, some "left"⟩]

theorem alike_bare_dressed : bare.Alike dressed where
  nodes :=
    .cons ⟨rfl, rfl, .decision rfl rfl⟩
      (.cons ⟨rfl, rfl, .process _ _⟩ (.cons ⟨rfl, rfl, .other _ _ _ _⟩ .nil))
  edges := .cons ⟨rfl, rfl, rfl, rfl⟩ (.cons ⟨rfl, rfl, rfl, by decide⟩ .nil)

theorem bare_dressed :
    bare.Alike dressed ∧ bare.edges ≠ dressed.edges ∧
      bare.diagramText none .default = dressed.diagramText none .default ∧
      bare.review = dressed.review ∧ dressed.loosePlaces = [false, true] := by
  obtain ⟨htext, hreview, hplaces⟩ := alike_bare_dressed.text_report_loosePlaces_eq
  refine ⟨alike_bare_dressed, by decide, htext none .default, hreview, ?_⟩
  rw [← hplaces]
  decide

end Graph

end FlowDiagram
