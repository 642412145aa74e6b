import FlowDiagram.Review.Remark
import Mathlib.Data.List.Basic
/-! What is remarked on in a review. Of the edges nothing counts but the ids that they mention. -/

namespace FlowDiagram

/-- An edge starts or ends at the id, whether or not there is a node of it. -/
def Mentions (edges : List Edge) (id : String) : Prop :=
  ∃ e ∈ edges, e.source = id ∨ e.target = id

instance (edges : List Edge) : DecidablePred (Mentions edges) :=
  fun id => inferInstanceAs (Decidable (∃ e ∈ edges, e.source = id ∨ e.target = id))

theorem Mentions.mono {edges more : List Edge} {id : String} (hmore : edges ⊆ more)
    (h : Mentions edges id) : Mentions more id := by
  obtain ⟨e, he, hid⟩ := h
  exact ⟨e, hmore he, hid⟩

/-- Whether a remark tells of nodes without edges. -/
def Remark.isUnconnected : Remark → Bool
  | .unconnected _ => true
  | _ => false

namespace Graph

variable (g : Graph)

/-- The nodes whose ids no edge mentions. Each node of an id is one of them, or none is. -/
def unconnectedNodes : List Node := g.nodes.filter fun n => ¬Mentions g.edges n.id

/-- What is remarked on in the graph as a whole. -/
def structureRemarks : List Remark :=
  if g.nodes = [] then [.noNodes]
  else if g.unconnectedNodes = [] then []
  else [.unconnected g.unconnectedNodes.length]

/-- What is remarked on in single nodes. -/
def labelRemarks : List Remark :=
  (g.nodes.filter fun n => maxLabelLength < Label.length n.shownLabel).map fun n =>
    .longLabel n.id (Label.length n.shownLabel)

theorem isReferenced_eq_true_iff (id : String) :
    g.isReferenced id = true ↔ Mentions g.edges id := by
  simp [isReferenced, Mentions]

theorem unconnectedIds_eq_map : g.unconnectedIds = g.unconnectedNodes.map (·.id) := by
  rw [unconnectedIds, unconnectedNodes, List.filter_map]
  congr 1
  apply List.filter_congr
  intro n _
  have hiff := g.isReferenced_eq_true_iff n.id
  by_cases h : Mentions g.edges n.id <;> simp_all

theorem filterMap_longLabel? : g.nodes.filterMap longLabel? = g.labelRemarks := by
  unfold labelRemarks
  induction g.nodes with
  | nil => rfl
  | cons n nodes ih =>
    by_cases h : maxLabelLength < Label.length n.shownLabel
    · simp [longLabel?, h, ih]
    · simp [longLabel?, h, ih]

/-- First the graph as a whole, then single nodes. -/
theorem remarks_eq_append : g.remarks = g.structureRemarks ++ g.labelRemarks := by
  unfold remarks structureRemarks
  rw [filterMap_longLabel?, unconnectedIds_eq_map, List.length_map]
  by_cases hnodes : g.nodes = []
  · simp [hnodes, unconnectedNodes]
  · by_cases hall : g.unconnectedNodes = []
    · simp [hnodes, hall]
    · simp [hnodes, hall, List.length_pos_iff.2 hall]

theorem isUnconnected_labelRemarks {r : Remark} (h : r ∈ g.labelRemarks) :
    r.isUnconnected = false := by
  obtain ⟨n, -, rfl⟩ := List.mem_map.1 h
  rfl

/-- The remark on nodes without edges, and how many they are. -/
theorem unconnected_mem_remarks {count : Nat} :
    .unconnected count ∈ g.remarks ↔
      g.unconnectedNodes ≠ [] ∧ count = g.unconnectedNodes.length := by
  have hlabel : .unconnected count ∉ g.labelRemarks := by
    intro h
    cases g.isUnconnected_labelRemarks h
  rw [remarks_eq_append, List.mem_append, structureRemarks]
  by_cases hnodes : g.nodes = []
  · simp [hnodes, hlabel, unconnectedNodes]
  · by_cases hall : g.unconnectedNodes = []
    · simp [hnodes, hall, hlabel]
    · simp [hnodes, hall, hlabel]

theorem filter_not_isUnconnected_remarks :
    (g.remarks.filter fun r => !r.isUnconnected) =
      (if g.nodes = [] then [.noNodes] else []) ++ g.labelRemarks := by
  have hlabel : (g.labelRemarks.filter fun r => !r.isUnconnected) = g.labelRemarks := by
    apply List.filter_eq_self.2
    intro r hr
    simp [g.isUnconnected_labelRemarks hr]
  rw [remarks_eq_append, List.filter_append, hlabel, structureRemarks]
  by_cases hnodes : g.nodes = []
  · simp [hnodes, Remark.isUnconnected]
  · by_cases hall : g.unconnectedNodes = []
    · simp [hnodes, hall]
    · simp [hnodes, hall, Remark.isUnconnected]

/-! Other edges -/

variable {g}

theorem remarks_of_mentions_iff {edges : List Edge}
    (h : ∀ id, Mentions edges id ↔ Mentions g.edges id) :
    { g with edges }.remarks = g.remarks := by
  have hnodes : { g with edges }.unconnectedNodes = g.unconnectedNodes := by
    simp only [unconnectedNodes, h]
  simp only [remarks_eq_append, structureRemarks, hnodes]
  rfl

/-- The more edges there are, the fewer nodes are without. -/
theorem unconnectedNodes_sublist {edges : List Edge} (h : g.edges ⊆ edges) :
    { g with edges }.unconnectedNodes.Sublist g.unconnectedNodes := by
  apply List.monotone_filter_right
  intro n hn
  simp only [decide_eq_true_eq] at hn ⊢
  intro hmentions
  exact hn (hmentions.mono h)

variable (g)

/-- Without nodes the only remark is on that. Otherwise there is one on the nodes without edges if
there are any, with their number, and then one on each node with a label of more than fifty
characters. Edges that mention the same ids make no difference, and with more edges there are at
most as many nodes without, and all other remarks as before. Each remark is a warning, in the same
order, and none is an error. -/
theorem remarks_exact_of_mentions :
    (g.nodes = [] → g.remarks = [.noNodes]) ∧
    (g.nodes ≠ [] →
      g.remarks =
        (if ∃ n ∈ g.nodes, ¬Mentions g.edges n.id then
          [.unconnected (g.nodes.filter fun n => ¬Mentions g.edges n.id).length]
        else []) ++
          (g.nodes.filter fun n => 50 < n.shownLabel.toList.length).map fun n =>
            .longLabel n.id n.shownLabel.toList.length) ∧
    (∀ edges, (∀ id, Mentions edges id ↔ Mentions g.edges id) →
      { g with edges }.remarks = g.remarks ∧ { g with edges }.review = g.review) ∧
    (∀ edges, g.edges ⊆ edges →
      (∀ count, .unconnected count ∈ { g with edges }.remarks →
        ∃ before, .unconnected before ∈ g.remarks ∧ count ≤ before) ∧
      ({ g with edges }.remarks.filter fun r => !r.isUnconnected) =
        g.remarks.filter fun r => !r.isUnconnected) ∧
    g.review.isValid = true ∧ g.review.errors = [] ∧
    g.review.warnings = g.remarks.map Remark.message := by
  refine ⟨?_, ?_, ?_, ?_, rfl, rfl, rfl⟩
  · intro hnodes
    simp [remarks_eq_append, structureRemarks, labelRemarks, hnodes]
  · intro hnodes
    have hsome : (∃ n ∈ g.nodes, ¬Mentions g.edges n.id) ↔ g.unconnectedNodes ≠ [] := by
      simp [unconnectedNodes, List.filter_eq_nil_iff]
    rw [remarks_eq_append, structureRemarks, if_neg hnodes]
    by_cases hall : g.unconnectedNodes = []
    · rw [if_pos hall, if_neg fun h => hsome.1 h hall]
      rfl
    · rw [if_neg hall, if_pos (hsome.2 hall)]
      rfl
  · intro edges h
    have hremarks := remarks_of_mentions_iff h
    exact ⟨hremarks, by rw [review, review, hremarks]⟩
  · intro edges h
    refine ⟨?_, ?_⟩
    · intro count hcount
      obtain ⟨hsome, rfl⟩ := (unconnected_mem_remarks _).1 hcount
      have hsub := unconnectedNodes_sublist h
      refine ⟨_, g.unconnected_mem_remarks.2 ⟨?_, rfl⟩, hsub.length_le⟩
      intro hnone
      rw [hnone] at hsub
      exact hsome (List.sublist_nil.1 hsub)
    · simp only [filter_not_isUnconnected_remarks]
      rfl

/-- Two nodes of one id, one of them with a long label, and an edge that leads nowhere. -/
def halfJoined : Graph where
  nodes :=
    [.start "s", .process "p" (String.ofList (List.replicate 51 'x')), .connector "p", .finish "e"]
  edges := [.between "s" "gone"]

theorem remarks_halfJoined :
    halfJoined.nodes ≠ [] ∧
      halfJoined.remarks = [.unconnected 3, .longLabel "p" 51] ∧
      { halfJoined with edges := [.between "gone" "s"] }.review = halfJoined.review ∧
      ∀ count,
        .unconnected count ∈
          { halfJoined with edges := [.between "s" "gone", .between "p" "e"] }.remarks →
        count ≤ 3 := by
  have hnodes : halfJoined.nodes ≠ [] := List.cons_ne_nil _ _
  obtain ⟨-, hremarks, hmentions, hmore, -⟩ := halfJoined.remarks_exact_of_mentions
  have hfound : halfJoined.remarks = [.unconnected 3, .longLabel "p" 51] := by
    rw [hremarks hnodes]
    decide +kernel
  refine ⟨hnodes, hfound, (hmentions [.between "gone" "s"] fun id => ?_).2, fun count hcount => ?_⟩
  · simp [Mentions, halfJoined, Edge.between, or_comm]
  · obtain ⟨before, hbefore, hle⟩ :=
      (hmore [.between "s" "gone", .between "p" "e"] (by simp [halfJoined])).1 count hcount
    rw [hfound] at hbefore
    simp only [List.mem_cons, Remark.unconnected.injEq, reduceCtorEq, List.not_mem_nil,
      or_false] at hbefore
    omega

end Graph

end FlowDiagram
