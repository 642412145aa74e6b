import FlowDiagram.Proofs.Document.RoundTrip
import FlowDiagram.Proofs.Json.Floats
/-! Documents that are saved are loaded again, and which ones are loaded as they were saved. -/

namespace FlowDiagram

open Json Calendar

/-! What a node needs to be loaded again, apart from its tag -/

theorem Node.IsSavable.isReadable {n : Node} (h : n.IsSavable) : n.IsReadable where
  x := Number.isSome_reread?_float h.position_finite.1
  y := Number.isSome_reread?_float h.position_finite.2
  extra m hm x hx := ((h.room m hm).finite x hx).isSome_reread?

/-- The numbers of the node can be printed, and no other attribute has the name of its label. -/
structure Node.IsPrintable (n : Node) : Prop where
  position_finite : n.position.IsFinite
  unlabelled : ∀ m ∈ n.kind.extra, m.1 ≠ "label"
  extra_finite : ∀ m ∈ n.kind.extra, ∀ x ∈ m.2.numbers, x.IsFinite

/-- The attributes are no deeper than a reader goes, with the document, its nodes, the node and its
data around them. -/
def Node.IsShallow (n : Node) : Prop := ∀ m ∈ n.kind.extra, m.2.depth + 4 ≤ maxDepth

theorem Node.isSavable_iff {n : Node} : n.IsSavable ↔ n.IsPrintable ∧ n.IsShallow := by
  constructor
  · intro h
    exact ⟨⟨h.position_finite, h.unlabelled, fun m hm => (h.room m hm).finite⟩,
      fun m hm => (h.room m hm).depth⟩
  · rintro ⟨hprintable, hshallow⟩
    exact ⟨hprintable.position_finite, hprintable.unlabelled,
      fun m hm => ⟨hshallow m hm, hprintable.extra_finite m hm⟩⟩

theorem Node.isShallow_reread {n : Node} : n.reread.IsShallow ↔ n.IsShallow := by
  obtain ⟨id, label, position, kind⟩ := n
  cases kind with
  | other tag extra =>
    have hextra : (Kind.other tag extra).reread.extra =
        extra.members.map fun m => (m.1, m.2.reread) := Tree.rereadMembers_eq_map _
    simp only [IsShallow, Node.reread, hextra, List.forall_mem_map, Tree.depth_reread]
    exact Iff.rfl
  | _ => exact Iff.rfl

namespace Document

structure IsPrintable (d : Document) : Prop where
  version : d.version = formatVersion
  nodes : ∀ n ∈ d.graph.nodes, n.IsPrintable

def IsShallow (d : Document) : Prop := ∀ n ∈ d.graph.nodes, n.IsShallow

theorem isSavable_iff {d : Document} : d.IsSavable ↔ d.IsPrintable ∧ d.IsShallow := by
  constructor
  · rintro ⟨hversion, hgraph⟩
    exact ⟨⟨hversion, fun n hn => (Node.isSavable_iff.1 (hgraph n hn)).1⟩,
      fun n hn => (Node.isSavable_iff.1 (hgraph n hn)).2⟩
  · rintro ⟨⟨hversion, hnodes⟩, hshallow⟩
    exact ⟨hversion, fun n hn => Node.isSavable_iff.2 ⟨hnodes n hn, hshallow n hn⟩⟩

theorem isShallow_reread {d : Document} : d.reread.IsShallow ↔ d.IsShallow := by
  simp only [IsShallow, Document.reread, Graph.reread, List.forall_mem_map, Node.isShallow_reread]

theorem isWellTagged_reread {d : Document} : d.reread.IsWellTagged ↔ d.IsWellTagged :=
  Graph.isWellTagged_reread

/-- Rereading leaves the stamp alone. -/
theorem leapsAtMinuteEnd_reread {d : Document} :
    d.reread.LeapsAtMinuteEnd ↔ d.LeapsAtMinuteEnd := Iff.rfl

/-- A document of one node without rules is well tagged if the tag of the node is its own. -/
theorem isWellTagged_of_nodes_eq {d : Document} {n : Node} {tag : String} {extra : Attributes}
    (hnodes : d.graph.nodes = [n]) (hkind : n.kind = .other tag extra)
    (h : tag ∉ Category.knownTags) : d.IsWellTagged := by
  rw [IsWellTagged, Graph.IsWellTagged, hnodes, List.forall_mem_singleton]
  intro _ _ hother
  obtain ⟨rfl, rfl⟩ := Kind.other.inj (hkind.symm.trans hother)
  exact h

theorem isReadable_of_isSavable {d : Document} (h : d.IsSavable) : d.IsReadable :=
  fun n hn => (h.graph n hn).isReadable

/-! Loading what was saved -/

theorem parse_render_of_isSavable {d : Document} (h : d.IsSavable) (htag : d.IsWellTagged) :
    parse d.render = .ok d.reread.restamped :=
  parse_render h htag (isReadable_of_isSavable h)

theorem parse_render_of_parse {s : String} {d : Document} (h : parse s = .ok d) :
    parse d.render = .ok d.reread := by
  obtain ⟨hsavable, htag⟩ := isSavable_of_parse h
  have hstamp := leapsAtMinuteEnd_reread.2 (leapsAtMinuteEnd_of_parse h)
  rw [parse_render_of_isSavable hsavable htag, restamped_eq_self_iff.2 hstamp]

/-- A stamp is read back with the rest. -/
theorem parse_render_stamp_of_parse {s : String} {d : Document} (h : parse s = .ok d)
    (now : Instant) : parse (d.stamp now).render = .ok (d.reread.stamp now.reread) := by
  obtain ⟨⟨hversion, hgraph⟩, htag⟩ := isSavable_of_parse h
  have hsavable : (d.stamp now).IsSavable := ⟨hversion, hgraph⟩
  exact parse_render_of_isSavable hsavable htag

theorem exists_parse_single {tag : String} (h : tag ∉ Category.knownTags) :
    ∃ s, parse s = .ok (single tag).reread :=
  ⟨_, parse_render_of_isSavable (isSavable_single tag) (isWellTagged_of_nodes_eq rfl rfl h)⟩

/-- What is saved is loaded but for its floats exactly if it is well tagged, is not stamped with a
leap second within a minute, and is not too deep for the reader. All that is ever loaded is so. -/
theorem parse_render_eq_reread_iff :
    (∀ d : Document, d.IsPrintable →
      (parse d.render = .ok d.reread ↔ d.IsWellTagged ∧ d.LeapsAtMinuteEnd ∧ d.IsShallow) ∧
      (¬ d.IsWellTagged → ∀ d', parse d.render = .ok d' → d' ≠ d ∧ d' ≠ d.reread)) ∧
    ∀ (s : String) (d : Document), parse s = .ok d →
      d.IsPrintable ∧ d.IsWellTagged ∧ d.LeapsAtMinuteEnd ∧ d.IsShallow ∧
        parse d.render = .ok d.reread := by
  constructor
  · intro d hprintable
    refine ⟨⟨fun h => ?_, ?_⟩, ?_⟩
    · obtain ⟨hsavable, htag⟩ := isSavable_of_parse h
      have hstamp := leapsAtMinuteEnd_reread.1 (leapsAtMinuteEnd_of_parse h)
      exact ⟨isWellTagged_reread.1 htag, hstamp,
        isShallow_reread.1 (isSavable_iff.1 hsavable).2⟩
    · rintro ⟨htag, hstamp, hshallow⟩
      rw [parse_render_of_isSavable (isSavable_iff.2 ⟨hprintable, hshallow⟩) htag,
        restamped_eq_self_iff.2 (leapsAtMinuteEnd_reread.2 hstamp)]
    · intro htag d' h
      have htag' := (isSavable_of_parse h).2
      constructor
      · rintro rfl
        exact htag htag'
      · rintro rfl
        exact htag (isWellTagged_reread.1 htag')
  · intro s d h
    obtain ⟨hsavable, htag⟩ := isSavable_of_parse h
    obtain ⟨hprintable, hshallow⟩ := isSavable_iff.1 hsavable
    exact ⟨hprintable, htag, leapsAtMinuteEnd_of_parse h, hshallow, parse_render_of_parse h⟩

/-- The same node is loaded with a tag of its own, and not with that of a start. -/
theorem parse_render_single :
    parse (single "note").render = .ok (single "note").reread ∧
      ∀ d, parse (single "start").render = .ok d → d ≠ single "start" := by
  have hround := parse_render_eq_reread_iff.1
  have hprintable tag : (single tag).IsPrintable := (isSavable_iff.1 (isSavable_single tag)).1
  constructor
  · have hunstamped : (single "note").LeapsAtMinuteEnd := fun i hi => by cases hi
    have hshallow := (isSavable_iff.1 (isSavable_single "note")).2
    have htag : (single "note").IsWellTagged := isWellTagged_of_nodes_eq rfl rfl (by decide)
    exact (hround _ (hprintable "note")).1.2 ⟨htag, hunstamped, hshallow⟩
  · intro d hd
    have hstart : ¬ (single "start").IsWellTagged := by
      intro htag
      exact absurd (htag _ List.mem_cons_self "start" _ rfl) (by decide)
    exact ((hround _ (hprintable "start")).2 hstart d hd).1

/-! Well-tagged documents that are not loaded as they were saved -/

/-- A leap second in the middle of a minute. -/
def leapWithinMinute : Instant :=
  ⟨⟨2015, 6, 30⟩, 23, 56, 4, 1333333333, by decide, by decide, by decide, by decide, by decide⟩

/-- Arrays within arrays. -/
def nested : Nat → Tree
  | 0 => .array []
  | n + 1 => .array [nested n]

theorem depth_nested (n : Nat) : (nested n).depth = n + 1 := by
  induction n with
  | zero => rfl
  | succ n ih => simp [nested, Tree.depth, Tree.itemsDepth, ih]

theorem numbers_nested (n : Nat) : (nested n).numbers = [] := by
  induction n with
  | zero => rfl
  | succ n ih => simp [nested, Tree.numbers, Tree.itemNumbers, ih]

theorem isSorted_nested (n : Nat) : (nested n).IsSorted := by
  induction n with
  | zero => trivial
  | succ n ih => exact ⟨ih, trivial⟩

/-- A document of one node without rules, with an attribute that is so many arrays deep. -/
def deep (levels : Nat) : Document :=
  let attributes : Attributes :=
    ⟨[("levels", nested levels)], List.pairwise_singleton _ _, isSorted_nested levels, trivial⟩
  .new .blank ⟨[⟨"a", ⟨0, 0⟩, none, .other "note" attributes⟩], []⟩

theorem isPrintable_deep (levels : Nat) : (deep levels).IsPrintable where
  version := rfl
  nodes := by
    have hzero : Float.isFinite 0 = true := by decide +kernel
    have hname : "levels" ≠ "label" := by decide
    refine List.forall_mem_singleton.2 ⟨⟨hzero, hzero⟩, List.forall_mem_singleton.2 hname, ?_⟩
    refine List.forall_mem_singleton.2 ?_
    simp only [numbers_nested, List.not_mem_nil, false_imp_iff, implies_true]

theorem isShallow_deep_iff {levels : Nat} : (deep levels).IsShallow ↔ levels + 5 ≤ maxDepth := by
  have hdepth := depth_nested levels
  constructor
  · intro h
    have hlevels := h _ List.mem_cons_self _ List.mem_cons_self
    rw [hdepth] at hlevels
    exact hlevels
  · intro h
    refine List.forall_mem_singleton.2 (List.forall_mem_singleton.2 ?_)
    rw [hdepth]
    exact h

/-- A leap second within a minute is loaded as the second after it. An attribute that is not too
deep for the reader by itself may be so within its document. -/
theorem parse_render_ne_reread_leapWithinMinute_deep :
    let leaping := (single "note").stamp leapWithinMinute
    leaping.IsSavable ∧ leaping.IsWellTagged ∧
      parse leaping.render = .ok (leaping.reread.stamp leapWithinMinute.reread) ∧
      leapWithinMinute.reread ≠ leapWithinMinute ∧ parse leaping.render ≠ .ok leaping.reread ∧
    (deep 123).IsPrintable ∧ (deep 123).IsWellTagged ∧ (deep 123).savedAt = none ∧
      (∀ n ∈ (deep 123).graph.nodes, ∀ m ∈ n.kind.extra, m.2.depth ≤ maxDepth) ∧
      parse (deep 123).render ≠ .ok (deep 123).reread := by
  intro leaping
  have hsavable : leaping.IsSavable := ⟨rfl, (isSavable_single "note").graph⟩
  have htag : leaping.IsWellTagged := isWellTagged_of_nodes_eq rfl rfl (by decide)
  have hparse := parse_render_of_isSavable hsavable htag
  have hleap : ¬ leapWithinMinute.LeapsAtMinuteEnd := by decide
  refine ⟨hsavable, htag, hparse, mt Instant.reread_eq_self_iff.1 hleap, ?_,
    isPrintable_deep 123, isWellTagged_of_nodes_eq rfl rfl (by decide), rfl, ?_, ?_⟩
  · rw [hparse]
    intro h
    have hstamp := restamped_eq_self_iff.1 (Except.ok.inj h)
    exact hleap (hstamp _ rfl)
  · refine List.forall_mem_singleton.2 (List.forall_mem_singleton.2 ?_)
    rw [depth_nested]
    decide
  · intro h
    have hshallow := (isSavable_iff.1 (isSavable_of_parse h).1).2
    exact absurd (isShallow_deep_iff.1 (isShallow_reread.1 hshallow)) (by decide)

end Document

end FlowDiagram
