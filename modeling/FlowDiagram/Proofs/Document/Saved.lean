import FlowDiagram.Document.Basic
import FlowDiagram.Proofs.Calendar.InstantText
import FlowDiagram.Proofs.Codec.Graph
/-! Documents that are saved are read back if their nodes are well tagged. -/

namespace FlowDiagram

open Json Calendar

namespace Graph

theorem depth_nodesTree_le {g : Graph} (h : g.IsSavable) : g.nodesTree.depth + 1 ≤ maxDepth := by
  have hmax : 4 ≤ maxDepth := by decide
  have hnodes : Tree.itemsDepth (g.nodes.map Node.toTree) ≤ maxDepth - 4 + 2 := by
    refine Tree.itemsDepth_le_iff.2 fun x hx => ?_
    obtain ⟨n, hn, rfl⟩ := List.mem_map.1 hx
    refine Node.depth_toTree_le fun m hm => ?_
    have hextra := ((h n hn).room m hm).depth
    omega
  simp only [nodesTree, Tree.depth]
  omega

theorem depth_edgesTree_le (g : Graph) : g.edgesTree.depth + 1 ≤ maxDepth := by
  have hmax : 3 ≤ maxDepth := by decide
  have hedges : Tree.itemsDepth (g.edges.map Edge.toTree) ≤ 1 := by
    refine Tree.itemsDepth_le_iff.2 fun x hx => ?_
    obtain ⟨⟨id, source, target, label, sourceHandle⟩, -, rfl⟩ := List.mem_map.1 hx
    cases id <;> cases label <;> cases sourceHandle <;> exact Nat.le_refl 1
  simp only [edgesTree, Tree.depth]
  omega

theorem isReadable_nodesTree {g : Graph} (h : g.IsReadable) : g.nodesTree.IsReadable := by
  intro x hx
  obtain ⟨t, ht, hx⟩ := Tree.mem_itemNumbers.1 hx
  obtain ⟨n, hn, rfl⟩ := List.mem_map.1 ht
  exact Node.isReadable_toTree (h n hn) x hx

theorem numbers_edgesTree (g : Graph) : g.edgesTree.numbers = [] := by
  refine List.eq_nil_iff_forall_not_mem.2 fun x hx => ?_
  obtain ⟨t, ht, hx⟩ := Tree.mem_itemNumbers.1 hx
  obtain ⟨⟨id, source, target, label, sourceHandle⟩, -, rfl⟩ := List.mem_map.1 ht
  cases id <;> cases label <;> cases sourceHandle <;> cases hx

end Graph

theorem Metadata.numbers_toTree (m : Metadata) : m.toTree.numbers = [] := by
  obtain ⟨title, description⟩ := m
  cases title <;> cases description <;> rfl

namespace Document

def IsWellTagged (d : Document) : Prop := d.graph.IsWellTagged

structure IsSavable (d : Document) : Prop where
  version : d.version = formatVersion
  graph : d.graph.IsSavable

def IsReadable (d : Document) : Prop := d.graph.IsReadable

/-- The document with every float as it is reread. -/
def reread (d : Document) : Document := { d with graph := d.graph.reread }

/-- The document with the time of its stamp as it is reread. -/
def restamped (d : Document) : Document := { d with savedAt := d.savedAt.map Instant.reread }

/-- If the stamp is in a leap second, then in one at the end of a minute. -/
def LeapsAtMinuteEnd (d : Document) : Prop := ∀ i ∈ d.savedAt, i.LeapsAtMinuteEnd

theorem restamped_eq_self_iff {d : Document} : d.restamped = d ↔ d.LeapsAtMinuteEnd := by
  obtain ⟨version, metadata, graph, savedAt⟩ := d
  cases savedAt with
  | none => simp [restamped, LeapsAtMinuteEnd]
  | some i => simp [restamped, LeapsAtMinuteEnd, Instant.reread_eq_self_iff]

/-- The numbers of a document are its version, which is whole, and those of its nodes. -/
theorem isReadable_toTree {d : Document} (h : d.IsReadable) : d.toTree.IsReadable := by
  obtain ⟨version, metadata, graph, savedAt⟩ := d
  have hversion : (Tree.nat version.toNat).IsReadable := by
    have hlt := version.toNat_lt
    have hread : (Number.ofNat version.toNat).reread? = some (.ofNat version.toNat) :=
      Number.reread?_ofNat (by omega)
    simp only [Tree.IsReadable, Tree.nat, Tree.numbers, List.forall_mem_singleton, hread,
      Option.isSome_some]
  have hsavedAt : ∀ m ∈ savedAtMember savedAt, m.2.numbers = [] := by
    cases savedAt <;> simp [savedAtMember, Tree.numbers]
  intro x hx
  obtain ⟨m, hm, hx⟩ := Tree.mem_memberNumbers.1 hx
  simp only [Graph.members, List.mem_append, List.mem_cons, List.not_mem_nil, or_false] at hm
  rcases hm with ((rfl | rfl) | rfl | rfl) | hm
  · exact hversion x hx
  · rw [metadata.numbers_toTree] at hx
    cases hx
  · exact Graph.isReadable_nodesTree h x hx
  · have hedges := graph.numbers_edgesTree
    rw [Graph.edgesTree] at hedges
    rw [hedges] at hx
    cases hx
  · rw [hsavedAt m hm] at hx
    cases hx

theorem hold_ofTree (name : String) {t : Tree} (h : t.depth + 1 ≤ maxDepth) (d : Draft) :
    hold (.text 1) name (.ofTree t.reread) d =
      .ok { d with held := d.held ++ [(.ok name, .ofTree t.reread)] } := by
  have htree : Decoder.tree (.text 1) (.ofTree t.reread) = .ok t.reread := by
    refine (Decoder.tree_eq_ok_iff _ _ _).2 ⟨rfl, ?_⟩
    rw [Tree.depth_reread]
    exact Nat.le_sub_of_add_le h
  simp only [hold, htree, ok_bind]
  rfl

theorem instantDecoder_print (o : Origin) (i : Instant) :
    instantDecoder o (.ofTree (.text (String.ofList i.print))) = .ok i.reread := by
  simp only [instantDecoder, Reading.ofTree, Decoder.textFor, ok_bind, String.toList_ofList,
    Instant.read_print]
  rfl

theorem read_savedAt (i : Instant) :
    (Field.allow "savedAt" (.optional instantDecoder) fun savedAt (d : Draft) =>
      { d with savedAt }).read (.text 1) (.ofTree (.text (String.ofList i.print))) =
        .ok fun d => { d with savedAt := some i.reread } := by
  have hinstant := instantDecoder_print (.text 1) i
  simp only [Reading.ofTree] at hinstant
  simp only [Field.allow, Decoder.map, Decoder.optional, Reading.ofTree, hinstant, Except.map]

theorem readMembers_savedAt (savedAt : Option Instant) (d : Draft) (h : d.savedAt = none) :
    ∃ seen, draftRecord.readMembers hold (.text 1)
      (Reading.ofMembers (Tree.rereadMembers (savedAtMember savedAt))) ["metadata", "version"] d =
        .ok (seen, { d with savedAt := savedAt.map Instant.reread }) := by
  cases savedAt with
  | none =>
    refine ⟨["metadata", "version"], ?_⟩
    obtain ⟨version, metadata, _, held⟩ := d
    cases h
    rfl
  | some i =>
    refine ⟨["savedAt", "metadata", "version"], ?_⟩
    simp only [savedAtMember, Tree.rereadMembers, Tree.reread, Scalar.reread, Reading.ofMembers]
    rw [Record.readMembers_field rfl (by decide) (read_savedAt i), Record.readMembers,
      Option.map_some]

/-- What is read of a saved document before its graph is looked at. -/
theorem draft_toTree {d : Document} (h : d.IsSavable) :
    draftRecord.decodeOpen hold (.text 0) (.ofTree d.toTree.reread) =
      .ok ⟨d.version, d.metadata, d.savedAt.map Instant.reread,
        [(.ok "nodes", .ofTree d.graph.nodesTree.reread),
          (.ok "edges", .ofTree d.graph.edgesTree.reread)]⟩ := by
  obtain ⟨version, metadata, graph, savedAt⟩ := d
  obtain ⟨rfl, hgraph⟩ := h
  have hmetadata : (Field.allow "metadata" Metadata.decoder fun metadata (d : Draft) =>
      { d with metadata }).read (.text 1) (.ofTree metadata.toTree.reread) =
        .ok fun d => { d with metadata } := Field.read_allow _ metadata.decoder_toTree
  have hnodes := hold_ofTree "nodes" (Graph.depth_nodesTree_le hgraph)
  have hedges := hold_ofTree "edges" graph.depth_edgesTree_le
  obtain ⟨seen, hsavedAt⟩ := readMembers_savedAt savedAt ⟨formatVersion, metadata, none,
    [(.ok "nodes", .ofTree graph.nodesTree.reread),
      (.ok "edges", .ofTree graph.edgesTree.reread)]⟩ rfl
  have hread : draftRecord.readMembers hold (.text 1)
      ((.ok "version", .ofTree (Tree.nat 1).reread) ::
        (.ok "metadata", .ofTree metadata.toTree.reread) ::
        (.ok "nodes", .ofTree graph.nodesTree.reread) ::
        (.ok "edges", .ofTree graph.edgesTree.reread) ::
        Reading.ofMembers (Tree.rereadMembers (savedAtMember savedAt))) [] draftRecord.blank =
      .ok (seen, ⟨formatVersion, metadata, savedAt.map Instant.reread,
        [(.ok "nodes", .ofTree graph.nodesTree.reread),
          (.ok "edges", .ofTree graph.edgesTree.reread)]⟩) := by
    rw [Record.readMembers_field rfl (by decide) rfl,
      Record.readMembers_field rfl (by decide) hmetadata, Record.readMembers_rest rfl (hnodes _),
      Record.readMembers_rest rfl (hedges _)]
    exact hsavedAt
  have hmissing : draftRecord.missing? seen = none := by
    simp [Record.missing?, draftRecord, Field.allow]
  exact Record.readObject_of_readMembers rfl hread hmissing

theorem decoder_toTree {d : Document} (h : d.IsSavable) (htag : d.IsWellTagged) :
    decoder (.text 0) (.ofTree d.toTree.reread) = .ok d.reread.restamped := by
  have hgraph := Graph.decoder_members htag h.graph
  simp only [decoder, draft_toTree h, ok_bind, hgraph]
  rfl

/-- A well-tagged document is loaded as it was saved, but for its floats and a leap second within a
minute. -/
theorem parse_render {d : Document} (h : d.IsSavable) (htag : d.IsWellTagged)
    (hreadable : d.IsReadable) : parse d.render = .ok d.reread.restamped := by
  have hversion : d.reread.restamped.version = formatVersion := h.version
  have hrun : decoder.run d.render = .ok d.reread.restamped := by
    rw [Decoder.run, render, Reading.ofText_toPretty (isReadable_toTree hreadable)]
    exact bind_eq_ok_iff.2 ⟨_, decoder_toTree h htag, rfl⟩
  rw [parse, hrun]
  exact if_pos hversion

end Document

end FlowDiagram
