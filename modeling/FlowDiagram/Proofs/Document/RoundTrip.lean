import FlowDiagram.Proofs.Document.Saved
/-! Documents that are loaded can be saved and loaded again, and only well-tagged ones are loaded. -/

namespace FlowDiagram

open Json Calendar

theorem Node.isWellTagged_reread {n : Node} : n.reread.IsWellTagged ↔ n.IsWellTagged := by
  obtain ⟨id, label, position, kind⟩ := n
  cases kind with
  | other tag extra =>
    constructor
    · rintro h _ _ ⟨rfl, rfl⟩
      exact h tag extra.reread rfl
    · rintro h _ _ ⟨rfl, rfl⟩
      exact h tag extra rfl
  | _ => exact Iff.rfl

theorem Graph.isWellTagged_reread {g : Graph} : g.reread.IsWellTagged ↔ g.IsWellTagged := by
  simp only [IsWellTagged, reread, List.forall_mem_map, Node.isWellTagged_reread]

namespace Document

/-- What is held back for the graph is a tree at its place in a text. -/
theorem held_of_decodeOpen {r : Reading} {d : Draft} (hr : r.IsFinite)
    (h : draftRecord.decodeOpen hold (.text 0) r = .ok d) :
    ∀ m ∈ d.held, ∃ t, m.2 = .ofTree t ∧ t.HasRoom 1 := by
  cases r with
  | scalar s => cases h
  | fault f => cases h
  | array items ending => cases h
  | object members ending =>
    have hmembers := Reading.isFinite_object.1 hr
    refine Record.readObject_induction
      (fun d => ∀ m ∈ d.held, ∃ t, m.2 = .ofTree t ∧ t.HasRoom 1) h ?_ ?_ ?_
    · intro m hm
      cases hm
    · intro inner _ f hf y hy set d hset hd
      simp only [draftRecord, List.mem_cons, List.not_mem_nil, or_false] at hf
      rcases hf with rfl | rfl | rfl
      all_goals
        obtain ⟨value, -, rfl⟩ := map_eq_ok_iff.1 hset
        exact hd
    · intro inner henter k x d e hx _ hrest hd
      cases henter
      obtain ⟨t, ht, hset⟩ := bind_eq_ok_iff.1 hrest
      cases hset
      obtain ⟨rfl, hdepth⟩ := (Decoder.tree_eq_ok_iff _ _ _).1 ht
      intro m hm
      rcases List.mem_append.1 hm with hm | hm
      · exact hd m hm
      · obtain rfl := List.mem_singleton.1 hm
        have hfinite := hmembers _ hx
        rw [Reading.IsFinite, Reading.numbers_ofTree] at hfinite
        have hlevel : t.depth ≤ maxDepth - 1 := hdepth
        have hmax : 1 ≤ maxDepth := by decide
        exact ⟨t, rfl, by omega, hfinite⟩

/-- What is read of a document before its graph is looked at. -/
theorem exists_draft_of_run {s : String} {d : Document} (h : decoder.run s = .ok d) :
    ∃ draft, draftRecord.decodeOpen hold (.text 0) (Reading.ofText s).1 = .ok draft ∧
      Graph.decoder .kept (.object draft.held none) = .ok d.graph ∧ draft.savedAt = d.savedAt := by
  obtain ⟨d', hdecode, hend⟩ := bind_eq_ok_iff.1 h
  obtain ⟨draft, hdraft, hfinish⟩ := bind_eq_ok_iff.1 hdecode
  obtain ⟨graph, hgraph, hd⟩ := bind_eq_ok_iff.1 hfinish
  cases hd
  split at hend
  · cases hend
  · cases hend
    exact ⟨draft, hdraft, hgraph, rfl⟩

theorem run_of_parse {s : String} {d : Document} (h : parse s = .ok d) :
    decoder.run s = .ok d ∧ d.version = formatVersion := by
  rw [parse] at h
  split at h
  · cases h
  · rename_i hrun
    split at h
    · rename_i hversion
      cases h
      exact ⟨hrun, hversion⟩
    · cases h

/-- A loaded document is well tagged and can be saved again. -/
theorem isSavable_of_parse {s : String} {d : Document} (h : parse s = .ok d) :
    d.IsSavable ∧ d.IsWellTagged := by
  obtain ⟨hrun, hversion⟩ := run_of_parse h
  obtain ⟨draft, hdraft, hgraph, -⟩ := exists_draft_of_run hrun
  have hheld := held_of_decodeOpen (Reading.isFinite_ofText s) hdraft
  obtain ⟨htag, hsavable⟩ := Graph.isSavable_of_decoder hgraph hheld
  exact ⟨⟨hversion, hsavable⟩, htag⟩

theorem leapsAtMinuteEnd_of_instantDecoder {o : Origin} {r : Reading} {i : Instant}
    (h : instantDecoder o r = .ok i) : i.LeapsAtMinuteEnd := by
  obtain ⟨s, -, h⟩ := bind_eq_ok_iff.1 h
  split at h
  · rename_i hread
    cases h
    exact Instant.leapsAtMinuteEnd_of_read hread
  · cases h

theorem leapsAtMinuteEnd_of_optional {o : Origin} {r : Reading} {savedAt : Option Instant}
    (h : Decoder.optional instantDecoder o r = .ok savedAt) :
    ∀ i ∈ savedAt, i.LeapsAtMinuteEnd := by
  intro i hi
  unfold Decoder.optional at h
  split at h
  · cases h
    cases hi
  · obtain ⟨j, hj, rfl⟩ := map_eq_ok_iff.1 h
    cases hi
    exact leapsAtMinuteEnd_of_instantDecoder hj

theorem leapsAtMinuteEnd_of_decodeOpen {r : Reading} {d : Draft}
    (h : draftRecord.decodeOpen hold (.text 0) r = .ok d) :
    ∀ i ∈ d.savedAt, i.LeapsAtMinuteEnd := by
  cases r with
  | scalar s => cases h
  | fault f => cases h
  | array items ending => cases h
  | object members ending =>
    refine Record.readObject_induction
      (fun d => ∀ i ∈ d.savedAt, i.LeapsAtMinuteEnd) h ?_ ?_ ?_
    · intro i hi
      cases hi
    · intro inner _ f hf y hy set d hset hd
      simp only [draftRecord, List.mem_cons, List.not_mem_nil, or_false] at hf
      rcases hf with rfl | rfl | rfl
      · obtain ⟨value, -, rfl⟩ := map_eq_ok_iff.1 hset
        exact hd
      · obtain ⟨value, -, rfl⟩ := map_eq_ok_iff.1 hset
        exact hd
      · obtain ⟨value, hvalue, rfl⟩ := map_eq_ok_iff.1 hset
        exact leapsAtMinuteEnd_of_optional hvalue
    · intro inner _ k x d e _ _ hrest hd
      obtain ⟨t, -, hset⟩ := bind_eq_ok_iff.1 hrest
      cases hset
      exact hd

/-- The stamp of a loaded document is one that is read back as it is printed. -/
theorem leapsAtMinuteEnd_of_parse {s : String} {d : Document} (h : parse s = .ok d) :
    d.LeapsAtMinuteEnd := by
  obtain ⟨draft, hdraft, -, hsavedAt⟩ := exists_draft_of_run (run_of_parse h).1
  intro i hi
  exact leapsAtMinuteEnd_of_decodeOpen hdraft i (hsavedAt ▸ hi)

/-- A document of one node that has no rules, with one attribute besides its label. -/
def single (tag : String) : Document :=
  .new .blank ⟨[⟨"a", ⟨1.5, -2⟩, some "A", .other tag (.ofMembers [("size", .float 0.25)])⟩], []⟩

theorem isSavable_single (tag : String) : (single tag).IsSavable := by
  have hx : Float.isFinite 1.5 = true := by decide +kernel
  have hy : Float.isFinite (-2) = true := by decide +kernel
  have hsize : Float.isFinite 0.25 = true := by decide +kernel
  have hunlabelled : ∀ m ∈ [("size", Tree.float 0.25)], m.1 ≠ "label" :=
    List.forall_mem_singleton.2 (by decide)
  have hroom : ∀ m ∈ [("size", Tree.float 0.25)], m.2.HasRoom 4 :=
    List.forall_mem_singleton.2 ⟨by decide, List.forall_mem_singleton.2 hsize⟩
  exact ⟨rfl, List.forall_mem_singleton.2 ⟨⟨hx, hy⟩, hunlabelled, hroom⟩⟩

end Document

end FlowDiagram
