import FlowDiagram.Document.Basic
import FlowDiagram.Proofs.Json.RecordOrder
/-! Documents do not depend on the order of members in their texts. -/

namespace FlowDiagram

open Json Calendar

/-! Nodes -/

theorem Position.record_orderFree : record.OrderFree Eq := by
  refine .of_eq ?_ (List.pairwise_pair.2 (Field.commute_of_set fun _ _ _ => rfl))
  simp only [record, List.forall_mem_cons]
  refine ⟨?_, ?_, List.forall_mem_nil _⟩ <;>
    exact Field.orderFree_of_eq (fun _ => rfl) Decoder.orderFree_float

namespace Node

/-- Drafts that differ at most in the order of members in their attributes. -/
structure Draft.Alike (d e : Draft) : Prop where
  id : d.id = e.id
  tag : d.tag = e.tag
  position : d.position = e.position
  data : d.data.sorted = e.data.sorted

theorem Draft.Alike.refl (d : Draft) : d.Alike d := ⟨rfl, rfl, rfl, rfl⟩

/-- The attributes are sorted before they are looked at. -/
theorem Draft.Alike.finish_eq {d e : Draft} (h : d.Alike e) : d.finish = e.finish := by
  have hnull : d.data = .null ↔ e.data = .null := by
    rw [← Tree.sorted_eq_null_iff, h.data, Tree.sorted_eq_null_iff]
  have hdata : (if d.data = .null then Tree.object [] else d.data).sorted =
      (if e.data = .null then Tree.object [] else e.data).sorted := by
    by_cases hd : d.data = .null
    · rw [if_pos hd, if_pos (hnull.1 hd)]
    · rw [if_neg hd, if_neg fun he => hd (hnull.2 he), h.data]
  simp only [Draft.finish, hdata, h.id, h.tag, h.position]

theorem draftRecord_orderFree : draftRecord.OrderFree Draft.Alike where
  refl := Draft.Alike.refl
  read := by
    have hposition : Position.decoder.OrderFree Eq := Position.record_orderFree.decode
    simp only [draftRecord, List.forall_mem_cons]
    refine ⟨?_, ?_, ?_, ?_, List.forall_mem_nil _⟩
    · exact Field.orderFree_of_eq Draft.Alike.refl Decoder.orderFree_text
    · exact Field.orderFree_of_eq Draft.Alike.refl Decoder.orderFree_text
    · exact Field.orderFree_of_eq Draft.Alike.refl hposition
    · exact Decoder.orderFree_tree.map fun _ _ h d => ⟨rfl, rfl, rfl, h⟩
  keep := by
    simp only [draftRecord, List.forall_mem_cons]
    refine ⟨?_, ?_, ?_, ?_, List.forall_mem_nil _⟩
    · exact Field.keeps_of_set fun _ _ _ h => ⟨rfl, h.tag, h.position, h.data⟩
    · exact Field.keeps_of_set fun _ _ _ h => ⟨h.id, rfl, h.position, h.data⟩
    · exact Field.keeps_of_set fun _ _ _ h => ⟨h.id, h.tag, rfl, h.data⟩
    · exact Field.keeps_of_set fun _ _ _ h => ⟨h.id, h.tag, h.position, rfl⟩
  commute := by
    simp only [draftRecord, List.pairwise_cons, List.forall_mem_cons, List.not_mem_nil,
      false_implies, implies_true, List.Pairwise.nil, and_true]
    and_intros <;> exact Field.commute_of_set fun _ _ _ => rfl

theorem decoder_orderFree : decoder.OrderFree Eq := by
  intro o x y hxy hx
  refine (draftRecord_orderFree.decode hxy hx).bind fun d e _ _ h => ?_
  rw [h.finish_eq]
  exact Agree.refl (fun _ => rfl) _

end Node

/-! Edges, graphs and metadata -/

theorem Edge.record_orderFree : record.OrderFree Eq := by
  have htext : Decoder.text.OrderFree Eq := Decoder.orderFree_text
  have hoptional := Decoder.orderFree_optional htext
  refine .of_eq ?_ ?_
  · simp only [record, List.forall_mem_cons]
    refine ⟨?_, ?_, ?_, ?_, ?_, List.forall_mem_nil _⟩ <;>
      refine Field.orderFree_of_eq (fun _ => rfl) ?_ <;> assumption
  · simp only [record, List.pairwise_cons, List.forall_mem_cons, List.not_mem_nil,
      false_implies, implies_true, List.Pairwise.nil, and_true]
    and_intros <;> exact Field.commute_of_set fun _ _ _ => rfl

theorem Graph.record_orderFree : record.OrderFree Eq := by
  have hnodes := Decoder.orderFree_list Node.decoder_orderFree
  have hedges := Decoder.orderFree_list Edge.record_orderFree.decode
  refine .of_eq ?_ (List.pairwise_pair.2 (Field.commute_of_set fun _ _ _ => rfl))
  simp only [record, List.forall_mem_cons]
  refine ⟨?_, ?_, List.forall_mem_nil _⟩
  · exact Field.orderFree_of_eq (fun _ => rfl) hnodes
  · exact Field.orderFree_of_eq (fun _ => rfl) hedges

theorem Metadata.record_orderFree : record.OrderFree Eq := by
  refine .of_eq ?_ (List.pairwise_pair.2 (Field.commute_of_set fun _ _ _ => rfl))
  simp only [record, List.forall_mem_cons]
  refine ⟨?_, ?_, List.forall_mem_nil _⟩ <;>
    exact Field.orderFree_of_eq (fun _ => rfl) (Decoder.orderFree_optional Decoder.orderFree_text)

namespace Document

theorem instantDecoder_orderFree : instantDecoder.OrderFree Eq := by
  intro o x y hxy _
  cases hxy <;> exact .error _ _

/-- Drafts that differ at most in one exchange among the members held back. -/
structure Draft.Alike (d e : Draft) : Prop where
  version : d.version = e.version
  metadata : d.metadata = e.metadata
  savedAt : d.savedAt = e.savedAt
  held : d.held = e.held ∨ (Reading.object d.held none).Exchange (.object e.held none)

theorem Draft.Alike.refl (d : Draft) : d.Alike d := ⟨rfl, rfl, rfl, .inl rfl⟩

theorem draftRecord_orderFree : draftRecord.OrderFree Draft.Alike where
  refl := Draft.Alike.refl
  read := by
    have hversion : versionDecoder.OrderFree Eq :=
      (Decoder.orderFree_natBelow _ _).map fun _ _ => congrArg _
    have hmetadata : Metadata.decoder.OrderFree Eq := Metadata.record_orderFree.decode
    simp only [draftRecord, List.forall_mem_cons]
    refine ⟨?_, ?_, ?_, List.forall_mem_nil _⟩
    · exact Field.orderFree_of_eq Draft.Alike.refl hversion
    · exact Field.orderFree_of_eq Draft.Alike.refl hmetadata
    · exact Field.orderFree_of_eq Draft.Alike.refl
        (Decoder.orderFree_optional instantDecoder_orderFree)
  keep := by
    simp only [draftRecord, List.forall_mem_cons]
    refine ⟨?_, ?_, ?_, List.forall_mem_nil _⟩
    · exact Field.keeps_of_set fun _ _ _ h => ⟨rfl, h.metadata, h.savedAt, h.held⟩
    · exact Field.keeps_of_set fun _ _ _ h => ⟨h.version, rfl, h.savedAt, h.held⟩
    · exact Field.keeps_of_set fun _ _ _ h => ⟨h.version, h.metadata, rfl, h.held⟩
  commute := by
    simp only [draftRecord, List.pairwise_cons, List.forall_mem_cons, List.not_mem_nil,
      false_implies, implies_true, List.Pairwise.nil, and_true]
    and_intros <;> exact Field.commute_of_set fun _ _ _ => rfl

theorem restOrderFree_hold : draftRecord.RestOrderFree hold Draft.Alike where
  read x y hxy hx o k s := by
    refine (Decoder.orderFree_tree hxy hx).bind fun _ _ _ _ _ => .ok ⟨rfl, rfl, rfl, .inr ?_⟩
    exact .value s.held [] (.ok k) none hxy
  keep o k x s t hst := by
    refine Agree.bind_same _ fun _ _ => .ok ⟨hst.version, hst.metadata, hst.savedAt, ?_⟩
    have hmore : s.held = t.held → s.held ++ [(.ok k, x)] = t.held ++ [(.ok k, x)] :=
      congrArg (· ++ [(Except.ok k, x)])
    exact hst.held.imp hmore fun h => h.append (.ok k, x)
  swap o k x l y s := by
    simp only [hold, bind_assoc, pure_bind, List.append_assoc]
    refine Agree.swap _ _ fun _ _ _ _ => .ok ⟨rfl, rfl, rfl, .inr ?_⟩
    exact .members s.held [] (.ok k, x) (.ok l, y) none
  commute := by
    simp only [draftRecord, List.forall_mem_cons]
    refine ⟨?_, ?_, ?_, List.forall_mem_nil _⟩ <;> intro o x a ha k y s <;>
      obtain ⟨b, -, rfl⟩ := map_eq_ok_iff.1 ha <;>
      cases h : Decoder.tree o y <;> simp only [hold, h] <;> rfl

theorem held_of_field {f : Json.Field Draft} (hf : f ∈ draftRecord.fields) {o : Origin}
    {x : Reading} {set : Draft → Draft} (h : f.read o x = .ok set) (d : Draft) :
    (set d).held = d.held := by
  simp only [draftRecord, List.mem_cons, List.not_mem_nil, or_false] at hf
  obtain rfl | rfl | rfl := hf <;> obtain ⟨a, -, rfl⟩ := map_eq_ok_iff.1 h <;> rfl

/-- The values held back are those of members of the document. -/
theorem held_hasDistinctNames {o : Origin} {x : Reading} {d : Draft} (hx : x.HasDistinctNames)
    (h : draftRecord.decodeOpen hold o x = .ok d) : ∀ m ∈ d.held, m.2.HasDistinctNames := by
  cases x with
  | scalar _ | fault _ | array _ _ => cases h
  | object members ending =>
    rw [Reading.hasDistinctNames_object] at hx
    refine Record.readObject_induction (fun d => ∀ m ∈ d.held, m.2.HasDistinctNames) h
      (List.forall_mem_nil _) ?_ ?_
    · intro inner _ f hf m _ set s hset hs
      rwa [held_of_field hf hset]
    · intro inner _ k y s t hmem _ hhold hs
      obtain ⟨_, _, ht⟩ := bind_eq_ok_iff.1 hhold
      cases ht
      exact List.forall_mem_append.2 ⟨hs, List.forall_mem_singleton.2 (hx.2 _ hmem)⟩

theorem decoder_orderFree : decoder.OrderFree Eq := by
  intro o x y hxy hx
  have hdraft := draftRecord_orderFree.decodeOpen restOrderFree_hold
  refine (hdraft hxy hx).bind fun d e hd _ h => ?_
  have hgraph : Agree Eq (Graph.decoder .kept (.object d.held none))
      (Graph.decoder .kept (.object e.held none)) := by
    -- Exchanges among the document's own fields leave the members held back as they are.
    obtain hheld | hheld := h.held
    · rw [hheld]
      exact Agree.refl (fun _ => rfl) _
    · exact Record.readObject_agree Graph.record_orderFree
        (Record.restOrderFree_ignoreRest Graph.record_orderFree) hheld (held_hasDistinctNames hx hd)
  refine hgraph.bind fun g g' _ _ hg => .ok ?_
  rw [h.version, h.metadata, h.savedAt, hg]

/-- Two texts of one tree, but for white space and the order of members, are read alike: as one
document, or not at all, and then for the same kind of reason. -/
theorem parse_reordered {s t : String} {x y : Reading} (hs : x.Denoted s) (ht : y.Denoted t)
    (hxy : x.Reordered y) (hx : x.HasDistinctNames) :
    (∃ d, parse s = .ok d ∧ parse t = .ok d) ∨
      (∃ e e', parse s = .error (.json e) ∧ parse t = .error (.json e')) ∨
      ∃ v, parse s = .error (.unsupportedVersion v) ∧ parse t = .error (.unsupportedVersion v) := by
  have hrun : Agree Eq (decoder.run s) (decoder.run t) := by
    simp only [Decoder.run, Reading.ofText_of_denoted hs, Reading.ofText_of_denoted ht]
    exact (decoder_orderFree.agree_of_reordered (.text 0) hxy hx).bind fun _ _ _ _ h => .ok h
  unfold parse
  generalize decoder.run s = p at hrun
  generalize decoder.run t = q at hrun
  cases hrun with
  | error e e' => exact .inr (.inl ⟨e, e', rfl, rfl⟩)
  | @ok d d' h =>
    subst h
    by_cases hversion : d.version = formatVersion
    · exact .inl ⟨d, by simp [hversion]⟩
    · exact .inr (.inr ⟨d.version, by simp [hversion]⟩)

/-- The members of a document of one node, around the attributes of the node. -/
def noteMembers (attributes : List (String × Tree)) : List (String × Tree) :=
  [("version", .nat 1), ("author", .null),
   ("nodes", .array [.object
     [("data", .object attributes), ("id", .text "n"), ("type", .text "note")]])]

def noteText : String :=
  "\x7b\"version\":1,\"author\":null,\"nodes\":" ++
    "[\x7b\"data\":\x7b\"size\":2,\"label\":\"N\"\x7d,\"id\":\"n\",\"type\":\"note\"\x7d]\x7d"

/-- The same document, with the members of two of its objects in the reverse order. -/
def reversedNoteText : String :=
  "\x7b \"nodes\":\n" ++
    "[\x7b\"data\":\x7b\"label\" : \"N\",\"size\":2 \x7d,\"id\":\"n\",\"type\":\"note\"\x7d],\n" ++
    "\"author\":null, \"version\":1\x7d"

/-- Both texts are read as one document. -/
theorem parse_reversedNoteText : ∃ d, parse noteText = .ok d ∧ parse reversedNoteText = .ok d := by
  let attributes : List (String × Tree) := [("size", .nat 2), ("label", .text "N")]
  have htext : (Reading.ofTree (.object (noteMembers attributes))).Denoted noteText :=
    Reading.denoted_of_tokens (by decide +kernel)
  have htext' : (Reading.ofTree (.object (noteMembers attributes.reverse).reverse)).Denoted
      reversedNoteText := Reading.denoted_of_tokens (by decide +kernel)
  have hattributes : (Reading.ofTree (.object (noteMembers attributes))).Reordered
      (.ofTree (.object (noteMembers attributes.reverse))) :=
    .value (.item (.value (.of_perm (.swap _ _ _) none) [] _ (.ok "data") none) [] [] none)
      [_, _] [] (.ok "nodes") none
  have hmembers : (Reading.ofTree (.object (noteMembers attributes.reverse))).Reordered
      (.ofTree (.object (noteMembers attributes.reverse).reverse)) :=
    .of_perm (List.reverse_perm _).symm none
  have hdistinct : (Reading.ofTree (.object (noteMembers attributes))).HasDistinctNames := by
    simp [noteMembers, attributes, Tree.nat, Reading.ofTree, Reading.ofMembers, Reading.ofItems,
      Reading.HasDistinctNames, Reading.ItemsDistinct, Reading.ValuesDistinct, Reading.NamesDiffer]
  have hok : (parse noteText).isOk = true := by decide +kernel
  obtain hsame | ⟨e, -, he, -⟩ | ⟨v, hv, -⟩ :=
    parse_reordered htext htext' (hattributes.trans hmembers) hdistinct
  · exact hsame
  · rw [he] at hok
    cases hok
  · rw [hv] at hok
    cases hok

end Document

end FlowDiagram
