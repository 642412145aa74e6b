import FlowDiagram.Codec.Node
import FlowDiagram.Proofs.Json.Finite
/-! Nodes that are saved are read back if they are well tagged, and all that are read are. -/

namespace FlowDiagram

open Json

namespace Category

/-- The tags that the known categories have. -/
def knownTags : List String := ["start", "end", "process", "decision", "connector"]

theorem ofTag_eq_other_iff {tag tag' : String} :
    ofTag tag = .other tag' ↔ tag ∉ knownTags ∧ tag = tag' := by
  simp only [ofTag, knownTags, List.mem_cons, List.not_mem_nil, or_false, not_or]
  split
  · simp_all
  · split
    · simp_all
    · split
      · simp_all
      · split
        · simp_all
        · split <;> simp_all

end Category

/-! What is asked of nodes, and what becomes of their numbers -/

/-- The attributes that a kind without rules has besides its label. -/
def Kind.extra : Kind → List (String × Tree)
  | .other _ extra => extra.members
  | _ => []

def Position.IsFinite (p : Position) : Prop := p.x.isFinite = true ∧ p.y.isFinite = true

namespace Node

/-- A node of no known category does not have the tag of one. -/
def IsWellTagged (n : Node) : Prop :=
  ∀ tag extra, n.kind = .other tag extra → tag ∉ Category.knownTags

/-- What else is asked of a node for its saved form to be read back. -/
structure IsSavable (n : Node) : Prop where
  position_finite : n.position.IsFinite
  /-- No attribute besides the label has its name. -/
  unlabelled : ∀ m ∈ n.kind.extra, m.1 ≠ "label"
  /-- Around the attributes there are the document, its nodes, the node and its data. -/
  room : ∀ m ∈ n.kind.extra, m.2.HasRoom 4

/-- Every number of the node has a printed form that is a number. -/
structure IsReadable (n : Node) : Prop where
  x : (Number.float n.position.x).reread?.isSome
  y : (Number.float n.position.y).reread?.isSome
  extra : ∀ m ∈ n.kind.extra, m.2.IsReadable

end Node

/-- The float that the reader makes of the printed form of a float. -/
def Json.rereadFloat (x : Float) : Float := (Number.float x).reread.toFloat

def Position.reread (p : Position) : Position := ⟨rereadFloat p.x, rereadFloat p.y⟩

def Kind.reread : Kind → Kind
  | .other tag extra => .other tag extra.reread
  | k => k

/-- The node with every float as it is reread. -/
def Node.reread (n : Node) : Node :=
  { n with position := n.position.reread, kind := n.kind.reread }

/-! Saving -/

theorem Position.decoder_toTree (p : Position) :
    decoder .kept (.ofTree p.toTree.reread) = .ok p.reread := rfl

namespace Kind

/-- A member that is not the label, with a value that a reader can still open. -/
def IsOther (o : Origin) (m : String × Tree) : Prop := m.1 ≠ "label" ∧ o.Allows m.2.depth

/-- Members that are not the label are kept in their order. -/
theorem readMembers_others {o : Origin} {ms : List (String × Tree)} (h : ∀ m ∈ ms, IsOther o m)
    (more : List (Name × Reading)) (seen : List String) (d : OtherDraft) :
    otherRecord.readMembers keepExtra o (Reading.ofMembers ms ++ more) seen d =
      otherRecord.readMembers keepExtra o more seen { d with extra := d.extra ++ ms } := by
  induction ms generalizing d with
  | nil => simp [Reading.ofMembers]
  | cons m ms ih =>
    obtain ⟨k, x⟩ := m
    obtain ⟨hk, hdepth⟩ := h _ List.mem_cons_self
    have hfield : otherRecord.field? k = none := by
      simp [Record.field?, otherRecord, Field.allow, Ne.symm hk]
    have htree : Decoder.tree o (.ofTree x) = .ok x :=
      (Decoder.tree_eq_ok_iff _ _ _).2 ⟨rfl, hdepth⟩
    have hms := ih (fun m hm => h m (List.mem_cons_of_mem _ hm))
    simp only [Reading.ofMembers, List.cons_append, Record.readMembers, hfield, keepExtra, htree,
      ok_bind, pure, Except.pure, hms]
    simp

/-- The ways in which attributes give a label. Nothing may stand in its place. -/
inductive GivesLabel : List (String × Tree) → Option String → Prop
  | absent : GivesLabel [] none
  | null : GivesLabel [("label", .null)] none
  | text (l : String) : GivesLabel [("label", .text l)] (some l)

/-- A label between other members is told from them. -/
theorem decoder_other_of_enter {o inner : Origin} {before given after : List (String × Tree)}
    (tag : String) {label : Option String} (hgiven : GivesLabel given label)
    (henter : o.enter = .ok inner) (hbefore : ∀ m ∈ before, IsOther inner m)
    (hafter : ∀ m ∈ after, IsOther inner m) :
    decoder (.other tag) o (.ofTree (.object (before ++ given ++ after))) =
      .ok (label, .other tag (.ofMembers (before ++ after))) := by
  have hread : ∃ seen, otherRecord.readMembers keepExtra inner
      (Reading.ofMembers (before ++ given ++ after)) [] otherRecord.blank =
        .ok (seen, ⟨label, before ++ after⟩) := by
    rw [Reading.ofMembers_append, Reading.ofMembers_append, List.append_assoc, readMembers_others hbefore]
    have hend := readMembers_others hafter []
    rw [List.append_nil] at hend
    have hlabel : ∀ t l, Decoder.optional .text inner (.ofTree t) = .ok l →
        otherRecord.readMembers keepExtra inner
          (Reading.ofMembers [("label", t)] ++ Reading.ofMembers after) [] ⟨none, before⟩ =
            .ok (["label"], ⟨l, before ++ after⟩) := by
      intro t l hl
      have hfield : (Field.allow "label" (.optional .text) fun label (d : OtherDraft) =>
          { d with label }).read inner (.ofTree t) = .ok fun d => { d with label := l } :=
        Field.read_allow _ hl
      exact (Record.readMembers_field rfl List.not_mem_nil hfield).trans (hend _ _)
    cases hgiven with
    | absent => exact ⟨[], hend _ _⟩
    | null => exact ⟨_, hlabel .null none rfl⟩
    | text l => exact ⟨_, hlabel (.text l) (some l) rfl⟩
  obtain ⟨seen, hread⟩ := hread
  have hmissing : otherRecord.missing? seen = none := by
    simp [Record.missing?, otherRecord, Field.allow]
  have hobject := Record.readObject_of_readMembers henter hread hmissing
  simp only [decoder, Decoder.map, Record.decodeOpen, Reading.ofTree, hobject, Except.map]

/-- In a finished value the others may be as deep as they are. -/
theorem decoder_other {before given after : List (String × Tree)} (tag : String)
    {label : Option String} (hgiven : GivesLabel given label) (hbefore : ∀ m ∈ before, m.1 ≠ "label")
    (hafter : ∀ m ∈ after, m.1 ≠ "label") :
    (decoder (.other tag)).runTree (.object (before ++ given ++ after)) =
      .ok (label, .other tag (.ofMembers (before ++ after))) :=
  decoder_other_of_enter (o := .value) tag hgiven rfl (fun m hm => ⟨hbefore m hm, trivial⟩)
    fun m hm => ⟨hafter m hm, trivial⟩

theorem sorted_toTree_other {tag : String} {extra : Attributes} (label : Option String) :
    ((Kind.other tag extra).toTree label).sorted =
      .object (sortMembers (textMember "label" label ++ extra.members)) := by
  have hvalues : Tree.ValuesSorted (textMember "label" label ++ extra.members) := by
    refine Tree.valuesSorted_iff.2 fun m hm => ?_
    rcases List.mem_append.1 hm with hm | hm
    · cases label with
      | none => cases hm
      | some l =>
        obtain rfl := List.mem_singleton.1 hm
        trivial
    · exact Tree.valuesSorted_iff.1 extra.sorted.2 m hm
  simp only [toTree, attributes, Tree.sorted, Tree.sortedMembers_of_valuesSorted _ hvalues]

theorem ne_label_of_mem_rereadMembers {members : List (String × Tree)}
    (h : ∀ m ∈ members, m.1 ≠ "label") : ∀ m ∈ Tree.rereadMembers members, m.1 ≠ "label" := by
  intro m hm
  rw [Tree.rereadMembers_eq_map] at hm
  obtain ⟨n, hn, rfl⟩ := List.mem_map.1 hm
  exact h n hn

theorem runTree_other {tag : String} {extra : Attributes} (label : Option String)
    (h : ∀ m ∈ extra.members, m.1 ≠ "label") :
    (decoder (.other tag)).runTree ((Kind.other tag extra).toTree label).sorted.reread =
      .ok (label, .other tag extra.reread) := by
  have hkept : Attributes.ofMembers (Tree.rereadMembers extra.members) = extra.reread :=
    extra.reread.ofMembers_members
  rw [sorted_toTree_other, Tree.reread]
  cases label with
  | none =>
    have hafter : ∀ m ∈ ([] : List (String × Tree)), m.1 ≠ "label" := by simp
    have hread := decoder_other tag .absent (ne_label_of_mem_rereadMembers h) hafter
    simp only [List.append_nil] at hread
    rw [textMember, List.nil_append, sortMembers_of_ascending extra.sorted.1, hread, hkept]
  | some l =>
    obtain ⟨before, after, hsplit, hsorted⟩ :=
      sortMembers_cons_of_ascending (v := Tree.text l) extra.sorted.1 h
    have hbefore : ∀ m ∈ before, m.1 ≠ "label" :=
      fun m hm => h m (hsplit ▸ List.mem_append_left _ hm)
    have hafter : ∀ m ∈ after, m.1 ≠ "label" :=
      fun m hm => h m (hsplit ▸ List.mem_append_right _ hm)
    have hread := decoder_other tag (.text l) (ne_label_of_mem_rereadMembers hbefore)
      (ne_label_of_mem_rereadMembers hafter)
    have hlabel : Tree.rereadMembers (before ++ ("label", Tree.text l) :: after) =
        Tree.rereadMembers before ++ [("label", Tree.text l)] ++ Tree.rereadMembers after := by
      simp [Tree.rereadMembers_eq_map, Tree.reread, Scalar.reread]
    have hothers : Tree.rereadMembers before ++ Tree.rereadMembers after =
        Tree.rereadMembers extra.members := by
      simp [Tree.rereadMembers_eq_map, hsplit]
    rw [textMember, List.singleton_append, hsorted, hlabel, hread, hothers, hkept]

/-- Attributes that are saved are read back by the category that they were saved by. -/
theorem runTree_toTree {k : Kind} (label : Option String) (h : ∀ m ∈ k.extra, m.1 ≠ "label") :
    (decoder k.category).runTree (k.toTree label).sorted.reread = .ok (label, k.reread) := by
  cases k with
  | start | finish | connector => cases label <;> rfl
  | process description => cases label <;> cases description <;> rfl
  | decision yesLabel noLabel => cases label <;> cases yesLabel <;> cases noLabel <;> rfl
  | other tag extra => exact runTree_other label h

end Kind

namespace Node

theorem ofTag_tag {n : Node} (h : n.IsWellTagged) : Category.ofTag n.category.tag = n.category := by
  obtain ⟨id, position, label, kind⟩ := n
  cases kind with
  | other tag extra => exact Category.ofTag_eq_other_iff.2 ⟨h tag extra rfl, rfl⟩
  | _ => rfl

theorem draft_toTree (n : Node) :
    draftRecord.decode .kept (.ofTree n.toTree.reread) =
      .ok ⟨n.id, n.category.tag, n.position.reread, (n.kind.toTree n.label).sorted.reread⟩ := by
  have htree : Decoder.tree .kept (.ofTree (n.kind.toTree n.label).sorted.reread) =
      .ok (n.kind.toTree n.label).sorted.reread :=
    (Decoder.tree_eq_ok_iff _ _ _).2 ⟨rfl, trivial⟩
  have hdata : (Field.allow "data" .tree fun data (d : Draft) => { d with data }).read .kept
      (.ofTree (n.kind.toTree n.label).sorted.reread) =
        .ok fun d => { d with data := (n.kind.toTree n.label).sorted.reread } :=
    Field.read_allow _ htree
  have hread : draftRecord.readMembers Record.ignoreRest .kept
      [(.ok "id", .scalar (.text n.id)), (.ok "type", .scalar (.text n.category.tag)),
        (.ok "position", .ofTree n.position.toTree.reread),
        (.ok "data", .ofTree (n.kind.toTree n.label).sorted.reread)] [] draftRecord.blank =
      .ok (["data", "position", "type", "id"],
        ⟨n.id, n.category.tag, n.position.reread, (n.kind.toTree n.label).sorted.reread⟩) := by
    rw [Record.readMembers_field rfl (by decide) rfl, Record.readMembers_field rfl (by decide) rfl,
      Record.readMembers_field rfl (by decide) rfl, Record.readMembers_field rfl (by decide) hdata]
    rfl
  exact Record.readObject_of_readMembers rfl hread rfl

/-- A well-tagged node is read back as it was saved, but for its floats. -/
theorem decoder_toTree {n : Node} (htag : n.IsWellTagged)
    (hlabel : ∀ m ∈ n.kind.extra, m.1 ≠ "label") :
    decoder .kept (.ofTree n.toTree.reread) = .ok n.reread := by
  have hnull : (n.kind.toTree n.label).sorted.reread ≠ .null := by
    simp [Kind.toTree, Tree.sorted, Tree.reread]
  have hsorted := Tree.sorted_of_isSorted _
    (Tree.isSorted_reread _ (n.kind.toTree n.label).isSorted_sorted)
  simp only [decoder, draft_toTree, ok_bind, Draft.finish, if_neg hnull, hsorted, ofTag_tag htag]
  rw [category, Kind.runTree_toTree n.label hlabel]
  rfl

end Node

/-! What is saved of a node -/

theorem Kind.mem_attributes {k : Kind} {label : Option String} {m : String × Tree}
    (h : m ∈ k.attributes label) : (∃ s, m.2 = .text s) ∨ m ∈ k.extra := by
  have htext : ∀ name text, m ∈ textMember name text → ∃ s, m.2 = .text s := by
    intro name text hm
    cases text with
    | none => cases hm
    | some s =>
      obtain rfl := List.mem_singleton.1 hm
      exact ⟨s, rfl⟩
  cases k with
  | start | finish | connector => exact .inl (htext _ _ h)
  | process description =>
    rcases List.mem_append.1 h with h | h
    · exact .inl (htext _ _ h)
    · exact .inl (htext _ _ h)
  | decision yesLabel noLabel =>
    rcases List.mem_append.1 h with h | h
    · rcases List.mem_append.1 h with h | h
      · exact .inl (htext _ _ h)
      · exact .inl (htext _ _ h)
    · exact .inl (htext _ _ h)
  | other tag extra =>
    rcases List.mem_append.1 h with h | h
    · exact .inl (htext _ _ h)
    · exact .inr h

namespace Node

theorem depth_toTree_le {n : Node} {limit : Nat} (h : ∀ m ∈ n.kind.extra, m.2.depth ≤ limit) :
    n.toTree.depth ≤ limit + 2 := by
  have hattributes : (n.kind.toTree n.label).depth ≤ limit + 1 := by
    refine Nat.succ_le_succ (Tree.valuesDepth_le_iff.2 fun m hm => ?_)
    rcases Kind.mem_attributes hm with ⟨s, hs⟩ | hm
    · simp [hs, Tree.depth]
    · exact h m hm
  have hsorted := (Tree.inside_sorted (n.kind.toTree n.label)).depth
  simp only [toTree, Position.toTree, Tree.depth, Tree.valuesDepth]
  omega

theorem mem_numbers_toTree {n : Node} {x : Number} (h : x ∈ n.toTree.numbers) :
    x = .float n.position.x ∨ x = .float n.position.y ∨
      ∃ m ∈ n.kind.extra, x ∈ m.2.numbers := by
  simp only [toTree, Position.toTree, Tree.numbers, Tree.memberNumbers, List.nil_append,
    List.append_nil, List.cons_append, List.mem_cons] at h
  rcases h with rfl | rfl | h
  · exact .inl rfl
  · exact .inr (.inl rfl)
  · have hdata := (Tree.inside_sorted (n.kind.toTree n.label)).numbers x h
    obtain ⟨m, hm, hx⟩ := Tree.mem_memberNumbers.1 hdata
    rcases Kind.mem_attributes hm with ⟨s, hs⟩ | hm
    · simp [hs, Tree.numbers] at hx
    · exact .inr (.inr ⟨m, hm, hx⟩)

theorem isReadable_toTree {n : Node} (h : n.IsReadable) : n.toTree.IsReadable := by
  intro x hx
  rcases mem_numbers_toTree hx with rfl | rfl | ⟨m, hm, hx⟩
  · exact h.x
  · exact h.y
  · exact h.extra m hm x hx

end Node

/-! Loading -/

theorem Position.isFinite_of_decoder {o : Origin} {t : Tree} {p : Position}
    (h : decoder o (.ofTree t) = .ok p) (hfinite : ∀ n ∈ t.numbers, n.IsFinite) :
    p.IsFinite := by
  have hfloat : ∀ inner y x, y ∈ (Reading.ofTree t).children → Decoder.float inner y = .ok x →
      x.isFinite = true := by
    intro inner y x hy hx
    obtain ⟨c, hc, rfl⟩ := Tree.mem_children_ofTree hy
    cases c with
    | scalar s =>
      cases s with
      | number n =>
        cases hx
        exact hfinite n ((Tree.inside_of_mem_children hc).numbers n (by simp [Tree.numbers]))
      | _ => cases hx
    | _ => cases hx
  refine Record.decode_induction Position.IsFinite h ⟨by decide, by decide⟩ ?_
  intro inner _ f hf y hy set q hset hq
  simp only [record, List.mem_cons, List.not_mem_nil, or_false] at hf
  rcases hf with rfl | rfl
  · obtain ⟨x, hx, rfl⟩ := map_eq_ok_iff.1 hset
    exact ⟨hfloat inner y x hy hx, hq.2⟩
  · obtain ⟨x, hx, rfl⟩ := map_eq_ok_iff.1 hset
    exact ⟨hq.1, hfloat inner y x hy hx⟩

namespace Kind

theorem category_of_decoder {c : Category} {o : Origin} {r : Reading} {label : Option String}
    {k : Kind} (h : decoder c o r = .ok (label, k)) : k.category = c := by
  cases c <;>
  · obtain ⟨d, -, hd⟩ := map_eq_ok_iff.1 h
    cases hd
    rfl

/-- The attributes of an unknown category are members of its attributes that are no label. -/
theorem extra_of_decodeOpen {o : Origin} {t : Tree} {d : OtherDraft}
    (h : otherRecord.decodeOpen keepExtra o (.ofTree t) = .ok d) :
    ∀ m ∈ d.extra, m.1 ≠ "label" ∧ m.2 ∈ t.children := by
  cases t with
  | scalar s => cases h
  | array items => cases h
  | object members =>
    refine Record.readObject_induction
      (fun d => ∀ m ∈ d.extra, m.1 ≠ "label" ∧ m.2 ∈ (Tree.object members).children) h ?_ ?_ ?_
    · intro m hm
      cases hm
    · intro inner _ f hf _ _ set d hset hd
      obtain rfl := List.mem_singleton.1 hf
      obtain ⟨label, -, rfl⟩ := map_eq_ok_iff.1 hset
      exact hd
    · intro inner _ k x d e hx hk hrest hd
      have hlabel : k ≠ "label" := by
        rintro rfl
        simp [Record.field?, otherRecord, Field.allow] at hk
      obtain ⟨u, hu, hset⟩ := bind_eq_ok_iff.1 hrest
      cases hset
      obtain ⟨rfl, -⟩ := (Decoder.tree_eq_ok_iff _ _ _).1 hu
      intro m hm
      rcases List.mem_append.1 hm with hm | hm
      · exact hd m hm
      · obtain rfl := List.mem_singleton.1 hm
        have hmem : Reading.ofTree u ∈ (Reading.ofTree (.object members)).children :=
          List.mem_map.2 ⟨_, hx, rfl⟩
        obtain ⟨v, hv, heq⟩ := Tree.mem_children_ofTree hmem
        obtain rfl := Reading.ofTree_inj.1 heq
        exact ⟨hlabel, hv⟩

theorem extra_of_runTree {c : Category} {t : Tree} {label : Option String} {k : Kind}
    (h : (decoder c).runTree t = .ok (label, k)) :
    ∀ m ∈ k.extra, m.1 ≠ "label" ∧ ∃ x ∈ t.children, m.2 = x.sorted := by
  cases c with
  | other tag =>
    obtain ⟨d, hd, heq⟩ := map_eq_ok_iff.1 h
    cases heq
    intro m hm
    obtain ⟨x, hx, hsorted⟩ := Attributes.mem_ofMembers hm
    obtain ⟨hlabel, hchild⟩ := extra_of_decodeOpen hd (m.1, x) hx
    exact ⟨hlabel, x, hchild, hsorted⟩
  | _ =>
    obtain ⟨d, -, heq⟩ := map_eq_ok_iff.1 h
    cases heq
    intro m hm
    cases hm

end Kind

namespace Node

theorem draft_of_decode {o : Origin} {t : Tree} {d : Draft}
    (h : draftRecord.decode o (.ofTree t) = .ok d)
    (hfinite : ∀ n ∈ t.numbers, n.IsFinite) :
    (d.data = .null ∨ d.data ∈ t.children) ∧ d.position.IsFinite := by
  refine Record.decode_induction
    (fun d => (d.data = .null ∨ d.data ∈ t.children) ∧ d.position.IsFinite) h
    ⟨.inl rfl, by decide, by decide⟩ ?_
  intro inner _ f hf y hy set d hset hd
  obtain ⟨c, hc, rfl⟩ := Tree.mem_children_ofTree hy
  simp only [draftRecord, List.mem_cons, List.not_mem_nil, or_false] at hf
  rcases hf with rfl | rfl | rfl | rfl
  · obtain ⟨id, -, rfl⟩ := map_eq_ok_iff.1 hset
    exact hd
  · obtain ⟨tag, -, rfl⟩ := map_eq_ok_iff.1 hset
    exact hd
  · obtain ⟨position, hposition, rfl⟩ := map_eq_ok_iff.1 hset
    have hnumbers := (Tree.inside_of_mem_children hc).numbers
    exact ⟨hd.1, Position.isFinite_of_decoder hposition fun n hn => hfinite n (hnumbers n hn)⟩
  · obtain ⟨data, hdata, rfl⟩ := map_eq_ok_iff.1 hset
    obtain ⟨heq, -⟩ := (Decoder.tree_eq_ok_iff _ _ _).1 hdata
    obtain rfl := Reading.ofTree_inj.1 heq
    exact ⟨.inr hc, hd.2⟩

/-- The attributes of a decoded node lie inside what it was decoded from, and none of them has the
name of the label. -/
theorem extra_of_finish {d : Draft} {t : Tree} {n : Node} (h : d.finish = .ok n)
    (hdata : d.data = .null ∨ d.data ∈ t.children) :
    ∀ m ∈ n.kind.extra, m.1 ≠ "label" ∧ m.2.Inside t 2 := by
  simp only [Draft.finish, bind_eq_ok_iff] at h
  obtain ⟨⟨label, kind⟩, hkind, hn⟩ := h
  cases hn
  intro m hm
  obtain ⟨hlabel, x, hx, hsorted⟩ := Kind.extra_of_runTree hkind m hm
  refine ⟨hlabel, ?_⟩
  rcases hdata with hnull | hchild
  · rw [if_pos hnull] at hx
    cases hx
  · split at hx
    · cases hx
    · have hvalue := (Tree.inside_of_mem_children hx).trans (Tree.inside_sorted d.data)
      rw [hsorted]
      exact ((Tree.inside_sorted x).trans hvalue).trans (Tree.inside_of_mem_children hchild)

theorem isWellTagged_of_finish {d : Draft} {n : Node} (h : d.finish = .ok n) : n.IsWellTagged := by
  simp only [Draft.finish, bind_eq_ok_iff] at h
  obtain ⟨⟨label, kind⟩, hkind, hn⟩ := h
  cases hn
  have hcategory := Kind.category_of_decoder hkind
  intro tag extra hother
  simp only at hother
  rw [hother] at hcategory
  obtain ⟨hknown, rfl⟩ := Category.ofTag_eq_other_iff.1 hcategory.symm
  exact hknown

/-- A node that is decoded so many levels inside a document can be saved again. -/
theorem isSavable_of_decoder {t : Tree} {n : Node} (h : decoder .kept (.ofTree t) = .ok n)
    (hroom : t.HasRoom 2) : n.IsWellTagged ∧ n.IsSavable := by
  obtain ⟨d, hdraft, hfinish⟩ := bind_eq_ok_iff.1 h
  obtain ⟨hdata, hposition⟩ := draft_of_decode hdraft hroom.finite
  have hextra := extra_of_finish hfinish hdata
  refine ⟨isWellTagged_of_finish hfinish, ?_, fun m hm => (hextra m hm).1,
    fun m hm => hroom.of_inside (hextra m hm).2⟩
  simp only [Draft.finish, bind_eq_ok_iff] at hfinish
  obtain ⟨_, _, hn⟩ := hfinish
  cases hn
  exact hposition

end Node

end FlowDiagram
