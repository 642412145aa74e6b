import FlowDiagram.Proofs.Codec.Node
import FlowDiagram.Proofs.Json.Members
/-! Nodes of no known category: what else they hold is saved as it was read. -/

namespace FlowDiagram

open Json

/-! Reading the members of a node, in whatever order -/

namespace Node

/-- The draft has what a member says, if the member is one of its fields. -/
structure Draft.Reads (o : Origin) (d : Draft) (m : String × Tree) : Prop where
  id : m.1 = "id" → m.2 = .text d.id
  tag : m.1 = "type" → m.2 = .text d.tag
  position : m.1 = "position" → Position.decoder o (.ofTree m.2) = .ok d.position
  data : m.1 = "data" → m.2 = d.data ∧ o.Allows d.data.depth

/-- The draft with the fields of the given names from another one. -/
def Draft.setFrom (e d : Draft) (names : List String) : Draft where
  id := if "id" ∈ names then d.id else e.id
  tag := if "type" ∈ names then d.tag else e.tag
  position := if "position" ∈ names then d.position else e.position
  data := if "data" ∈ names then d.data else e.data

section Members

variable {o : Origin} {d : Draft} {m : String × Tree} {members : List (String × Tree)}

/-- A member that is a field is set first, whatever is set after it. -/
theorem Draft.Reads.read_field (h : d.Reads o m) {f : Json.Field Draft}
    (hf : draftRecord.field? m.1 = some f) :
    ∃ set, f.read o (.ofTree m.2) = .ok set ∧
      ∀ e names, (set e).setFrom d names = Draft.setFrom e d (m.1 :: names) := by
  obtain ⟨k, t⟩ := m
  have hmem := List.mem_of_find?_eq_some hf
  have hname : f.name = k := by simpa using List.find?_some hf
  simp only [draftRecord, List.mem_cons, List.not_mem_nil, or_false] at hmem
  rcases hmem with rfl | rfl | rfl | rfl
  · obtain rfl : "id" = k := hname
    obtain rfl : t = _ := h.id rfl
    exact ⟨fun e => { e with id := d.id }, rfl, fun e names => by simp [Draft.setFrom]⟩
  · obtain rfl : "type" = k := hname
    obtain rfl : t = _ := h.tag rfl
    exact ⟨fun e => { e with tag := d.tag }, rfl, fun e names => by simp [Draft.setFrom]⟩
  · obtain rfl : "position" = k := hname
    have hread : Position.decoder o (.ofTree t) = .ok d.position := h.position rfl
    exact ⟨fun e => { e with position := d.position }, Field.read_allow _ hread,
      fun e names => by simp [Draft.setFrom]⟩
  · obtain rfl : "data" = k := hname
    obtain ⟨ht, hroom⟩ := h.data rfl
    obtain rfl : t = _ := ht
    have hread := (Decoder.tree_eq_ok_iff _ o d.data).2 ⟨rfl, hroom⟩
    exact ⟨fun e => { e with data := d.data }, Field.read_allow _ hread,
      fun e names => by simp [Draft.setFrom]⟩

theorem setFrom_cons_of_no_field (h : draftRecord.field? m.1 = none) (e : Draft)
    (names : List String) : e.setFrom d (m.1 :: names) = e.setFrom d names := by
  simp only [Record.field?, draftRecord, Field.need, Field.allow, List.find?_eq_none,
    List.forall_mem_cons, decide_eq_true_eq] at h
  obtain ⟨hid, htag, hposition, hdata, -⟩ := h
  simp [Draft.setFrom, hid, htag, hposition, hdata]

/-- Each field is set once and what is no field is passed over, so all that counts is which fields
are there. -/
theorem readMembers_setFrom (hdistinct : Distinct members) (hreads : ∀ m ∈ members, d.Reads o m)
    {seen : List String} (hseen : ∀ m ∈ members, m.1 ∉ seen) (e : Draft) :
    ∃ seen', draftRecord.readMembers Record.ignoreRest o (Reading.ofMembers members) seen e =
        .ok (seen', e.setFrom d (members.map (·.1))) ∧
      ∀ k ∈ seen ++ members.map (·.1), (draftRecord.field? k).isSome → k ∈ seen' := by
  induction members generalizing seen e with
  | nil => exact ⟨seen, rfl, fun k hk _ => by simpa using hk⟩
  | cons m members ih =>
    obtain ⟨k, t⟩ := m
    obtain ⟨hm, hmembers⟩ := List.forall_mem_cons.1 hreads
    obtain ⟨hk, hseen⟩ := List.forall_mem_cons.1 hseen
    obtain ⟨hne, hdistinct⟩ := List.pairwise_cons.1 hdistinct
    rw [Reading.ofMembers]
    cases hf : draftRecord.field? k with
    | some f =>
      obtain ⟨set, hset, hsetFrom⟩ := hm.read_field hf
      have hfresh : ∀ n ∈ members, n.1 ∉ k :: seen := by
        intro n hn hmem
        rcases List.mem_cons.1 hmem with heq | hmem
        · exact hne n hn heq.symm
        · exact hseen n hn hmem
      obtain ⟨seen', hread, hall⟩ := ih hdistinct hmembers hfresh (set e)
      refine ⟨seen', ?_, fun l hl => hall l ?_⟩
      · rw [Record.readMembers_field hf hk hset, hread, hsetFrom, List.map_cons]
      · simp only [List.mem_append, List.map_cons, List.mem_cons] at hl ⊢
        rcases hl with hl | hl | hl
        · exact .inl (.inr hl)
        · exact .inl (.inl hl)
        · exact .inr hl
    | none =>
      obtain ⟨seen', hread, hall⟩ := ih hdistinct hmembers hseen e
      have hskip : Record.ignoreRest o k (.ofTree t) e = .ok e := by
        rw [Record.ignoreRest, Reading.skip_ofTree]
      refine ⟨seen', ?_, fun l hl hfield => hall l ?_ hfield⟩
      · rw [Record.readMembers_rest hf hskip, hread, List.map_cons, setFrom_cons_of_no_field hf]
      · simp only [List.mem_append, List.map_cons, List.mem_cons] at hl ⊢
        rcases hl with hl | rfl | hl
        · exact .inl hl
        · rw [hf] at hfield
          cases hfield
        · exact .inr hl

theorem draftRecord_decode {outer : Origin} (henter : outer.enter = .ok o)
    (hdistinct : Distinct members) (hreads : ∀ m ∈ members, d.Reads o m)
    (hid : "id" ∈ members.map (·.1)) (htag : "type" ∈ members.map (·.1)) :
    draftRecord.decode outer (.ofTree (.object members)) =
      .ok (draftRecord.blank.setFrom d (members.map (·.1))) := by
  obtain ⟨seen, hread, hall⟩ := readMembers_setFrom hdistinct hreads (fun _ _ => List.not_mem_nil)
    draftRecord.blank
  have hseen : "id" ∈ seen ∧ "type" ∈ seen := ⟨hall "id" hid rfl, hall "type" htag rfl⟩
  refine Record.readObject_of_readMembers henter hread ?_
  simp [Record.missing?, draftRecord, Field.need, Field.allow, hseen]

end Members

/-- The members of a node with an id, a tag that no known category has, and an object for its
attributes, for which the reader has room. The position may be missing, and so may the object, or
be nothing, if there are no attributes. Members that no node has may stand between these. -/
structure IsUnrecognized (o : Origin) (members : List (String × Tree)) (id tag : String)
    (data : List (String × Tree)) : Prop where
  distinct : Distinct members
  hasId : ("id", .text id) ∈ members
  hasTag : ("type", .text tag) ∈ members
  unknown : tag ∉ Category.knownTags
  position : ∀ t, ("position", t) ∈ members → ∃ p, Position.decoder o (.ofTree t) = .ok p
  hasData : ("data", .object data) ∈ members ∧ o.Allows (Tree.object data).depth ∨
    (∀ t, ("data", t) ∈ members → t = .null) ∧ data = []
  /-- Of several labels the last one counts. -/
  label : ∀ t, lookupMember? "label" data = some t → t = .null ∨ ∃ l, t = .text l

namespace IsUnrecognized

variable {o outer : Origin} {members data : List (String × Tree)} {id tag : String}

theorem exists_position (h : IsUnrecognized o members id tag data) :
    ∃ p, (∀ t, ("position", t) ∈ members → Position.decoder o (.ofTree t) = .ok p) ∧
      ("position" ∉ members.map (·.1) → p = .origin) := by
  by_cases hposition : ∃ t, ("position", t) ∈ members
  · obtain ⟨t, ht⟩ := hposition
    obtain ⟨p, hp⟩ := h.position t ht
    refine ⟨p, fun u hu => ?_, fun hnot => absurd (List.mem_map_of_mem ht) hnot⟩
    rwa [h.distinct.value_unique hu ht]
  · exact ⟨.origin, fun t ht => absurd ⟨t, ht⟩ hposition, fun _ => rfl⟩

theorem exists_data (h : IsUnrecognized o members id tag data) :
    ∃ t, (∀ u, ("data", u) ∈ members → u = t ∧ o.Allows t.depth) ∧
      ("data" ∉ members.map (·.1) → t = .null) ∧
      (if t = .null then .object [] else t) = Tree.object data := by
  rcases h.hasData with ⟨hdata, hroom⟩ | ⟨hnull, rfl⟩
  · refine ⟨.object data, fun u hu => ⟨h.distinct.value_unique hu hdata, hroom⟩, ?_, rfl⟩
    exact fun hnot => absurd (List.mem_map_of_mem hdata) hnot
  · exact ⟨.null, fun u hu => ⟨hnull u hu, o.allows_zero⟩, fun _ => rfl, rfl⟩

/-- All that is left to decode is the object of the attributes. -/
theorem decoder_eq_finish (h : IsUnrecognized o members id tag data)
    (henter : outer.enter = .ok o) :
    ∃ p t, decoder outer (.ofTree (.object members)) = Draft.finish ⟨id, tag, p, t⟩ ∧
      (if t = .null then .object [] else t) = Tree.object data := by
  obtain ⟨p, hposition, horigin⟩ := h.exists_position
  obtain ⟨t, hdata, hnull, hobject⟩ := h.exists_data
  refine ⟨p, t, ?_, hobject⟩
  have hreads : ∀ m ∈ members, Draft.Reads o ⟨id, tag, p, t⟩ m := by
    rintro ⟨k, u⟩ hu
    refine ⟨?_, ?_, ?_, ?_⟩
    · rintro rfl
      exact h.distinct.value_unique hu h.hasId
    · rintro rfl
      exact h.distinct.value_unique hu h.hasTag
    · rintro rfl
      exact hposition u hu
    · rintro rfl
      exact hdata u hu
  have hid : "id" ∈ members.map (·.1) := List.mem_map_of_mem h.hasId
  have htag : "type" ∈ members.map (·.1) := List.mem_map_of_mem h.hasTag
  have hsame : draftRecord.blank.setFrom ⟨id, tag, p, t⟩ (members.map (·.1)) = ⟨id, tag, p, t⟩ := by
    simp only [Draft.setFrom, if_pos hid, if_pos htag, Draft.mk.injEq, true_and]
    constructor
    · split
      · rfl
      · rename_i hnot
        exact (horigin hnot).symm
    · split
      · rfl
      · rename_i hnot
        exact (hnull hnot).symm
  rw [decoder, draftRecord_decode henter h.distinct hreads hid htag, hsame]
  rfl

end IsUnrecognized

end Node

/-! Saving the attributes -/

namespace Kind

/-- The label of sorted attributes stands between the others. -/
theorem exists_givesLabel {members : List (String × Tree)} (h : Ascending members)
    (hlabel : ∀ t, lookupMember? "label" members = some t → t = .null ∨ ∃ l, t = .text l) :
    ∃ before given after label, members = before ++ given ++ after ∧ GivesLabel given label ∧
      ∀ m ∈ before ++ after, m.1 ≠ "label" := by
  cases hlookup : lookupMember? "label" members with
  | none =>
    refine ⟨members, [], [], none, by simp, .absent, ?_⟩
    rintro ⟨k, t⟩ hm rfl
    rw [List.append_nil] at hm
    rw [lookupMember?_of_mem h.distinct hm] at hlookup
    cases hlookup
  | some t =>
    obtain ⟨before, after, rfl⟩ := List.append_of_mem (mem_of_lookupMember? hlookup)
    have hothers : ∀ m ∈ before ++ after, m.1 ≠ "label" := by
      have hdistinct : Distinct (("label", t) :: (before ++ after)) :=
        h.distinct.perm List.perm_middle
      exact fun m hm => ((List.pairwise_cons.1 hdistinct).1 m hm).symm
    rcases hlabel t hlookup with rfl | ⟨l, rfl⟩
    · exact ⟨before, [("label", .null)], after, none, by simp, .null, hothers⟩
    · exact ⟨before, [("label", .text l)], after, some l, by simp, .text l, hothers⟩

/-- A label that is nothing is left out, and nothing else is. -/
theorem GivesLabel.filter_ne_null {before given after : List (String × Tree)}
    {label : Option String} (h : GivesLabel given label)
    (hothers : ∀ m ∈ before ++ after, m.1 ≠ "label") :
    (before ++ given ++ after).filter (· ≠ ("label", .null)) =
      before ++ textMember "label" label ++ after := by
  have hkept : ∀ ms : List (String × Tree), (∀ m ∈ ms, m.1 ≠ "label") →
      ms.filter (· ≠ ("label", .null)) = ms := by
    intro ms hms
    refine List.filter_eq_self.2 fun m hm => ?_
    simp only [ne_eq, decide_eq_true_eq]
    rintro rfl
    exact hms _ hm rfl
  rw [List.forall_mem_append] at hothers
  rw [List.filter_append, List.filter_append, hkept before hothers.1, hkept after hothers.2]
  cases h with
  | absent => rfl
  | null => simp [textMember]
  | text l => simp [textMember]

theorem distinct_textMember_append {members : List (String × Tree)} (label : Option String)
    (h : Distinct members) (hothers : ∀ m ∈ members, m.1 ≠ "label") :
    Distinct (textMember "label" label ++ members) := by
  cases label with
  | none => exact h
  | some l => exact List.pairwise_cons.2 ⟨fun m hm => (hothers m hm).symm, h⟩

/-- Sorted attributes of no known category are saved as they were, but for a label that is
nothing. -/
theorem runTree_other_of_sorted (tag : String) (a : Attributes)
    (hlabel : ∀ t, lookupMember? "label" a.members = some t → t = .null ∨ ∃ l, t = .text l) :
    ∃ label extra,
      (decoder (.other tag)).runTree (.object a.members) = .ok (label, .other tag extra) ∧
        (∀ m ∈ extra.members, m.1 ≠ "label") ∧
        sortMembers (textMember "label" label ++ extra.members) =
          a.members.filter (· ≠ ("label", .null)) := by
  obtain ⟨members, hascending, hvalues⟩ := a
  obtain ⟨before, given, after, label, rfl, hgiven, hothers⟩ :=
    exists_givesLabel hascending hlabel
  have hsub : (before ++ after).Sublist (before ++ given ++ after) := by
    rw [List.append_assoc]
    exact (List.sublist_append_right given after).append_left before
  have hsorted : (Tree.object (before ++ after)).IsSorted :=
    ⟨List.Pairwise.sublist hsub hascending, Tree.valuesSorted_iff.2 fun m hm =>
      Tree.valuesSorted_iff.1 hvalues m (hsub.subset hm)⟩
  have hread := decoder_other tag hgiven (fun m hm => hothers m (List.mem_append_left _ hm))
    fun m hm => hothers m (List.mem_append_right _ hm)
  have hextra : Attributes.ofMembers (before ++ after) = ⟨before ++ after, hsorted⟩ :=
    Attributes.ofMembers_members ⟨before ++ after, hsorted⟩
  refine ⟨label, ⟨before ++ after, hsorted⟩, by rw [hread, hextra], hothers, ?_⟩
  have hfilter := hgiven.filter_ne_null hothers
  have hresult : Ascending (before ++ textMember "label" label ++ after) :=
    hfilter ▸ hascending.filter _
  have hperm : (textMember "label" label ++ (before ++ after)).Perm
      (before ++ textMember "label" label ++ after) := by
    rw [List.append_assoc]
    exact List.perm_append_comm_assoc _ _ _
  have hdistinct := distinct_textMember_append label hsorted.1.distinct hothers
  rw [hfilter]
  exact (ascending_sortMembers _).eq_of_perm hresult ((perm_sortMembers hdistinct).trans hperm)

end Kind

namespace Node

/-- Whatever its label is, a node of no known category is saved with that label and its other
attributes. -/
theorem toTree_other {n : Node} {tag : String} {extra : Attributes}
    (h : n.kind = .other tag extra) (hextra : ∀ m ∈ extra.members, m.1 ≠ "label") :
    n.toTree = .object [("id", .text n.id), ("type", .text tag), ("position", n.position.toTree),
        ("data", .object (sortMembers (textMember "label" n.label ++ extra.members)))] ∧
      (Tree.object (sortMembers (textMember "label" n.label ++ extra.members))).IsSorted ∧
      lookupMember? "label" (sortMembers (textMember "label" n.label ++ extra.members)) =
        n.label.map .text ∧
      (sortMembers (textMember "label" n.label ++ extra.members)).filter (·.1 ≠ "label") =
        extra.members := by
  have hdata : ((Kind.other tag extra).toTree n.label).sorted = _ :=
    Kind.sorted_toTree_other n.label
  refine ⟨?_, ?_, ?_, ?_⟩
  · rw [toTree, category, h, hdata]
    rfl
  · rw [← hdata]
    exact Tree.isSorted_sorted _
  · rw [lookupMember?_sortMembers, lookupMember?_append, lookupMember?_eq_none hextra]
    cases n.label <;> rfl
  · have hdistinct :=
      Kind.distinct_textMember_append n.label extra.sorted.1.distinct hextra
    have hlabel : (textMember "label" n.label).filter (·.1 ≠ "label") = [] := by
      cases n.label <;> rfl
    have hrest : extra.members.filter (·.1 ≠ "label") = extra.members :=
      List.filter_eq_self.2 fun m hm => by simpa using hextra m hm
    rw [← sortMembers_filter _ hdistinct, List.filter_append, hlabel, hrest, List.nil_append,
      sortMembers_of_ascending extra.sorted.1]

/-- The sorted form of an object, less a label that is nothing. -/
def keptAttributes (data : List (String × Tree)) : List (String × Tree) :=
  (Attributes.ofMembers data).members.filter (· ≠ ("label", .null))

theorem lookupMember?_keptAttributes (data : List (String × Tree)) (name : String) :
    lookupMember? name (keptAttributes data) =
      ((lookupMember? name data).map Tree.sorted).filter fun t => (name, t) ≠ ("label", .null) := by
  have hdistinct := (Attributes.ofMembers data).sorted.1.distinct
  rw [keptAttributes, lookupMember?_filter _ hdistinct, Attributes.ofMembers,
    lookupMember?_sortMembers, Tree.sortedMembers_eq_map, lookupMember?_map]

/-- Where no name occurs twice, at most the order of the members changes, at every depth. -/
theorem reordered_keptAttributes {data : List (String × Tree)}
    (h : (Reading.ofTree (.object data)).HasDistinctNames) :
    (Reading.ofTree (.object (data.filter (· ≠ ("label", .null))))).Reordered
      (.ofTree (.object (keptAttributes data))) := by
  obtain ⟨hdistinct, hvalues⟩ := Reading.hasDistinctNames_ofTree_object.1 h
  have hfiltered : (Reading.ofTree (.object (data.filter (· ≠ ("label", .null))))).HasDistinctNames :=
    Reading.hasDistinctNames_ofTree_object.2
      ⟨hdistinct.filter _, fun m hm => hvalues m (List.mem_filter.1 hm).1⟩
  have hsorted : (Tree.object (data.filter (· ≠ ("label", .null)))).sorted =
      .object (keptAttributes data) := by
    -- Sorting makes no value null, and none that is null something else.
    have hnull : ∀ m : String × Tree,
        decide ((m.1, m.2.sorted) ≠ ("label", .null)) = decide (m ≠ ("label", .null)) := by
      intro m
      simp only [ne_eq, Prod.ext_iff, Tree.sorted_eq_null_iff]
    have hnames : Distinct (data.map fun m => (m.1, m.2.sorted)) :=
      hdistinct.map _ fun _ _ hmn => hmn
    have hfilter : (data.filter (· ≠ ("label", .null))).map (fun m => (m.1, m.2.sorted)) =
        (data.map fun m => (m.1, m.2.sorted)).filter (· ≠ ("label", .null)) := by
      rw [List.filter_map]
      exact congrArg _ (List.filter_congr fun m _ => (hnull m).symm)
    simp only [Tree.sorted, keptAttributes, Attributes.ofMembers, Tree.sortedMembers_eq_map, hfilter,
      sortMembers_filter _ hnames]
  rw [← hsorted]
  exact Tree.reordered_sorted _ hfiltered

/-- A node of no known category is read with its tag and saved with its id, its tag and its
attributes: each name has the value it had, sorted at every depth, but a label that is nothing is
left out. What is not there, or is nothing, is saved as no attributes. A new label changes the
member of that name and no other. -/
theorem unrecognized_kept {outer o : Origin} {members data : List (String × Tree)}
    {id tag : String} (henter : outer.enter = .ok o) (h : IsUnrecognized o members id tag data) :
    ∃ n attributes,
      decoder outer (.ofTree (.object members)) = .ok n ∧ n.id = id ∧ n.category = .other tag ∧
      n.toTree = .object [("id", .text id), ("type", .text tag),
        ("position", n.position.toTree), ("data", .object attributes)] ∧
      (Tree.object attributes).IsSorted ∧
      (∀ name, lookupMember? name attributes =
        ((lookupMember? name data).map Tree.sorted).filter fun t =>
          (name, t) ≠ ("label", .null)) ∧
      ((Reading.ofTree (.object data)).HasDistinctNames →
        (Reading.ofTree (.object (data.filter (· ≠ ("label", .null))))).Reordered
          (.ofTree (.object attributes))) ∧
      (data = [] → attributes = []) ∧
      ∀ label, ∃ relabelled,
        (n.relabel label).toTree = .object [("id", .text id), ("type", .text tag),
          ("position", n.position.toTree), ("data", .object relabelled)] ∧
        (Tree.object relabelled).IsSorted ∧
        lookupMember? "label" relabelled = label.map .text ∧
        relabelled.filter (·.1 ≠ "label") = attributes.filter (·.1 ≠ "label") := by
  obtain ⟨p, t, hdecode, hobject⟩ := h.decoder_eq_finish henter
  have hlabel : ∀ u, lookupMember? "label" (Attributes.ofMembers data).members = some u →
      u = .null ∨ ∃ l, u = .text l := by
    intro u hu
    rw [Attributes.ofMembers, lookupMember?_sortMembers, Tree.sortedMembers_eq_map,
      lookupMember?_map] at hu
    obtain ⟨v, hv, rfl⟩ := Option.map_eq_some_iff.1 hu
    rcases h.label v hv with rfl | ⟨l, rfl⟩
    · exact .inl rfl
    · exact .inr ⟨l, rfl⟩
  obtain ⟨label, extra, hread, hextra, hkept⟩ :=
    Kind.runTree_other_of_sorted tag (Attributes.ofMembers data) hlabel
  have hcategory : Category.ofTag tag = .other tag :=
    Category.ofTag_eq_other_iff.2 ⟨h.unknown, rfl⟩
  have hsorted : (Tree.object data).sorted = .object (Attributes.ofMembers data).members := rfl
  have hfinish : Draft.finish ⟨id, tag, p, t⟩ = .ok ⟨id, p, label, .other tag extra⟩ := by
    simp only [Draft.finish, hobject, hcategory, hsorted, hread, ok_bind]
    rfl
  have hsaved := fun label' => toTree_other (n := ⟨id, p, label', .other tag extra⟩) rfl hextra
  obtain ⟨htree, hattributes, -, hothers⟩ := hsaved label
  rw [hkept] at htree hattributes hothers
  refine ⟨_, keptAttributes data, hdecode.trans hfinish, rfl, rfl, htree, hattributes,
    lookupMember?_keptAttributes data, reordered_keptAttributes, ?_, fun label' => ?_⟩
  · rintro rfl
    rfl
  · obtain ⟨htree', hattributes', hlabel', hothers'⟩ := hsaved label'
    exact ⟨_, htree', hattributes', hlabel', hothers'.trans hothers.symm⟩

/-- The members of a gateway, with a label that is nothing, members in no order, and one that no
node has. -/
def gatewayMembers : List (String × Tree) :=
  [("data", .object [("zone", .object [("name", .text "b"), ("area", .null)]), ("label", .null)]),
   ("type", .text "gateway"), ("selected", .bool true), ("id", .text "gw")]

theorem unrecognized_gateway :
    ∃ data, IsUnrecognized .value gatewayMembers "gw" "gateway" data ∧
      ∃ n attributes, decoder.runTree (.object gatewayMembers) = .ok n ∧
        n.category = .other "gateway" ∧
        n.toTree = .object [("id", .text "gw"), ("type", .text "gateway"),
          ("position", n.position.toTree), ("data", .object attributes)] ∧
        lookupMember? "label" attributes = none ∧
        lookupMember? "zone" attributes =
          some (.object [("area", .null), ("name", .text "b")]) := by
  have h : IsUnrecognized .value gatewayMembers "gw" "gateway"
      [("zone", .object [("name", .text "b"), ("area", .null)]), ("label", .null)] := by
    refine ⟨?_, ?_, ?_, by decide, ?_, .inl ⟨?_, trivial⟩, ?_⟩
    · simp [gatewayMembers, Distinct]
    · simp [gatewayMembers]
    · simp [gatewayMembers]
    · simp [gatewayMembers]
    · simp [gatewayMembers]
    · intro t ht
      exact .inl (Option.some.inj ht).symm
  have henter : Origin.value.enter = .ok .value := rfl
  obtain ⟨n, attributes, hdecode, -, hcategory, htree, -, hlookup, -⟩ := unrecognized_kept henter h
  exact ⟨_, h, n, attributes, hdecode, hcategory, htree, (hlookup "label").trans rfl,
    (hlookup "zone").trans rfl⟩

end Node

end FlowDiagram
