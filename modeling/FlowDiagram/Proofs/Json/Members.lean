import FlowDiagram.Proofs.Json.OrderFree
/-! Members by their names: what sorting makes of them, and which of them are there. -/

namespace FlowDiagram.Json

section Members

variable {α : Type} {k name : String} {v : α} {members : List (String × α)}

theorem lookupMember?_eq_none (h : ∀ m ∈ members, m.1 ≠ k) : lookupMember? k members = none := by
  induction members with
  | nil => rfl
  | cons m members ih =>
    rw [List.forall_mem_cons] at h
    simp [lookupMember?, ih h.2, h.1]

theorem lookupMember?_insertMember (h : Ascending members) :
    lookupMember? k (insertMember name v members) =
      if name = k then some v else lookupMember? k members := by
  induction members with
  | nil => simp [insertMember, lookupMember?]
  | cons m members ih =>
    obtain ⟨l, w⟩ := m
    obtain ⟨hl, hrest⟩ := List.pairwise_cons.1 h
    simp only [insertMember]
    split
    · -- The new name comes before all others, so none of them is the name that is looked for.
      rename_i hlt
      by_cases hk : name = k
      · subst k
        have hnone : lookupMember? name ((l, w) :: members) = none := by
          refine lookupMember?_eq_none (List.forall_mem_cons.2 ⟨?_, fun m hm => ?_⟩)
          · exact (String.ne_of_lt hlt).symm
          · exact (String.ne_of_lt (String.lt_trans hlt (hl m hm))).symm
        rw [lookupMember?, hnone]
        simp
      · rw [lookupMember?]
        simp [hk]
    · split
      · rename_i hname
        subst l
        have hnone : lookupMember? name members = none :=
          lookupMember?_eq_none fun m hm => (String.ne_of_lt (hl m hm)).symm
        by_cases hk : name = k
        · subst k
          simp [lookupMember?, hnone]
        · simp [lookupMember?, hk]
      · rename_i hname
        rw [lookupMember?, ih hrest, lookupMember?]
        by_cases hk : name = k
        · simp [hk]
        · simp [hk]

theorem lookupMember?_foldl_insertMember (news : List (String × α)) (h : Ascending members) :
    lookupMember? k (news.foldl (fun sorted (k, v) => insertMember k v sorted) members) =
      (lookupMember? k news).or (lookupMember? k members) := by
  induction news generalizing members with
  | nil => rfl
  | cons n news ih =>
    rw [List.foldl_cons, ih (ascending_insertMember h), lookupMember?_insertMember h, lookupMember?]
    by_cases hk : n.1 = k <;> simp [hk]

/-- Sorting keeps, of the members of one name, the one that counts. -/
theorem lookupMember?_sortMembers : lookupMember? k (sortMembers members) =
    lookupMember? k members := by
  rw [sortMembers, lookupMember?_foldl_insertMember members List.Pairwise.nil]
  simp [lookupMember?]

theorem lookupMember?_append (ms ns : List (String × α)) :
    lookupMember? k (ms ++ ns) = (lookupMember? k ns).or (lookupMember? k ms) := by
  induction ms with
  | nil => simp [lookupMember?]
  | cons m ms ih => rw [List.cons_append, lookupMember?, ih, lookupMember?, Option.or_assoc]

theorem lookupMember?_map {β : Type} (f : α → β) (ms : List (String × α)) :
    lookupMember? k (ms.map fun m => (m.1, f m.2)) = (lookupMember? k ms).map f := by
  induction ms with
  | nil => rfl
  | cons m ms ih =>
    rw [List.map_cons, lookupMember?, ih, lookupMember?, Option.map_or]
    by_cases hk : m.1 = k <;> simp [hk]

/-- Where no name occurs twice, a name that stays has its value. -/
theorem lookupMember?_filter (p : String × α → Bool) (h : Distinct members) :
    lookupMember? k (members.filter p) = (lookupMember? k members).filter fun v => p (k, v) := by
  induction members with
  | nil => rfl
  | cons m members ih =>
    obtain ⟨l, w⟩ := m
    obtain ⟨hl, hrest⟩ := List.pairwise_cons.1 h
    have ih := ih hrest
    by_cases hk : l = k
    · subst k
      have hnone : lookupMember? l members = none :=
        lookupMember?_eq_none fun m hm => (hl m hm).symm
      rw [hnone] at ih
      cases hp : p (l, w) with
      | true => simp [lookupMember?, hp, ih, hnone, Option.filter]
      | false => simp [lookupMember?, hp, ih, hnone, Option.filter]
    · cases hp : p (l, w) with
      | true => simp [lookupMember?, hp, hk, ih]
      | false => simp [lookupMember?, hp, hk, ih]

theorem mem_of_lookupMember? (h : lookupMember? k members = some v) : (k, v) ∈ members := by
  induction members with
  | nil => cases h
  | cons m members ih =>
    obtain ⟨l, w⟩ := m
    rw [lookupMember?, Option.or_eq_some_iff] at h
    rcases h with h | ⟨-, h⟩
    · exact List.mem_cons_of_mem _ (ih h)
    · split at h
      · rename_i hk
        obtain rfl := Option.some.inj h
        exact hk ▸ List.mem_cons_self
      · cases h

theorem lookupMember?_of_mem (hdistinct : Distinct members) (h : (k, v) ∈ members) :
    lookupMember? k members = some v := by
  obtain ⟨before, after, rfl⟩ := List.append_of_mem h
  have hafter := (List.pairwise_append.1 hdistinct).2.1
  have hnone : lookupMember? k after = none :=
    lookupMember?_eq_none fun m hm => ((List.pairwise_cons.1 hafter).1 m hm).symm
  simp [lookupMember?_append, lookupMember?, hnone]

theorem Distinct.value_unique {w : α} (h : Distinct members) (hv : (k, v) ∈ members)
    (hw : (k, w) ∈ members) : v = w :=
  Option.some.inj ((lookupMember?_of_mem h hv).symm.trans (lookupMember?_of_mem h hw))

/-- Members that are left out can be left out before sorting. -/
theorem sortMembers_filter (p : String × α → Bool) (h : Distinct members) :
    sortMembers (members.filter p) = (sortMembers members).filter p := by
  have hperm : (sortMembers (members.filter p)).Perm ((sortMembers members).filter p) :=
    (perm_sortMembers (h.filter p)).trans ((perm_sortMembers h).symm.filter p)
  exact (ascending_sortMembers _).eq_of_perm ((ascending_sortMembers members).filter p) hperm

end Members

/-! Trees -/

namespace Reading

theorem hasDistinctNames_ofTree_object {members : List (String × Tree)} :
    (ofTree (.object members)).HasDistinctNames ↔
      Distinct members ∧ ∀ m ∈ members, (ofTree m.2).HasDistinctNames := by
  rw [ofTree, hasDistinctNames_object, namesDiffer_ofMembers, ofMembers_eq_map, List.forall_mem_map]

mutual
/-- A tree has no flaws to be found where it is passed over. -/
theorem skip_ofTree : ∀ t : Tree, (ofTree t).skip = .ok ()
  | .scalar _ => rfl
  | .array items => by
    rw [ofTree, skip, skipItems_ofItems items]
    rfl
  | .object members => by
    rw [ofTree, skip, skipMembers_ofMembers members]
    rfl

theorem skipItems_ofItems : ∀ items : List Tree, skipItems (ofItems items) = .ok ()
  | [] => rfl
  | x :: xs => by rw [ofItems, skipItems, skip_ofTree x, ok_bind, skipItems_ofItems xs]

theorem skipMembers_ofMembers :
    ∀ members : List (String × Tree), skipMembers (ofMembers members) = .ok ()
  | [] => rfl
  | (_, x) :: xs => by rw [ofMembers, skipMembers, skip_ofTree x, ok_bind, skipMembers_ofMembers xs]
end

end Reading

namespace Tree

open Reading

mutual
/-- Sorting only changes the order of members, at every depth. -/
theorem reordered_sorted :
    ∀ t : Tree, (ofTree t).HasDistinctNames → (ofTree t).Reordered (ofTree t.sorted)
  | .scalar _, _ => .refl
  | .array items, h => reordered_sortedItems [] items (hasDistinctNames_array.1 h)
  | .object members, h => by
    have hvalues := reordered_sortedMembers [] members (hasDistinctNames_object.1 h).2
    have hdistinct : Distinct (sortedMembers members) := by
      rw [sortedMembers_eq_map]
      exact (hasDistinctNames_ofTree_object.1 h).1.map _ fun _ _ hmn => hmn
    have hperm := (perm_sortMembers hdistinct).symm
    have hsort : (Reading.object (ofMembers (sortedMembers members)) none).Reordered
        (.object (ofMembers (sortMembers (sortedMembers members))) none) := by
      rw [ofMembers_eq_map, ofMembers_eq_map]
      exact .of_perm (hperm.map _) none
    exact hvalues.trans hsort

theorem reordered_sortedItems : ∀ (before : List Reading) (items : List Tree),
    (∀ x ∈ ofItems items, x.HasDistinctNames) →
      (Reading.array (before ++ ofItems items) none).Reordered
        (.array (before ++ ofItems (sortedItems items)) none)
  | _, [], _ => .refl
  | before, x :: xs, h => by
    have hx := (reordered_sorted x (h _ List.mem_cons_self)).item before (ofItems xs) none
    have hxs := reordered_sortedItems (before ++ [ofTree x.sorted]) xs fun y hy =>
      h y (List.mem_cons_of_mem _ hy)
    rw [List.append_assoc, List.append_assoc] at hxs
    exact hx.trans hxs

theorem reordered_sortedMembers : ∀ (before : List (Name × Reading)) (members : List (String × Tree)),
    (∀ m ∈ ofMembers members, m.2.HasDistinctNames) →
      (Reading.object (before ++ ofMembers members) none).Reordered
        (.object (before ++ ofMembers (sortedMembers members)) none)
  | _, [], _ => .refl
  | before, (k, x) :: xs, h => by
    have hx := (reordered_sorted x (h _ List.mem_cons_self)).value before (ofMembers xs) (.ok k) none
    have hxs := reordered_sortedMembers (before ++ [(.ok k, ofTree x.sorted)]) xs fun m hm =>
      h m (List.mem_cons_of_mem _ hm)
    rw [List.append_assoc, List.append_assoc] at hxs
    exact hx.trans hxs
end

end Tree

end FlowDiagram.Json
