import FlowDiagram.Proofs.Json.Decoding
import FlowDiagram.Proofs.Json.Reordering
import FlowDiagram.Proofs.Json.Sorting
/-! Decoders for which the order of members does not count. -/

namespace FlowDiagram.Json

/-! Members that are sorted or passed over -/

theorem sortMembers_eq_of_perm {α : Type} {ms ns : List (String × α)} (h : ms.Perm ns)
    (hms : Distinct ms) : sortMembers ms = sortMembers ns := by
  have hns := hms.perm h
  refine (ascending_sortMembers ms).eq_of_perm (ascending_sortMembers ns) ?_
  exact (perm_sortMembers hms).trans (h.trans (perm_sortMembers hns).symm)

namespace Tree

theorem sorted_eq_null_iff {t : Tree} : t.sorted = .null ↔ t = .null := by
  cases t <;> simp [sorted]

theorem sortedMembers_eq_map (members : List (String × Tree)) :
    sortedMembers members = members.map fun m => (m.1, m.2.sorted) := by
  induction members with
  | nil => rfl
  | cons m members ih => simp [sortedMembers, ih]

theorem sortedItems_eq_map (items : List Tree) : sortedItems items = items.map sorted := by
  induction items with
  | nil => rfl
  | cons x items ih => simp [sortedItems, ih]

theorem sorted_object_of_perm {ms ns : List (String × Tree)} (h : ms.Perm ns)
    (hms : Distinct ms) : (object ms).sorted = (object ns).sorted := by
  have hdistinct : Distinct (ms.map fun m => (m.1, m.2.sorted)) := hms.map _ fun _ _ hmn => hmn
  simp only [sorted, sortedMembers_eq_map, sortMembers_eq_of_perm (h.map _) hdistinct]

end Tree

namespace Reading

theorem ofMembers_eq_map (ms : List (String × Tree)) :
    ofMembers ms = ms.map fun m => (.ok m.1, ofTree m.2) := by
  induction ms with
  | nil => rfl
  | cons m ms ih => simp [ofMembers, ih]

theorem namesDiffer_ofMembers {ms : List (String × Tree)} :
    NamesDiffer ((ofMembers ms).map (·.1)) ↔ Distinct ms := by
  simp only [ofMembers_eq_map, List.map_map, NamesDiffer, List.pairwise_map, Function.comp_apply]
  constructor
  · exact fun h => h.imp fun hmn heq => hmn _ rfl (congrArg Except.ok heq.symm)
  · refine fun h => h.imp fun hmn k hk hk' => hmn ?_
    exact Except.ok.inj (hk.trans hk'.symm)

theorem skipItems_append (xs ys : List Reading) :
    skipItems (xs ++ ys) = skipItems xs >>= fun _ => skipItems ys := by
  induction xs with
  | nil => rfl
  | cons x xs ih => simp only [List.cons_append, skipItems, ih, bind_assoc]

theorem skipMembers_append (ms ns : List (Name × Reading)) :
    skipMembers (ms ++ ns) = skipMembers ms >>= fun _ => skipMembers ns := by
  induction ms with
  | nil => rfl
  | cons m ms ih =>
    obtain ⟨name | name, x⟩ := m <;> simp only [List.cons_append, skipMembers, ih, bind_assoc]

theorem Exchange.skip_agree {x y : Reading} (h : x.Exchange y) : Agree Eq x.skip y.skip := by
  have hrefl : ∀ z : Except Flaw Unit, Agree Eq z z := Agree.refl fun _ => rfl
  induction h with
  | members before after m n ending =>
    have hcons : ∀ (m : Name × Reading) ms,
        skipMembers (m :: ms) = skipMembers [m] >>= fun _ => skipMembers ms :=
      fun m ms => skipMembers_append [m] ms
    simp only [skip, skipMembers_append before, bind_assoc]
    refine Agree.bind_same _ fun _ _ => ?_
    rw [hcons m (n :: after), hcons n after, hcons n (m :: after), hcons m after]
    simp only [bind_assoc]
    exact Agree.swap _ _ fun _ _ _ _ => hrefl _
  | item before after ending _ ih =>
    simp only [skip, skipItems_append before, skipItems, bind_assoc]
    exact Agree.bind_same _ fun _ _ => ih.bind fun _ _ _ _ _ => hrefl _
  | value before after name ending _ ih =>
    simp only [skip, skipMembers_append before, bind_assoc]
    refine Agree.bind_same _ fun _ _ => ?_
    cases name with
    | ok k =>
      simp only [skipMembers, bind_assoc]
      exact ih.bind fun _ _ _ _ _ => hrefl _
    | error f =>
      simp only [skipMembers, bind_assoc]
      exact Agree.bind_same _ fun _ _ => ih.bind fun _ _ _ _ _ => hrefl _

end Reading

/-! Values -/

namespace Decoder

variable {α β : Type}

/-- One exchange of members changes what is decoded no further than the relation allows. -/
def OrderFree (d : Decoder α) (R : α → α → Prop) : Prop :=
  ∀ ⦃o : Origin⦄ ⦃x y : Reading⦄, x.Exchange y → x.HasDistinctNames → Agree R (d o x) (d o y)

theorem OrderFree.map {R : α → α → Prop} {S : β → β → Prop} {d : Decoder α} {f : α → β}
    (h : d.OrderFree R) (hf : ∀ a b, R a b → S (f a) (f b)) : (d.map f).OrderFree S :=
  fun _ _ _ hxy hx => (h hxy hx).map hf

/-- What no exchange changes, no number of them changes. -/
theorem OrderFree.agree_of_reordered {d : Decoder α} (h : d.OrderFree Eq) (o : Origin)
    {x y : Reading} (hxy : x.Reordered y) (hx : x.HasDistinctNames) : Agree Eq (d o x) (d o y) := by
  have hboth : y.HasDistinctNames ∧ Agree Eq (d o x) (d o y) := by
    induction hxy with
    | refl => exact ⟨hx, Agree.refl (fun _ => rfl) _⟩
    | tail _ hyz ih => exact ⟨hyz.hasDistinctNames ih.1, ih.2.trans (h hyz ih.1)⟩
  exact hboth.2

/-! Scalars are not exchanged, and what is exchanged is no scalar. -/

theorem orderFree_textFor (expected : String) : (textFor expected).OrderFree Eq := by
  intro o x y hxy _
  cases hxy <;> exact .error _ _

theorem orderFree_text : text.OrderFree Eq := orderFree_textFor _

theorem orderFree_float : float.OrderFree Eq := by
  intro o x y hxy _
  cases hxy <;> exact .error _ _

theorem orderFree_natBelow (bound : Nat) (expected : String) :
    (natBelow bound expected).OrderFree Eq := by
  intro o x y hxy _
  cases hxy <;> exact .error _ _

theorem orderFree_optional {d : Decoder α} (h : d.OrderFree Eq) : (optional d).OrderFree Eq := by
  intro o x y hxy hx
  have hsome : Agree Eq ((d o x).map some) ((d o y).map some) :=
    (h hxy hx).map fun _ _ => congrArg some
  cases hxy <;> exact hsome

theorem agree_listItems {d : Decoder α} {o : Origin} {x y : Reading} (h : Agree Eq (d o x) (d o y))
    (before after : List Reading) :
    Agree Eq (listItems d o (before ++ x :: after)) (listItems d o (before ++ y :: after)) := by
  induction before with
  | nil =>
    refine h.bind fun a b _ _ hab => ?_
    subst hab
    exact Agree.refl (fun _ => rfl) _
  | cons z before ih =>
    refine Agree.bind_same _ fun a _ => ih.bind fun as bs _ _ h => ?_
    exact .ok (congrArg (a :: ·) h)

theorem orderFree_list {d : Decoder α} (h : d.OrderFree Eq) : (list d).OrderFree Eq := by
  intro o x y hxy hx
  cases hxy with
  | members | value => exact .error _ _
  | item before after ending hxy =>
    simp only [Reading.hasDistinctNames_array, List.forall_mem_append, List.forall_mem_cons] at hx
    refine Agree.bind_same _ fun o _ => (agree_listItems (h hxy hx.2.1) _ _).bind ?_
    intro as bs _ _ h
    subst h
    exact Agree.refl (fun _ => rfl) _

/-! Trees -/

theorem treeItems_append (o : Origin) (xs ys : List Reading) :
    treeItems o (xs ++ ys) =
      treeItems o xs >>= fun ts => treeItems o ys >>= fun us => .ok (ts ++ us) := by
  induction xs with
  | nil => cases h : treeItems o ys <;> simp [treeItems, h]
  | cons x xs ih =>
    simp only [List.cons_append, treeItems, ih, bind_assoc, pure, Except.pure, ok_bind]

theorem treeMembers_append (o : Origin) (ms ns : List (Name × Reading)) :
    treeMembers o (ms ++ ns) =
      treeMembers o ms >>= fun ts => treeMembers o ns >>= fun us => .ok (ts ++ us) := by
  induction ms with
  | nil => cases h : treeMembers o ns <;> simp [treeMembers, h]
  | cons m ms ih =>
    obtain ⟨f | k, x⟩ := m
    · rfl
    · simp only [List.cons_append, treeMembers, ih, bind_assoc, pure, Except.pure, ok_bind]

theorem treeMembers_exchange (o : Origin) (before after : List (Name × Reading))
    (m n : Name × Reading) :
    Agree List.Perm (treeMembers o (before ++ m :: n :: after))
      (treeMembers o (before ++ n :: m :: after)) := by
  have hcons : ∀ (m : Name × Reading) ms, treeMembers o (m :: ms) =
      treeMembers o [m] >>= fun ts => treeMembers o ms >>= fun us => .ok (ts ++ us) :=
    fun m ms => treeMembers_append o [m] ms
  rw [treeMembers_append, treeMembers_append o before]
  refine Agree.bind_same _ fun ts _ => ?_
  rw [hcons m (n :: after), hcons n after, hcons n (m :: after), hcons m after]
  simp only [bind_assoc, ok_bind]
  refine Agree.swap _ _ fun us vs _ _ => Agree.bind_same _ fun ws _ => .ok ?_
  refine List.Perm.append_left ts ?_
  simp only [← List.append_assoc]
  exact List.perm_append_comm.append_right ws

theorem distinct_of_treeMembers {o : Origin} {ms : List (Name × Reading)}
    {ts : List (String × Tree)} (h : treeMembers o ms = .ok ts)
    (hms : Reading.NamesDiffer (ms.map (·.1))) : Distinct ts := by
  obtain ⟨rfl, -⟩ := (treeMembers_eq_ok_iff ms o ts).1 h
  exact Reading.namesDiffer_ofMembers.1 hms

/-- The order of members is lost when a tree is sorted. -/
theorem orderFree_tree : OrderFree tree fun t u => t.sorted = u.sorted := by
  intro o x y hxy hx
  induction hxy generalizing o with
  | members before after m n ending =>
    rw [Reading.hasDistinctNames_object] at hx
    simp only [tree]
    refine Agree.bind_same _ fun o _ => (treeMembers_exchange o before after m n).bind ?_
    intro ts us hts _ hperm
    refine Agree.bind_same _ fun _ _ => .ok ?_
    -- Only here do the names have to differ: of two members of one name the last counts.
    exact Tree.sorted_object_of_perm hperm (distinct_of_treeMembers hts hx.1)
  | item before after ending _ ih =>
    simp only [Reading.hasDistinctNames_array, List.forall_mem_append, List.forall_mem_cons] at hx
    simp only [tree, treeItems_append _ before, treeItems, bind_assoc, ok_bind, pure, Except.pure]
    refine Agree.bind_same _ fun o _ => Agree.bind_same _ fun ts _ => (ih hx.2.1).bind ?_
    intro t u _ _ htu
    refine Agree.bind_same _ fun us _ => Agree.bind_same _ fun _ _ => .ok ?_
    simp only [Tree.sorted, Tree.sortedItems_eq_map, List.map_append, List.map_cons, htu]
  | value before after name ending _ ih =>
    simp only [Reading.hasDistinctNames_object, List.forall_mem_append, List.forall_mem_cons] at hx
    cases name with
    | error f =>
      simp only [tree, treeMembers_append _ before, treeMembers, bind_assoc]
      exact Agree.bind_same _ fun o _ => Agree.bind_same _ fun ts _ => .error _ _
    | ok k =>
      simp only [tree, treeMembers_append _ before, treeMembers, bind_assoc, ok_bind, pure,
        Except.pure]
      refine Agree.bind_same _ fun o _ => Agree.bind_same _ fun ts _ => (ih hx.2.2.1).bind ?_
      intro t u _ _ htu
      refine Agree.bind_same _ fun us _ => Agree.bind_same _ fun _ _ => .ok ?_
      simp only [Tree.sorted, Tree.sortedMembers_eq_map, List.map_append, List.map_cons, htu]

end Decoder

end FlowDiagram.Json
