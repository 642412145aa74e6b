import FlowDiagram.Proofs.Json.Decoding
import FlowDiagram.Proofs.Json.Sorting
/-! Parts of trees: how deep they lie, and that they have no numbers of their own. -/

namespace FlowDiagram.Json

namespace Tree

/-- One tree lies so many levels inside another. -/
structure Inside (t u : Tree) (levels : Nat) : Prop where
  depth : t.depth + levels ≤ u.depth
  numbers : ∀ n ∈ t.numbers, n ∈ u.numbers

theorem Inside.refl (t : Tree) : t.Inside t 0 := ⟨Nat.le_refl _, fun _ hn => hn⟩

theorem Inside.trans {t u v : Tree} {j k : Nat} (htu : t.Inside u j) (huv : u.Inside v k) :
    t.Inside v (j + k) := by
  obtain ⟨hdepth, hnumbers⟩ := htu
  obtain ⟨hdepth', hnumbers'⟩ := huv
  exact ⟨by omega, fun n hn => hnumbers' n (hnumbers n hn)⟩

/-- The values directly inside an array or an object. -/
def children : Tree → List Tree
  | .scalar _ => []
  | .array items => items
  | .object members => members.map (·.2)

theorem itemsDepth_le_iff {items : List Tree} {limit : Nat} :
    itemsDepth items ≤ limit ↔ ∀ x ∈ items, x.depth ≤ limit := by
  induction items with
  | nil => simp [itemsDepth]
  | cons x items ih => simp only [itemsDepth, Nat.max_le, ih, List.forall_mem_cons]

theorem valuesDepth_le_iff {members : List (String × Tree)} {limit : Nat} :
    valuesDepth members ≤ limit ↔ ∀ m ∈ members, m.2.depth ≤ limit := by
  induction members with
  | nil => simp [valuesDepth]
  | cons m members ih => simp only [valuesDepth, Nat.max_le, ih, List.forall_mem_cons]

theorem mem_itemNumbers {items : List Tree} {n : Number} :
    n ∈ itemNumbers items ↔ ∃ x ∈ items, n ∈ x.numbers := by
  induction items with
  | nil => simp [itemNumbers]
  | cons x items ih => simp [itemNumbers, ih]

theorem mem_memberNumbers {members : List (String × Tree)} {n : Number} :
    n ∈ memberNumbers members ↔ ∃ m ∈ members, n ∈ m.2.numbers := by
  induction members with
  | nil => simp [memberNumbers]
  | cons m members ih => simp [memberNumbers, ih]

theorem inside_of_mem_children {x t : Tree} (h : x ∈ t.children) : x.Inside t 1 := by
  cases t with
  | scalar s => cases h
  | array items =>
    have hdepth := itemsDepth_le_iff.1 (Nat.le_refl _) x h
    exact ⟨Nat.succ_le_succ hdepth, fun n hn => mem_itemNumbers.2 ⟨x, h, hn⟩⟩
  | object members =>
    obtain ⟨m, hm, rfl⟩ := List.mem_map.1 h
    have hdepth := valuesDepth_le_iff.1 (Nat.le_refl _) m hm
    exact ⟨Nat.succ_le_succ hdepth, fun n hn => mem_memberNumbers.2 ⟨m, hm, hn⟩⟩

theorem mem_children_ofTree {r : Reading} {t : Tree} (h : r ∈ (Reading.ofTree t).children) :
    ∃ x ∈ t.children, r = .ofTree x := by
  cases t with
  | scalar s => cases h
  | array items =>
    simp only [Reading.ofTree, Reading.children, Reading.ofItems_eq_map] at h
    obtain ⟨x, hx, rfl⟩ := List.mem_map.1 h
    exact ⟨x, hx, rfl⟩
  | object members =>
    simp only [Reading.ofTree, Reading.children] at h
    induction members with
    | nil => cases h
    | cons m members ih =>
      rcases List.mem_cons.1 h with rfl | h
      · exact ⟨m.2, List.mem_cons_self, rfl⟩
      · obtain ⟨x, hx, rfl⟩ := ih h
        exact ⟨x, List.mem_cons_of_mem _ hx, rfl⟩

/-- The items of a list that is decoded from a tree held back. -/
theorem mem_of_list {α : Type} {d : Decoder α} {t : Tree} {as : List α}
    (h : Decoder.list d .kept (.ofTree t) = .ok as) {a : α} (ha : a ∈ as) :
    ∃ x ∈ t.children, d .kept (.ofTree x) = .ok a := by
  cases t with
  | scalar s => cases h
  | object members => cases h
  | array items =>
    simp only [Reading.ofTree, Decoder.list, bind_eq_ok_iff] at h
    obtain ⟨inner, henter, bs, hitems, _, _, hbs⟩ := h
    cases henter
    cases hbs
    obtain ⟨r, hr, hdecode⟩ := Decoder.mem_of_listItems hitems ha
    rw [Reading.ofItems_eq_map] at hr
    obtain ⟨x, hx, rfl⟩ := List.mem_map.1 hr
    exact ⟨x, hx, hdecode⟩

/-! Sorting -/

mutual
theorem inside_sorted : ∀ t : Tree, t.sorted.Inside t 0
  | .scalar s => Inside.refl _
  | .array items => by
    have hitems := inside_sortedItems items
    exact ⟨Nat.succ_le_succ hitems.1, hitems.2⟩
  | .object members => by
    have hvalues := inside_sortedMembers members
    refine ⟨Nat.succ_le_succ (valuesDepth_le_iff.2 fun m hm => ?_), fun n hn => ?_⟩
    · exact valuesDepth_le_iff.1 hvalues.1 m (mem_of_mem_sortMembers hm)
    · obtain ⟨m, hm, hn⟩ := mem_memberNumbers.1 hn
      exact hvalues.2 n (mem_memberNumbers.2 ⟨m, mem_of_mem_sortMembers hm, hn⟩)

theorem inside_sortedItems : ∀ items : List Tree,
    itemsDepth (sortedItems items) ≤ itemsDepth items ∧
      ∀ n ∈ itemNumbers (sortedItems items), n ∈ itemNumbers items
  | [] => ⟨Nat.le_refl _, fun _ hn => hn⟩
  | x :: xs => by
    have hx := inside_sorted x
    have hxs := inside_sortedItems xs
    refine ⟨?_, fun n hn => ?_⟩
    · have := hx.depth
      simp only [sortedItems, itemsDepth]
      omega
    · simp only [sortedItems, itemNumbers, List.mem_append] at hn ⊢
      exact hn.imp (hx.numbers n) (hxs.2 n)

theorem inside_sortedMembers : ∀ members : List (String × Tree),
    valuesDepth (sortedMembers members) ≤ valuesDepth members ∧
      ∀ n ∈ memberNumbers (sortedMembers members), n ∈ memberNumbers members
  | [] => ⟨Nat.le_refl _, fun _ hn => hn⟩
  | (k, x) :: xs => by
    have hx := inside_sorted x
    have hxs := inside_sortedMembers xs
    refine ⟨?_, fun n hn => ?_⟩
    · have := hx.depth
      simp only [sortedMembers, valuesDepth]
      omega
    · simp only [sortedMembers, memberNumbers, List.mem_append] at hn ⊢
      exact hn.imp (hx.numbers n) (hxs.2 n)
end

theorem mem_sortedMembers {members : List (String × Tree)} {m : String × Tree}
    (h : m ∈ sortedMembers members) : ∃ x, (m.1, x) ∈ members ∧ m.2 = x.sorted := by
  induction members with
  | nil => cases h
  | cons k members ih =>
    rcases List.mem_cons.1 h with rfl | h
    · exact ⟨k.2, List.mem_cons_self, rfl⟩
    · obtain ⟨x, hx, hm⟩ := ih h
      exact ⟨x, List.mem_cons_of_mem _ hx, hm⟩

end Tree

/-- An attribute is the sorted form of a member of its name. -/
theorem Attributes.mem_ofMembers {members : List (String × Tree)} {m : String × Tree}
    (h : m ∈ (ofMembers members).members) : ∃ x, (m.1, x) ∈ members ∧ m.2 = x.sorted :=
  Tree.mem_sortedMembers (mem_of_mem_sortMembers h)

/-! Rereading -/

mutual
theorem Tree.depth_reread : ∀ t : Tree, t.reread.depth = t.depth
  | .scalar _ => rfl
  | .array items => by rw [reread, depth, depth, itemsDepth_rereadItems items]
  | .object members => by rw [reread, depth, depth, valuesDepth_rereadMembers members]

theorem Tree.itemsDepth_rereadItems : ∀ items, itemsDepth (rereadItems items) = itemsDepth items
  | [] => rfl
  | x :: xs => by rw [rereadItems, itemsDepth, itemsDepth, depth_reread x, itemsDepth_rereadItems xs]

theorem Tree.valuesDepth_rereadMembers :
    ∀ members, valuesDepth (rereadMembers members) = valuesDepth members
  | [] => rfl
  | (_, x) :: xs => by
    rw [rereadMembers, valuesDepth, valuesDepth, depth_reread x, valuesDepth_rereadMembers xs]
end

/-- The list of what items are decoded to, however each was saved. -/
theorem Decoder.list_ofTree {α β : Type} {d : Decoder α} {f : β → Tree} {g : β → α} {bs : List β}
    (h : ∀ b ∈ bs, d .kept (.ofTree (f b).reread) = .ok (g b)) :
    list d .kept (.ofTree (Tree.array (bs.map f)).reread) = .ok (bs.map g) := by
  have hitems := listItems_map (f := fun b => .ofTree (f b).reread) h
  simp only [Tree.reread, Reading.ofTree, Reading.ofItems_eq_map, Tree.rereadItems_eq_map,
    List.map_map, list, Origin.enter, ok_bind]
  rw [show (Reading.ofTree ∘ Tree.reread ∘ f) = fun b => .ofTree (f b).reread from rfl, hitems]
  rfl

end FlowDiagram.Json
