import FlowDiagram.Json.Attributes
import FlowDiagram.Proofs.Json.Printed
/-! Sorting of members: it only changes their order, and leaves what is sorted as it is. -/

namespace FlowDiagram.Json

section Members

variable {α : Type} {k : String} {v : α} {members : List (String × α)}

/-- No name occurs twice. -/
def Distinct (members : List (String × α)) : Prop := members.Pairwise fun a b => a.1 ≠ b.1

theorem Ascending.distinct (h : Ascending members) : Distinct members := by
  refine List.Pairwise.imp ?_ h
  intro a b hlt heq
  rw [heq] at hlt
  exact String.lt_irrefl _ hlt

theorem Distinct.perm {news : List (String × α)} (h : Distinct members)
    (hperm : members.Perm news) : Distinct news :=
  List.Pairwise.perm h hperm fun hmn => Ne.symm hmn

/-- Ascending members are known by what they are. -/
theorem Ascending.eq_of_perm {news : List (String × α)} (hm : Ascending members)
    (hn : Ascending news) (h : members.Perm news) : members = news := by
  refine h.eq_of_pairwise ?_ hm hn
  intro a b _ _ hab hba
  exact absurd (String.lt_trans hab hba) (String.lt_irrefl _)

theorem perm_insertMember (h : ∀ m ∈ members, m.1 ≠ k) :
    (insertMember k v members).Perm ((k, v) :: members) := by
  induction members with
  | nil => exact List.Perm.refl _
  | cons head rest ih =>
    obtain ⟨l, w⟩ := head
    have hne : k ≠ l := fun heq => h (l, w) List.mem_cons_self heq.symm
    have hrest := ih fun m hm => h m (List.mem_cons_of_mem _ hm)
    simp only [insertMember, if_neg hne]
    split
    · exact List.Perm.refl _
    · exact (hrest.cons _).trans (List.Perm.swap _ _ _)

theorem perm_foldl_insertMember (news : List (String × α)) (hnews : Distinct news)
    (h : ∀ n ∈ news, ∀ m ∈ members, m.1 ≠ n.1) :
    (news.foldl (fun sorted (k, v) => insertMember k v sorted) members).Perm
      (news ++ members) := by
  induction news generalizing members with
  | nil => exact List.Perm.refl _
  | cons n news ih =>
    obtain ⟨hn, hnews⟩ := List.pairwise_cons.1 hnews
    have hinsert : (insertMember n.1 n.2 members).Perm (n :: members) :=
      perm_insertMember (h n List.mem_cons_self)
    have hfresh : ∀ a ∈ news, ∀ m ∈ insertMember n.1 n.2 members, m.1 ≠ a.1 := by
      intro a ha m hm
      rcases List.mem_cons.1 (hinsert.subset hm) with rfl | hm
      · exact hn a ha
      · exact h a (List.mem_cons_of_mem _ ha) m hm
    have hfold := ih hnews hfresh
    exact hfold.trans ((hinsert.append_left news).trans List.perm_middle)

theorem perm_sortMembers (h : Distinct members) : (sortMembers members).Perm members := by
  have hfresh : ∀ n ∈ members, ∀ m ∈ ([] : List (String × α)), m.1 ≠ n.1 := by simp
  have hfold := perm_foldl_insertMember members h hfresh
  rw [List.append_nil] at hfold
  exact hfold

theorem sortMembers_of_ascending (h : Ascending members) : sortMembers members = members :=
  (ascending_sortMembers members).eq_of_perm h (perm_sortMembers h.distinct)

/-- A new name is set between the members that are already sorted. -/
theorem sortMembers_cons_of_ascending (h : Ascending members) (hk : ∀ m ∈ members, m.1 ≠ k) :
    ∃ before after, members = before ++ after ∧
      sortMembers ((k, v) :: members) = before ++ (k, v) :: after := by
  have hdistinct : Distinct ((k, v) :: members) :=
    List.pairwise_cons.2 ⟨fun m hm => (hk m hm).symm, h.distinct⟩
  have hperm := perm_sortMembers hdistinct
  have hsorted := ascending_sortMembers ((k, v) :: members)
  obtain ⟨before, after, hsplit⟩ := List.append_of_mem (hperm.mem_iff.2 List.mem_cons_self)
  rw [hsplit] at hperm hsorted
  have hothers : (before ++ after).Perm members := (List.perm_middle.symm.trans hperm).cons_inv
  have hascending : Ascending (before ++ after) :=
    List.Pairwise.sublist ((List.sublist_cons_self _ _).append_left before) hsorted
  exact ⟨before, after, h.eq_of_perm hascending hothers.symm, hsplit⟩

end Members

namespace Tree

theorem rereadMembers_eq_map (members : List (String × Tree)) :
    rereadMembers members = members.map fun m => (m.1, m.2.reread) := by
  induction members with
  | nil => rfl
  | cons m members ih => simp [rereadMembers, ih]

theorem rereadItems_eq_map (items : List Tree) : rereadItems items = items.map reread := by
  induction items with
  | nil => rfl
  | cons x items ih => simp [rereadItems, ih]

theorem ascending_rereadMembers {members : List (String × Tree)} (h : Ascending members) :
    Ascending (rereadMembers members) := by
  rw [rereadMembers_eq_map]
  exact h.map _ fun _ _ hlt => hlt

mutual
theorem sorted_of_isSorted : ∀ t : Tree, t.IsSorted → t.sorted = t
  | .scalar s, _ => rfl
  | .array items, h => by rw [sorted, sortedItems_of_itemsSorted items h]
  | .object members, h => by
    rw [sorted, sortedMembers_of_valuesSorted members h.2, sortMembers_of_ascending h.1]

theorem sortedItems_of_itemsSorted : ∀ items, ItemsSorted items → sortedItems items = items
  | [], _ => rfl
  | x :: xs, h => by
    rw [sortedItems, sorted_of_isSorted x h.1, sortedItems_of_itemsSorted xs h.2]

theorem sortedMembers_of_valuesSorted :
    ∀ members, ValuesSorted members → sortedMembers members = members
  | [], _ => rfl
  | (k, x) :: xs, h => by
    rw [sortedMembers, sorted_of_isSorted x h.1, sortedMembers_of_valuesSorted xs h.2]
end

mutual
theorem isSorted_reread : ∀ t : Tree, t.IsSorted → t.reread.IsSorted
  | .scalar _, _ => trivial
  | .array items, h => itemsSorted_rereadItems items h
  | .object members, h => ⟨ascending_rereadMembers h.1, valuesSorted_rereadMembers members h.2⟩

theorem itemsSorted_rereadItems : ∀ items, ItemsSorted items → ItemsSorted (rereadItems items)
  | [], _ => trivial
  | x :: xs, h => ⟨isSorted_reread x h.1, itemsSorted_rereadItems xs h.2⟩

theorem valuesSorted_rereadMembers :
    ∀ members, ValuesSorted members → ValuesSorted (rereadMembers members)
  | [], _ => trivial
  | (_, x) :: xs, h => ⟨isSorted_reread x h.1, valuesSorted_rereadMembers xs h.2⟩
end

end Tree

namespace Attributes

/-- The attributes with every float as it is reread. -/
def reread (a : Attributes) : Attributes :=
  ⟨Tree.rereadMembers a.members, Tree.isSorted_reread _ a.sorted⟩

theorem ofMembers_members (a : Attributes) : ofMembers a.members = a := by
  obtain ⟨members, hnames, hvalues⟩ := a
  simp only [ofMembers, Tree.sortedMembers_of_valuesSorted members hvalues,
    sortMembers_of_ascending hnames]

end Attributes

end FlowDiagram.Json
