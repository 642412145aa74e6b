import FlowDiagram.Json.Tree
/-! Attributes: members sorted by name at every depth, each name once. -/

namespace FlowDiagram.Json

/-- Names ascend strictly, so none occurs twice. -/
def Ascending {α : Type} (members : List (String × α)) : Prop :=
  members.Pairwise fun a b => a.1 < b.1

mutual
/-- Every object of the tree has its members in ascending order. -/
def Tree.IsSorted : Tree → Prop
  | .scalar _ => True
  | .array items => Tree.ItemsSorted items
  | .object members => Ascending members ∧ Tree.ValuesSorted members

def Tree.ItemsSorted : List Tree → Prop
  | [] => True
  | x :: xs => x.IsSorted ∧ Tree.ItemsSorted xs

def Tree.ValuesSorted : List (String × Tree) → Prop
  | [] => True
  | (_, x) :: xs => x.IsSorted ∧ Tree.ValuesSorted xs
end

variable {α : Type} {k l : String} {v : α} {members : List (String × α)}

theorem mem_insertMember {m : String × α} (h : m ∈ insertMember k v members) :
    m = (k, v) ∨ m ∈ members := by
  induction members with
  | nil => simp_all [insertMember]
  | cons head rest ih =>
    obtain ⟨l, w⟩ := head
    simp only [insertMember] at h
    split at h
    · simp_all
    · split at h
      · simp_all only [List.mem_cons]
        exact h.imp_right Or.inr
      · simp only [List.mem_cons] at h ⊢
        obtain h | h := h
        · exact Or.inr (Or.inl h)
        · exact (ih h).imp_right Or.inr

theorem ascending_insertMember (h : Ascending members) : Ascending (insertMember k v members) := by
  induction members with
  | nil => simp [insertMember, Ascending]
  | cons head rest ih =>
    obtain ⟨l, w⟩ := head
    obtain ⟨hl, hr⟩ := List.pairwise_cons.1 h
    simp only [insertMember]
    split
    · rename_i hkl
      refine List.pairwise_cons.2 ⟨fun m hm => ?_, h⟩
      obtain rfl | hm := List.mem_cons.1 hm
      · exact hkl
      · exact String.lt_trans hkl (hl m hm)
    · rename_i hkl
      split
      · subst k
        exact List.pairwise_cons.2 ⟨hl, hr⟩
      · rename_i hne
        refine List.pairwise_cons.2 ⟨fun m hm => ?_, ih hr⟩
        obtain rfl | hm := mem_insertMember hm
        · exact Std.lt_of_le_of_ne (String.not_lt.1 hkl) (Ne.symm hne)
        · exact hl m hm

theorem ascending_foldl_insertMember (news : List (String × α)) (h : Ascending members) :
    Ascending (news.foldl (fun sorted (k, v) => insertMember k v sorted) members) := by
  induction news generalizing members with
  | nil => exact h
  | cons m news ih => exact ih (ascending_insertMember h)

theorem ascending_sortMembers (members : List (String × α)) : Ascending (sortMembers members) :=
  ascending_foldl_insertMember members List.Pairwise.nil

theorem mem_foldl_insertMember {m : String × α} (news : List (String × α))
    (h : m ∈ news.foldl (fun sorted (k, v) => insertMember k v sorted) members) :
    m ∈ members ∨ m ∈ news := by
  induction news generalizing members with
  | nil => exact Or.inl h
  | cons n news ih =>
    obtain h | h := ih h
    · obtain rfl | h := mem_insertMember h
      · exact Or.inr List.mem_cons_self
      · exact Or.inl h
    · exact Or.inr (List.mem_cons_of_mem _ h)

theorem mem_of_mem_sortMembers {m : String × α} (h : m ∈ sortMembers members) : m ∈ members := by
  obtain h | h := mem_foldl_insertMember members h
  · exact absurd h List.not_mem_nil
  · exact h

theorem Tree.valuesSorted_iff {members : List (String × Tree)} :
    Tree.ValuesSorted members ↔ ∀ m ∈ members, m.2.IsSorted := by
  induction members with
  | nil => simp [Tree.ValuesSorted]
  | cons m rest ih => simp [Tree.ValuesSorted, ih]

mutual
theorem Tree.isSorted_sorted : ∀ t : Tree, t.sorted.IsSorted
  | .scalar _ => trivial
  | .array items => Tree.itemsSorted_sortedItems items
  | .object members =>
    ⟨ascending_sortMembers _, Tree.valuesSorted_iff.2 fun _ hm =>
      Tree.valuesSorted_iff.1 (Tree.valuesSorted_sortedMembers members) _
        (mem_of_mem_sortMembers hm)⟩

theorem Tree.itemsSorted_sortedItems : ∀ items, Tree.ItemsSorted (Tree.sortedItems items)
  | [] => trivial
  | x :: xs => ⟨x.isSorted_sorted, Tree.itemsSorted_sortedItems xs⟩

theorem Tree.valuesSorted_sortedMembers :
    ∀ members, Tree.ValuesSorted (Tree.sortedMembers members)
  | [] => trivial
  | (_, x) :: xs => ⟨x.isSorted_sorted, Tree.valuesSorted_sortedMembers xs⟩
end

/-- The members of an object that is sorted throughout. -/
structure Attributes where
  members : List (String × Tree)
  sorted : (Tree.object members).IsSorted
deriving DecidableEq

namespace Attributes

def empty : Attributes := ⟨[], List.Pairwise.nil, trivial⟩

/-- Sorts members, the last of several with one name standing. -/
def ofMembers (members : List (String × Tree)) : Attributes :=
  ⟨sortMembers (Tree.sortedMembers members), (Tree.object members).isSorted_sorted⟩

end Attributes

end FlowDiagram.Json
