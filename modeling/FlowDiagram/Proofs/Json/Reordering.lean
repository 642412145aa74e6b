import FlowDiagram.Json.Reading
import Mathlib.Logic.Relation
/-! Readings of objects in which the members change places. -/

namespace FlowDiagram.Json.Reading

/-- The names that can be read are pairwise different. -/
def NamesDiffer (names : List Name) : Prop := names.Pairwise fun m n => ∀ k, m = .ok k → n ≠ .ok k

mutual
/-- In every object the names are pairwise different. -/
def HasDistinctNames : Reading → Prop
  | .scalar _ | .fault _ => True
  | .array items _ => ItemsDistinct items
  | .object members _ => NamesDiffer (members.map (·.1)) ∧ ValuesDistinct members

def ItemsDistinct : List Reading → Prop
  | [] => True
  | x :: xs => x.HasDistinctNames ∧ ItemsDistinct xs

def ValuesDistinct : List (Name × Reading) → Prop
  | [] => True
  | (_, x) :: xs => x.HasDistinctNames ∧ ValuesDistinct xs
end

theorem itemsDistinct_iff {items : List Reading} :
    ItemsDistinct items ↔ ∀ x ∈ items, x.HasDistinctNames := by
  induction items with
  | nil => simp [ItemsDistinct]
  | cons x items ih => simp [ItemsDistinct, ih]

theorem valuesDistinct_iff {members : List (Name × Reading)} :
    ValuesDistinct members ↔ ∀ m ∈ members, m.2.HasDistinctNames := by
  induction members with
  | nil => simp [ValuesDistinct]
  | cons m members ih => simp [ValuesDistinct, ih]

@[simp] theorem hasDistinctNames_array {items : List Reading} {ending : Option Fault} :
    (array items ending).HasDistinctNames ↔ ∀ x ∈ items, x.HasDistinctNames :=
  itemsDistinct_iff

@[simp] theorem hasDistinctNames_object {members : List (Name × Reading)}
    {ending : Option Fault} : (object members ending).HasDistinctNames ↔
      NamesDiffer (members.map (·.1)) ∧ ∀ m ∈ members, m.2.HasDistinctNames :=
  and_congr_right' valuesDistinct_iff

/-- Two neighbours change places in one object, at any depth. -/
inductive Exchange : Reading → Reading → Prop
  | members (before after : List (Name × Reading)) (m n : Name × Reading)
    (ending : Option Fault) :
    Exchange (.object (before ++ m :: n :: after) ending)
      (.object (before ++ n :: m :: after) ending)
  | item (before after : List Reading) (ending : Option Fault) {x y : Reading}
    (h : Exchange x y) :
    Exchange (.array (before ++ x :: after) ending) (.array (before ++ y :: after) ending)
  | value (before after : List (Name × Reading)) (name : Name) (ending : Option Fault)
    {x y : Reading} (h : Exchange x y) :
    Exchange (.object (before ++ (name, x) :: after) ending)
      (.object (before ++ (name, y) :: after) ending)

/-- Exchanges, in any number, lead from one to the other: at most the order of members differs. -/
def Reordered : Reading → Reading → Prop := Relation.ReflTransGen Exchange

theorem NamesDiffer.perm {names news : List Name} (h : NamesDiffer names)
    (hperm : names.Perm news) : NamesDiffer news := by
  refine List.Pairwise.perm h hperm fun {m n} hmn k hn hm => ?_
  exact hmn k hm hn

theorem Exchange.hasDistinctNames {x y : Reading} (h : x.Exchange y) (hx : x.HasDistinctNames) :
    y.HasDistinctNames := by
  induction h with
  | members before after m n ending =>
    have hperm : (before ++ m :: n :: after).Perm (before ++ n :: m :: after) :=
      (List.Perm.swap n m after).append_left before
    rw [hasDistinctNames_object] at hx ⊢
    exact ⟨hx.1.perm (hperm.map _), fun a ha => hx.2 a (hperm.mem_iff.2 ha)⟩
  | item before after ending _ ih =>
    simp only [hasDistinctNames_array, List.forall_mem_append, List.forall_mem_cons] at hx ⊢
    exact ⟨hx.1, ih hx.2.1, hx.2.2⟩
  | value before after name ending _ ih =>
    simp only [hasDistinctNames_object, List.map_append, List.map_cons, List.forall_mem_append,
      List.forall_mem_cons] at hx ⊢
    exact ⟨hx.1, hx.2.1, ih hx.2.2.1, hx.2.2.2⟩

theorem Exchange.append {ms ns : List (Name × Reading)} {ending ending' : Option Fault}
    (h : (object ms ending).Exchange (object ns ending')) (m : Name × Reading) :
    (object (ms ++ [m]) ending).Exchange (object (ns ++ [m]) ending') := by
  cases h with
  | members before after n n' => simpa using Exchange.members before (after ++ [m]) n n' ending
  | value before after name _ h => simpa using Exchange.value before (after ++ [m]) name ending h

namespace Reordered

/-- An exchange inside one value is one of the whole. -/
theorem item {x y : Reading} (h : x.Reordered y) (before after : List Reading)
    (ending : Option Fault) : (array (before ++ x :: after) ending).Reordered
      (array (before ++ y :: after) ending) :=
  Relation.ReflTransGen.lift (fun z => array (before ++ z :: after) ending)
    (fun _ _ => Exchange.item before after ending) x y h

theorem value {x y : Reading} (h : x.Reordered y) (before after : List (Name × Reading))
    (name : Name) (ending : Option Fault) :
    (object (before ++ (name, x) :: after) ending).Reordered
      (object (before ++ (name, y) :: after) ending) :=
  Relation.ReflTransGen.lift (fun z => object (before ++ (name, z) :: after) ending)
    (fun _ _ => Exchange.value before after name ending) x y h

/-- The members of one object may stand in any order. -/
theorem of_perm {ms ns : List (Name × Reading)} (h : ms.Perm ns) (ending : Option Fault) :
    (object ms ending).Reordered (object ns ending) := by
  have hbefore : ∀ before,
      (object (before ++ ms) ending).Reordered (object (before ++ ns) ending) := by
    induction h with
    | nil => exact fun _ => .refl
    | cons m _ ih =>
      intro before
      simpa using ih (before ++ [m])
    | swap m n ms => exact fun before => .single (.members before ms n m ending)
    | trans _ _ ih ih' => exact fun before => (ih before).trans (ih' before)
  exact hbefore []

end Reordered

end FlowDiagram.Json.Reading
