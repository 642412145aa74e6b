import FlowDiagram.Json.Decoder
import FlowDiagram.Proofs.Except
/-! What decoders accept: whole trees within the depth limit, and records field by field. -/

namespace FlowDiagram.Json

/-! Depth -/

mutual
/-- How many arrays and objects are open at once in the text of the tree. -/
def Tree.depth : Tree → Nat
  | .scalar _ => 0
  | .array items => Tree.itemsDepth items + 1
  | .object members => Tree.valuesDepth members + 1

def Tree.itemsDepth : List Tree → Nat
  | [] => 0
  | x :: xs => max x.depth (Tree.itemsDepth xs)

def Tree.valuesDepth : List (String × Tree) → Nat
  | [] => 0
  | (_, x) :: xs => max x.depth (Tree.valuesDepth xs)
end

/-- Whether a reader may open so many more arrays and objects at once. -/
def Origin.Allows : Origin → Nat → Prop
  | .text depth, n => n ≤ maxDepth - depth
  | .kept, _ | .value, _ => True

namespace Origin

@[simp] theorem allows_zero (o : Origin) : o.Allows 0 := by
  cases o <;> simp [Allows]

theorem allows_max {o : Origin} {m n : Nat} :
    o.Allows (max m n) ↔ o.Allows m ∧ o.Allows n := by
  cases o with
  | text depth => exact Nat.max_le
  | kept | value => exact (and_self_iff).symm

theorem allows_succ {o : Origin} {n : Nat} :
    o.Allows (n + 1) ↔ ∃ inner, o.enter = .ok inner ∧ inner.Allows n := by
  cases o with
  | text depth =>
    by_cases h : depth < maxDepth
    · simp only [enter, if_pos h, Except.ok.injEq, exists_eq_left', Allows]
      omega
    · simp only [enter, if_neg h, reduceCtorEq, false_and, exists_false, Allows, iff_false]
      omega
  | kept => simp [enter, Allows]
  | value => simp [enter, Allows]

end Origin

theorem checkEnding_eq_ok_iff {ending : Option Fault} {u : Unit} :
    checkEnding ending = .ok u ↔ ending = none := by
  cases ending <;> simp [checkEnding]

/-! Trees -/

namespace Decoder

mutual
/-- A tree is decoded from its own reading alone, if it is not too deep. -/
theorem tree_eq_ok_iff : ∀ (r : Reading) (o : Origin) (t : Tree),
    tree o r = .ok t ↔ r = .ofTree t ∧ o.Allows t.depth
  | .scalar s, o, t => by
    cases t <;> simp [tree, Reading.ofTree, Tree.depth, eq_comm]
  | .fault f, o, t => by
    cases t <;> simp [tree, Reading.ofTree]
  | .array items ending, o, t => by
    simp only [tree, bind_eq_ok_iff, treeItems_eq_ok_iff items, checkEnding_eq_ok_iff,
      pure, Except.pure, Except.ok.injEq]
    cases t with
    | array ts =>
      simp only [Reading.ofTree, Tree.depth, Origin.allows_succ, Reading.array.injEq,
        Tree.array.injEq]
      constructor
      · rintro ⟨inner, henter, _, ⟨rfl, hdepth⟩, _, rfl, rfl⟩
        exact ⟨⟨rfl, rfl⟩, inner, henter, hdepth⟩
      · rintro ⟨⟨rfl, rfl⟩, inner, henter, hdepth⟩
        exact ⟨inner, henter, ts, ⟨rfl, hdepth⟩, (), rfl, rfl⟩
    | scalar s => simp [Reading.ofTree]
    | object ms => simp [Reading.ofTree]
  | .object members ending, o, t => by
    simp only [tree, bind_eq_ok_iff, treeMembers_eq_ok_iff members, checkEnding_eq_ok_iff,
      pure, Except.pure, Except.ok.injEq]
    cases t with
    | object ts =>
      simp only [Reading.ofTree, Tree.depth, Origin.allows_succ, Reading.object.injEq,
        Tree.object.injEq]
      constructor
      · rintro ⟨inner, henter, _, ⟨rfl, hdepth⟩, _, rfl, rfl⟩
        exact ⟨⟨rfl, rfl⟩, inner, henter, hdepth⟩
      · rintro ⟨⟨rfl, rfl⟩, inner, henter, hdepth⟩
        exact ⟨inner, henter, ts, ⟨rfl, hdepth⟩, (), rfl, rfl⟩
    | scalar s => simp [Reading.ofTree]
    | array ms => simp [Reading.ofTree]

theorem treeItems_eq_ok_iff : ∀ (rs : List Reading) (o : Origin) (ts : List Tree),
    treeItems o rs = .ok ts ↔ rs = Reading.ofItems ts ∧ o.Allows (Tree.itemsDepth ts)
  | [], o, ts => by
    cases ts <;> simp [treeItems, Reading.ofItems, Tree.itemsDepth]
  | r :: rs, o, ts => by
    simp only [treeItems, bind_eq_ok_iff, tree_eq_ok_iff r, treeItems_eq_ok_iff rs,
      pure, Except.pure, Except.ok.injEq]
    cases ts with
    | nil => simp [Reading.ofItems]
    | cons t ts =>
      simp only [Reading.ofItems, Tree.itemsDepth, Origin.allows_max, List.cons.injEq]
      constructor
      · rintro ⟨_, ⟨rfl, hfirst⟩, _, ⟨rfl, hrest⟩, rfl, rfl⟩
        exact ⟨⟨rfl, rfl⟩, hfirst, hrest⟩
      · rintro ⟨⟨rfl, rfl⟩, hfirst, hrest⟩
        exact ⟨t, ⟨rfl, hfirst⟩, ts, ⟨rfl, hrest⟩, rfl, rfl⟩

theorem treeMembers_eq_ok_iff : ∀ (rs : List (Name × Reading)) (o : Origin)
    (ts : List (String × Tree)),
    treeMembers o rs = .ok ts ↔ rs = Reading.ofMembers ts ∧ o.Allows (Tree.valuesDepth ts)
  | [], o, ts => by
    cases ts <;> simp [treeMembers, Reading.ofMembers, Tree.valuesDepth]
  | (.error f, r) :: rs, o, ts => by
    cases ts <;> simp [treeMembers, Reading.ofMembers]
  | (.ok k, r) :: rs, o, ts => by
    simp only [treeMembers, bind_eq_ok_iff, tree_eq_ok_iff r, treeMembers_eq_ok_iff rs,
      pure, Except.pure, Except.ok.injEq]
    cases ts with
    | nil => simp [Reading.ofMembers]
    | cons m ts =>
      obtain ⟨l, t⟩ := m
      simp only [Reading.ofMembers, Tree.valuesDepth, Origin.allows_max, List.cons.injEq,
        Prod.mk.injEq, Except.ok.injEq]
      constructor
      · rintro ⟨_, ⟨rfl, hfirst⟩, _, ⟨rfl, hrest⟩, ⟨rfl, rfl⟩, rfl⟩
        exact ⟨⟨⟨rfl, rfl⟩, rfl⟩, hfirst, hrest⟩
      · rintro ⟨⟨⟨rfl, rfl⟩, rfl⟩, hfirst, hrest⟩
        exact ⟨t, ⟨rfl, hfirst⟩, ts, ⟨rfl, hrest⟩, ⟨rfl, rfl⟩, rfl⟩
end

end Decoder

theorem Reading.ofTree_inj {t u : Tree} : ofTree t = ofTree u ↔ t = u := by
  refine ⟨fun h => ?_, congrArg ofTree⟩
  have ht : Decoder.tree .value (ofTree t) = .ok t :=
    (Decoder.tree_eq_ok_iff _ _ _).2 ⟨rfl, trivial⟩
  have hu : Decoder.tree .value (ofTree t) = .ok u :=
    (Decoder.tree_eq_ok_iff _ _ _).2 ⟨h, trivial⟩
  rw [ht] at hu
  cases hu
  rfl

/-! Lists -/

theorem Reading.ofItems_eq_map (ts : List Tree) : ofItems ts = ts.map ofTree := by
  induction ts with
  | nil => rfl
  | cons t ts ih => simp [ofItems, ih]

theorem Reading.ofMembers_append (xs ys : List (String × Tree)) :
    ofMembers (xs ++ ys) = ofMembers xs ++ ofMembers ys := by
  induction xs with
  | nil => rfl
  | cons m xs ih => simp [ofMembers, ih]

namespace Decoder

variable {α β : Type} {d : Decoder α} {o : Origin}

theorem listItems_map {f : β → Reading} {g : β → α} {bs : List β}
    (h : ∀ b ∈ bs, d o (f b) = .ok (g b)) : listItems d o (bs.map f) = .ok (bs.map g) := by
  induction bs with
  | nil => rfl
  | cons b bs ih =>
    have hb := h b List.mem_cons_self
    have hbs := ih fun c hc => h c (List.mem_cons_of_mem _ hc)
    simp only [List.map_cons, listItems, hb, hbs, ok_bind]
    rfl

theorem list_texts {inner : Origin} (h : o.enter = .ok inner) (ts : List String) :
    list text o (.ofTree (.array (ts.map .text))) = .ok ts := by
  have hitems : listItems text inner (Reading.ofItems (ts.map .text)) = .ok ts := by
    rw [Reading.ofItems_eq_map, List.map_map]
    have hmap : listItems text inner (ts.map fun s => Reading.scalar (.text s)) =
        .ok (ts.map id) := listItems_map fun _ _ => rfl
    rwa [List.map_id] at hmap
  simp only [list, Reading.ofTree, h, ok_bind, hitems, checkEnding]
  rfl

theorem natBelow_nat {n bound : Nat} (h : n < bound) (hfits : Fits n) (expected : String)
    (o : Origin) : natBelow bound expected o (.ofTree (.nat n)) = .ok n := by
  have hinteger : Number.ofNat n = .integer n hfits := dif_pos hfits
  have hbound : (0 : Int) ≤ n ∧ (n : Int) < bound := ⟨Int.natCast_nonneg n, Int.ofNat_lt.2 h⟩
  rw [Tree.nat, hinteger]
  exact if_pos hbound

theorem mem_of_listItems {rs : List Reading} {as : List α} (h : listItems d o rs = .ok as) {a : α}
    (ha : a ∈ as) : ∃ r ∈ rs, d o r = .ok a := by
  induction rs generalizing as with
  | nil =>
    cases h
    cases ha
  | cons r rs ih =>
    simp only [listItems, bind_eq_ok_iff] at h
    obtain ⟨b, hb, bs, hbs, hcons⟩ := h
    cases hcons
    rcases List.mem_cons.1 ha with rfl | ha
    · exact ⟨r, List.mem_cons_self, hb⟩
    · obtain ⟨r', hr', ha⟩ := ih hbs ha
      exact ⟨r', List.mem_cons_of_mem _ hr', ha⟩

end Decoder

/-! Records -/

namespace Field

variable {α σ : Type} {d : Decoder α} {set : α → σ → σ} {o : Origin} {x : Reading} {a : α}

theorem read_need (name : String) (h : d o x = .ok a) :
    (need name d set).read o x = .ok (set a) := congrArg (Except.map set) h

theorem read_allow (name : String) (h : d o x = .ok a) :
    (allow name d set).read o x = .ok (set a) := congrArg (Except.map set) h

end Field

/-- The values directly inside an array or an object. -/
def Reading.children : Reading → List Reading
  | .array items _ => items
  | .object members _ => members.map (·.2)
  | .scalar _ | .fault _ => []

namespace Record

variable {σ : Type} {r : Record σ} {rest : Rest σ} {o : Origin}

theorem readMembers_field {f : Field σ} {k : String} {x : Reading} {set : σ → σ}
    {members : List (Name × Reading)} {seen : List String} {s : σ} (hfield : r.field? k = some f)
    (hseen : k ∉ seen) (hread : f.read o x = .ok set) :
    r.readMembers rest o ((.ok k, x) :: members) seen s =
      r.readMembers rest o members (k :: seen) (set s) := by
  simp only [readMembers, hfield, if_neg hseen, hread, ok_bind]

theorem readMembers_rest {k : String} {x : Reading} {members : List (Name × Reading)}
    {seen : List String} {s t : σ} (hfield : r.field? k = none) (hrest : rest o k x s = .ok t) :
    r.readMembers rest o ((.ok k, x) :: members) seen s =
      r.readMembers rest o members seen t := by
  simp only [readMembers, hfield, hrest, ok_bind]

theorem readObject_of_readMembers {inner : Origin} {members : List (Name × Reading)}
    {seen : List String} {s : σ} (henter : o.enter = .ok inner)
    (hread : r.readMembers rest inner members [] r.blank = .ok (seen, s))
    (hmissing : r.missing? seen = none) : r.readObject rest o members none = .ok s := by
  simp [readObject, henter, hread, checkEnding, hmissing]

theorem readMembers_induction (motive : σ → Prop) {members : List (Name × Reading)}
    (hfield : ∀ f ∈ r.fields, ∀ m ∈ members, ∀ set s,
      f.read o m.2 = .ok set → motive s → motive (set s))
    (hrest : ∀ k x s t, (.ok k, x) ∈ members → r.field? k = none →
      rest o k x s = .ok t → motive s → motive t)
    {seen seen' : List String} {s t : σ}
    (h : r.readMembers rest o members seen s = .ok (seen', t)) (hs : motive s) : motive t := by
  induction members generalizing seen s with
  | nil =>
    cases h
    exact hs
  | cons m members ih =>
    have hfields : ∀ f ∈ r.fields, ∀ m ∈ members, ∀ set s,
        f.read o m.2 = .ok set → motive s → motive (set s) :=
      fun f hf m hm => hfield f hf m (List.mem_cons_of_mem _ hm)
    have hrests : ∀ k x s t, (.ok k, x) ∈ members → r.field? k = none →
        rest o k x s = .ok t → motive s → motive t :=
      fun k x s t hm => hrest k x s t (List.mem_cons_of_mem _ hm)
    obtain ⟨name, x⟩ := m
    cases name with
    | error f => simp [readMembers] at h
    | ok k =>
      simp only [readMembers] at h
      cases hk : r.field? k with
      | some f =>
        simp only [hk] at h
        split at h
        · cases h
        · obtain ⟨set, hset, h⟩ := bind_eq_ok_iff.1 h
          have hf : f ∈ r.fields := List.mem_of_find?_eq_some hk
          exact ih hfields hrests h (hfield f hf _ List.mem_cons_self set s hset hs)
      | none =>
        simp only [hk] at h
        obtain ⟨u, hu, h⟩ := bind_eq_ok_iff.1 h
        exact ih hfields hrests h (hrest k x s u List.mem_cons_self hk hu hs)

theorem readItems_induction (motive : σ → Prop) {ending : Option Fault} {items : List Reading}
    {fields : List (Field σ)}
    (hfield : ∀ f ∈ fields, ∀ x ∈ items, ∀ set s,
      f.read o x = .ok set → motive s → motive (set s))
    {i : Nat} {left : List Reading} {s t : σ}
    (h : r.readItems o ending i fields items s = .ok (left, t)) (hs : motive s) : motive t := by
  induction fields generalizing i items s with
  | nil =>
    cases items <;> (cases h; exact hs)
  | cons f fields ih =>
    cases items with
    | nil =>
      simp only [readItems, bind_eq_ok_iff] at h
      obtain ⟨-, -, h⟩ := h
      split at h
      · cases h
      · exact ih (fun _ _ _ hx => by cases hx) h hs
    | cons x items =>
      simp only [readItems, bind_eq_ok_iff] at h
      obtain ⟨set, hset, h⟩ := h
      refine ih (fun g hg y hy => ?_) h (hfield f List.mem_cons_self x List.mem_cons_self set s hset hs)
      exact hfield g (List.mem_cons_of_mem _ hg) y (List.mem_cons_of_mem _ hy)

theorem readObject_induction (motive : σ → Prop) {members : List (Name × Reading)}
    {ending : Option Fault} {s : σ} (h : r.readObject rest o members ending = .ok s)
    (hblank : motive r.blank)
    (hfield : ∀ inner, o.enter = .ok inner → ∀ f ∈ r.fields, ∀ m ∈ members, ∀ set s,
      f.read inner m.2 = .ok set → motive s → motive (set s))
    (hrest : ∀ inner, o.enter = .ok inner → ∀ k x s t, (.ok k, x) ∈ members →
      r.field? k = none → rest inner k x s = .ok t → motive s → motive t) : motive s := by
  simp only [readObject, bind_eq_ok_iff] at h
  obtain ⟨inner, henter, ⟨seen, t⟩, hread, -, -, h⟩ := h
  have ht := readMembers_induction motive (hfield inner henter) (hrest inner henter) hread hblank
  split at h
  · cases h
  · cases h
    exact ht

/-- What holds of a blank record and is kept by each of its fields holds of a decoded record. -/
theorem decode_induction (motive : σ → Prop) {x : Reading} {s : σ} (h : r.decode o x = .ok s)
    (hblank : motive r.blank)
    (hfield : ∀ inner, o.enter = .ok inner → ∀ f ∈ r.fields, ∀ y ∈ x.children, ∀ set s,
      f.read inner y = .ok set → motive s → motive (set s)) : motive s := by
  cases x with
  | scalar _ => cases h
  | fault _ => cases h
  | array items ending =>
    simp only [decode, readArray, bind_eq_ok_iff] at h
    obtain ⟨inner, henter, ⟨left, t⟩, hread, h⟩ := h
    have ht := readItems_induction motive (hfield inner henter) hread hblank
    split at h
    · split at h
      · cases h
        exact ht
      · cases h
    · cases h
  | object members ending =>
    refine readObject_induction motive h hblank ?_ ?_
    · intro inner henter f hf m hm
      exact hfield inner henter f hf m.2 (List.mem_map_of_mem hm)
    · intro inner _ k x s t _ _ hrest hs
      simp only [ignoreRest] at hrest
      split at hrest
      · cases hrest
        exact hs
      · cases hrest

end Record

end FlowDiagram.Json
