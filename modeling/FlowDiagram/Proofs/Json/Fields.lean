import FlowDiagram.Proofs.Json.Decoding
import Mathlib.Data.List.Nodup
import Mathlib.Data.Option.Basic
/-! Values that a record without required fields is read from, and what they set its parts to. -/

namespace FlowDiagram.Json

/-! Scalars -/

namespace Decoder

variable {o : Origin} {x : Reading}

theorem bool_eq_ok_iff {b : Bool} : bool o x = .ok b ↔ x = .scalar (.bool b) := by
  unfold bool
  split
  · simp
  · rename_i hother
    refine ⟨fun h => (by cases h), ?_⟩
    rintro rfl
    exact absurd rfl (hother b)

theorem text_eq_ok_iff {s : String} : text o x = .ok s ↔ x = .scalar (.text s) := by
  unfold text textFor
  split
  · simp
  · rename_i hother
    refine ⟨fun h => (by cases h), ?_⟩
    rintro rfl
    exact absurd rfl (hother s)

end Decoder

namespace Reading

/-- The value of the first member of a name. -/
def member? (name : String) : List (Name × Reading) → Option Reading
  | [] => none
  | (.ok k, x) :: members => if k = name then some x else member? name members
  | (.error _, _) :: members => member? name members

/-- The value for one of the names: that of its member, or the item at its place among them. -/
def given? (names : List String) (name : String) : Reading → Option Reading
  | .object members _ => member? name members
  | .array items _ => items[names.idxOf name]?
  | .scalar _ | .fault _ => none

variable {names : List String} {k : String} {x : Reading} {members : List (Name × Reading)}

theorem member?_eq_none (h : ∀ m ∈ members, m.1 ≠ .ok k) : member? k members = none := by
  induction members with
  | nil => rfl
  | cons m members ih =>
    have hrest := ih fun n hn => h n (List.mem_cons_of_mem m hn)
    obtain ⟨f | l, x⟩ := m
    · exact hrest
    · have hl : l ≠ k := by
        rintro rfl
        exact h _ List.mem_cons_self rfl
      rw [member?, if_neg hl, hrest]

/-- Each of the names is there at most once. All other members can be passed over. -/
structure Members (names : List String) (members : List (Name × Reading)) : Prop where
  named : ∀ m ∈ members, ∃ k, m.1 = .ok k
  once : members.Pairwise fun m n => ∀ k ∈ names, m.1 = .ok k → n.1 ≠ .ok k
  others : ∀ k x, (.ok k, x) ∈ members → k ∉ names → x.skip = .ok ()

theorem Members.nil : Members names [] where
  named := by simp
  once := List.Pairwise.nil
  others := by simp

theorem members_cons_iff : Members names ((.ok k, x) :: members) ↔
    (k ∈ names → ∀ m ∈ members, m.1 ≠ .ok k) ∧ (k ∉ names → x.skip = .ok ()) ∧
      Members names members := by
  constructor
  · intro h
    obtain ⟨hfirst, honce⟩ := List.pairwise_cons.1 h.once
    refine ⟨fun hk m hm => hfirst m hm k hk rfl, h.others k x List.mem_cons_self, ?_, honce, ?_⟩
    · exact fun m hm => h.named m (List.mem_cons_of_mem _ hm)
    · exact fun l y hy => h.others l y (List.mem_cons_of_mem _ hy)
  · rintro ⟨hnew, hskip, h⟩
    refine ⟨List.forall_mem_cons.2 ⟨⟨k, rfl⟩, h.named⟩, List.pairwise_cons.2 ⟨?_, h.once⟩, ?_⟩
    · rintro m hm l hl heq
      cases heq
      exact hnew hl m hm
    · intro l y hy
      rcases List.mem_cons.1 hy with heq | hy
      · cases heq
        exact hskip
      · exact h.others l y hy

/-- A value with parts of these names, as an object or as an array, whatever the parts are. -/
inductive IsRecord (names : List String) : Reading → Prop
  | object {members : List (Name × Reading)} (h : Members names members) :
    IsRecord names (.object members none)
  | array {items : List Reading} (h : items.length ≤ names.length) :
    IsRecord names (.array items none)

end Reading

/-- A field that leaves a part as it is. -/
def Field.Leaves {σ β : Type} (f : Field σ) (get : σ → β) : Prop :=
  ∀ o x set, f.read o x = .ok set → ∀ s, get (set s) = get s

theorem Field.leaves_allow {σ α β : Type} {name : String} {d : Decoder α} {put : α → σ → σ}
    {get : σ → β} (h : ∀ a s, get (put a s) = get s) : (Field.allow name d put).Leaves get := by
  intro o x set hset s
  obtain ⟨a, -, rfl⟩ := map_eq_ok_iff.1 hset
  exact h a s

theorem Field.exists_read_allow {σ α : Type} {name : String} {d : Decoder α} {put : α → σ → σ}
    {o : Origin} {x : Reading} {a : α} (h : d o x = .ok a) :
    ∃ set, (Field.allow name d put).read o x = .ok set :=
  ⟨put a, map_eq_ok_iff.2 ⟨a, h, rfl⟩⟩

namespace Record

open Reading

variable {σ β : Type} {r : Record σ} {o : Origin} {k : String} {members : List (Name × Reading)}
  {seen seen' : List String} {s t : σ}

def names (r : Record σ) : List String := r.fields.map (·.name)

theorem field?_eq_none_iff : r.field? k = none ↔ k ∉ r.names := by
  simp [field?, names]

theorem mem_of_field?_eq_some {f : Field σ} (h : r.field? k = some f) :
    f ∈ r.fields ∧ f.name = k :=
  ⟨List.mem_of_find?_eq_some h, by simpa using List.find?_some h⟩

theorem mem_names_of_field?_eq_some {f : Field σ} (h : r.field? k = some f) : k ∈ r.names := by
  obtain ⟨hf, rfl⟩ := mem_of_field?_eq_some h
  exact List.mem_map_of_mem hf

theorem ignoreRest_eq_ok_iff {x : Reading} :
    ignoreRest o k x s = .ok t ↔ x.skip = .ok () ∧ t = s := by
  rw [ignoreRest]
  split
  · rename_i hskip
    simp [hskip, eq_comm]
  · rename_i hskip
    simp [hskip]

/-! Objects -/

/-- No field that was seen before is there once more. -/
def Fresh (r : Record σ) (seen : List String) (members : List (Name × Reading)) : Prop :=
  ∀ k ∈ seen, k ∈ r.names → ∀ m ∈ members, m.1 ≠ .ok k

theorem exists_readMembers (h : Members r.names members) (hfresh : r.Fresh seen members)
    (hread : ∀ f ∈ r.fields, ∀ x, member? f.name members = some x → ∃ set, f.read o x = .ok set)
    (s : σ) : ∃ p, r.readMembers ignoreRest o members seen s = .ok p := by
  induction members generalizing seen s with
  | nil => exact ⟨_, rfl⟩
  | cons m members ih =>
    obtain ⟨name, x⟩ := m
    obtain ⟨k, rfl : name = .ok k⟩ := h.named _ List.mem_cons_self
    obtain ⟨hnew, hskip, hmembers⟩ := members_cons_iff.1 h
    have hrest : r.Fresh seen members :=
      fun l hl hmem m hm => hfresh l hl hmem m (List.mem_cons_of_mem _ hm)
    -- A value in the rest is the first of its name also with this member in front.
    have hreads : ∀ f ∈ r.fields, ∀ y, member? f.name members = some y →
        ∃ set, f.read o y = .ok set := by
      intro f hf y hy
      refine hread f hf y ?_
      rw [member?, if_neg, hy]
      rintro rfl
      rw [member?_eq_none (hnew (List.mem_map_of_mem hf))] at hy
      cases hy
    cases hk : r.field? k with
    | none =>
      have hpass : ignoreRest o k x s = .ok s :=
        ignoreRest_eq_ok_iff.2 ⟨hskip (field?_eq_none_iff.1 hk), rfl⟩
      rw [readMembers_rest hk hpass]
      exact ih hmembers hrest hreads s
    | some f =>
      have hkn := mem_names_of_field?_eq_some hk
      obtain ⟨hf, hname⟩ := mem_of_field?_eq_some hk
      obtain ⟨set, hset⟩ := hread f hf x (by rw [member?, if_pos hname.symm])
      have hseen : k ∉ seen := fun hmem => hfresh k hmem hkn _ List.mem_cons_self rfl
      rw [readMembers_field hk hseen hset]
      refine ih hmembers ?_ hreads (set s)
      intro l hl hln
      rcases List.mem_cons.1 hl with rfl | hl
      · exact hnew hln
      · exact hrest l hl hln

theorem members_of_readMembers (h : r.readMembers ignoreRest o members seen s = .ok (seen', t)) :
    Members r.names members ∧ r.Fresh seen members := by
  induction members generalizing seen s with
  | nil => exact ⟨.nil, by simp [Fresh]⟩
  | cons m members ih =>
    obtain ⟨f | k, x⟩ := m
    · cases h
    simp only [readMembers] at h
    split at h
    · rename_i f hk
      split at h
      · cases h
      rename_i hseen
      obtain ⟨set, -, h⟩ := bind_eq_ok_iff.1 h
      obtain ⟨hmembers, hfresh⟩ := ih h
      have hkn := mem_names_of_field?_eq_some hk
      refine ⟨members_cons_iff.2 ⟨hfresh k List.mem_cons_self, absurd hkn, hmembers⟩, ?_⟩
      intro l hl hln
      refine List.forall_mem_cons.2 ⟨?_, hfresh l (List.mem_cons_of_mem k hl) hln⟩
      rintro heq
      cases heq
      exact hseen hl
    · rename_i hk
      have hkn := field?_eq_none_iff.1 hk
      obtain ⟨u, hpass, h⟩ := bind_eq_ok_iff.1 h
      obtain ⟨hmembers, hfresh⟩ := ih h
      have hskip := (ignoreRest_eq_ok_iff.1 hpass).1
      refine ⟨members_cons_iff.2 ⟨(absurd · hkn), fun _ => hskip, hmembers⟩, ?_⟩
      intro l hl hln
      refine List.forall_mem_cons.2 ⟨?_, hfresh l hl hln⟩
      rintro heq
      cases heq
      exact hkn hln

/-! Parts -/

/-- A part of a record that only the field of one name sets, to what its value stands for. -/
structure Part (r : Record σ) (o : Origin) (k : String) (get : σ → β)
    (Stands : Reading → β → Prop) : Prop where
  mem : k ∈ r.names
  own : ∀ f ∈ r.fields, f.name = k →
    ∀ x set, f.read o x = .ok set → ∀ s, Stands x (get (set s))
  others : ∀ f ∈ r.fields, f.name ≠ k →
    ∀ x set, f.read o x = .ok set → ∀ s, get (set s) = get s

variable {get : σ → β} {Stands : Reading → β → Prop}

theorem Part.of_allow {α : Type} {d : Decoder α} {put : α → σ → σ} (hnodup : r.names.Nodup)
    (hmem : .allow k d put ∈ r.fields) (hown : ∀ x a s, d o x = .ok a → Stands x (get (put a s)))
    (hothers : ∀ f ∈ r.fields, f.name = k ∨ f.Leaves get) : r.Part o k get Stands where
  mem := List.mem_map_of_mem (f := (·.name)) hmem
  own f hf hname x set hset s := by
    obtain rfl := List.inj_on_of_nodup_map hnodup hf hmem hname
    obtain ⟨a, ha, rfl⟩ := map_eq_ok_iff.1 hset
    exact hown x a s ha
  others f hf hname := (hothers f hf).resolve_left hname o

/-- After all members the part is what the one of its name stands for, or as it was without one. -/
theorem Part.of_readMembers (hpart : r.Part o k get Stands)
    (h : r.readMembers ignoreRest o members seen s = .ok (seen', t)) :
    ∃ v, Option.Rel Stands (member? k members) v ∧ get t = v.getD (get s) := by
  induction members generalizing seen s with
  | nil =>
    cases h
    exact ⟨none, .none, rfl⟩
  | cons m members ih =>
    obtain ⟨hmembers, -⟩ := members_of_readMembers h
    obtain ⟨f | l, x⟩ := m
    · cases h
    have hnew := (members_cons_iff.1 hmembers).1
    simp only [readMembers] at h
    split at h
    · rename_i f hl
      split at h
      · cases h
      obtain ⟨set, hset, h⟩ := bind_eq_ok_iff.1 h
      obtain ⟨v, hv, hget⟩ := ih h
      obtain ⟨hf, rfl⟩ := mem_of_field?_eq_some hl
      rw [member?]
      split
      · rename_i hname
        rw [member?_eq_none (hname ▸ hnew (mem_names_of_field?_eq_some hl))] at hv
        cases hv
        exact ⟨_, .some (hpart.own f hf hname x set hset s), hget⟩
      · rename_i hname
        rw [hpart.others f hf hname x set hset s] at hget
        exact ⟨v, hv, hget⟩
    · rename_i hl
      obtain ⟨u, hpass, hrest⟩ := bind_eq_ok_iff.1 h
      obtain ⟨-, rfl⟩ := ignoreRest_eq_ok_iff.1 hpass
      rw [member?, if_neg]
      · exact ih hrest
      · rintro rfl
        exact field?_eq_none_iff.1 hl hpart.mem

/-! Arrays -/

section Items

variable {fields : List (Field σ)} {items : List Reading}

theorem exists_readItems (hoptional : ∀ f ∈ fields, f.required = false)
    (hlength : items.length ≤ fields.length)
    (hread : ∀ (n : Nat) f x, fields[n]? = some f → items[n]? = some x → ∃ set, f.read o x = .ok set)
    (i : Nat) (s : σ) : ∃ t, r.readItems o none i fields items s = .ok ([], t) := by
  induction fields generalizing items i s with
  | nil =>
    obtain rfl := List.eq_nil_of_length_eq_zero (Nat.le_zero.1 hlength)
    exact ⟨s, rfl⟩
  | cons f fields ih =>
    obtain ⟨hf, hfields⟩ := List.forall_mem_cons.1 hoptional
    cases items with
    | nil =>
      simp only [readItems, hf]
      exact ih hfields (Nat.zero_le _) (by simp) (i + 1) s
    | cons x items =>
      obtain ⟨set, hset⟩ := hread 0 f x rfl rfl
      have hreads := fun n => hread (n + 1)
      simp only [readItems, hset, ok_bind]
      exact ih hfields (Nat.le_of_succ_le_succ hlength) hreads (i + 1) (set s)

theorem length_le_of_readItems {ending : Option Fault} {i : Nat}
    (h : r.readItems o ending i fields items s = .ok ([], t)) : items.length ≤ fields.length := by
  induction fields generalizing items i s with
  | nil =>
    cases h
    exact Nat.le_refl 0
  | cons f fields ih =>
    cases items with
    | nil => exact Nat.zero_le _
    | cons x items =>
      obtain ⟨set, -, h⟩ := bind_eq_ok_iff.1 h
      exact Nat.succ_le_succ (ih h)

/-- After all items the part is what the one at the place of its field stands for. -/
theorem Part.of_readItems (hpart : r.Part o k get Stands) (hfields : fields ⊆ r.fields)
    (hnodup : (fields.map (·.name)).Nodup) {ending : Option Fault} {i : Nat}
    (h : r.readItems o ending i fields items s = .ok ([], t)) :
    ∃ v, Option.Rel Stands items[(fields.map (·.name)).idxOf k]? v ∧ get t = v.getD (get s) := by
  induction fields generalizing items i s with
  | nil =>
    cases h
    exact ⟨none, .none, rfl⟩
  | cons f fields ih =>
    obtain ⟨hf, hrest⟩ := List.cons_subset.1 hfields
    rw [List.map_cons, List.nodup_cons] at hnodup
    cases items with
    | nil =>
      simp only [readItems, bind_eq_ok_iff] at h
      obtain ⟨-, -, h⟩ := h
      split at h
      · cases h
      · obtain ⟨v, hv, hget⟩ := ih hrest hnodup.2 h
        exact ⟨v, by simpa using hv, hget⟩
    | cons x items =>
      obtain ⟨set, hset, h⟩ := bind_eq_ok_iff.1 h
      obtain ⟨v, hv, hget⟩ := ih hrest hnodup.2 h
      by_cases hname : f.name = k
      · -- There are no more items than fields, so that none of the rest is for this name again.
        have hnone : items[(fields.map (·.name)).idxOf k]? = none := by
          rw [List.idxOf_eq_length (hname ▸ hnodup.1), List.length_map]
          exact List.getElem?_eq_none (length_le_of_readItems h)
        rw [hnone] at hv
        cases hv
        refine ⟨some (get (set s)), ?_, hget⟩
        rw [List.map_cons, hname, List.idxOf_cons_self]
        exact .some (hpart.own f hf hname x set hset s)
      · rw [hpart.others f hf hname x set hset s] at hget
        refine ⟨v, ?_, hget⟩
        rw [List.map_cons, List.idxOf_cons_ne _ hname]
        exact hv

end Items

/-! Whole values -/

section Values

variable {inner : Origin} {x : Reading}

theorem missing?_eq_none (hoptional : ∀ f ∈ r.fields, f.required = false) (seen : List String) :
    r.missing? seen = none := by
  rw [missing?, Option.map_eq_none_iff, List.find?_eq_none]
  intro f hf
  simp [hoptional f hf]

theorem exists_decode (hoptional : ∀ f ∈ r.fields, f.required = false)
    (hnodup : r.names.Nodup) (henter : o.enter = .ok inner) (h : x.IsRecord r.names)
    (hread : ∀ f ∈ r.fields, ∀ y, x.given? r.names f.name = some y →
      ∃ set, f.read inner y = .ok set) : ∃ s, r.decode o x = .ok s := by
  cases h with
  | object hmembers =>
    have hfresh : ∀ members, r.Fresh [] members := by simp [Fresh]
    obtain ⟨⟨seen, s⟩, hs⟩ := exists_readMembers hmembers (hfresh _) hread r.blank
    exact ⟨s, readObject_of_readMembers henter hs (missing?_eq_none hoptional seen)⟩
  | @array items hlength =>
    rw [names, List.length_map] at hlength
    have hitem : ∀ (n : Nat) f y, r.fields[n]? = some f → items[n]? = some y →
        ∃ set, f.read inner y = .ok set := by
      intro n f y hf hy
      refine hread f (List.mem_of_getElem? hf) y ?_
      have hplace : r.names[n]? = some f.name := by simp [names, hf]
      obtain ⟨hn, hname⟩ := List.getElem?_eq_some_iff.1 hplace
      rw [given?, ← hname, hnodup.idxOf_getElem n hn, hy]
    obtain ⟨s, hs⟩ := exists_readItems (r := r) hoptional hlength hitem 0 r.blank
    refine ⟨s, ?_⟩
    simp only [decode, readArray, henter, ok_bind, hs, List.isEmpty_nil, if_true]

/-- What is read in full from a value: its members or its items. -/
theorem decode_cases (henter : o.enter = .ok inner) (h : r.decode o x = .ok s) :
    (∃ members seen, x = .object members none ∧
        r.readMembers ignoreRest inner members [] r.blank = .ok (seen, s)) ∨
      ∃ items, x = .array items none ∧
        r.readItems inner none 0 r.fields items r.blank = .ok ([], s) := by
  cases x with
  | scalar _ => cases h
  | fault _ => cases h
  | object members ending =>
    simp only [decode, readObject, henter, ok_bind, bind_eq_ok_iff, checkEnding_eq_ok_iff] at h
    obtain ⟨⟨seen, t⟩, hread, -, rfl, h⟩ := h
    split at h
    · cases h
    · cases h
      exact .inl ⟨members, seen, rfl, hread⟩
  | array items ending =>
    simp only [decode, readArray, henter, ok_bind, bind_eq_ok_iff] at h
    obtain ⟨⟨left, t⟩, hread, h⟩ := h
    split at h
    · rename_i hleft
      obtain rfl := List.isEmpty_iff.1 hleft
      split at h
      · cases h
        exact .inr ⟨items, rfl, hread⟩
      · cases h
    · cases h

theorem isRecord_of_decode (henter : o.enter = .ok inner) (h : r.decode o x = .ok s) :
    x.IsRecord r.names := by
  obtain ⟨members, seen, rfl, hread⟩ | ⟨items, rfl, hread⟩ := decode_cases henter h
  · exact .object (members_of_readMembers hread).1
  · refine .array ?_
    rw [names, List.length_map]
    exact length_le_of_readItems hread

theorem Part.of_decode (hpart : r.Part inner k get Stands) (hnodup : r.names.Nodup)
    (henter : o.enter = .ok inner) (h : r.decode o x = .ok s) :
    ∃ v, Option.Rel Stands (x.given? r.names k) v ∧ get s = v.getD (get r.blank) := by
  obtain ⟨members, seen, rfl, hread⟩ | ⟨items, rfl, hread⟩ := decode_cases henter h
  · exact hpart.of_readMembers hread
  · exact hpart.of_readItems (List.Subset.refl _) hnodup hread

end Values

end Record

end FlowDiagram.Json
