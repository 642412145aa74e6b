import FlowDiagram.Proofs.Json.OrderFree
import Mathlib.Data.List.Pairwise
/-! Records for which the order of members does not count. -/

namespace FlowDiagram.Json

variable {σ : Type}

namespace Field

/-- One exchange of members inside a field changes the record no further than the relation
allows. -/
def OrderFree (f : Field σ) (R : σ → σ → Prop) : Prop :=
  f.read.OrderFree fun a b => ∀ s, R (a s) (b s)

/-- The field keeps records related. -/
def Keeps (f : Field σ) (R : σ → σ → Prop) : Prop :=
  ∀ ⦃o x a⦄, f.read o x = .ok a → ∀ ⦃s t⦄, R s t → R (a s) (a t)

/-- Two fields set parts of a record that do not touch. -/
def Commute (f g : Field σ) : Prop :=
  ∀ ⦃o x a p y b⦄, f.read o x = .ok a → g.read p y = .ok b → ∀ s, a (b s) = b (a s)

instance : Std.Symm (@Commute σ) where
  symm _ _ h _ _ _ _ _ _ hb ha s := (h ha hb s).symm

section Set

variable {α β : Type} {name name' : String} {required required' : Bool} {d : Decoder α}
  {e : Decoder β} {set : α → σ → σ} {set' : β → σ → σ} {R : σ → σ → Prop}

theorem orderFree_of_eq (hR : ∀ s, R s s) (h : d.OrderFree Eq) :
    OrderFree ⟨name, required, d.map set⟩ R :=
  h.map fun _ _ hab _ => hab ▸ hR _

theorem keeps_of_set (h : ∀ a s t, R s t → R (set a s) (set a t)) :
    Keeps ⟨name, required, d.map set⟩ R := by
  intro o x f hf s t hst
  obtain ⟨a, -, rfl⟩ := map_eq_ok_iff.1 hf
  exact h a s t hst

theorem commute_of_set (h : ∀ a b s, set a (set' b s) = set' b (set a s)) :
    Commute ⟨name, required, d.map set⟩ ⟨name', required', e.map set'⟩ := by
  intro o x f p y g hf hg s
  obtain ⟨a, -, rfl⟩ := map_eq_ok_iff.1 hf
  obtain ⟨b, -, rfl⟩ := map_eq_ok_iff.1 hg
  exact h a b s

end Set

end Field

namespace Record

variable {R : σ → σ → Prop} {r : Record σ} {rest : Rest σ} {o : Origin}

/-- An exchange inside a field changes the record no further than the relation allows, which every
field keeps, and the fields may be set in any order. -/
structure OrderFree (r : Record σ) (R : σ → σ → Prop) : Prop where
  refl : ∀ s, R s s
  read : ∀ f ∈ r.fields, f.OrderFree R
  keep : ∀ f ∈ r.fields, f.Keeps R
  commute : r.fields.Pairwise Field.Commute

theorem OrderFree.of_eq (hread : ∀ f ∈ r.fields, f.OrderFree Eq)
    (hcommute : r.fields.Pairwise Field.Commute) : r.OrderFree Eq where
  refl _ := rfl
  read := hread
  keep _ _ _ _ _ _ _ _ h := congrArg _ h
  commute := hcommute

/-- The same of the members that are no fields, among themselves and with the fields. -/
structure RestOrderFree (r : Record σ) (rest : Rest σ) (R : σ → σ → Prop) : Prop where
  read : ∀ ⦃x y⦄, x.Exchange y → x.HasDistinctNames →
    ∀ o k s, Agree R (rest o k x s) (rest o k y s)
  keep : ∀ o k x ⦃s t⦄, R s t → Agree R (rest o k x s) (rest o k x t)
  swap : ∀ o k x l y s, Agree R (rest o k x s >>= rest o l y) (rest o l y s >>= rest o k x)
  commute : ∀ f ∈ r.fields, ∀ ⦃o x a⦄, f.read o x = .ok a →
    ∀ k y s, rest o k y (a s) = (rest o k y s).map a

theorem restOrderFree_ignoreRest (hr : r.OrderFree R) : r.RestOrderFree ignoreRest R where
  read x y hxy _ o k s := by
    have hskip := hxy.skip_agree
    simp only [ignoreRest]
    cases hx : x.skip <;> cases hy : y.skip <;> rw [hx, hy] at hskip <;> cases hskip
    · exact .error _ _
    · exact .ok (hr.refl s)
  keep o k x s t hst := by
    simp only [ignoreRest]
    cases x.skip with
    | ok _ => exact .ok hst
    | error f => exact .error _ _
  swap o k x l y s := by
    cases hx : x.skip <;> cases hy : y.skip <;>
      simp only [ignoreRest, hx, hy, ok_bind, error_bind]
    · exact .error _ _
    · exact .error _ _
    · exact .error _ _
    · exact .ok (hr.refl s)
  commute f _ o x a _ k y s := by
    simp only [ignoreRest]
    cases y.skip <;> rfl

/-- What was read of two objects: the same fields, and related records. -/
def SameProgress (R : σ → σ → Prop) (p q : List String × σ) : Prop :=
  (∀ k, k ∈ p.1 ↔ k ∈ q.1) ∧ R p.2 q.2

theorem readMembers_append (ms ns : List (Name × Reading)) (seen : List String) (s : σ) :
    r.readMembers rest o (ms ++ ns) seen s =
      r.readMembers rest o ms seen s >>= fun p => r.readMembers rest o ns p.1 p.2 := by
  induction ms generalizing seen s with
  | nil => rfl
  | cons m ms ih =>
    obtain ⟨f | k, x⟩ := m
    · rfl
    · simp only [List.cons_append, readMembers]
      split
      · split
        · rfl
        · simp only [ih, bind_assoc]
      · simp only [ih, bind_assoc]

section Members

variable (hr : r.OrderFree R) (hrest : r.RestOrderFree rest R)

include hr hrest

/-- The rest of the members keeps what was read before them related. -/
theorem readMembers_keep (ms : List (Name × Reading)) {seen seen' : List String} {s t : σ}
    (hseen : ∀ k, k ∈ seen ↔ k ∈ seen') (hst : R s t) :
    Agree (SameProgress R) (r.readMembers rest o ms seen s) (r.readMembers rest o ms seen' t) := by
  induction ms generalizing seen seen' s t with
  | nil => exact .ok ⟨hseen, hst⟩
  | cons m ms ih =>
    obtain ⟨f | k, x⟩ := m
    · exact .error _ _
    simp only [readMembers]
    cases hk : r.field? k with
    | none => exact (hrest.keep o k x hst).bind fun _ _ _ _ h => ih hseen h
    | some f =>
      have hf : f ∈ r.fields := List.mem_of_find?_eq_some hk
      by_cases hmem : k ∈ seen
      · simp only [if_pos hmem, if_pos ((hseen k).1 hmem)]
        exact .error _ _
      · simp only [if_neg hmem, if_neg fun h => hmem ((hseen k).2 h)]
        exact Agree.bind_same _ fun a ha => ih (by simp [hseen]) (hr.keep f hf ha hst)

theorem readMembers_value {name : Name} {x y : Reading} (hxy : x.Exchange y)
    (hx : x.HasDistinctNames) (after : List (Name × Reading)) (seen : List String) (s : σ) :
    Agree (SameProgress R) (r.readMembers rest o ((name, x) :: after) seen s)
      (r.readMembers rest o ((name, y) :: after) seen s) := by
  cases name with
  | error f => exact .error _ _
  | ok k =>
    simp only [readMembers]
    cases hk : r.field? k with
    | none =>
      refine (hrest.read hxy hx o k s).bind fun _ _ _ _ h => ?_
      exact readMembers_keep hr hrest after (fun _ => Iff.rfl) h
    | some f =>
      have hf : f ∈ r.fields := List.mem_of_find?_eq_some hk
      by_cases hmem : k ∈ seen
      · simp only [if_pos hmem]
        exact .error _ _
      · simp only [if_neg hmem]
        refine (hr.read f hf hxy hx).bind fun _ _ _ _ h => ?_
        exact readMembers_keep hr hrest after (fun _ => Iff.rfl) (h s)

omit hr hrest in
/-- If members are refused whatever else was seen, so are they after one more. -/
theorem readMembers_cons_error (m : Name × Reading) {ms : List (Name × Reading)}
    {seen : List String} (h : ∀ seen' t, seen ⊆ seen' →
      ∃ e, r.readMembers rest o ms seen' t = .error e) (s : σ) :
    ∃ e, r.readMembers rest o (m :: ms) seen s = .error e := by
  obtain ⟨f | k, x⟩ := m
  · exact ⟨_, rfl⟩
  simp only [readMembers]
  split
  · split
    · exact ⟨_, rfl⟩
    · rename_i f _ _
      cases f.read o x with
      | error e => exact ⟨e, rfl⟩
      | ok a => exact h (k :: seen) (a s) (List.subset_cons_self k seen)
  · cases rest o k x s with
    | error e => exact ⟨e, rfl⟩
    | ok t => exact h seen t (List.Subset.refl seen)

omit hr hrest in
theorem readMembers_seen {k : String} {f : Field σ} (hk : r.field? k = some f)
    {seen : List String} (hmem : k ∈ seen) (x : Reading) (ms : List (Name × Reading)) (s : σ) :
    ∃ e, r.readMembers rest o ((.ok k, x) :: ms) seen s = .error e :=
  ⟨.duplicateField k, by simp only [readMembers, hk, if_pos hmem]⟩

omit hr in
theorem readMembers_swap_field_rest {k l : String} {f : Field σ} (hk : r.field? k = some f)
    (hl : r.field? l = none) (x y : Reading) (after : List (Name × Reading))
    (seen : List String) (s : σ) :
    Agree Eq (r.readMembers rest o ((.ok k, x) :: (.ok l, y) :: after) seen s)
      (r.readMembers rest o ((.ok l, y) :: (.ok k, x) :: after) seen s) := by
  have hf : f ∈ r.fields := List.mem_of_find?_eq_some hk
  by_cases hmem : k ∈ seen
  · refine .of_error (readMembers_seen hk hmem _ _ _) (readMembers_cons_error _ ?_ s)
    exact fun _ _ h => readMembers_seen hk (h hmem) _ _ _
  · simp only [readMembers, hk, hl, if_neg hmem]
    cases hread : f.read o x with
    | error e => cases rest o l y s <;> exact .error _ _
    | ok a =>
      simp only [ok_bind, hrest.commute f hf hread l y s]
      cases rest o l y s with
      | error e => exact .error _ _
      | ok t => exact Agree.refl (fun _ => rfl) _

theorem readMembers_swap_fields {k l : String} {f g : Field σ} (hk : r.field? k = some f)
    (hl : r.field? l = some g) (x y : Reading) (after : List (Name × Reading))
    (seen : List String) (s : σ) :
    Agree (SameProgress R) (r.readMembers rest o ((.ok k, x) :: (.ok l, y) :: after) seen s)
      (r.readMembers rest o ((.ok l, y) :: (.ok k, x) :: after) seen s) := by
  by_cases hkseen : k ∈ seen
  · refine .of_error (readMembers_seen hk hkseen _ _ _) (readMembers_cons_error _ ?_ s)
    exact fun _ _ h => readMembers_seen hk (h hkseen) _ _ _
  by_cases hlseen : l ∈ seen
  · refine .of_error (readMembers_cons_error _ ?_ s) (readMembers_seen hl hlseen _ _ _)
    exact fun _ _ h => readMembers_seen hl (h hlseen) _ _ _
  by_cases hkl : k = l
  · -- Two members of one field: the second is refused in either order.
    subst hkl
    simp only [readMembers, hk, if_neg hkseen, List.mem_cons, true_or, if_true]
    cases f.read o x <;> cases f.read o y <;> exact .error _ _
  · have hfg : f.Commute g := by
      refine hr.commute.forall (List.mem_of_find?_eq_some hk) (List.mem_of_find?_eq_some hl) ?_
      rintro rfl
      have hfk : f.name = k := by simpa using List.find?_some hk
      have hfl : f.name = l := by simpa using List.find?_some hl
      exact hkl (hfk.symm.trans hfl)
    have hlk : l ∉ k :: seen := by simp [Ne.symm hkl, hlseen]
    have hkl : k ∉ l :: seen := by simp [hkl, hkseen]
    simp only [readMembers, hk, hl, if_neg hkseen, if_neg hlseen, if_neg hlk, if_neg hkl]
    refine Agree.swap _ _ fun a b ha hb => ?_
    rw [hfg ha hb s]
    exact readMembers_keep hr hrest after (by simp [or_left_comm]) (hr.refl _)

theorem readMembers_swap (m n : Name × Reading) (after : List (Name × Reading))
    (seen : List String) (s : σ) :
    Agree (SameProgress R) (r.readMembers rest o (m :: n :: after) seen s)
      (r.readMembers rest o (n :: m :: after) seen s) := by
  have hsame : ∀ p : List String × σ, SameProgress R p p := fun p => ⟨fun _ => Iff.rfl, hr.refl _⟩
  obtain ⟨f | k, x⟩ := m
  · exact .of_error ⟨_, rfl⟩ (readMembers_cons_error n (fun _ _ _ => ⟨_, rfl⟩) s)
  obtain ⟨g | l, y⟩ := n
  · exact .of_error (readMembers_cons_error _ (fun _ _ _ => ⟨_, rfl⟩) s) ⟨_, rfl⟩
  cases hk : r.field? k with
  | some f =>
    cases hl : r.field? l with
    | some g => exact readMembers_swap_fields hr hrest hk hl x y after seen s
    | none => exact .of_eq hsame (readMembers_swap_field_rest hrest hk hl x y after seen s)
  | none =>
    cases hl : r.field? l with
    | some g => exact .of_eq hsame (readMembers_swap_field_rest hrest hl hk y x after seen s).symm
    | none =>
      simp only [readMembers, hk, hl]
      rw [← bind_assoc, ← bind_assoc]
      exact (hrest.swap o k x l y s).bind fun _ _ _ _ h =>
        readMembers_keep hr hrest after (fun _ => Iff.rfl) h

end Members

theorem missing?_congr {seen seen' : List String} (h : ∀ k, k ∈ seen ↔ k ∈ seen') :
    r.missing? seen = r.missing? seen' := by
  have hcontains : ∀ k, seen.contains k = seen'.contains k := fun k => by simp [h k]
  simp only [missing?, hcontains]

/-- Members that an exchange takes to each other, whatever their names. -/
theorem readObject_agree (hr : r.OrderFree R) (hrest : r.RestOrderFree rest R)
    {ms ns : List (Name × Reading)} {ending ending' : Option Fault}
    (h : (Reading.object ms ending).Exchange (.object ns ending'))
    (hms : ∀ m ∈ ms, m.2.HasDistinctNames) :
    Agree R (r.readObject rest o ms ending) (r.readObject rest o ns ending') := by
  have hsame : ending = ending' ∧ ∀ o, Agree (SameProgress R)
      (r.readMembers rest o ms [] r.blank) (r.readMembers rest o ns [] r.blank) := by
    cases h with
    | members before after m n =>
      refine ⟨rfl, fun o => ?_⟩
      rw [readMembers_append, readMembers_append before]
      exact Agree.bind_same _ fun _ _ => readMembers_swap hr hrest m n after _ _
    | value before after name _ hxy =>
      refine ⟨rfl, fun o => ?_⟩
      rw [readMembers_append, readMembers_append before]
      rw [List.forall_mem_append, List.forall_mem_cons] at hms
      exact Agree.bind_same _ fun _ _ => readMembers_value hr hrest hxy hms.2.1 after _ _
  obtain ⟨rfl, hmembers⟩ := hsame
  refine Agree.bind_same _ fun o _ => (hmembers o).bind ?_
  rintro ⟨seen, s⟩ ⟨seen', t⟩ _ _ ⟨hseen, hst⟩
  refine Agree.bind_same _ fun _ _ => ?_
  simp only [missing?_congr hseen]
  split
  · exact .error _ _
  · exact .ok hst

section Items

variable (hr : r.OrderFree R)

include hr

theorem readItems_keep {fields : List (Field σ)} (hfields : fields ⊆ r.fields)
    (ending : Option Fault) (i : Nat) (items : List Reading) {s t : σ} (hst : R s t) :
    Agree (fun p q => p.1.length = q.1.length ∧ R p.2 q.2)
      (r.readItems o ending i fields items s) (r.readItems o ending i fields items t) := by
  induction fields generalizing i items s t with
  | nil => exact .ok ⟨rfl, hst⟩
  | cons f fields ih =>
    rw [List.cons_subset] at hfields
    cases items with
    | nil =>
      refine Agree.bind_same _ fun _ _ => ?_
      split
      · exact .error _ _
      · exact ih hfields.2 (i + 1) [] hst
    | cons x items =>
      refine Agree.bind_same _ fun a ha => ?_
      exact ih hfields.2 (i + 1) items (hr.keep f hfields.1 ha hst)

theorem readItems_item {fields : List (Field σ)} (hfields : fields ⊆ r.fields) {x y : Reading}
    (hxy : x.Exchange y) (hx : x.HasDistinctNames) (ending : Option Fault) (i : Nat)
    (before after : List Reading) (s : σ) :
    Agree (fun p q => p.1.length = q.1.length ∧ R p.2 q.2)
      (r.readItems o ending i fields (before ++ x :: after) s)
      (r.readItems o ending i fields (before ++ y :: after) s) := by
  induction fields generalizing i before s with
  | nil =>
    refine .ok ⟨?_, hr.refl s⟩
    simp
  | cons f fields ih =>
    rw [List.cons_subset] at hfields
    cases before with
    | nil =>
      refine (hr.read f hfields.1 hxy hx).bind fun a b _ _ hab => ?_
      exact readItems_keep hr hfields.2 ending (i + 1) after (hab s)
    | cons z before => exact Agree.bind_same _ fun a _ => ih hfields.2 (i + 1) before (a s)

end Items

theorem OrderFree.decodeOpen (hr : r.OrderFree R) (hrest : r.RestOrderFree rest R) :
    (r.decodeOpen rest).OrderFree R := by
  intro o x y hxy hx
  cases hxy with
  | item => exact .error _ _
  | members before after m n ending =>
    exact readObject_agree hr hrest (.members before after m n ending)
      (Reading.hasDistinctNames_object.1 hx).2
  | value before after name ending h =>
    exact readObject_agree hr hrest (.value before after name ending h)
      (Reading.hasDistinctNames_object.1 hx).2

theorem OrderFree.decode (hr : r.OrderFree R) : r.decode.OrderFree R := by
  intro o x y hxy hx
  have hopen := hr.decodeOpen (restOrderFree_ignoreRest hr)
  cases hxy with
  | members before after m n ending => exact hopen (.members before after m n ending) hx
  | value before after name ending h => exact hopen (.value before after name ending h) hx
  | item before after ending h =>
    rw [Reading.hasDistinctNames_array, List.forall_mem_append, List.forall_mem_cons] at hx
    refine Agree.bind_same _ fun o _ => ?_
    refine (readItems_item hr (List.Subset.refl _) h hx.2.1 ending 0 before after r.blank).bind ?_
    rintro ⟨left, s⟩ ⟨left', t⟩ _ _ ⟨hlength, hst⟩
    have hempty : left.isEmpty = left'.isEmpty := by
      rw [Bool.eq_iff_iff, List.isEmpty_iff_length_eq_zero, List.isEmpty_iff_length_eq_zero]
      exact Eq.congr_left hlength
    simp only [hempty]
    split
    · cases ending with
      | none => exact .ok hst
      | some f => exact .error _ _
    · exact .error _ _

end Record

end FlowDiagram.Json
