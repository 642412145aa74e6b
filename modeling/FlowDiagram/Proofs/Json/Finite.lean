import FlowDiagram.Proofs.Decimal.Finite
import FlowDiagram.Proofs.Json.Parts
import FlowDiagram.Proofs.Json.Scan
/-! All numbers of a text are finite, and so are those of its reading. -/

namespace FlowDiagram.Json

def Number.IsFinite (n : Number) : Prop := n.toFloat.isFinite = true

theorem Number.isFinite_of_ofNumeral? {n : Numeral} {m : Number} (h : ofNumeral? n = some m) :
    m.IsFinite := by
  have hfloat : n.float?.map Number.float = some m → m.IsFinite := by
    intro hm
    obtain ⟨x, hx, rfl⟩ := Option.map_eq_some_iff.1 hm
    exact Decimal.isFinite_of_float? hx
  rw [ofNumeral?] at h
  split at h
  · exact hfloat h
  · split at h
    · rename_i i _ fits
      split at h
      · exact hfloat h
      · cases h
        exact Decimal.isFinite_ofInt (by omega)
    · exact hfloat h

/-! Tokens -/

def Token.IsFinite (t : Token) : Prop := ∀ n, t = .scalar (.number n) → n.IsFinite

namespace Scan

/-- No number is spelt as a word. -/
def IsWord : Scan → Prop
  | word _ s => ∀ n, s ≠ .number n
  | _ => True

/-- A scan and the tokens that it has just found. -/
structure IsFinite (found : Scan × List Token) : Prop where
  word : found.1.IsWord
  tokens : ∀ k ∈ found.2, k.IsFinite

theorem isFinite_silent {s : Scan} (h : s.IsWord) : IsFinite (s, []) := ⟨h, by simp⟩

theorem isFinite_single {s : Scan} {k : Token} (h : s.IsWord) (hk : k.IsFinite) :
    IsFinite (s, [k]) := ⟨h, List.forall_mem_singleton.2 hk⟩

theorem isFinite_ended (n : NumberScan) (next : Option Char) : (n.ended next).IsFinite := by
  intro m h
  simp only [NumberScan.ended] at h
  split at h
  · split at h
    · cases h
    · split at h
      · rename_i x hx
        cases h
        exact Number.isFinite_of_ofNumeral? hx
      · cases h
  · split at h <;> cases h

theorem isFinite_of_textStep {t : TextScan} {c : Char} {k : Token} (h : t.step c = .token k) :
    k.IsFinite := by
  rintro n rfl
  exfalso
  have hstop : ∀ (t : TextScan) f, t.stop f ≠ .token (.scalar (.number n)) := by
    intro t f hstop
    cases hstop
  have hcharacter : ∀ t : TextScan, t.onCharacter c ≠ .token (.scalar (.number n)) := by
    intro t hcharacter
    simp only [TextScan.onCharacter, TextScan.finished] at hcharacter
    repeat' split at hcharacter
    all_goals first | exact hstop _ _ hcharacter | cases hcharacter
  have hescape : ∀ t : TextScan, t.onEscape c ≠ .token (.scalar (.number n)) := by
    intro t hescape
    simp only [TextScan.onEscape] at hescape
    repeat' split at hescape
    all_goals first | exact hstop _ _ hescape | cases hescape
  simp only [TextScan.step] at h
  repeat' split at h
  all_goals first
    | exact hcharacter _ h
    | exact hescape _ h
    | exact hstop _ _ h
    | cases h

theorem isFinite_ite (p : Prop) [Decidable p] {a b : Scan × List Token} (ha : IsFinite a)
    (hb : IsFinite b) : IsFinite (if p then a else b) := by
  split
  · exact ha
  · exact hb

theorem isFinite_onBetween (c : Char) : IsFinite (onBetween c) := by
  have hword : ∀ due s, (∀ n, s ≠ Scalar.number n) → IsFinite (word due s, []) :=
    fun _ _ hs => isFinite_silent hs
  unfold onBetween
  repeat' apply isFinite_ite
  all_goals first
    | exact isFinite_silent trivial
    | exact isFinite_single trivial (by simp [Token.IsFinite])
    | exact hword _ _ (by simp)

theorem isWord_after (k : Token) : (after k).IsWord := by
  unfold after
  repeat' split
  all_goals trivial

theorem isFinite_step {s : Scan} (h : s.IsWord) (c : Char) : IsFinite (s.step c) := by
  cases s with
  | between => exact isFinite_onBetween c
  | stopped => exact isFinite_silent h
  | text t =>
    simp only [step]
    split
    · exact isFinite_silent h
    · rename_i k hk
      exact isFinite_single (isWord_after k) (isFinite_of_textStep hk)
  | number n =>
    simp only [step, NumberScan.step]
    split
    · exact isFinite_silent h
    · rename_i k hk
      split at hk
      · cases hk
      · cases hk
        have hended := isFinite_ended n (some c)
        have hafter := isWord_after (n.ended (some c))
        split
        · obtain ⟨hword, htokens⟩ := isFinite_onBetween c
          exact ⟨hword, List.forall_mem_cons.2 ⟨hended, htokens⟩⟩
        · exact isFinite_single hafter hended
  | word due k =>
    cases due with
    | nil => exact isFinite_onBetween c
    | cons d due =>
      simp only [step]
      repeat' split
      · exact isFinite_single trivial fun _ hk => by cases hk
      · exact isFinite_single trivial fun n hk => (h n (Token.scalar.inj hk)).elim
      · exact isFinite_silent h

theorem isFinite_rest {s : Scan} (h : s.IsWord) (cs : List Char) : ∀ k ∈ s.rest cs, k.IsFinite := by
  induction cs generalizing s with
  | nil =>
    cases s with
    | between | stopped => exact fun _ hk => by cases hk
    | text t | word due s => exact List.forall_mem_singleton.2 fun _ hk => by cases hk
    | number n => exact List.forall_mem_singleton.2 (isFinite_ended n none)
  | cons c cs ih =>
    obtain ⟨hword, htokens⟩ := isFinite_step h c
    exact List.forall_mem_append.2 ⟨htokens, ih hword⟩

theorem isFinite_tokens (cs : List Char) : ∀ k ∈ tokens cs, k.IsFinite := by
  have hbetween : between.IsWord := trivial
  rw [tokens_eq_rest]
  exact isFinite_rest hbetween cs

end Scan

/-! Readings -/

namespace Reading

mutual
/-- The numbers that were read. -/
def numbers : Reading → List Number
  | .scalar (.number n) => [n]
  | .scalar _ | .fault _ => []
  | .array items _ => itemNumbers items
  | .object members _ => memberNumbers members

def itemNumbers : List Reading → List Number
  | [] => []
  | x :: xs => numbers x ++ itemNumbers xs

def memberNumbers : List (Name × Reading) → List Number
  | [] => []
  | (_, x) :: xs => numbers x ++ memberNumbers xs
end

def IsFinite (r : Reading) : Prop := ∀ n ∈ r.numbers, n.IsFinite

theorem mem_itemNumbers {items : List Reading} {n : Number} :
    n ∈ itemNumbers items ↔ ∃ x ∈ items, n ∈ x.numbers := by
  induction items with
  | nil => simp [itemNumbers]
  | cons x items ih => simp [itemNumbers, ih]

theorem mem_memberNumbers {members : List (Name × Reading)} {n : Number} :
    n ∈ memberNumbers members ↔ ∃ m ∈ members, n ∈ m.2.numbers := by
  induction members with
  | nil => simp [memberNumbers]
  | cons m members ih => simp [memberNumbers, ih]

theorem isFinite_fault (f : Fault) : (fault f).IsFinite := fun _ hn => by cases hn

theorem isFinite_array {items : List Reading} {ending : Option Fault} :
    (array items ending).IsFinite ↔ ∀ x ∈ items, x.IsFinite := by
  simp only [IsFinite, numbers, mem_itemNumbers]
  exact ⟨fun h x hx n hn => h n ⟨x, hx, hn⟩, fun h n ⟨x, hx, hn⟩ => h x hx n hn⟩

theorem isFinite_object {members : List (Name × Reading)} {ending : Option Fault} :
    (object members ending).IsFinite ↔ ∀ m ∈ members, m.2.IsFinite := by
  simp only [IsFinite, numbers, mem_memberNumbers]
  exact ⟨fun h m hm n hn => h n ⟨m, hm, hn⟩, fun h n ⟨m, hm, hn⟩ => h m hm n hn⟩

mutual
theorem numbers_ofTree : ∀ t : Tree, (ofTree t).numbers = t.numbers
  | .scalar s => by cases s <;> rfl
  | .array items => itemNumbers_ofItems items
  | .object members => memberNumbers_ofMembers members

theorem itemNumbers_ofItems : ∀ items : List Tree,
    itemNumbers (ofItems items) = Tree.itemNumbers items
  | [] => rfl
  | x :: xs => by
    rw [ofItems, itemNumbers, Tree.itemNumbers, numbers_ofTree x, itemNumbers_ofItems xs]

theorem memberNumbers_ofMembers : ∀ members : List (String × Tree),
    memberNumbers (ofMembers members) = Tree.memberNumbers members
  | [] => rfl
  | (_, x) :: xs => by
    rw [ofMembers, memberNumbers, Tree.memberNumbers, numbers_ofTree x, memberNumbers_ofMembers xs]
end

def Frame.IsFinite : Frame → Prop
  | .array before => ∀ x ∈ before, x.IsFinite
  | .member before _ => ∀ m ∈ before, m.2.IsFinite

namespace State

/-- All that was read so far is finite. -/
inductive IsFinite : State → Prop where
  | value {place : Place} {outer : List Frame} (houter : ∀ f ∈ outer, f.IsFinite) :
      IsFinite (.value place outer)
  | memberName {first : Bool} {before : List (Name × Reading)} {outer : List Frame}
      (hbefore : ∀ m ∈ before, m.2.IsFinite) (houter : ∀ f ∈ outer, f.IsFinite) :
      IsFinite (.memberName first before outer)
  | colon {before : List (Name × Reading)} {name : Name} {outer : List Frame}
      (hbefore : ∀ m ∈ before, m.2.IsFinite) (houter : ∀ f ∈ outer, f.IsFinite) :
      IsFinite (.colon before name outer)
  | afterItem {before : List Reading} {outer : List Frame} (hbefore : ∀ x ∈ before, x.IsFinite)
      (houter : ∀ f ∈ outer, f.IsFinite) : IsFinite (.afterItem before outer)
  | afterMember {before : List (Name × Reading)} {outer : List Frame}
      (hbefore : ∀ m ∈ before, m.2.IsFinite) (houter : ∀ f ∈ outer, f.IsFinite) :
      IsFinite (.afterMember before outer)
  | complete {r : Reading} (h : r.IsFinite) : IsFinite (.complete r)
  | overlong {r : Reading} (h : r.IsFinite) : IsFinite (.overlong r)
  | broken {r : Reading} (h : r.IsFinite) : IsFinite (.broken r)

variable {outer : List Frame} {before : List Reading} {members : List (Name × Reading)}

theorem isFinite_openArray (hbefore : ∀ x ∈ before, x.IsFinite) (houter : ∀ f ∈ outer, f.IsFinite) :
    ∀ f ∈ .array before :: outer, f.IsFinite :=
  List.forall_mem_cons.2 ⟨hbefore, houter⟩

theorem isFinite_openMember (name : Name) (hmembers : ∀ m ∈ members, m.2.IsFinite)
    (houter : ∀ f ∈ outer, f.IsFinite) : ∀ f ∈ .member members name :: outer, f.IsFinite :=
  List.forall_mem_cons.2 ⟨hmembers, houter⟩

theorem isFinite_closeArray {ending : Option Fault} (hbefore : ∀ x ∈ before, x.IsFinite) :
    (array before.reverse ending).IsFinite :=
  isFinite_array.2 fun x hx => hbefore x (List.mem_reverse.1 hx)

theorem isFinite_closeObject {ending : Option Fault} (hmembers : ∀ m ∈ members, m.2.IsFinite) :
    (object members.reverse ending).IsFinite :=
  isFinite_object.2 fun m hm => hmembers m (List.mem_reverse.1 hm)

theorem isFinite_abandon {r : Reading} (h : r.IsFinite) (houter : ∀ f ∈ outer, f.IsFinite) :
    (abandon r outer).IsFinite := by
  induction outer generalizing r with
  | nil => exact h
  | cons f outer ih =>
    obtain ⟨hf, hmore⟩ := List.forall_mem_cons.1 houter
    cases f with
    | array before => exact ih (isFinite_closeArray (List.forall_mem_cons.2 ⟨h, hf⟩)) hmore
    | member before name => exact ih (isFinite_closeObject (List.forall_mem_cons.2 ⟨h, hf⟩)) hmore

theorem isFinite_breakArray (f : Fault) (hbefore : ∀ x ∈ before, x.IsFinite)
    (houter : ∀ f ∈ outer, f.IsFinite) : (breakArray before f outer).IsFinite :=
  isFinite_abandon (isFinite_closeArray hbefore) houter

theorem isFinite_breakObject (f : Fault) (hmembers : ∀ m ∈ members, m.2.IsFinite)
    (houter : ∀ f ∈ outer, f.IsFinite) : (breakObject members f outer).IsFinite :=
  isFinite_abandon (isFinite_closeObject hmembers) houter

theorem isFinite_give {r : Reading} (h : r.IsFinite) (houter : ∀ f ∈ outer, f.IsFinite) :
    (give r outer).IsFinite := by
  cases outer with
  | nil => exact .complete h
  | cons f outer =>
    obtain ⟨hf, hmore⟩ := List.forall_mem_cons.1 houter
    cases f with
    | array before => exact .afterItem (List.forall_mem_cons.2 ⟨h, hf⟩) hmore
    | member before name => exact .afterMember (List.forall_mem_cons.2 ⟨h, hf⟩) hmore

theorem isFinite_giveFault (f : Fault) (houter : ∀ f ∈ outer, f.IsFinite) :
    (giveFault f outer).IsFinite := by
  have hfault := isFinite_fault f
  rw [giveFault]
  split
  · exact .broken (isFinite_abandon hfault houter)
  · exact isFinite_give hfault houter

theorem isFinite_onValue (place : Place) {t : Token} (ht : t.IsFinite)
    (houter : ∀ f ∈ outer, f.IsFinite) : (onValue place outer t).IsFinite := by
  have hdue : (broken (abandon (.fault (.plain .valueDue)) outer)).IsFinite :=
    .broken (isFinite_abandon (isFinite_fault _) houter)
  cases t with
  | scalar s =>
    refine isFinite_give (fun n hn => ?_) houter
    cases s with
    | number m => exact List.mem_singleton.1 hn ▸ ht m rfl
    | null | bool | text => cases hn
  | faultyText f | faultyWord f => exact isFinite_giveFault f houter
  | openArray => exact .value (isFinite_openArray (fun _ hx => by cases hx) houter)
  | openObject => exact .memberName (fun _ hm => by cases hm) houter
  | closeArray =>
    cases outer with
    | nil => cases place <;> exact hdue
    | cons f outer =>
      obtain ⟨hf, hmore⟩ := List.forall_mem_cons.1 houter
      cases f with
      | member before name => cases place <;> exact hdue
      | array before =>
        cases place with
        | alone => exact hdue
        | first => exact isFinite_give (isFinite_closeArray hf) hmore
        | later => exact .broken (isFinite_breakArray _ hf hmore)
  | closeObject | colon | comma | stray => exact hdue

theorem isFinite_onName (first : Bool) (t : Token) (hmembers : ∀ m ∈ members, m.2.IsFinite)
    (houter : ∀ f ∈ outer, f.IsFinite) : (onName first members outer t).IsFinite := by
  have hdue : (broken (breakObject members (.plain .nameDue) outer)).IsFinite :=
    .broken (isFinite_breakObject _ hmembers houter)
  cases t with
  | scalar s =>
    cases s with
    | text s => exact .colon hmembers houter
    | null | bool | number => exact hdue
  | faultyText f =>
    simp only [onName]
    split
    · exact .broken (isFinite_abandon (isFinite_fault f) (isFinite_openMember _ hmembers houter))
    · exact .colon hmembers houter
  | closeObject =>
    simp only [onName]
    split
    · exact isFinite_give (isFinite_closeObject hmembers) houter
    · exact .broken (isFinite_breakObject _ hmembers houter)
  | openArray | closeArray | openObject | colon | comma | faultyWord | stray => exact hdue

theorem isFinite_step {s : State} (h : s.IsFinite) {t : Token} (ht : t.IsFinite) :
    (s.step t).IsFinite := by
  cases h with
  | value houter => exact isFinite_onValue _ ht houter
  | memberName hmembers houter => exact isFinite_onName _ t hmembers houter
  | colon hmembers houter =>
    have hopen := fun name => isFinite_openMember name hmembers houter
    cases t with
    | colon => exact .value (hopen _)
    | _ => exact .broken (isFinite_abandon (isFinite_fault _) (hopen _))
  | afterItem hbefore houter =>
    cases t with
    | comma => exact .value (isFinite_openArray hbefore houter)
    | closeArray => exact isFinite_give (isFinite_closeArray hbefore) houter
    | _ => exact .broken (isFinite_breakArray _ hbefore houter)
  | afterMember hmembers houter =>
    cases t with
    | comma => exact .memberName hmembers houter
    | closeObject => exact isFinite_give (isFinite_closeObject hmembers) houter
    | _ => exact .broken (isFinite_breakObject _ hmembers houter)
  | complete hr => exact .overlong hr
  | overlong hr => exact .overlong hr
  | broken hr => exact .broken hr

theorem isFinite_atEnd {s : State} (h : s.IsFinite) : s.atEnd.IsFinite := by
  cases h with
  | value houter =>
    rename_i place outer
    have hdue := isFinite_abandon (isFinite_fault (.plain .endInValue)) houter
    cases place with
    | alone | later => exact hdue
    | first =>
      cases outer with
      | nil => exact hdue
      | cons f outer =>
        obtain ⟨hf, hmore⟩ := List.forall_mem_cons.1 houter
        cases f with
        | array before => exact isFinite_breakArray _ hf hmore
        | member before name => exact hdue
  | memberName hmembers houter =>
    rename_i first _ _
    cases first <;> exact isFinite_breakObject _ hmembers houter
  | colon hmembers houter =>
    exact isFinite_abandon (isFinite_fault _) (isFinite_openMember _ hmembers houter)
  | afterItem hbefore houter => exact isFinite_breakArray _ hbefore houter
  | afterMember hmembers houter => exact isFinite_breakObject _ hmembers houter
  | complete hr | overlong hr | broken hr => exact hr

theorem isFinite_foldl {s : State} (h : s.IsFinite) {ts : List Token} (hts : ∀ t ∈ ts, t.IsFinite) :
    (ts.foldl step s).IsFinite := by
  induction ts generalizing s with
  | nil => exact h
  | cons t ts ih =>
    obtain ⟨ht, hmore⟩ := List.forall_mem_cons.1 hts
    exact ih (isFinite_step h ht) hmore

end State

/-- No text has a number that is not finite. -/
theorem isFinite_ofText (s : String) : (ofText s).1.IsFinite := by
  have hstart : (State.value .alone []).IsFinite := .value fun _ hf => by cases hf
  exact State.isFinite_atEnd (State.isFinite_foldl hstart (Scan.isFinite_tokens s.toList))

end Reading

/-! Trees within a text -/

/-- A tree that a text may have so many levels inside it. -/
structure Tree.HasRoom (t : Tree) (levels : Nat) : Prop where
  depth : t.depth + levels ≤ maxDepth
  finite : ∀ n ∈ t.numbers, n.IsFinite

theorem Tree.HasRoom.of_inside {t u : Tree} {j k : Nat} (h : u.HasRoom k) (htu : t.Inside u j) :
    t.HasRoom (k + j) := by
  have hdepth := h.depth
  have hinside := htu.depth
  exact ⟨by omega, fun n hn => h.finite n (htu.numbers n hn)⟩

end FlowDiagram.Json
