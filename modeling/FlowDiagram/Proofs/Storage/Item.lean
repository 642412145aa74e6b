import FlowDiagram.Storage.Item
import Mathlib.Data.List.Basic
import Mathlib.Data.List.Infix
/-! What paths lead to in a tree, and what of it changes when an item is put somewhere. -/

namespace FlowDiagram.Storage

/-- What a path leads to: a file with its content, or a directory whatever it holds. -/
inductive Entry where
  | file (content : ByteArray)
  | directory

theorem lookup_cons_eq (k : String) (i : Item) (entries : List (String × Item)) (n : String) :
    ((k, i) :: entries).lookup n = if n = k then some i else entries.lookup n := by
  by_cases h : n = k
  · simp [h]
  · simp [List.lookup_cons, beq_false_of_ne h, h]

theorem lookup_setEntry (name : String) (item : Item) (entries : List (String × Item))
    (n : String) :
    (setEntry name item entries).lookup n = if n = name then some item else entries.lookup n := by
  induction entries with
  | nil => exact lookup_cons_eq name item [] n
  | cons e entries ih =>
    obtain ⟨k, i⟩ := e
    rw [setEntry]
    by_cases hk : k = name
    · rw [if_pos hk, lookup_cons_eq, lookup_cons_eq, hk]
      split <;> rfl
    · rw [if_neg hk, lookup_cons_eq, lookup_cons_eq, ih]
      by_cases hn : n = k
      · rw [if_pos hn, if_neg (hn ▸ hk), if_pos hn]
      · simp only [if_neg hn]

namespace Item

def entry : Item → Entry
  | file content => .file content
  | directory _ => .directory

def entryAt? (i : Item) (p : Path) : Option Entry := (i.find? p).map entry

/-- What lies further down is found from where the first names lead. -/
theorem find?_append (i : Item) (p q : Path) : i.find? (p ++ q) = (i.find? p).bind (·.find? q) := by
  induction p generalizing i with
  | nil => simp [find?]
  | cons n p ih =>
    cases i with
    | file content => rfl
    | directory entries =>
      cases h : entries.lookup n with
      | none => simp [find?, h]
      | some i => simp [find?, h, ih]

theorem entryAt?_nil (i : Item) : i.entryAt? [] = some i.entry := by
  simp [entryAt?, find?]

theorem entryAt?_cons (entries : List (String × Item)) (n : String) (p : Path) :
    (directory entries).entryAt? (n :: p) = (entries.lookup n).bind (·.entryAt? p) := by
  cases h : entries.lookup n <;> simp [entryAt?, find?, h]

theorem entryAt?_eq_directory_iff {i : Item} {p : Path} :
    i.entryAt? p = some .directory ↔ ∃ entries, i.find? p = some (directory entries) := by
  rw [entryAt?, Option.map_eq_some_iff]
  constructor
  · rintro ⟨j, hj, hentry⟩
    cases j with
    | file content => cases hentry
    | directory entries => exact ⟨entries, hj⟩
  · rintro ⟨entries, h⟩
    exact ⟨_, h, rfl⟩

theorem entryAt?_eq_file_iff {i : Item} {p : Path} {content : ByteArray} :
    i.entryAt? p = some (.file content) ↔ i.find? p = some (file content) := by
  rw [entryAt?, Option.map_eq_some_iff]
  constructor
  · rintro ⟨j, hj, hentry⟩
    cases j with
    | file content => cases hentry; exact hj
    | directory entries => cases hentry
  · intro h
    exact ⟨_, h, rfl⟩

/-- Whatever lies anywhere lies in directories all the way down. -/
theorem entryAt?_of_isPrefix {i : Item} {p q : Path} {e : Entry} (hq : i.entryAt? q = some e)
    (hpq : p <+: q) (hne : p ≠ q) : i.entryAt? p = some .directory := by
  obtain ⟨r, rfl⟩ := hpq
  obtain ⟨j, hj, -⟩ := Option.map_eq_some_iff.1 hq
  rw [find?_append, Option.bind_eq_some_iff] at hj
  obtain ⟨k, hk, hj⟩ := hj
  cases k with
  | directory entries => exact entryAt?_eq_directory_iff.2 ⟨entries, hk⟩
  | file content =>
    cases r with
    | nil => simp at hne
    | cons n r => cases hj

theorem entryAt?_eq_none_of_isPrefix {i : Item} {p q : Path} (h : i.entryAt? p = none)
    (hpq : p <+: q) :
    i.entryAt? q = none := by
  obtain ⟨r, rfl⟩ := hpq
  rw [entryAt?, Option.map_eq_none_iff] at *
  rw [find?_append, h]
  rfl

/-- No file is in the way of what is to lie at a path. -/
def IsClear (i : Item) (p : Path) : Prop :=
  ∀ q, q <+: p → q ≠ p → ∀ content, i.entryAt? q ≠ some (.file content)

theorem entryAt?_empty (p : Path) :
    empty.entryAt? p = if p = [] then some .directory else none := by
  cases p with
  | nil => simp [entryAt?_nil, empty, entry]
  | cons n p => simp [empty, entryAt?_cons]

theorem entryAt?_getD (o : Option Item) (p : Path) (hp : p ≠ []) :
    (o.getD empty).entryAt? p = o.bind (·.entryAt? p) := by
  cases o with
  | none => simp [entryAt?_empty, hp]
  | some i => rfl

theorem IsClear.tail {entries : List (String × Item)} {n : String} {p : Path}
    (h : (directory entries).IsClear (n :: p)) : ((entries.lookup n).getD empty).IsClear p := by
  intro q hq hne content hfile
  have hbelow := h (n :: q) (List.cons_prefix_cons.2 ⟨rfl, hq⟩) (by simpa using hne) content
  rw [entryAt?_cons] at hbelow
  cases hn : entries.lookup n with
  | none =>
    rw [hn, Option.getD_none, entryAt?_empty] at hfile
    split at hfile <;> cases hfile
  | some i =>
    rw [hn] at hfile hbelow
    exact hbelow hfile

/-- Putting an item somewhere changes what lies there and below, makes the directories above it and
changes nothing else. -/
theorem entryAt?_put {i : Item} {p : Path} (h : i.IsClear p) (new : Item) (q : Path) :
    (i.put p new).entryAt? q =
      if p <+: q then new.entryAt? (q.drop p.length)
      else if q <+: p then some .directory else i.entryAt? q := by
  induction p generalizing i q with
  | nil => simp [put]
  | cons n p ih =>
    cases i with
    | file content => exact absurd (entryAt?_nil _) (h [] List.nil_prefix (by simp) content)
    | directory entries =>
      cases q with
      | nil => simp [put, entryAt?_nil, entry]
      | cons m q =>
        rw [put, entryAt?_cons, entryAt?_cons, lookup_setEntry]
        simp only [List.cons_prefix_cons]
        by_cases hm : m = n
        · subst hm
          rw [if_pos rfl, Option.bind_some, ih h.tail]
          simp only [true_and, List.length_cons, List.drop_succ_cons]
          split
          · rfl
          · split
            · rfl
            · rename_i hq
              refine entryAt?_getD _ _ ?_
              rintro rfl
              exact hq List.nil_prefix
        · simp [hm, Ne.symm hm]

end Item

end FlowDiagram.Storage
