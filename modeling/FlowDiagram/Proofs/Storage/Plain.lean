import FlowDiagram.Proofs.Storage.Changes
import FlowDiagram.Proofs.Text.Lines
/-! Locations as they are written: paths of plain names, what tells locations from one another, and
where they lead. -/

namespace FlowDiagram.Storage

/-- A name of its own: none that leads back or nowhere, and not two names. -/
structure IsPlain (name : String) : Prop where
  not_empty : name ≠ ""
  not_dot : name ≠ "."
  not_dots : name ≠ ".."
  no_slash : '/' ∉ name.toList

instance (name : String) : Decidable (IsPlain name) :=
  decidable_of_iff (name ≠ "" ∧ name ≠ "." ∧ name ≠ ".." ∧ '/' ∉ name.toList)
    ⟨fun ⟨h, h', h'', h'''⟩ => ⟨h, h', h'', h'''⟩, fun ⟨h, h', h'', h'''⟩ => ⟨h, h', h'', h'''⟩⟩

/-- The name that a part of a location has on the way. -/
def Component.name? : Component → Option String
  | top | here => none
  | up => some ".."
  | name s => some s

namespace Location

variable {p : Path}

/-- The characters of the names, with a slash between every two of them. -/
def joined (p : Path) : List Char := ['/'].intercalate (p.map String.toList)

theorem joined_cons_cons (name next : String) (p : Path) :
    joined (name :: next :: p) = name.toList ++ '/' :: joined (next :: p) := by
  simp [joined, List.intercalate_cons_cons]

theorem parts_joined (h : ∀ n ∈ p, IsPlain n) : parts (joined p) = p := by
  cases p with
  | nil => decide
  | cons name p =>
    have hslashes : ∀ cs ∈ (name :: p).map String.toList, '/' ∉ cs := by
      intro cs hcs
      obtain ⟨n, hn, rfl⟩ := List.mem_map.1 hcs
      exact (h n hn).no_slash
    have hsplit : Text.splitAt (· = '/') (joined (name :: p)) = (name :: p).map String.toList := by
      have hsplitOn := List.splitOn_intercalate '/' hslashes (by simp)
      rw [List.splitOn_eq_splitOnP] at hsplitOn
      rw [Text.splitAt_eq_splitOnP]
      exact hsplitOn
    have hself : String.ofList ∘ String.toList = id := funext fun _ => String.ofList_toList
    rw [parts, hsplit, List.map_map, hself, List.map_id, List.filter_eq_self]
    intro n hn
    simpa using (h n hn).not_empty

theorem joined_ne_nil {name : String} (h : ∀ n ∈ name :: p, IsPlain n) :
    joined (name :: p) ≠ [] := by
  intro hnil
  have hparts := parts_joined h
  rw [hnil] at hparts
  cases hparts

theorem head?_joined (h : ∀ n ∈ p, IsPlain n) : (joined p).head? ≠ some '/' := by
  cases p with
  | nil => decide
  | cons name p =>
    have hname := h name List.mem_cons_self
    obtain ⟨c, cs, hcs⟩ := List.exists_cons_of_ne_nil
      fun hnil => hname.not_empty (String.toList_eq_nil_iff.1 hnil)
    have hc : c ≠ '/' := by
      rintro rfl
      exact hname.no_slash (hcs ▸ List.mem_cons_self)
    cases p with
    | nil => simp [joined, hcs, hc]
    | cons next p => simp [joined_cons_cons, hcs, hc]

theorem getLast?_joined (h : ∀ n ∈ p, IsPlain n) : (joined p).getLast? ≠ some '/' := by
  induction p with
  | nil => decide
  | cons name p ih =>
    cases p with
    | nil =>
      intro hlast
      have hmem : '/' ∈ joined [name] := List.mem_of_getLast? hlast
      rw [joined, List.map_singleton, List.intercalate_singleton] at hmem
      exact (h name List.mem_cons_self).no_slash hmem
    | cons next p =>
      have hrest : ∀ n ∈ next :: p, IsPlain n := fun n hn => h n (List.mem_cons_of_mem name hn)
      obtain ⟨c, cs, hcs⟩ := List.exists_cons_of_ne_nil (joined_ne_nil hrest)
      have ih := ih hrest
      rw [hcs] at ih
      rw [joined_cons_cons, hcs, List.getLast?_append_of_ne_nil _ (List.cons_ne_nil _ _),
        List.getLast?_cons_cons]
      exact ih

/-- A path of plain names is what its names with slashes between them are read as. -/
theorem ofText_intercalate (h : ∀ n ∈ p, IsPlain n) : ofText ("/".intercalate p) = ofPath p := by
  have hnames : p.filter (· ≠ ".") = p := by
    rw [List.filter_eq_self]
    intro n hn
    simpa using (h n hn).not_dot
  have hlast : p.getLast? ≠ some "." := by
    intro hlast
    exact (h _ (List.mem_of_getLast? hlast)).not_dot rfl
  have hjoined : ("/".intercalate p).toList = joined p := String.toList_intercalate
  simp only [ofText, ofPath, hjoined, parts_joined h, hnames, head?_joined h, getLast?_joined h,
    hlast, decide_false, if_false]

/-! What tells locations from one another -/

theorem front_cases (s : String) : front s = [.top] ∨ front s = [.here] ∨ front s = [] := by
  unfold front
  split
  · exact .inl rfl
  · split
    · exact .inr (.inl rfl)
    · exact .inr (.inr rfl)

theorem mem_components_iff_mem_front {s : String} {c : Component} (hc : c = .top ∨ c = .here) :
    c ∈ components s ↔ c ∈ front s := by
  rw [components, List.mem_append, or_iff_left]
  intro h
  obtain ⟨n, -, rfl⟩ := List.mem_map.1 h
  unfold Component.ofName at hc
  split at hc <;> rcases hc with hc | hc <;> cases hc

theorem top_mem_front_iff {s : String} : .top ∈ front s ↔ (ofText s).route.fromTop = true := by
  have htop : (ofText s).route.fromTop = decide (s.toList.head? = some '/') := rfl
  rw [htop, decide_eq_true_eq, front]
  split
  · simp [*]
  · split <;> simp [*]

theorem front_eq_of_mem_iff {s t : String} (htop : .top ∈ front s ↔ .top ∈ front t)
    (hhere : .here ∈ front s ↔ .here ∈ front t) : front s = front t := by
  rcases front_cases s with hs | hs | hs <;> rcases front_cases t with ht | ht | ht <;>
    simp_all

theorem names_of_components (s : String) :
    (components s).filterMap Component.name? = (ofText s).route.names := by
  have hself : Component.name? ∘ Component.ofName = some := by
    funext n
    unfold Component.ofName
    rw [Function.comp_apply]
    split
    · rename_i h
      rw [h]
      rfl
    · rfl
  have hfront : (front s).filterMap Component.name? = [] := by
    rcases front_cases s with h | h | h <;> rw [h] <;> rfl
  rw [components, List.filterMap_append, List.filterMap_map, hself, List.filterMap_some, hfront]
  rfl

/-- Locations are the same if they lead the same way and both or none of them begin with a single
dot, however many slashes and other single dots they have. -/
theorem components_eq_iff {s t : String} :
    components s = components t ↔
      (ofText s).route = (ofText t).route ∧ (.here ∈ components s ↔ .here ∈ components t) := by
  constructor
  · intro h
    have hnames : (ofText s).route.names = (ofText t).route.names := by
      rw [← names_of_components, ← names_of_components, h]
    have htop : (ofText s).route.fromTop = (ofText t).route.fromTop := by
      rw [Bool.eq_iff_iff, ← top_mem_front_iff, ← top_mem_front_iff,
        ← mem_components_iff_mem_front (.inl rfl), ← mem_components_iff_mem_front (.inl rfl), h]
    have hparts : ∀ r : Route, r = ⟨r.fromTop, r.names⟩ := fun _ => rfl
    rw [hparts (ofText s).route, htop, hnames, h]
    exact ⟨rfl, Iff.rfl⟩
  · rintro ⟨hroute, hhere⟩
    have hnames : (parts s.toList).filter (· ≠ ".") = (parts t.toList).filter (· ≠ ".") :=
      congrArg Route.names hroute
    rw [mem_components_iff_mem_front (.inr rfl), mem_components_iff_mem_front (.inr rfl)] at hhere
    have htop : .top ∈ front s ↔ .top ∈ front t := by
      rw [top_mem_front_iff, top_mem_front_iff, hroute]
    rw [components, components, front_eq_of_mem_iff htop hhere, hnames]

example : components "./a//b/." = components "./a/b" ∧ components "./a" ≠ components "a" := by
  decide

/-! A name within a directory -/

theorem parts_append_slash (cs ds : List Char) :
    parts (cs ++ '/' :: ds) = parts cs ++ parts ds := by
  have hslash : decide ('/' = '/') = true := rfl
  simp only [parts, Text.splitAt_eq_splitOnP]
  rw [List.splitOnP_append_cons (p := fun c => c = '/') cs ds hslash, List.map_append,
    List.filter_append]

/-- A plain name behind a slash comes last on the way. -/
theorem ofText_of_append_slash {name text : String} {cs : List Char} (h : IsPlain name)
    (htext : text.toList = cs ++ '/' :: name.toList) :
    (ofText text).route = ⟨text.toList.head? = some '/', (parts cs).filter (· ≠ ".") ++ [name]⟩ ∧
      (ofText text).ending = .name := by
  have hplain : ∀ n ∈ [name], IsPlain n := List.forall_mem_singleton.2 h
  have hname : name.toList = joined [name] := List.intercalate_singleton.symm
  have hparts : parts text.toList = parts cs ++ [name] := by
    rw [htext, parts_append_slash, hname, parts_joined hplain]
  have hlast : text.toList.getLast? ≠ some '/' := by
    have hend := getLast?_joined hplain
    obtain ⟨c, ds, hds⟩ := List.exists_cons_of_ne_nil (joined_ne_nil hplain)
    rw [hds] at hend
    rw [htext, hname, hds, List.getLast?_append_of_ne_nil _ (List.cons_ne_nil _ _),
      List.getLast?_cons_cons]
    exact hend
  constructor
  · have hkept : [name].filter (· ≠ ".") = [name] := by simp [h.not_dot]
    simp only [ofText, hparts, List.filter_append, hkept]
  · simp only [ofText, hparts, List.getLast?_concat, Option.some.injEq, h.not_dot, hlast, if_false]

/-- A plain name within a directory leads to that name in it, however the directory is written. -/
theorem child_ofText {name : String} (h : IsPlain name) (directory : String) :
    ((ofText directory).child name).route =
      ⟨(ofText directory).route.fromTop, (ofText directory).route.names ++ [name]⟩ ∧
    ((ofText directory).child name).ending = .name := by
  have hnames : (ofText directory).route.names = (parts directory.toList).filter (· ≠ ".") := rfl
  have htop : (ofText directory).route.fromTop = decide (directory.toList.head? = some '/') := rfl
  have htext : (ofText directory).text = directory := rfl
  rw [child, htext, hnames, htop]
  by_cases hempty : directory = ""
  · subst hempty
    have hpath : ofText name = ofPath [name] := by
      rw [← ofText_intercalate (List.forall_mem_singleton.2 h), String.intercalate_singleton]
    rw [if_pos (.inl rfl), String.empty_append, hpath]
    exact ⟨rfl, rfl⟩
  · obtain ⟨c, ds, hds⟩ := List.exists_cons_of_ne_nil (mt String.toList_eq_nil_iff.1 hempty)
    by_cases hslash : directory.toList.getLast? = some '/'
    · obtain ⟨cs, hcs⟩ := List.getLast?_eq_some_iff.1 hslash
      have hparts : parts directory.toList = parts cs := by
        rw [hcs, parts_append_slash]
        exact List.append_nil _
      have hchild : (directory ++ name).toList = cs ++ '/' :: name.toList := by simp [hcs]
      obtain ⟨hroute, hending⟩ := ofText_of_append_slash h hchild
      rw [if_pos (.inr hslash), hroute, hparts]
      exact ⟨by simp [hds], hending⟩
    · have hchild : (directory ++ "/" ++ name).toList = directory.toList ++ '/' :: name.toList := by
        simp
      obtain ⟨hroute, hending⟩ := ofText_of_append_slash h hchild
      rw [if_neg (not_or.2 ⟨hempty, hslash⟩), hroute]
      exact ⟨by simp [hds], hending⟩

/-! The location of a directory as it is written -/

theorem dropTrailing_suffix (cs : List Char) : dropTrailing cs <:+ cs := by
  induction cs using dropTrailing.induct with
  | case1 cs ih => exact ih.trans (List.suffix_cons _ _)
  | case2 cs ih => exact ih.trans ((List.suffix_cons _ _).trans (List.suffix_cons _ _))
  | case3 cs => rw [dropTrailing] <;> assumption

theorem parentText_prefix (s : String) : (parentText s).toList <+: s.toList := by
  have hsuffix : dropTrailing ((dropTrailing s.toList.reverse).dropWhile (· ≠ '/')) <:+
      s.toList.reverse :=
    (dropTrailing_suffix _).trans ((List.dropWhile_suffix _).trans (dropTrailing_suffix _))
  rw [← List.reverse_prefix, List.reverse_reverse] at hsuffix
  rw [parentText, String.toList_ofList]
  exact hsuffix

theorem utf8ByteSize_le_of_isPrefix {s s' : String} (h : s.toList <+: s'.toList) :
    s.utf8ByteSize ≤ s'.utf8ByteSize := by
  obtain ⟨cs, hcs⟩ := h
  have happend : s' = s ++ String.ofList cs := by
    rw [← String.toList_inj, String.toList_append, String.toList_ofList, hcs]
  rw [happend, String.utf8ByteSize_append]
  exact Nat.le_add_right _ _

end Location

namespace Volume

variable {v : Volume} {t : Trail} {names : List String}

/-- The location of a directory is taken where one in it is. -/
theorem accept_parent {l parent : Location} (h : v.accept l = .ok ())
    (hp : l.parent? = some parent) :
    v.accept parent = .ok () := by
  have htext : parent.text.toList <+: l.text.toList := by
    rw [Location.parent?] at hp
    split at hp
    · cases hp
    · cases hp
      exact Location.parentText_prefix l.text
  have hsize := Location.utf8ByteSize_le_of_isPrefix htext
  rw [accept] at h ⊢
  cases hb : v.bounds with
  | none => rfl
  | some b =>
    simp only [hb] at h ⊢
    split at h
    · cases h
    · rename_i hnull
      split at h
      · cases h
      · rename_i hlong
        have hnull' : ¬parent.text.toList.contains '\x00' = true := fun hmem =>
          hnull (by simpa using htext.subset (by simpa using hmem))
        rw [if_neg hnull', if_neg (by omega)]

/-- A file lies at a path or on the way to it. -/
def IsBlocked (i : Item) (p : Path) : Prop :=
  ∃ q, q <+: p ∧ ∃ content, i.entryAt? q = some (.file content)

theorem not_isBlocked_of_directory {p : Path} (h : v.top.entryAt? p = some .directory) :
    ¬IsBlocked v.top p := by
  rintro ⟨q, hq, content, hfile⟩
  have hdirectory : v.top.entryAt? q = some .directory := by
    by_cases heq : q = p
    · rw [heq, h]
    · exact Item.entryAt?_of_isPrefix h hq heq
  rw [hdirectory] at hfile
  cases hfile

theorem isBlocked_append {p q : Path} (h : IsBlocked v.top p) : IsBlocked v.top (p ++ q) := by
  obtain ⟨r, hr, hfile⟩ := h
  exact ⟨r, hr.trans (List.prefix_append p q), hfile⟩

/-- Where names lead: to a directory, to a file on the way, or to nothing. -/
inductive Outcome (v : Volume) (p : Path) : Except Error Trail → Prop
  | directory {u : Trail} (h : v.Leads u) (hnames : u.names = p) : Outcome v p (.ok u)
  | blocked (h : IsBlocked v.top p) : Outcome v p (.error .notDirectory)
  | missing (h : v.top.entryAt? p = none) (hfree : ¬IsBlocked v.top p) :
    Outcome v p (.error .notFound)

/-- The names of directories are followed one by one. -/
theorem outcome_walk (ht : v.Leads t) (hnames : ∀ n ∈ names, n ≠ ".." ∧ v.Fits n) :
    v.Outcome (t.names ++ names) (names.foldlM v.enter t) := by
  induction names generalizing t with
  | nil =>
    rw [List.append_nil]
    exact .directory ht rfl
  | cons name names ih =>
    obtain ⟨hdots, hfits⟩ := hnames name List.mem_cons_self
    have hrest : ∀ n ∈ names, n ≠ ".." ∧ v.Fits n :=
      fun n hn => hnames n (List.mem_cons_of_mem name hn)
    have happend : t.names ++ name :: names = t.path name ++ names := by
      rw [Trail.path_eq, List.append_assoc, List.singleton_append]
    have hlook := (look_eq_ok_iff ht).2 ⟨hfits, rfl⟩
    rw [List.foldlM_cons, enter, if_neg hdots, hlook, happend]
    cases hfind : v.top.find? (t.path name) with
    | none =>
      have hnone : v.top.entryAt? (t.path name) = none := by rw [Item.entryAt?, hfind]; rfl
      refine .missing ?_ ?_
      · exact Item.entryAt?_eq_none_of_isPrefix hnone (List.prefix_append _ names)
      · rintro ⟨q, hq, content, hfile⟩
        obtain hq | hq := List.prefix_or_prefix_of_prefix hq (List.prefix_append _ names)
        · refine ht.isClear name q hq ?_ content hfile
          rintro rfl
          rw [hnone] at hfile
          cases hfile
        · rw [Item.entryAt?_eq_none_of_isPrefix hnone hq] at hfile
          cases hfile
    | some i =>
      cases i with
      | directory entries => exact ih (.cons ht hfind) hrest
      | file content =>
        exact .blocked
          ⟨t.path name, List.prefix_append _ _, content, Item.entryAt?_eq_file_iff.2 hfind⟩

end Volume

end FlowDiagram.Storage
