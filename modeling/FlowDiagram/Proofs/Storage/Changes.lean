import FlowDiagram.Storage.Document
import FlowDiagram.Proofs.Storage.Walk
/-! What saving changes in a volume: directories are only added, and one file is written. -/

namespace FlowDiagram.Storage.Volume

variable {v w u : Volume} {t : Trail} {name : String}

/-- What there is stays, and no file is new. -/
structure Grows (v w : Volume) : Prop where
  bounds : w.bounds = v.bounds
  current : w.current = v.current
  entry : ∀ p e, v.top.entryAt? p = some e → w.top.entryAt? p = some e
  file : ∀ p content,
    w.top.entryAt? p = some (.file content) → v.top.entryAt? p = some (.file content)

theorem Grows.refl (v : Volume) : v.Grows v := ⟨rfl, rfl, fun _ _ h => h, fun _ _ h => h⟩

theorem Grows.trans (h : v.Grows w) (h' : w.Grows u) : v.Grows u where
  bounds := h'.bounds.trans h.bounds
  current := h'.current.trans h.current
  entry p e he := h'.entry p e (h.entry p e he)
  file p content hfile := h.file p content (h'.file p content hfile)

theorem Grows.isRooted (h : v.Grows w) (hv : v.IsRooted) : w.IsRooted := h.entry _ _ hv

theorem Grows.file_iff (h : v.Grows w) (p : Path) (content : ByteArray) :
    w.top.entryAt? p = some (.file content) ↔ v.top.entryAt? p = some (.file content) :=
  ⟨h.file p content, h.entry p _⟩

/-! Directories -/

theorem place_eq_ok_iff {r : Route} :
    v.place r = .ok (some (t, name)) ↔
      r.names.getLast? = some name ∧ name ≠ ".." ∧ v.follow r.parent = .ok t := by
  rw [place]
  cases r.names.getLast? with
  | none => cases r.fromTop <;> simp
  | some last =>
    simp only [bind_eq_ok_iff, Option.some.injEq]
    constructor
    · rintro ⟨s, hs, h⟩
      by_cases hlast : last = ".."
      · rw [if_pos hlast] at h
        cases h
      · rw [if_neg hlast] at h
        cases h
        exact ⟨rfl, hlast, hs⟩
    · rintro ⟨rfl, hlast, hs⟩
      exact ⟨t, hs, by rw [if_neg hlast]; rfl⟩

/-- A directory that is put where nothing was adds itself and nothing else. -/
theorem entryAt?_put_empty (ht : v.Leads t) (hnone : v.top.entryAt? (t.path name) = none)
    (q : Path) :
    (v.top.put (t.path name) .empty).entryAt? q =
      if q <+: t.path name then some .directory else v.top.entryAt? q := by
  rw [Item.entryAt?_put (ht.isClear name)]
  by_cases hbelow : t.path name <+: q
  · rw [if_pos hbelow, Item.entryAt?_empty, Item.entryAt?_eq_none_of_isPrefix hnone hbelow]
    obtain ⟨r, rfl⟩ := hbelow
    cases r with
    | nil => simp
    | cons n r =>
      have hlonger : ¬t.path name ++ n :: r <+: t.path name := by
        intro h
        have hle := h.length_le
        rw [List.length_append, List.length_cons] at hle
        omega
      simp [hlonger]
  · rw [if_neg hbelow]

theorem grows_put_empty (ht : v.Leads t) (hnone : v.top.entryAt? (t.path name) = none) :
    v.Grows { v with top := v.top.put (t.path name) .empty } := by
  have hput := entryAt?_put_empty ht hnone
  refine ⟨rfl, rfl, fun p e he => ?_, fun p content hfile => ?_⟩
  · rw [hput]
    split
    · rename_i hp
      have hne : p ≠ t.path name := by
        rintro rfl
        rw [hnone] at he
        cases he
      cases e with
      | directory => rfl
      | file content => exact absurd he (ht.isClear name p hp hne content)
    · exact he
  · rw [hput] at hfile
    split at hfile
    · cases hfile
    · exact hfile

/-- A directory that is made is put where nothing was. -/
theorem makeDirectory_eq_ok (hv : v.IsRooted) {r : Route} (h : v.makeDirectory r = .ok w) :
    ∃ t name, v.place r = .ok (some (t, name)) ∧ v.Leads t ∧ v.Fits name ∧
      v.top.entryAt? (t.path name) = none ∧
      w = { v with top := v.top.put (t.path name) .empty } := by
  obtain ⟨place, hplace, h⟩ := bind_eq_ok_iff.1 h
  match place with
  | none => cases h
  | some (t, name) =>
    have ht := hv.leads_follow (place_eq_ok_iff.1 hplace).2.2
    obtain ⟨found, hlook, h⟩ := bind_eq_ok_iff.1 h
    obtain ⟨hfits, hfind⟩ := (look_eq_ok_iff ht).1 hlook
    cases found with
    | some i => cases h
    | none =>
      cases h
      exact ⟨t, name, hplace, ht, hfits, by rw [Item.entryAt?, hfind]; rfl, rfl⟩

theorem grows_makeDirectory (hv : v.IsRooted) {r : Route} (h : v.makeDirectory r = .ok w) :
    v.Grows w := by
  obtain ⟨t, name, -, ht, -, hnone, rfl⟩ := makeDirectory_eq_ok hv h
  exact grows_put_empty ht hnone

theorem grows_ensureDirectory (hv : v.IsRooted) {r : Route} (h : v.ensureDirectory r = .ok w) :
    v.Grows w := by
  rw [ensureDirectory] at h
  split at h
  · cases h
    exact Grows.refl v
  · exact grows_makeDirectory hv h

theorem grows_step {f : Volume → Except Error Volume} (hf : ∀ w, f v = .ok w → v.Grows w) :
    v.Grows (step f v).2 := by
  rw [step]
  split
  · exact hf _ (by assumption)
  · exact Grows.refl v

/-- The outer directories are made only if one of them is missing. -/
theorem makeDirectories_cons (fromTop : Bool) (name : String) (outer : List String) (v : Volume) :
    makeDirectories fromTop (name :: outer) v =
      match v.ensureDirectory ⟨fromTop, (name :: outer).reverse⟩ with
      | .ok w => (.ok (), w)
      | .error .notFound =>
        match makeDirectories fromTop outer v with
        | (.ok (), w) => step (·.ensureDirectory ⟨fromTop, (name :: outer).reverse⟩) w
        | (.error e, w) => (.error e, w)
      | .error e => (.error e, v) := by
  rw [makeDirectories]
  cases h : v.ensureDirectory ⟨fromTop, (name :: outer).reverse⟩ with
  | ok w => simp only [bind, StateT.bind, step, h]; rfl
  | error e =>
    simp only [bind, StateT.bind, step, h]
    cases e with
    | notFound =>
      cases houter : makeDirectories fromTop outer v with
      | mk outcome w =>
        simp only [StateT.bind, houter]
        cases outcome <;> rfl
    | _ => rfl

theorem grows_makeDirectories (hv : v.IsRooted) (fromTop : Bool) (names : List String) :
    v.Grows (makeDirectories fromTop names v).2 := by
  induction names with
  | nil => exact Grows.refl v
  | cons name outer ih =>
    rw [makeDirectories_cons]
    split
    · exact grows_ensureDirectory hv (by assumption)
    · split
      · rename_i w houter
        rw [houter] at ih
        exact ih.trans (grows_step fun u hu => grows_ensureDirectory (ih.isRooted hv) hu)
      · rename_i w houter
        rw [houter] at ih
        exact ih
    · exact Grows.refl v

theorem makeParent_eq (l : Location) (v : Volume) :
    (makeParent l : StateM Volume (Except Error Unit)) v =
      match l.parent? with
      | none => (.ok (), v)
      | some parent =>
        match v.accept parent with
        | .ok () => makeDirectories parent.route.fromTop parent.route.names.reverse v
        | .error e => (.error e, v) := by
  rw [makeParent]
  cases l.parent? with
  | none => rfl
  | some parent =>
    have hget : (FileSystem.makeDirectories parent : StateM Volume (Except Error Unit)) v =
        (match v.accept parent with
        | .ok () => makeDirectories parent.route.fromTop parent.route.names.reverse
        | .error e => pure (.error e) : StateM Volume (Except Error Unit)) v := rfl
    simp only [hget]
    cases v.accept parent <;> rfl

theorem grows_makeParent (hv : v.IsRooted) (l : Location) :
    v.Grows ((makeParent l : StateM Volume (Except Error Unit)) v).2 := by
  rw [makeParent_eq]
  split
  · exact Grows.refl v
  · split
    · exact grows_makeDirectories hv _ _
    · exact Grows.refl v

/-! Files -/

/-- The path of the file that a location means. -/
def filePath? (v : Volume) (l : Location) : Option Path :=
  match v.filePlace l with
  | .ok (some (t, name)) => some (t.path name)
  | _ => none

theorem filePlace_eq_ok_iff {l : Location} :
    v.filePlace l = .ok (some (t, name)) ↔
      v.accept l = .ok () ∧ l.ending ≠ .dot ∧ v.place l.route = .ok (some (t, name)) := by
  rw [filePlace, bind_eq_ok_iff]
  constructor
  · rintro ⟨⟨⟩, haccept, h⟩
    split at h
    · cases hfollow : v.follow l.route <;> rw [hfollow] at h <;> cases h
    · rename_i hdot
      exact ⟨haccept, hdot, h⟩
  · rintro ⟨haccept, hdot, hplace⟩
    exact ⟨(), haccept, by rwa [if_neg hdot]⟩

theorem filePath?_eq_some_iff {l : Location} {p : Path} :
    v.filePath? l = some p ↔ ∃ t name, v.filePlace l = .ok (some (t, name)) ∧ t.path name = p := by
  rw [filePath?]
  constructor
  · intro h
    split at h
    · cases h
      exact ⟨_, _, by assumption, rfl⟩
    · cases h
  · rintro ⟨t, name, hplace, rfl⟩
    rw [hplace]

/-- What is written becomes a file where a file was or nothing. -/
theorem write_eq_ok (hv : v.IsRooted) {l : Location} {content : ByteArray}
    (h : v.write l content = .ok w) :
    ∃ t name, v.filePlace l = .ok (some (t, name)) ∧ v.Leads t ∧ v.Fits name ∧
      l.ending ≠ .slash ∧ v.top.entryAt? (t.path name) ≠ some .directory ∧
      w = { v with top := v.top.put (t.path name) (.file content) } := by
  obtain ⟨place, hplace, h⟩ := bind_eq_ok_iff.1 h
  match place with
  | none => cases h
  | some (t, name) =>
    have ht := hv.leads_follow (place_eq_ok_iff.1 (filePlace_eq_ok_iff.1 hplace).2.2).2.2
    simp only at h
    split at h
    · cases h
    · rename_i hslash
      obtain ⟨found, hlook, h⟩ := bind_eq_ok_iff.1 h
      obtain ⟨hfits, hfind⟩ := (look_eq_ok_iff ht).1 hlook
      split at h
      · cases h
      · rename_i hfound
        cases h
        refine ⟨t, name, hplace, ht, hfits, hslash, fun hdirectory => ?_, rfl⟩
        obtain ⟨entries, hentries⟩ := Item.entryAt?_eq_directory_iff.1 hdirectory
        exact hfound entries (hfind.symm.trans hentries)

/-- Only the file that is written changes. -/
theorem entryAt?_put_file (ht : v.Leads t) (h : v.top.entryAt? (t.path name) ≠ some .directory)
    (content : ByteArray) (q : Path) :
    (v.top.put (t.path name) (.file content)).entryAt? q =
      if q = t.path name then some (.file content) else v.top.entryAt? q := by
  rw [Item.entryAt?_put (ht.isClear name)]
  by_cases hq : q = t.path name
  · simp [hq, Item.entryAt?_nil, Item.entry]
  · rw [if_neg hq]
    split
    · -- Nothing lies below a file, nor did anything lie there before.
      rename_i hprefix
      obtain ⟨r, rfl⟩ := hprefix
      have hafter : (Item.file content).entryAt? r = none := by
        cases r with
        | nil => simp at hq
        | cons n r => rfl
      have hbefore : v.top.entryAt? (t.path name ++ r) = none := by
        refine Option.eq_none_iff_forall_ne_some.2 fun e he => h ?_
        exact Item.entryAt?_of_isPrefix he (List.prefix_append _ r) (Ne.symm hq)
      rw [List.drop_left, hafter, hbefore]
    · split
      · rename_i hprefix
        rw [Trail.path_eq, List.prefix_concat_iff, ← Trail.path_eq] at hprefix
        obtain hprefix | hprefix := hprefix
        · exact absurd hprefix hq
        · by_cases hnames : q = t.names
          · rw [hnames, ht.entryAt?]
          · rw [Item.entryAt?_of_isPrefix ht.entryAt? hprefix hnames]
      · rfl

/-- One file is written, and all else stays. -/
structure Writes (v w : Volume) (p : Path) (content : ByteArray) : Prop where
  bounds : w.bounds = v.bounds
  current : w.current = v.current
  entryAt? : ∀ q, w.top.entryAt? q = if q = p then some (.file content) else v.top.entryAt? q
  not_directory : v.top.entryAt? p ≠ some .directory

theorem Writes.keepsDirectories {p : Path} {content : ByteArray} (h : v.Writes w p content) :
    v.KeepsDirectories w where
  bounds := h.bounds
  current := h.current
  directory q hq := by
    have hne : q ≠ p := fun heq => h.not_directory (heq ▸ hq)
    rw [h.entryAt?, if_neg hne, hq]

/-- A location means the same file in a volume that still has all directories. -/
theorem KeepsDirectories.filePlace (h : v.KeepsDirectories w) (hv : v.IsRooted) {l : Location}
    (hplace : v.filePlace l = .ok (some (t, name))) :
    ∃ u, w.filePlace l = .ok (some (u, name)) ∧ u.path name = t.path name := by
  obtain ⟨haccept, hdot, hplace⟩ := filePlace_eq_ok_iff.1 hplace
  obtain ⟨hname, hdots, hfollow⟩ := place_eq_ok_iff.1 hplace
  obtain ⟨u, hu, hnames⟩ := h.follow hv hfollow
  have htaken : w.accept l = .ok () := (accept_congr h.bounds l).trans haccept
  refine ⟨u, filePlace_eq_ok_iff.2 ⟨htaken, hdot, place_eq_ok_iff.2 ⟨hname, hdots, hu⟩⟩, ?_⟩
  rw [Trail.path_eq, Trail.path_eq, hnames]

theorem read_eq_ok_iff (hv : v.IsRooted) {l : Location} {content : ByteArray} :
    v.read l = .ok content ↔
      ∃ t name, v.filePlace l = .ok (some (t, name)) ∧ v.Fits name ∧ l.ending ≠ .slash ∧
        v.top.entryAt? (t.path name) = some (.file content) := by
  rw [read, bind_eq_ok_iff]
  constructor
  · rintro ⟨place, hplace, h⟩
    match place with
    | none => cases h
    | some (t, name) =>
      have ht := hv.leads_follow (place_eq_ok_iff.1 (filePlace_eq_ok_iff.1 hplace).2.2).2.2
      obtain ⟨found, hlook, h⟩ := bind_eq_ok_iff.1 h
      obtain ⟨hfits, hfind⟩ := (look_eq_ok_iff ht).1 hlook
      split at h
      · split at h
        · cases h
        · rename_i hslash
          cases h
          exact ⟨t, name, hplace, hfits, hslash, Item.entryAt?_eq_file_iff.2 hfind⟩
      · cases h
      · cases h
  · rintro ⟨t, name, hplace, hfits, hslash, hfile⟩
    have ht := hv.leads_follow (place_eq_ok_iff.1 (filePlace_eq_ok_iff.1 hplace).2.2).2.2
    have hlook := (look_eq_ok_iff ht).2 ⟨hfits, Item.entryAt?_eq_file_iff.1 hfile⟩
    exact ⟨_, hplace, by simp [hlook, hslash]⟩

/-- What is written is read back from where it was written. -/
theorem writes_of_write (hv : v.IsRooted) {l : Location} {content : ByteArray}
    (h : v.write l content = .ok w) :
    ∃ p, v.filePath? l = some p ∧ w.filePath? l = some p ∧ v.Writes w p content ∧
      w.read l = .ok content := by
  obtain ⟨t, name, hplace, ht, hfits, hslash, hdirectory, rfl⟩ := write_eq_ok hv h
  have hwrites : v.Writes { v with top := v.top.put (t.path name) (.file content) } (t.path name)
      content := ⟨rfl, rfl, entryAt?_put_file ht hdirectory content, hdirectory⟩
  have hkeeps := hwrites.keepsDirectories
  obtain ⟨u, hu, hpath⟩ := hkeeps.filePlace hv hplace
  refine ⟨t.path name, filePath?_eq_some_iff.2 ⟨t, name, hplace, rfl⟩,
    filePath?_eq_some_iff.2 ⟨u, name, hu, hpath⟩, hwrites, ?_⟩
  refine (read_eq_ok_iff (hkeeps.directory _ hv)).2 ⟨u, name, hu, hfits, hslash, ?_⟩
  rw [hwrites.entryAt?, if_pos hpath]

end FlowDiagram.Storage.Volume
