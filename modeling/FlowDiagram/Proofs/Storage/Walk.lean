import FlowDiagram.Storage.Volume
import FlowDiagram.Proofs.Except
import FlowDiagram.Proofs.Storage.Item
/-! Ways through a volume: where they lead, and that they still lead there when nothing but files
comes in their way. -/

namespace FlowDiagram.Storage.Volume

variable {v w : Volume} {t : Trail} {name : String}

/-- The path of the directory that a trail leads to. -/
def Trail.names (t : Trail) : Path := (t.map (·.1)).reverse

theorem Trail.names_cons (t : Trail) (name : String) (i : Item) :
    Trail.names ((name, i) :: t) = t.path name := rfl

theorem Trail.path_eq (t : Trail) (name : String) : t.path name = t.names ++ [name] := by
  simp [path, names]

/-- The volume's directories are those that the trail tells of. -/
inductive Leads (v : Volume) : Trail → Prop
  | nil (h : v.top.entryAt? [] = some .directory) : Leads v []
  | cons {t : Trail} {name : String} {entries : List (String × Item)} (ht : Leads v t)
    (h : v.top.find? (t.path name) = some (.directory entries)) :
    Leads v ((name, .directory entries) :: t)

theorem Leads.entryAt? (h : v.Leads t) : v.top.entryAt? t.names = some .directory := by
  cases h with
  | nil h => exact h
  | cons _ h => exact Item.entryAt?_eq_directory_iff.2 ⟨_, h⟩

theorem Leads.tail (h : v.Leads t) : v.Leads t.tail := by
  cases h with
  | nil h => exact .nil h
  | cons ht _ => exact ht

/-- No file is in the way of a name in a directory that there is. -/
theorem Leads.isClear (h : v.Leads t) (name : String) : v.top.IsClear (t.path name) := by
  intro q hq hne content hfile
  rw [Trail.path_eq, List.prefix_concat_iff] at hq
  rw [Trail.path_eq] at hne
  obtain hq | hq := hq
  · exact hne hq
  · have hdirectory : v.top.entryAt? q = some .directory := by
      by_cases hnames : q = t.names
      · rw [hnames, h.entryAt?]
      · exact Item.entryAt?_of_isPrefix h.entryAt? hq hnames
    rw [hdirectory] at hfile
    cases hfile

/-- Whether a name is short enough for a volume. -/
def Fits (v : Volume) (name : String) : Prop := ∀ b ∈ v.bounds, name.utf8ByteSize ≤ b.name

theorem look_eq_ok_iff (h : v.Leads t) {found : Option Item} :
    v.look t name = .ok found ↔ v.Fits name ∧ v.top.find? (t.path name) = found := by
  have hlook : v.look t name =
      if v.bounds.any (fun b => b.name < name.utf8ByteSize) then .error .nameTooLong
      else .ok (v.top.find? (t.path name)) := by
    cases h with
    | nil => rfl
    | cons _ h =>
      rw [Trail.path_eq, Trail.names_cons, Item.find?_append, h]
      rfl
  have hfits : v.Fits name ↔ ¬v.bounds.any (fun b => b.name < name.utf8ByteSize) = true := by
    cases hb : v.bounds <;> simp [Fits, hb]
  rw [hlook, hfits]
  split <;> simp_all

/-- Going on leads back for two dots, and else into a directory of that name. -/
theorem enter_eq_ok_iff (h : v.Leads t) {u : Trail} :
    v.enter t name = .ok u ↔
      (name = ".." ∧ u = t.tail) ∨
      (name ≠ ".." ∧ v.Fits name ∧ ∃ entries, v.top.find? (t.path name) = some (.directory entries) ∧
        u = (name, .directory entries) :: t) := by
  rw [enter]
  split
  · rename_i hname
    simp [hname, eq_comm]
  · rename_i hname
    constructor
    · intro henter
      obtain ⟨found, hlook, hfound⟩ := bind_eq_ok_iff.1 henter
      obtain ⟨hfits, hfind⟩ := (look_eq_ok_iff h).1 hlook
      refine .inr ⟨hname, hfits, ?_⟩
      split at hfound
      · cases hfound
        exact ⟨_, hfind, rfl⟩
      · cases hfound
      · cases hfound
    · rintro (⟨hdots, -⟩ | ⟨-, hfits, entries, hfind, rfl⟩)
      · exact absurd hdots hname
      · rw [(look_eq_ok_iff h).2 ⟨hfits, hfind⟩]
        rfl

theorem Leads.enter (h : v.Leads t) {u : Trail} (henter : v.enter t name = .ok u) : v.Leads u := by
  obtain ⟨-, rfl⟩ | ⟨-, -, entries, hfind, rfl⟩ := (enter_eq_ok_iff h).1 henter
  · exact h.tail
  · exact .cons h hfind

theorem Leads.walk {names : List String} {u : Trail} (h : v.Leads t)
    (hwalk : names.foldlM v.enter t = .ok u) : v.Leads u := by
  induction names generalizing t with
  | nil =>
    cases hwalk
    exact h
  | cons name names ih =>
    rw [List.foldlM_cons] at hwalk
    obtain ⟨s, hs, hwalk⟩ := bind_eq_ok_iff.1 hwalk
    exact ih (h.enter hs) hwalk

theorem accept_congr (h : w.bounds = v.bounds) (l : Location) : w.accept l = v.accept l := by
  rw [accept, accept, h]

/-! Volumes of which one has all directories of the other -/

structure KeepsDirectories (v w : Volume) : Prop where
  bounds : w.bounds = v.bounds
  current : w.current = v.current
  directory : ∀ p, v.top.entryAt? p = some .directory → w.top.entryAt? p = some .directory

theorem KeepsDirectories.enter {s u : Trail} (h : v.KeepsDirectories w) (ht : v.Leads t)
    (hs : w.Leads s) (hnames : s.names = t.names) (henter : v.enter t name = .ok u) :
    ∃ r, w.enter s name = .ok r ∧ r.names = u.names := by
  obtain ⟨rfl, rfl⟩ | ⟨hname, hfits, entries, hfind, rfl⟩ := (enter_eq_ok_iff ht).1 henter
  · refine ⟨s.tail, by simp [Volume.enter], ?_⟩
    have hreverse := List.reverse_inj.1 hnames
    simp only [Trail.names, List.map_tail, hreverse]
  · have hpath : s.path name = t.path name := by rw [Trail.path_eq, Trail.path_eq, hnames]
    obtain ⟨entries', hfind'⟩ := Item.entryAt?_eq_directory_iff.1
      (h.directory _ (Item.entryAt?_eq_directory_iff.2 ⟨entries, hfind⟩))
    have hfits : w.Fits name := by rwa [Fits, h.bounds]
    refine ⟨(name, .directory entries') :: s, (enter_eq_ok_iff hs).2 (.inr ?_), hpath⟩
    exact ⟨hname, hfits, entries', hpath ▸ hfind', rfl⟩

theorem KeepsDirectories.walk {names : List String} {s u : Trail} (h : v.KeepsDirectories w)
    (ht : v.Leads t) (hs : w.Leads s) (hnames : s.names = t.names)
    (hwalk : names.foldlM v.enter t = .ok u) :
    ∃ r, names.foldlM w.enter s = .ok r ∧ r.names = u.names := by
  induction names generalizing t s with
  | nil =>
    cases hwalk
    exact ⟨s, rfl, hnames⟩
  | cons name names ih =>
    rw [List.foldlM_cons] at hwalk
    obtain ⟨t', ht', hwalk⟩ := bind_eq_ok_iff.1 hwalk
    obtain ⟨s', hs', hnames'⟩ := h.enter ht hs hnames ht'
    obtain ⟨r, hr, hru⟩ := ih (ht.enter ht') (hs.enter hs') hnames' hwalk
    refine ⟨r, ?_, hru⟩
    rw [List.foldlM_cons, hs']
    exact hr

/-- The top of the volume is a directory. -/
def IsRooted (v : Volume) : Prop := v.top.entryAt? [] = some .directory

theorem IsRooted.leads_follow (hv : v.IsRooted) {r : Route} (h : v.follow r = .ok t) :
    v.Leads t := (Leads.nil hv).walk h

/-- A way leads to the same directory in a volume that still has all directories. -/
theorem KeepsDirectories.follow (h : v.KeepsDirectories w) (hv : v.IsRooted) {r : Route}
    (hr : v.follow r = .ok t) : ∃ u, w.follow r = .ok u ∧ u.names = t.names := by
  have hwalk := h.walk (Leads.nil hv) (Leads.nil (h.directory _ hv)) rfl hr
  rwa [Volume.follow, h.current]

end FlowDiagram.Storage.Volume
