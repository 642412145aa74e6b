import FlowDiagram.Proofs.Storage.Plain
/-! Directories on a path of plain names are made all together or not at all. -/

namespace FlowDiagram.Storage

namespace Volume

variable {v w : Volume} {name : String} {outer names : List String}

/-- Names that a volume takes. -/
def Takes (v : Volume) (names : List String) : Prop := ∀ n ∈ names, IsPlain n ∧ v.Fits n

/-- The current directory is there, under plain names. -/
structure IsPlaced (v : Volume) : Prop where
  directory : v.top.entryAt? v.current = some .directory
  names : v.Takes v.current

/-- One is at the top of any tree. -/
theorem IsRooted.isPlaced (hv : v.IsRooted) (h : v.current = []) : v.IsPlaced where
  directory := h ▸ hv
  names := h ▸ List.forall_mem_nil _

theorem IsPlaced.isRooted (hv : v.IsPlaced) : v.IsRooted := by
  by_cases h : [] = v.current
  · rw [IsRooted, h, hv.directory]
  · exact Item.entryAt?_of_isPrefix hv.directory List.nil_prefix h

/-- Where a way of plain names from the current directory leads. -/
theorem outcome_follow (hv : v.IsPlaced) (hnames : v.Takes names) :
    v.Outcome (v.current ++ names) (v.follow ⟨false, names⟩) := by
  refine outcome_walk (.nil hv.isRooted) fun n hn => ?_
  obtain hn | hn := List.mem_append.1 hn
  · exact ⟨(hv.names n hn).1.not_dots, (hv.names n hn).2⟩
  · exact ⟨(hnames n hn).1.not_dots, (hnames n hn).2⟩

theorem place_concat (hname : name ≠ "..") :
    v.place ⟨false, outer ++ [name]⟩ = (v.follow ⟨false, outer⟩).map fun t => some (t, name) := by
  have hparent : (Route.mk false (outer ++ [name])).parent = ⟨false, outer⟩ := by
    simp [Route.parent]
  rw [place, hparent]
  simp only [List.getLast?_concat, if_neg hname]
  cases v.follow ⟨false, outer⟩ <;> rfl

/-! Making directories -/

/-- What becomes of a directory that is to exist within one that may be missing itself. -/
inductive Ensured (v : Volume) (outer : List String) (name : String) : Except Error Volume → Prop
  | present (h : v.top.entryAt? (v.current ++ (outer ++ [name])) = some .directory) :
    Ensured v outer name (.ok v)
  | made {t : Trail} (ht : v.Leads t) (hpath : t.path name = v.current ++ (outer ++ [name]))
    (h : v.top.entryAt? (t.path name) = none) :
    Ensured v outer name (.ok { v with top := v.top.put (t.path name) .empty })
  | blocked {e : Error} (h : IsBlocked v.top (v.current ++ (outer ++ [name]))) (he : e ≠ .notFound) :
    Ensured v outer name (.error e)
  | missing (h : v.top.entryAt? (v.current ++ outer) = none)
    (hfree : ¬IsBlocked v.top (v.current ++ (outer ++ [name]))) :
    Ensured v outer name (.error .notFound)

theorem ensured (hv : v.IsPlaced) (h : v.Takes (outer ++ [name])) :
    v.Ensured outer name (v.ensureDirectory ⟨false, outer ++ [name]⟩) := by
  have houter : v.Takes outer := fun n hn => h n (List.mem_append_left _ hn)
  obtain ⟨hplain, hfits⟩ := h name (by simp)
  have hfollow := outcome_follow hv h
  have hto := outcome_follow hv houter
  rw [ensureDirectory, makeDirectory, place_concat hplain.not_dots]
  generalize v.follow ⟨false, outer⟩ = there at hto
  generalize v.follow ⟨false, outer ++ [name]⟩ = inside at hfollow
  cases hto with
  | @directory t ht hnames =>
    have hpath : t.path name = v.current ++ (outer ++ [name]) := by
      rw [Trail.path_eq, hnames, List.append_assoc]
    have hlook := (look_eq_ok_iff ht).2 ⟨hfits, rfl⟩
    simp only [Except.map, ok_bind, hlook]
    cases hfind : v.top.find? (t.path name) with
    | none =>
      have hnone : v.top.entryAt? (t.path name) = none := by rw [Item.entryAt?, hfind]; rfl
      simp only [Option.isSome_none, Bool.false_eq_true, if_false]
      exact .made ht hpath hnone
    | some i =>
      -- Something has that name; if it is a directory, then the way leads into it.
      simp only [Option.isSome_some, if_true]
      cases hfollow with
      | directory hu hinside => exact .present (hinside ▸ hu.entryAt?)
      | blocked hblocked => exact .blocked hblocked (by decide)
      | missing hnone hfree =>
        rw [← hpath, Item.entryAt?, hfind] at hnone
        cases hnone
  | blocked hblocked =>
    refine .blocked ?_ (e := .notDirectory) (by decide)
    rw [← List.append_assoc]
    exact isBlocked_append hblocked
  | missing hnone hfree =>
    refine .missing hnone ?_
    rintro ⟨q, hq, content, hfile⟩
    rw [← List.append_assoc, List.prefix_concat_iff] at hq
    obtain rfl | hq := hq
    · rw [Item.entryAt?_eq_none_of_isPrefix hnone (List.prefix_append _ _)] at hfile
      cases hfile
    · exact hfree ⟨q, hq, content, hfile⟩

/-- A directory exists, and those that it lies in; else all is as before. -/
structure MakesDirectory (v w : Volume) (p : Path) : Prop where
  bounds : w.bounds = v.bounds
  current : w.current = v.current
  entryAt? : ∀ q, w.top.entryAt? q = if q <+: p then some .directory else v.top.entryAt? q

/-- What becomes of a directory that is to exist: it does unless a file is in its way, and then
nothing is made. -/
inductive Made (v : Volume) (p : Path) : Except Error Unit × Volume → Prop
  | made {w : Volume} (hfree : ¬IsBlocked v.top p) (h : v.MakesDirectory w p)
    (hsame : v.top.entryAt? p = some .directory → w = v) : Made v p (.ok (), w)
  | blocked {e : Error} (h : IsBlocked v.top p) : Made v p (.error e, v)

theorem makesDirectory_self {p : Path} (h : v.top.entryAt? p = some .directory) :
    v.MakesDirectory v p := by
  refine ⟨rfl, rfl, fun q => ?_⟩
  split
  · rename_i hq
    by_cases heq : q = p
    · rw [heq, h]
    · exact Item.entryAt?_of_isPrefix h hq heq
  · rfl

theorem MakesDirectory.isPlaced {p : Path} (h : v.MakesDirectory w p) (hv : v.IsPlaced) :
    w.IsPlaced where
  directory := by
    rw [h.entryAt?, h.current, hv.directory, ite_self]
  names n hn := by
    obtain ⟨hplain, hfits⟩ := hv.names n (h.current ▸ hn)
    exact ⟨hplain, by rwa [Fits, h.bounds]⟩

theorem MakesDirectory.takes {p : Path} (h : v.MakesDirectory w p) (hnames : v.Takes names) :
    w.Takes names := fun n hn => ⟨(hnames n hn).1, by rw [Fits, h.bounds]; exact (hnames n hn).2⟩

/-- Where a directory has just been put, no file was in its way. -/
theorem makesDirectory_put_empty {t : Trail} (ht : v.Leads t)
    (hnone : v.top.entryAt? (t.path name) = none) :
    ¬IsBlocked v.top (t.path name) ∧
      v.MakesDirectory { v with top := v.top.put (t.path name) .empty } (t.path name) := by
  refine ⟨?_, rfl, rfl, entryAt?_put_empty ht hnone⟩
  rintro ⟨q, hq, content, hfile⟩
  refine ht.isClear name q hq ?_ content hfile
  rintro rfl
  rw [hnone] at hfile
  cases hfile

theorem not_concat_isPrefix (p : Path) (name : String) : ¬p ++ [name] <+: p := by
  intro h
  have hle := h.length_le
  rw [List.length_append, List.length_singleton] at hle
  omega

/-- The last directory of several that are missing. -/
theorem made_step_ensureDirectory (hv : v.IsPlaced) (h : v.Takes (outer ++ [name]))
    (hfree : ¬IsBlocked v.top (v.current ++ (outer ++ [name])))
    (hnone : v.top.entryAt? (v.current ++ outer) = none)
    (hw : v.MakesDirectory w (v.current ++ outer)) :
    v.Made (v.current ++ (outer ++ [name]))
      (step (·.ensureDirectory ⟨false, outer ++ [name]⟩) w) := by
  have hentry : w.top.entryAt? (v.current ++ (outer ++ [name])) = none := by
    rw [hw.entryAt?, ← List.append_assoc, if_neg (not_concat_isPrefix _ _)]
    exact Item.entryAt?_eq_none_of_isPrefix hnone (List.prefix_append _ _)
  have hensured := ensured (hw.isPlaced hv) (hw.takes h)
  rw [step]
  generalize w.ensureDirectory ⟨false, outer ++ [name]⟩ = result at hensured
  cases hensured with
  | present hdirectory =>
    rw [hw.current, hentry] at hdirectory
    cases hdirectory
  | made ht hpath hnone' =>
    obtain ⟨-, hput⟩ := makesDirectory_put_empty ht hnone'
    rw [hpath, hw.current] at hput
    rw [hpath, hw.current]
    refine .made hfree ⟨hput.bounds.trans hw.bounds, hput.current.trans hw.current, fun q => ?_⟩ ?_
    · rw [hput.entryAt?, hw.entryAt?]
      split
      · rfl
      · rename_i hq
        have houter : v.current ++ outer <+: v.current ++ (outer ++ [name]) :=
          (List.prefix_append_right_inj _).2 (List.prefix_append _ _)
        rw [if_neg fun hprefix => hq (List.IsPrefix.trans hprefix houter)]
    · intro hdirectory
      rw [← List.append_assoc, Item.entryAt?_eq_none_of_isPrefix hnone (List.prefix_append _ _)]
        at hdirectory
      cases hdirectory
  | blocked hblocked =>
    rw [hw.current] at hblocked
    obtain ⟨q, hq, content, hfile⟩ := hblocked
    rw [hw.entryAt?] at hfile
    split at hfile
    · cases hfile
    · exact absurd ⟨q, hq, content, hfile⟩ hfree
  | missing hnone' =>
    rw [hw.current, hw.entryAt?, if_pos List.prefix_rfl] at hnone'
    cases hnone'

/-- Directories are made outwards from a path of plain names, all of them or none. -/
theorem made_makeDirectories (hv : v.IsPlaced) (h : v.Takes names) :
    v.Made (v.current ++ names) (makeDirectories false names.reverse v) := by
  induction names using List.reverseRecOn with
  | nil =>
    rw [List.append_nil]
    exact .made (not_isBlocked_of_directory hv.directory) (makesDirectory_self hv.directory)
      fun _ => rfl
  | append_singleton outer name ih =>
    have ih := ih fun n hn => h n (List.mem_append_left _ hn)
    have hensured := ensured hv h
    rw [List.reverse_concat, makeDirectories_cons, List.reverse_cons, List.reverse_reverse]
    generalize v.ensureDirectory ⟨false, outer ++ [name]⟩ = result at hensured
    cases hensured with
    | present hdirectory =>
      exact .made (not_isBlocked_of_directory hdirectory) (makesDirectory_self hdirectory)
        fun _ => rfl
    | made ht hpath hnone =>
      obtain ⟨hfree, hput⟩ := makesDirectory_put_empty ht hnone
      rw [hpath] at hfree hput hnone ⊢
      refine .made hfree hput fun hdirectory => ?_
      rw [hnone] at hdirectory
      cases hdirectory
    | @blocked e hblocked he =>
      cases e with
      | notFound => exact absurd rfl he
      | _ => exact .blocked hblocked
    | missing hnone hfree =>
      generalize makeDirectories false outer.reverse v = result at ih
      cases ih with
      | made _ hw _ => exact made_step_ensureDirectory hv h hfree hnone hw
      | blocked hblocked =>
        rw [← List.append_assoc] at hfree
        exact absurd (isBlocked_append hblocked) hfree

theorem made_makeParent (hv : v.IsPlaced) (h : v.Takes outer)
    (haccept : v.accept (.ofPath (outer ++ [name])) = .ok ()) :
    v.Made (v.current ++ outer)
      ((makeParent (.ofPath (outer ++ [name])) : StateM Volume (Except Error Unit)) v) := by
  have hmade := made_makeDirectories hv h
  have hroute : (Location.ofPath (outer ++ [name])).route.parent = ⟨false, outer⟩ := by
    simp [Location.ofPath, Route.parent]
  rw [makeParent_eq]
  cases hparent : (Location.ofPath (outer ++ [name])).parent? with
  | none =>
    rw [Location.parent?, hroute] at hparent
    cases outer with
    | nil => exact hmade
    | cons first outer => cases hparent
  | some parent =>
    have htaken := accept_parent haccept hparent
    rw [Location.parent?, hroute] at hparent
    cases outer with
    | nil => cases hparent
    | cons first outer =>
      cases hparent
      simp only [htaken]
      exact hmade

end Volume

end FlowDiagram.Storage
