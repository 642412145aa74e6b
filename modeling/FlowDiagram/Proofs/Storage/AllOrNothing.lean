import FlowDiagram.Proofs.Document.Reloading
import FlowDiagram.Proofs.Storage.Making
import FlowDiagram.Proofs.Storage.Saves
/-! A document is saved entirely or not at all, if its path has plain names only. -/

namespace FlowDiagram.Storage

namespace Volume

variable {v w : Volume} {name : String} {outer names : List String}

/-- A file is written where no directory is, once its own directory is there. -/
theorem write_concat (hv : v.IsPlaced) (h : v.Takes (outer ++ [name]))
    (haccept : v.accept (.ofPath (outer ++ [name])) = .ok ())
    (houter : v.top.entryAt? (v.current ++ outer) = some .directory) (content : ByteArray) :
    (v.top.entryAt? (v.current ++ (outer ++ [name])) = some .directory ∧
      v.write (.ofPath (outer ++ [name])) content = .error .isDirectory) ∨
    (v.top.entryAt? (v.current ++ (outer ++ [name])) ≠ some .directory ∧
      ∃ w, v.write (.ofPath (outer ++ [name])) content = .ok w ∧
        v.Writes w (v.current ++ (outer ++ [name])) content) := by
  obtain ⟨hplain, hfits⟩ := h name (by simp)
  have hto := outcome_follow hv fun n hn => h n (List.mem_append_left _ hn)
  cases hfollow : v.follow ⟨false, outer⟩ with
  | error e =>
    rw [hfollow] at hto
    cases hto with
    | blocked hblocked => exact absurd hblocked (not_isBlocked_of_directory houter)
    | missing hnone =>
      rw [houter] at hnone
      cases hnone
  | ok t =>
    rw [hfollow] at hto
    obtain @⟨_, ht, hnames⟩ := hto
    have hpath : t.path name = v.current ++ (outer ++ [name]) := by
      rw [Trail.path_eq, hnames, List.append_assoc]
    have hplace : v.filePlace (.ofPath (outer ++ [name])) = .ok (some (t, name)) := by
      refine filePlace_eq_ok_iff.2 ⟨haccept, by simp [Location.ofPath], ?_⟩
      rw [Location.ofPath, place_concat hplain.not_dots, hfollow]
      rfl
    have hlook := (look_eq_ok_iff ht).2 ⟨hfits, rfl⟩
    rw [write, hplace, ok_bind]
    simp only
    rw [if_neg (by simp [Location.ofPath]), hlook, ok_bind]
    rw [← hpath]
    by_cases hdirectory : v.top.entryAt? (t.path name) = some .directory
    · obtain ⟨entries, hfind⟩ := Item.entryAt?_eq_directory_iff.1 hdirectory
      rw [hfind]
      exact .inl ⟨hdirectory, rfl⟩
    · refine .inr ⟨hdirectory, { v with top := v.top.put (t.path name) (.file content) }, ?_, rfl,
        rfl, entryAt?_put_file ht hdirectory content, hdirectory⟩
      cases hfind : v.top.find? (t.path name) with
      | none => rfl
      | some i =>
        cases i with
        | file _ => rfl
        | directory entries =>
          exact absurd (Item.entryAt?_eq_directory_iff.2 ⟨entries, hfind⟩) hdirectory

/-- Nothing can be saved at a path: a file is in its way, or it is a directory. -/
def Refuses (v : Volume) (p : Path) : Prop :=
  (∃ q, q <+: p ∧ q ≠ p ∧ ∃ content, v.top.entryAt? (v.current ++ q) = some (.file content)) ∨
    v.top.entryAt? (v.current ++ p) = some .directory

/-- A file is written, in directories that are made if they are missing, and all else stays. -/
structure AddsFile (v w : Volume) (p : Path) (content : ByteArray) : Prop where
  bounds : w.bounds = v.bounds
  current : w.current = v.current
  entryAt? : ∀ q, w.top.entryAt? q =
    if q = v.current ++ p then some (.file content)
    else if q <+: v.current ++ p then some .directory
    else v.top.entryAt? q

/-- What becomes of a file that is to be written. -/
inductive Written (v : Volume) (p : Path) (content : ByteArray) :
    Except Error Unit × Volume → Prop
  | written {w : Volume} (hfree : ¬v.Refuses p) (h : v.AddsFile w p content) :
    Written v p content (.ok (), w)
  | refused {e : Error} (h : v.Refuses p) : Written v p content (.error e, v)

theorem isBlocked_outer_iff (hv : v.IsPlaced) :
    IsBlocked v.top (v.current ++ outer) ↔
      ∃ q, q <+: outer ++ [name] ∧ q ≠ outer ++ [name] ∧
        ∃ content, v.top.entryAt? (v.current ++ q) = some (.file content) := by
  constructor
  · rintro ⟨r, hr, content, hfile⟩
    obtain hcurrent | ⟨q, rfl⟩ :=
      List.prefix_or_prefix_of_prefix hr (List.prefix_append v.current outer)
    · exact absurd ⟨r, hcurrent, content, hfile⟩ (not_isBlocked_of_directory hv.directory)
    · rw [List.prefix_append_right_inj] at hr
      refine ⟨q, hr.trans (List.prefix_append _ _), ?_, content, hfile⟩
      rintro rfl
      exact not_concat_isPrefix _ _ hr
  · rintro ⟨q, hq, hne, content, hfile⟩
    rw [List.prefix_concat_iff] at hq
    exact ⟨v.current ++ q, (List.prefix_append_right_inj _).2 (hq.resolve_left hne), content, hfile⟩

/-- The current directory is no file that could be written, nor has it a name to be written under.
-/
theorem written_nil (hv : v.IsPlaced) (haccept : v.accept (.ofPath []) = .ok ()) (s : String) :
    v.Written [] s.toUTF8 ((writeFile (.ofPath []) s : StateM Volume (Except Error Unit)) v) := by
  have hparent : (makeParent (.ofPath []) : StateM Volume (Except Error Unit)) v = (.ok (), v) :=
    rfl
  have hplace : v.filePlace (.ofPath []) = .error .notFound := by
    rw [filePlace, haccept]
    rfl
  have hwrite : v.write (.ofPath []) s.toUTF8 = .error .notFound := by
    rw [write, hplace]
    rfl
  have hdirectory : v.top.entryAt? (v.current ++ []) = some .directory := by
    rw [List.append_nil, hv.directory]
  rw [writeFile_run]
  simp only [hparent, step, hwrite]
  exact .refused (.inr hdirectory)

/-- Once its directory is there, a file is written unless a directory has its path. -/
theorem written_step_write (hv : v.IsPlaced) (hnames : v.Takes (outer ++ [name]))
    (haccept : v.accept (.ofPath (outer ++ [name])) = .ok ())
    (hfree : ¬IsBlocked v.top (v.current ++ outer)) (hw : v.MakesDirectory w (v.current ++ outer))
    (hsame : v.top.entryAt? (v.current ++ outer) = some .directory → w = v)
    (content : ByteArray) :
    v.Written (outer ++ [name]) content (step (·.write (.ofPath (outer ++ [name])) content) w) := by
  have houter : w.top.entryAt? (w.current ++ outer) = some .directory := by
    rw [hw.entryAt?, hw.current, if_pos List.prefix_rfl]
  have hentry : w.top.entryAt? (v.current ++ (outer ++ [name])) =
      v.top.entryAt? (v.current ++ (outer ++ [name])) := by
    rw [hw.entryAt?, ← List.append_assoc, if_neg (not_concat_isPrefix _ _)]
  have htaken : w.accept (.ofPath (outer ++ [name])) = .ok () :=
    (accept_congr hw.bounds _).trans haccept
  have hwrite := write_concat (hw.isPlaced hv) (hw.takes hnames) htaken houter content
  rw [hw.current, hentry] at hwrite
  obtain ⟨hdirectory, herror⟩ | ⟨hdirectory, u, hu, hwrites⟩ := hwrite
  · -- A directory lies in directories, so that none had to be made.
    have hthere : v.top.entryAt? (v.current ++ outer) = some .directory := by
      rw [← List.append_assoc] at hdirectory
      exact Item.entryAt?_of_isPrefix hdirectory (List.prefix_append _ _) (by simp)
    obtain rfl := hsame hthere
    simp only [step, herror]
    exact .refused (.inr hdirectory)
  · simp only [step, hu]
    refine .written ?_ ⟨hwrites.bounds.trans hw.bounds, hwrites.current.trans hw.current, ?_⟩
    · rintro (hbefore | hthere)
      · exact hfree ((isBlocked_outer_iff hv).2 hbefore)
      · exact hdirectory hthere
    · intro q
      rw [hwrites.entryAt?, hw.entryAt?, ← List.append_assoc]
      by_cases hq : q = v.current ++ outer ++ [name]
      · rw [if_pos hq, if_pos hq]
      · simp only [List.prefix_concat_iff, hq, false_or]

theorem written_writeFile (hv : v.IsPlaced) (hnames : v.Takes names)
    (haccept : v.accept (.ofPath names) = .ok ()) (s : String) :
    v.Written names s.toUTF8
      ((writeFile (.ofPath names) s : StateM Volume (Except Error Unit)) v) := by
  rcases List.eq_nil_or_concat' names with rfl | ⟨outer, name, rfl⟩
  · exact written_nil hv haccept s
  · have houter : v.Takes outer := fun n hn => hnames n (List.mem_append_left _ hn)
    have hmade := made_makeParent hv houter haccept
    rw [writeFile_run]
    generalize (makeParent (.ofPath (outer ++ [name])) : StateM Volume (Except Error Unit)) v =
      result at hmade
    cases hmade with
    | blocked hblocked => exact .refused (.inl ((isBlocked_outer_iff hv).1 hblocked))
    | made hfree hw hsame => exact written_step_write hv hnames haccept hfree hw hsame s.toUTF8

theorem AddsFile.keepsDirectories {content : ByteArray} (h : v.AddsFile w names content)
    (hfree : ¬v.Refuses names) : v.KeepsDirectories w where
  bounds := h.bounds
  current := h.current
  directory q hq := by
    have hne : q ≠ v.current ++ names := by
      rintro rfl
      exact hfree (.inr hq)
    rw [h.entryAt?, if_neg hne, hq, ite_self]

/-- Nothing is in the way of a path whose first name is free. -/
theorem not_refuses_of_free {p : Path} (hv : v.IsPlaced)
    (h : v.top.entryAt? (v.current ++ [name]) = none) : ¬v.Refuses (name :: p) := by
  have hbehind : ∀ q, v.top.entryAt? (v.current ++ name :: q) = none := fun q =>
    Item.entryAt?_eq_none_of_isPrefix h ⟨q, List.append_cons .. ▸ rfl⟩
  rintro (⟨q, hq, -, content, hfile⟩ | hdirectory)
  · cases q with
    | nil =>
      rw [List.append_nil, hv.directory] at hfile
      cases hfile
    | cons n q =>
      obtain ⟨rfl, -⟩ := List.cons_prefix_cons.1 hq
      rw [hbehind] at hfile
      cases hfile
  · rw [hbehind] at hdirectory
    cases hdirectory

/-- No other file lies on the way to one that can be saved. -/
theorem not_isPrefix_of_file {q : Path} {content : ByteArray} (hv : v.IsPlaced)
    (hfree : ¬v.Refuses names) (hfile : v.top.entryAt? q = some (.file content))
    (hne : q ≠ v.current ++ names) : ¬q <+: v.current ++ names := by
  intro hq
  obtain hcurrent | ⟨r, rfl⟩ :=
    List.prefix_or_prefix_of_prefix hq (List.prefix_append v.current names)
  · exact not_isBlocked_of_directory hv.directory ⟨q, hcurrent, content, hfile⟩
  · rw [List.prefix_append_right_inj] at hq
    exact hfree (.inl ⟨r, hq, fun heq => hne (heq ▸ rfl), content, hfile⟩)

/-- Every other file is read as before, whatever location leads to it. -/
theorem AddsFile.read_other {content content' : ByteArray} {l : Location}
    (h : v.AddsFile w names content) (hv : v.IsPlaced) (hfree : ¬v.Refuses names)
    (hread : v.read l = .ok content') (hother : v.filePath? l ≠ some (v.current ++ names)) :
    w.read l = .ok content' := by
  have hkeeps := h.keepsDirectories hfree
  obtain ⟨t, name, hplace, hfits, hslash, hfile⟩ := (read_eq_ok_iff hv.isRooted).1 hread
  obtain ⟨u, hu, hpath⟩ := hkeeps.filePlace hv.isRooted hplace
  have hne : t.path name ≠ v.current ++ names := fun heq =>
    hother (filePath?_eq_some_iff.2 ⟨t, name, hplace, heq⟩)
  refine (read_eq_ok_iff (hkeeps.directory _ hv.isRooted)).2
    ⟨u, name, hu, by rwa [Fits, h.bounds], hslash, ?_⟩
  rw [hpath, h.entryAt?, if_neg hne, if_neg (not_isPrefix_of_file hv hfree hfile hne), hfile]

/-- A path is within the bounds of a volume: each of its names, and all of it as it is written. -/
structure FitsPath (v : Volume) (p : Path) : Prop where
  names : ∀ n ∈ p, v.Fits n
  text : v.accept (.ofPath p) = .ok ()

theorem fitsPath_of_bounds_eq_none (h : v.bounds = none) (p : Path) : v.FitsPath p where
  names n _ b hb := by
    rw [h] at hb
    cases hb
  text := by rw [accept, h]

/-- A location is written as a path of plain names within the bounds of a volume. -/
structure Names (v : Volume) (l : Location) (p : Path) : Prop where
  placed : v.IsPlaced
  plain : ∀ n ∈ p, IsPlain n
  fits : v.FitsPath p
  text : l = .ofText ("/".intercalate p)

theorem Names.written {l : Location} {p : Path} (h : v.Names l p) (s : String) :
    v.Written p s.toUTF8 ((writeFile l s : StateM Volume (Except Error Unit)) v) := by
  rw [h.text, Location.ofText_intercalate h.plain]
  exact written_writeFile h.placed (fun n hn => ⟨h.plain n hn, h.fits.names n hn⟩) h.fits.text s

end Volume

variable {v : Volume} {p : Path} {d : Document}

/-- A document is saved unless a file is in the way or its path is a directory. If it is not saved,
nothing has changed; if it is, its file is there with the directories that were missing, it is
loaded again, and nothing else has changed. -/
theorem save_allOrNothing (hv : v.IsPlaced) (hplain : ∀ n ∈ p, IsPlain n) (hfits : v.FitsPath p)
    (hd : ∃ s, Document.parse s = .ok d) :
    let l := Location.ofText ("/".intercalate p)
    let after := (save l d : StateM Volume (Except Error Unit)) v
    ((∃ e, after.1 = .error e) ↔ v.Refuses p) ∧
    (∀ e, after.1 = .error e → after.2 = v) ∧
    (after.1 = .ok () →
      v.AddsFile after.2 p d.render.toUTF8 ∧
      (load l : StateM Volume (Except LoadError Document)) after.2 = (.ok d.reread, after.2) ∧
      ∀ other content, v.read other = .ok content → v.filePath? other ≠ some (v.current ++ p) →
        ((load other : StateM Volume (Except LoadError Document)) after.2).1 =
          ((load other : StateM Volume (Except LoadError Document)) v).1) := by
  intro l after
  have hnames : v.Names l p := ⟨hv, hplain, hfits, rfl⟩
  have hwritten := hnames.written d.render
  obtain ⟨s, hs⟩ := hd
  cases hafter : after with
  | mk outcome w =>
    have hsave : (writeFile l d.render : StateM Volume (Except Error Unit)) v = (outcome, w) :=
      hafter
    rw [hsave] at hwritten
    cases hwritten with
    | refused hrefused =>
      refine ⟨⟨fun _ => hrefused, fun _ => ⟨_, rfl⟩⟩, fun _ _ => rfl, fun hok => ?_⟩
      cases hok
    | written hfree hadds =>
      refine ⟨⟨fun ⟨e, he⟩ => ?_, fun hrefused => absurd hrefused hfree⟩, fun e he => ?_,
        fun _ => ⟨hadds, ?_, fun other content hread hother => ?_⟩⟩
      · cases he
      · cases he
      · obtain ⟨-, -, -, -, -, hread⟩ := writes_of_writeFile_ok hv.isRooted hsave
        rw [load_of_read hread, loaded, Document.parse_render_of_parse hs]
        rfl
      · have hafterwards := hadds.read_other hv hfree hread hother
        rw [load_run, load_run, hread, hafterwards]

/-- Next to a file a document is saved into a directory that is missing, and below the file it is
not. -/
theorem save_besides_file :
    let v : Volume := ⟨.directory [("notes", .file "x".toUTF8)], [], none⟩
    let d := (Document.single "note").reread
    let l := Location.ofText ("/".intercalate ["drafts", "flow.json"])
    let below := Location.ofText ("/".intercalate ["notes", "flow.json"])
    let after := (save l d : StateM Volume (Except Error Unit)) v
    after.1 = .ok () ∧
    (load l : StateM Volume (Except LoadError Document)) after.2 = (.ok d.reread, after.2) ∧
    ∃ e, (save below d : StateM Volume (Except Error Unit)) v = (.error e, v) := by
  intro v d l below after
  have hv : v.IsPlaced := Volume.IsRooted.isPlaced rfl rfl
  have hd : ∃ s, Document.parse s = .ok d := Document.exists_parse_single (by decide)
  have hfits := Volume.fitsPath_of_bounds_eq_none (v := v) rfl
  have hinto := save_allOrNothing hv (by decide) (hfits ["drafts", "flow.json"]) hd
  have hbelow := save_allOrNothing hv (by decide) (hfits ["notes", "flow.json"]) hd
  have hfree : ¬v.Refuses ["drafts", "flow.json"] := Volume.not_refuses_of_free hv rfl
  have hrefused : v.Refuses ["notes", "flow.json"] :=
    .inl ⟨["notes"], by simp, by simp, "x".toUTF8, rfl⟩
  obtain ⟨e, he⟩ := hbelow.1.2 hrefused
  have hok : after.1 = .ok () := by
    cases hafter : after.1 with
    | ok => rfl
    | error e => exact absurd (hinto.1.1 ⟨e, hafter⟩) hfree
  exact ⟨hok, (hinto.2.2 hok).2.1, e, Prod.ext he (hbelow.2.1 e he)⟩

end FlowDiagram.Storage
