import FlowDiagram.Proofs.Document.RoundTrip
import FlowDiagram.Proofs.Storage.Changes
/-! Saving and loading documents: what is read, what is written, and what stays. -/

namespace FlowDiagram.Storage

open Volume

variable {v w : Volume} {l : Location} {d : Document}

theorem writeFile_run (l : Location) (s : String) (v : Volume) :
    (writeFile l s : StateM Volume (Except Error Unit)) v =
      match (makeParent l : StateM Volume (Except Error Unit)) v with
      | (.ok (), w) => step (·.write l s.toUTF8) w
      | (.error e, w) => (.error e, w) := by
  rw [writeFile]
  simp only [bind, StateT.bind]
  cases (makeParent l : StateM Volume (Except Error Unit)) v with
  | mk outcome w => cases outcome <;> rfl

/-- What is loaded if a file holds the bytes of a text. -/
def loaded (s : String) : Except LoadError Document := (Document.parse s).mapError .parse

/-- Reading a text leaves all as it is. -/
theorem readText_run (l : Location) (v : Volume) :
    (FileSystem.readText l : StateM Volume (Except Error String)) v =
      (match v.read l with
        | .ok content =>
          match String.fromUTF8? content with
          | some s => .ok s
          | none => .error .invalidData
        | .error e => .error e, v) := by
  have hread : (FileSystem.readText l : StateM Volume (Except Error String)) v =
      (do
        match String.fromUTF8? (← v.read l) with
        | some s => return s
        | none => .error .invalidData, v) := rfl
  rw [hread]
  cases v.read l with
  | error e => rfl
  | ok content =>
    simp only [ok_bind]
    cases String.fromUTF8? content <;> rfl

/-- Loading looks at nothing but the bytes that are read. -/
theorem load_run (l : Location) (v : Volume) :
    (load l : StateM Volume (Except LoadError Document)) v =
      (match v.read l with
        | .ok content =>
          match String.fromUTF8? content with
          | some s => loaded s
          | none => .error (.io .invalidData)
        | .error e => .error (.io e), v) := by
  simp only [load, bind, StateT.bind, readText_run]
  cases v.read l with
  | error e => rfl
  | ok content =>
    dsimp only
    cases String.fromUTF8? content <;> rfl

theorem fromUTF8?_toUTF8 (s : String) : String.fromUTF8? s.toUTF8 = some s := by
  rw [String.fromUTF8?, String.toUTF8_eq_toByteArray, dif_pos s.isValidUTF8]
  rfl

theorem load_of_read {s : String} (h : v.read l = .ok s.toUTF8) :
    (load l : StateM Volume (Except LoadError Document)) v = (loaded s, v) := by
  rw [load_run, h]
  simp only [fromUTF8?_toUTF8]

/-! What becomes of a volume -/

/-- If a file cannot be written, then directories may have been made, and no file has changed. -/
theorem grows_of_writeFile_error {s : String} {e : Error} (hv : v.IsRooted)
    (h : (writeFile l s : StateM Volume (Except Error Unit)) v = (.error e, w)) : v.Grows w := by
  have hparent := grows_makeParent hv l
  rw [writeFile_run] at h
  split at h
  · rename_i u hu
    rw [hu] at hparent
    rw [step] at h
    split at h
    · cases h
    · cases h
      exact hparent
  · rename_i u hu
    rw [hu] at hparent
    cases h
    exact hparent

/-- If a file is written, then it holds the text where its location leads to, and no other file has
changed. -/
theorem writes_of_writeFile_ok {s : String} (hv : v.IsRooted)
    (h : (writeFile l s : StateM Volume (Except Error Unit)) v = (.ok (), w)) :
    ∃ u p, v.Grows u ∧ u.Writes w p s.toUTF8 ∧ w.filePath? l = some p ∧ w.read l = .ok s.toUTF8 := by
  have hparent := grows_makeParent hv l
  rw [writeFile_run] at h
  split at h
  · rename_i u hu
    rw [hu] at hparent
    rw [step] at h
    split at h
    · rename_i w' hw
      cases h
      obtain ⟨p, -, hpath, hwrites, hread⟩ := writes_of_write (hparent.isRooted hv) hw
      exact ⟨u, p, hparent, hwrites, hpath, hread⟩
    · cases h
  · cases h

theorem isRooted_step_write (hv : v.IsRooted) (l : Location) (content : ByteArray) :
    (step (·.write l content) v).2.IsRooted := by
  rw [step]
  split
  · rename_i hw
    obtain ⟨p, -, -, hwrites, -⟩ := writes_of_write hv hw
    exact hwrites.keepsDirectories.directory _ hv
  · exact hv

theorem isRooted_writeFile (hv : v.IsRooted) (l : Location) (s : String) :
    ((writeFile l s : StateM Volume (Except Error Unit)) v).2.IsRooted := by
  have hparent := grows_makeParent hv l
  rw [writeFile_run]
  split
  · rename_i u hu
    rw [hu] at hparent
    exact isRooted_step_write (hparent.isRooted hv) l s.toUTF8
  · rename_i u hu
    rw [hu] at hparent
    exact hparent.isRooted hv

end FlowDiagram.Storage
