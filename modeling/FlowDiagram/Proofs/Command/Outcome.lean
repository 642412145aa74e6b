import FlowDiagram.Command.Run
import FlowDiagram.Proofs.Command.Arguments
import FlowDiagram.Proofs.Storage.Saves
/-! How runs end: with a diagram in one place, or with an error and all files as they were. -/

namespace FlowDiagram

theorem Graph.isValid_review (g : Graph) : g.review.isValid = true := rfl

namespace Command

open Storage

variable {v w : Volume} {i : Invocation} {env : Environment} {o : Options} {d : Document}

/-- The diagram that a document is turned into. -/
def diagramCode (d : Document) (o : Options) : String := d.graph.diagramText (some d.metadata) o

/-- No file is new, gone or changed. -/
def KeepsFiles (v w : Volume) : Prop :=
  ∀ q content, w.top.entryAt? q = some (.file content) ↔ v.top.entryAt? q = some (.file content)

/-- One file holds a text where its location leads to, and no other file is new, gone or changed. -/
structure WritesOnly (v w : Volume) (l : Location) (s : String) : Prop where
  read : w.read l = .ok s.toUTF8
  others : ∃ p, w.filePath? l = some p ∧ ∀ q, q ≠ p → ∀ content,
    w.top.entryAt? q = some (.file content) ↔ v.top.entryAt? q = some (.file content)

/-! What is read leaves all as it is -/

theorem fileOptions_run (name : Option String) (v : Volume) :
    ∃ result, (fileOptions name : StateM Volume (Except Failure Options)) v = (result, v) := by
  cases name with
  | none => exact ⟨_, rfl⟩
  | some name =>
    have hread : ∃ found, (FileSystem.readText (Location.ofText name) :
        StateM Volume (Except Error String)) v = (found, v) := ⟨_, rfl⟩
    obtain ⟨found, hread⟩ := hread
    simp only [fileOptions, bind, StateT.bind, hread]
    cases found <;> exact ⟨_, rfl⟩

theorem chooseOptions_run (i : Invocation) (env : Environment) (v : Volume) :
    ∃ result, (chooseOptions i env : StateM Volume (Except Failure Options)) v = (result, v) := by
  obtain ⟨found, hfile⟩ := fileOptions_run i.options v
  simp only [chooseOptions, bind, StateT.bind, hfile]
  cases found <;> exact ⟨_, rfl⟩

/-! Writing a diagram -/

/-- A diagram is written as any other text is; only its errors tell more. -/
theorem writeDiagram_run (l : Location) (code : String) (v : Volume) :
    (writeDiagram l code : StateM Volume (Except Failure Unit)) v =
      match (makeParent l : StateM Volume (Except Error Unit)) v with
      | (.ok (), w) =>
        let written := Volume.step (·.write l (code ++ "\n").toUTF8) w
        (written.1.mapError (.writing l), written.2)
      | (.error e, w) => (.error (.creating (l.parent?.getD l) e), w) := by
  rw [writeDiagram, makeParent]
  cases l.parent? with
  | none => rfl
  | some directory =>
    simp only [bind, StateT.bind, Functor.map, StateT.map]
    cases (FileSystem.makeDirectories directory : StateM Volume (Except Error Unit)) v with
    | mk outcome w => cases outcome <;> rfl

theorem writeFile_of_writeDiagram {l : Location} {code : String} {result : Except Failure Unit}
    (h : (writeDiagram l code : StateM Volume (Except Failure Unit)) v = (result, w)) :
    ∃ result', (writeFile l (code ++ "\n") : StateM Volume (Except Error Unit)) v = (result', w) ∧
      (result = .ok () ↔ result' = .ok ()) := by
  rw [writeDiagram_run] at h
  rw [writeFile_run]
  cases hmade : (makeParent l : StateM Volume (Except Error Unit)) v with
  | mk made u =>
    rw [hmade] at h
    cases made with
    | error e =>
      cases h
      exact ⟨_, rfl, by simp⟩
    | ok =>
      cases h
      refine ⟨(Volume.step (·.write l (code ++ "\n").toUTF8) u).1, rfl, ?_⟩
      generalize (Volume.step (·.write l (code ++ "\n").toUTF8) u).1 = written
      cases written with
      | ok => simp [Except.mapError]
      | error e => simp [Except.mapError]

/-- If a diagram cannot be written, then no file has changed. -/
theorem keepsFiles_of_writeDiagram_error {l : Location} {code : String} {f : Failure}
    (hv : v.IsRooted)
    (h : (writeDiagram l code : StateM Volume (Except Failure Unit)) v = (.error f, w)) :
    KeepsFiles v w := by
  obtain ⟨result, hwrite, hresult⟩ := writeFile_of_writeDiagram h
  cases result with
  | ok => cases hresult.2 rfl
  | error e => exact (grows_of_writeFile_error hv hwrite).file_iff

/-- If a diagram is written, then its file holds it, and no other file has changed. -/
theorem writesOnly_of_writeDiagram_ok {l : Location} {code : String} (hv : v.IsRooted)
    (h : (writeDiagram l code : StateM Volume (Except Failure Unit)) v = (.ok (), w)) :
    WritesOnly v w l (code ++ "\n") := by
  obtain ⟨result, hwrite, hresult⟩ := writeFile_of_writeDiagram h
  rw [hresult.1 rfl] at hwrite
  obtain ⟨u, p, hgrows, hwrites, hpath, hread⟩ := writes_of_writeFile_ok hv hwrite
  refine ⟨hread, p, hpath, fun q hq content => ?_⟩
  rw [hwrites.entryAt?, if_neg hq, hgrows.file_iff]

/-! Runs -/

/-- Where the diagram of a document is to go: to a file that is named or, in a directory that is,
to one named after the title. -/
inductive GoesTo (i : Invocation) (d : Document) : Location → Prop
  | output {name : String} (h : i.output = some name) : GoesTo i d (.ofText name)
  | outDir {name : String} (h : i.output = none) (h' : i.outDir = some name) :
    GoesTo i d ((Location.ofText name).child (FileName.ofTitle d.metadata.title?))

theorem target?_cases (i : Invocation) (d : Document) :
    (i.target? d.metadata = none ∧ i.output = none ∧ i.outDir = none) ∨
      ∃ l, i.target? d.metadata = some l ∧ GoesTo i d l := by
  rw [Invocation.target?]
  cases houtput : i.output with
  | some name => exact .inr ⟨_, rfl, .output houtput⟩
  | none =>
    cases houtDir : i.outDir with
    | some name => exact .inr ⟨_, rfl, .outDir houtput houtDir⟩
    | none => exact .inl ⟨rfl, rfl, rfl⟩

/-- How a run ends whose arguments are accepted. -/
inductive Ends (i : Invocation) (env : Environment) (v : Volume) : Outcome × Volume → Prop
  | failed {w : Volume} (stderr : String) (hkeeps : KeepsFiles v w) :
    Ends i env v (⟨1, "", stderr⟩, w)
  | printed {o : Options} {d : Document} (stderr : String)
    (hoptions : ((chooseOptions i env : StateM Volume (Except Failure Options)) v).1 = .ok o)
    (hload : ((load (.ofText i.document) : StateM Volume (Except LoadError Document)) v).1 = .ok d)
    (houtput : i.output = none) (houtDir : i.outDir = none) :
    Ends i env v (⟨0, diagramCode d o ++ "\n", stderr⟩, v)
  | written {o : Options} {d : Document} {l : Location} {w : Volume} (stderr : String)
    (hoptions : ((chooseOptions i env : StateM Volume (Except Failure Options)) v).1 = .ok o)
    (hload : ((load (.ofText i.document) : StateM Volume (Except LoadError Document)) v).1 = .ok d)
    (hgoes : GoesTo i d l) (hwrites : WritesOnly v w l (diagramCode d o ++ "\n")) :
    Ends i env v (⟨0, "", stderr⟩, w)

theorem ends_present (hv : v.IsRooted)
    (hoptions : ((chooseOptions i env : StateM Volume (Except Failure Options)) v).1 = .ok o)
    (hload :
      ((load (.ofText i.document) : StateM Volume (Except LoadError Document)) v).1 = .ok d) :
    Ends i env v ((present i o d : StateM Volume Outcome) v) := by
  simp only [present, d.graph.isValid_review, Bool.not_true, Bool.and_false, Bool.false_eq_true,
    if_false]
  obtain ⟨htarget, houtput, houtDir⟩ | ⟨l, htarget, hgoes⟩ := target?_cases i d
  · rw [htarget]
    exact .printed _ hoptions hload houtput houtDir
  · rw [htarget]
    simp only [bind, StateT.bind]
    cases hwrite : (writeDiagram l (d.graph.diagramText (some d.metadata) o) :
        StateM Volume (Except Failure Unit)) v with
    | mk result w =>
      cases result with
      | ok => exact .written _ hoptions hload hgoes (writesOnly_of_writeDiagram_ok hv hwrite)
      | error f => exact .failed _ (keepsFiles_of_writeDiagram_error hv hwrite)

theorem ends_perform (hv : v.IsRooted) :
    Ends i env v ((perform i env : StateM Volume Outcome) v) := by
  have hsame : KeepsFiles v v := fun _ _ => Iff.rfl
  obtain ⟨chosen, hchosen⟩ := chooseOptions_run i env v
  have hload : ∃ found,
      (load (.ofText i.document) : StateM Volume (Except LoadError Document)) v = (found, v) :=
    ⟨_, load_run _ v⟩
  obtain ⟨found, hfound⟩ := hload
  simp only [perform, bind, StateT.bind, hchosen]
  cases chosen with
  | error f => exact .failed _ hsame
  | ok o =>
    simp only [StateT.bind, hfound]
    cases found with
    | error e => exact .failed _ hsame
    | ok d => exact ends_present hv (by rw [hchosen]) (by rw [hfound])

/-- No review has errors, so that asking for a check changes nothing. -/
theorem perform_check {m : Type → Type} [Monad m] [FileSystem m] (i : Invocation)
    (env : Environment) (check : Bool) :
    (perform { i with check } env : m Outcome) = perform i env := by
  have hpresent (o : Options) (d : Document) :
      (present { i with check } o d : m Outcome) = present i o d := by
    simp only [present, d.graph.isValid_review, Bool.not_true, Bool.and_false, Invocation.target?]
  simp only [perform, hpresent, chooseOptions, Invocation.override]

/-- Of a run that is no call for help, the exit code is 0, 1 or 2. Unless it is 0, nothing is
printed and no file has changed. If it is 0, the document was loaded, and its diagram is either
printed, with all as it was, or the one file that is written. It is 2 for arguments that are not
accepted and for nothing else, and a check that is asked for in front changes nothing. -/
theorem run_allOrNothing (hv : v.IsRooted) {args : List String} (hhelp : parse args ≠ .ok none) :
    let after := (run args env : StateM Volume Outcome) v
    (after.1.code = 0 ∨ after.1.code = 1 ∨ after.1.code = 2) ∧
    (after.1.code ≠ 0 → after.1.stdout = "" ∧ KeepsFiles v after.2) ∧
    (after.1.code = 0 →
      ∃ i o d, parse args = .ok (some i) ∧
        ((chooseOptions i env : StateM Volume (Except Failure Options)) v).1 = .ok o ∧
        ((load (.ofText i.document) : StateM Volume (Except LoadError Document)) v).1 = .ok d ∧
        let code := d.graph.diagramText (some d.metadata) o
        ((i.output = none ∧ i.outDir = none ∧ after.1.stdout = code ++ "\n" ∧ after.2 = v) ∨
          ∃ l, GoesTo i d l ∧ after.1.stdout = "" ∧ WritesOnly v after.2 l (code ++ "\n"))) ∧
    (after.1.code = 2 ↔ ∃ e, parse args = .error e) ∧
    ∀ i, parse args = .ok (some i) → i.check = false →
      (run (Flag.check.name :: args) env : StateM Volume Outcome) v = after := by
  intro after
  cases hparse : parse args with
  | error e =>
    have hafter : after = (⟨2, "", unlines ["error: " ++ e.message, "", usage]⟩, v) := by
      simp only [after, run, hparse]
      rfl
    simp only [hafter]
    exact ⟨by simp, fun _ => ⟨trivial, fun _ _ => Iff.rfl⟩, by simp, by simp, by simp⟩
  | ok asked =>
    cases asked with
    | none => exact absurd hparse hhelp
    | some i =>
      have hafter : after = (perform i env : StateM Volume Outcome) v := by
        simp only [after, run, hparse]
      have hends : Ends i env v after := hafter ▸ ends_perform hv
      have hcheck : ∀ j, i = j → j.check = false →
          (run (Flag.check.name :: args) env : StateM Volume Outcome) v = after := by
        rintro j rfl hj
        simp only [run, parse_check hparse hj, perform_check, hafter]
      clear_value after
      cases hends with
      | failed stderr hkeeps => simpa [hkeeps] using hcheck
      | printed stderr hoptions hload houtput houtDir =>
        refine ⟨by simp, by simp, fun _ => ?_, by simp, by simpa using hcheck⟩
        exact ⟨i, _, _, rfl, hoptions, hload, .inl ⟨houtput, houtDir, rfl, rfl⟩⟩
      | written stderr hoptions hload hgoes hwrites =>
        refine ⟨by simp, by simp, fun _ => ?_, by simp, by simpa using hcheck⟩
        exact ⟨i, _, _, rfl, hoptions, hload, .inr ⟨_, hgoes, rfl, hwrites⟩⟩

/-- Next to a document, its diagram is written into a directory that is missing, also with a check,
and the diagram of a document that is missing is not written. -/
theorem run_besides_document :
    let v : Volume := ⟨.directory [("flow.json", .file "\x7b\x7d".toUTF8)], [], none⟩
    let env : Environment := ⟨none, some "dark"⟩
    let writing := (run ["-o", "new/flow.mmd", "flow.json"] env : StateM Volume Outcome) v
    let failing := (run ["-o", "new/flow.mmd", "gone.json"] env : StateM Volume Outcome) v
    v.IsRooted ∧
    parse ["-o", "new/flow.mmd", "flow.json"] ≠ .ok none ∧
    parse ["-o", "new/flow.mmd", "gone.json"] ≠ .ok none ∧
    writing.1.code = 0 ∧
    (∃ code, WritesOnly v writing.2 (.ofText "new/flow.mmd") (code ++ "\n")) ∧
    (run ["--check", "-o", "new/flow.mmd", "flow.json"] env : StateM Volume Outcome) v = writing ∧
    failing.1.code = 1 ∧ failing.1.stdout = "" ∧ KeepsFiles v failing.2 := by
  intro v env writing failing
  have hv : v.IsRooted := rfl
  have hasked : parse ["-o", "new/flow.mmd", "flow.json"] = .ok (some
      ⟨none, none, none, false, false, some "new/flow.mmd", none, false, false, "flow.json"⟩) := rfl
  have hasked' : parse ["-o", "new/flow.mmd", "gone.json"] = .ok (some
      ⟨none, none, none, false, false, some "new/flow.mmd", none, false, false, "gone.json"⟩) := rfl
  have hhelp : parse ["-o", "new/flow.mmd", "flow.json"] ≠ .ok none := by simp [hasked]
  have hhelp' : parse ["-o", "new/flow.mmd", "gone.json"] ≠ .ok none := by simp [hasked']
  have hcode : writing.1.code = 0 := rfl
  have hcode' : failing.1.code = 1 := rfl
  obtain ⟨-, -, hwritten, -, hcheck⟩ := @run_allOrNothing v env hv _ hhelp
  obtain ⟨-, hkept, -⟩ := @run_allOrNothing v env hv _ hhelp'
  obtain ⟨hstdout, hkeeps⟩ := hkept (by rw [hcode']; decide)
  refine ⟨hv, hhelp, hhelp', hcode, ?_, hcheck _ hasked rfl, hcode', hstdout, hkeeps⟩
  obtain ⟨i, o, d, hi, -, -, hends⟩ := hwritten hcode
  rw [hasked] at hi
  cases hi
  obtain ⟨hnone, -⟩ | ⟨l, hgoes, -, hwrites⟩ := hends
  · cases hnone
  · cases hgoes with
    | output h =>
      cases h
      exact ⟨_, hwrites⟩
    | outDir h => cases h

end Command

end FlowDiagram
