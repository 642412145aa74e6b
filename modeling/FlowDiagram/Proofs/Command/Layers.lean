import FlowDiagram.Proofs.Command.Options
import FlowDiagram.Proofs.Command.Outcome
import FlowDiagram.Proofs.Json.Printed
/-! The options of a run, layer by layer: a file, arguments and the environment. -/

namespace FlowDiagram.Command

open Storage Json

variable {v : Volume} {i : Invocation} {env : Environment} {s : Settings} {o : Options}

/-! The file -/

/-- What the options file says. Without one nothing is said. -/
inductive FileSays (v : Volume) : Option String → Settings → Prop
  | unnamed : FileSays v none .silent
  | named {name text : String} {content : ByteArray} {s : Settings}
    (hread : v.read (.ofText name) = .ok content) (htext : String.fromUTF8? content = some text)
    (hsettings : s.WrittenIn text) : FileSays v (some name) s

/-- Why nothing can be known from the options file. -/
inductive FileFails (v : Volume) : Option String → Failure → Prop
  | unreadable {name : String} {e : Storage.Error} (hread : v.read (.ofText name) = .error e) :
    FileFails v (some name) (.readingOptions name e)
  | noText {name : String} {content : ByteArray}
    (hread : v.read (.ofText name) = .ok content) (htext : String.fromUTF8? content = none) :
    FileFails v (some name) (.readingOptions name .invalidData)
  | malformed {name text : String} {content : ByteArray} {e : Json.Error}
    (hread : v.read (.ofText name) = .ok content) (htext : String.fromUTF8? content = some text)
    (hsettings : ∀ s : Settings, ¬s.WrittenIn text) (he : readOptions text = .error e) :
    FileFails v (some name) (.parsingOptions name e)

/-- Only the bytes of the file are looked at. -/
theorem fileOptions_some_run (name : String) (v : Volume) :
    (fileOptions (some name) : StateM Volume (Except Failure Options)) v =
      (match v.read (.ofText name) with
        | .ok content =>
          match String.fromUTF8? content with
          | some text => (readOptions text).mapError (.parsingOptions name)
          | none => .error (.readingOptions name .invalidData)
        | .error e => .error (.readingOptions name e), v) := by
  simp only [fileOptions, bind, StateT.bind, readText_run]
  cases v.read (.ofText name) with
  | error e => rfl
  | ok content =>
    dsimp only
    cases String.fromUTF8? content <;> rfl

theorem FileSays.run {name : Option String} (h : FileSays v name s) :
    (fileOptions name : StateM Volume (Except Failure Options)) v = (.ok s.complete, v) := by
  cases h with
  | unnamed => rfl
  | named hread htext hsettings =>
    rw [fileOptions_some_run, hread]
    simp only [htext, readOptions_eq_ok_iff.2 ⟨s, hsettings, rfl⟩]
    rfl

theorem FileFails.run {name : Option String} {f : Failure} (h : FileFails v name f) :
    (fileOptions name : StateM Volume (Except Failure Options)) v = (.error f, v) := by
  cases h with
  | unreadable hread => rw [fileOptions_some_run, hread]
  | noText hread htext =>
    rw [fileOptions_some_run, hread]
    simp only [htext]
  | malformed hread htext hsettings he =>
    rw [fileOptions_some_run, hread]
    simp only [htext, he]
    rfl

theorem fileSays_or_fileFails (v : Volume) (name : Option String) :
    (∃ s, FileSays v name s) ∨ ∃ f, FileFails v name f := by
  cases name with
  | none => exact .inl ⟨_, .unnamed⟩
  | some name =>
    cases hread : v.read (.ofText name) with
    | error e => exact .inr ⟨_, .unreadable hread⟩
    | ok content =>
      cases htext : String.fromUTF8? content with
      | none => exact .inr ⟨_, .noText hread htext⟩
      | some text =>
        cases he : readOptions text with
        | ok o =>
          obtain ⟨s, hs, -⟩ := readOptions_eq_ok_iff.1 he
          exact .inl ⟨s, .named hread htext hs⟩
        | error e =>
          refine .inr ⟨_, .malformed hread htext (fun s hs => ?_) he⟩
          rw [readOptions_eq_ok_iff.2 ⟨s, hs, rfl⟩] at he
          cases he

/-! Arguments -/

/-- The direction of the arguments is the one that the text names which they give for it. -/
theorem directionValue_eq_ok_iff {given : Option String} {direction : Option Direction} :
    directionValue given = .ok direction ↔
      Option.Rel (fun t d => Direction.Names d t) given direction := by
  cases given with
  | none =>
    constructor
    · intro h
      cases h
      exact .none
    · intro h
      cases h
      rfl
  | some t =>
    simp only [directionValue, mapError_eq_ok_iff, map_eq_ok_iff, Direction.ofText_eq_ok_iff]
    constructor
    · rintro ⟨d, hd, rfl⟩
      exact .some hd
    · intro h
      cases h with
      | some hd => exact ⟨_, hd, rfl⟩

theorem direction_of_parse {args : List String} (h : parse args = .ok (some i)) :
    ∃ ws given, words args = .ok ws ∧ settingValue ws .direction = .ok given ∧
      Option.Rel (fun t d => Direction.Names d t) given i.direction := by
  obtain ⟨ws, hws, hasks⟩ := parse_eq_ok_some_iff.1 h
  obtain ⟨given, hgiven, hdirection⟩ := bind_eq_ok_iff.1 hasks.direction
  exact ⟨ws, given, hws, hgiven, directionValue_eq_ok_iff.1 hdirection⟩

/-- Arguments that give no more than a direction and a document. -/
theorem parse_direction_iff {text name : String} {d : Direction} (hname : name ≠ "") :
    (∃ j, parse [Setting.direction.name ++ "=" ++ text, "--", name] = .ok (some j) ∧
      j.direction = some d) ↔ d.Names text := by
  have hwords : words [Setting.direction.name ++ "=" ++ text, "--", name] =
      .ok [.setting .direction text, .document name] := by
    rw [words_attached]
    rfl
  constructor
  · rintro ⟨j, hj, hd⟩
    obtain ⟨ws, given, hws, hgiven, hnames⟩ := direction_of_parse hj
    cases hwords.symm.trans hws
    cases hgiven
    rw [hd] at hnames
    cases hnames with
    | some hnames => exact hnames
  · intro hd
    refine ⟨⟨none, some d, none, false, false, none, none, false, false, name⟩, ?_, rfl⟩
    have hdirection : directionValue (some text) = .ok (some d) :=
      directionValue_eq_ok_iff.2 (.some hd)
    have hdocument : documentName [.setting .direction text, .document name] = .ok (some name) :=
      if_neg hname
    refine parse_eq_ok_some_iff.2 ⟨_, hwords, rfl, hdirection, rfl, rfl, rfl, rfl, rfl, rfl, rfl,
      hdocument, by simp, .inl rfl⟩

/-! The environment on top -/

/-- Each option is that of the environment, else that of the arguments, else that of the file, else
the usual one. An empty theme in the environment is none at all. -/
structure Layered (s : Settings) (i : Invocation) (env : Environment) (o : Options) : Prop where
  direction_env : ∀ t, env.direction = some t → o.direction.Names t
  direction : env.direction = none → o.direction = (i.direction.or s.direction).getD .topDown
  theme_env : ∀ t, env.theme = some t → o.theme = if t = "" then none else some t
  theme : env.theme = none → o.theme = i.theme.or (s.theme.getD none)
  title : o.includeTitle = true ↔ s.includeTitle ≠ some false ∧ i.noTitle = false
  description : o.includeDescription = true ↔
    s.includeDescription ≠ some false ∧ i.noDescription = false

/-- Only the direction of the environment may be refused. -/
theorem override_eq_map (env : Environment) (o : Options) : env.override o =
    (env.direction.elim (.ok o.direction) Direction.ofText).map fun direction =>
      let theme := env.theme.elim o.theme fun t => if t = "" then none else some t
      { o with direction, theme } := by
  rw [Environment.override]
  cases env.direction with
  | none => cases env.theme <;> rfl
  | some t =>
    simp only [Option.elim_some]
    cases Direction.ofText t <;> cases env.theme <;> rfl

theorem override_eq_error_iff {e : Direction.Unknown} : env.override o = .error e ↔
    ∃ t, env.direction = some t ∧ (∀ d : Direction, ¬d.Names t) ∧ e = ⟨t⟩ := by
  rw [override_eq_map]
  cases env.direction with
  | none => simp [Except.map]
  | some t =>
    simp only [Option.elim_some, Option.some.injEq, exists_eq_left',
      ← Direction.ofText_eq_error_iff]
    cases Direction.ofText t with
    | ok d => simp [Except.map]
    | error e => simp [Except.map]

theorem Invocation.direction_override (i : Invocation) (s : Settings) :
    (i.override s.complete).direction = (i.direction.or s.direction).getD .topDown := by
  rw [override]
  cases i.direction <;> rfl

/-- A switch is on unless the file or the arguments turn it off. -/
theorem switch_eq_true_iff {said : Option Bool} {off : Bool} :
    (said.getD true && !off) = true ↔ said ≠ some false ∧ off = false := by
  cases said with
  | none => simp
  | some b => simp

theorem override_eq_ok_iff : env.override (i.override s.complete) = .ok o ↔ Layered s i env o := by
  rw [override_eq_map, map_eq_ok_iff]
  constructor
  · rintro ⟨d, hd, rfl⟩
    refine ⟨?_, ?_, ?_, ?_, switch_eq_true_iff, switch_eq_true_iff⟩
    · intro t ht
      rw [ht] at hd
      exact Direction.ofText_eq_ok_iff.1 hd
    · intro hnone
      rw [hnone] at hd
      cases hd
      exact i.direction_override s
    · intro t ht
      simp only [ht, Option.elim_some]
    · intro hnone
      simp only [hnone, Option.elim_none]
      rfl
  · intro h
    refine ⟨o.direction, ?_, ?_⟩
    · cases hdirection : env.direction with
      | none => rw [h.direction hdirection, Option.elim_none, i.direction_override s]
      | some t => exact Direction.ofText_eq_ok_iff.2 (h.direction_env t hdirection)
    · have htheme : o.theme = env.theme.elim (i.override s.complete).theme
          fun t => if t = "" then none else some t := by
        cases ht : env.theme with
        | none => exact h.theme ht
        | some t => exact h.theme_env t ht
      have htitle : (i.override s.complete).includeTitle = o.includeTitle :=
        Bool.eq_iff_iff.2 (switch_eq_true_iff.trans h.title.symm)
      have hdescription : (i.override s.complete).includeDescription = o.includeDescription :=
        Bool.eq_iff_iff.2 (switch_eq_true_iff.trans h.description.symm)
      simp only [← htheme, htitle, hdescription]

/-! The options of a run -/

theorem FileSays.choose (h : FileSays v i.options s) (env : Environment) :
    (chooseOptions i env : StateM Volume (Except Failure Options)) v =
      ((env.override (i.override s.complete)).mapError .environment, v) := by
  simp only [chooseOptions, bind, StateT.bind, h.run]
  rfl

theorem FileFails.choose {f : Failure} (h : FileFails v i.options f) (env : Environment) :
    (chooseOptions i env : StateM Volume (Except Failure Options)) v = (.error f, v) := by
  simp only [chooseOptions, bind, StateT.bind, h.run]
  rfl

theorem chooseOptions_eq_error_iff {f : Failure} :
    ((chooseOptions i env : StateM Volume (Except Failure Options)) v).1 = .error f ↔
      FileFails v i.options f ∨
        (∃ s, FileSays v i.options s) ∧ ∃ t, env.direction = some t ∧
          (∀ d : Direction, ¬d.Names t) ∧ f = .environment ⟨t⟩ := by
  constructor
  · intro h
    obtain ⟨s, hs⟩ | ⟨g, hg⟩ := fileSays_or_fileFails v i.options
    · rw [hs.choose] at h
      obtain ⟨e, he, rfl⟩ := mapError_eq_error_iff.1 h
      obtain ⟨t, ht, hnone, rfl⟩ := override_eq_error_iff.1 he
      exact .inr ⟨⟨s, hs⟩, t, ht, hnone, rfl⟩
    · rw [hg.choose] at h
      cases h
      exact .inl hg
  · rintro (hf | ⟨⟨s, hs⟩, t, ht, hnone, rfl⟩)
    · rw [hf.choose]
    · rw [hs.choose]
      exact mapError_eq_error_iff.2 ⟨_, override_eq_error_iff.2 ⟨t, ht, hnone, rfl⟩, rfl⟩

theorem chooseOptions_eq_ok_iff :
    ((chooseOptions i env : StateM Volume (Except Failure Options)) v).1 = .ok o ↔
      ∃ s, FileSays v i.options s ∧ Layered s i env o := by
  constructor
  · intro h
    obtain ⟨s, hs⟩ | ⟨g, hg⟩ := fileSays_or_fileFails v i.options
    · rw [hs.choose] at h
      exact ⟨s, hs, override_eq_ok_iff.1 (mapError_eq_ok_iff.1 h)⟩
    · rw [hg.choose] at h
      cases h
  · rintro ⟨s, hs, hlayers⟩
    rw [hs.choose]
    exact mapError_eq_ok_iff.2 (override_eq_ok_iff.2 hlayers)

/-! One meaning of directions -/

/-- In any file that is read, a text for the direction names it. -/
theorem direction_of_readOptions {content text : String} {x : Reading} {d : Direction}
    (hx : Reading.ofText content = (x, false))
    (hgiven : x.given? Settings.names "direction" = some (.scalar (.text text)))
    (h : readOptions content = .ok o) : o.direction = d ↔ d.Names text := by
  obtain ⟨⟨title, description, direction, theme⟩, ⟨y, hy, hs⟩, rfl⟩ := readOptions_eq_ok_iff.1 h
  cases hx.symm.trans hy
  have hsaid : Option.Rel IsDirection (some (.scalar (.text text))) direction :=
    hgiven ▸ hs.direction
  cases hsaid with
  | some hsaid =>
    obtain ⟨t, ht, hnames⟩ := hsaid
    cases ht
    constructor
    · rintro rfl
      exact hnames
    · intro hd
      exact hnames.unique hd

/-- A file of options that sets nothing but the direction. -/
def directionFile (text : String) : Tree := .object [("direction", .text text)]

theorem ofText_directionFile (text : String) : Reading.ofText (directionFile text).toPretty =
    (.object [(.ok "direction", .scalar (.text text))] none, false) := by
  refine Reading.ofText_toPretty ?_
  simp [directionFile, Tree.IsReadable, Tree.numbers, Tree.memberNumbers]

theorem readOptions_directionFile_iff {text : String} {d : Direction} :
    readOptions (directionFile text).toPretty = .ok { Options.default with direction := d } ↔
      d.Names text := by
  constructor
  · intro h
    exact (direction_of_readOptions (ofText_directionFile text) rfl h).1 rfl
  · intro hd
    refine readOptions_eq_ok_iff.2 ⟨{ Settings.silent with direction := some d }, ?_, rfl⟩
    refine ⟨_, ofText_directionFile text, ?_, .none, .none, .some ⟨text, rfl, hd⟩, .none⟩
    have hother : "direction" ∉ Settings.names → (.scalar (.text text) : Reading).skip = .ok () :=
      fun hother => absurd (by decide) hother
    exact .object (Reading.members_cons_iff.2 ⟨by simp, hother, .nil⟩)

theorem override_direction_iff {text : String} {theme : Option String} {d : Direction} :
    (∃ p, Environment.override ⟨some text, theme⟩ o = .ok p ∧ p.direction = d) ↔ d.Names text := by
  rw [override_eq_map]
  simp only [map_eq_ok_iff, Option.elim_some, Direction.ofText_eq_ok_iff]
  constructor
  · rintro ⟨p, ⟨e, he, rfl⟩, rfl⟩
    exact he
  · intro hd
    exact ⟨_, ⟨d, hd, rfl⟩, rfl⟩

/-- Options are chosen without any change to files. This fails just if the options file cannot be
read or says no settings or else, and told only then, the direction of the environment is none. In
all other cases the options are layered: environment, arguments, file. From a file, from arguments
and from the environment the same texts are taken for the same directions. -/
theorem chooseOptions_layered (i : Invocation) (env : Environment) (v : Volume) :
    let chosen := (chooseOptions i env : StateM Volume (Except Failure Options)) v
    chosen.2 = v ∧
    (∀ f, chosen.1 = .error f ↔
      FileFails v i.options f ∨
        (∃ s, FileSays v i.options s) ∧ ∃ t, env.direction = some t ∧
          (∀ d : Direction, ¬d.Names t) ∧ f = .environment ⟨t⟩) ∧
    (∀ o, chosen.1 = .ok o ↔ ∃ s, FileSays v i.options s ∧ Layered s i env o) ∧
    (∀ args, parse args = .ok (some i) →
      ∃ ws given, words args = .ok ws ∧ settingValue ws .direction = .ok given ∧
        Option.Rel (fun t d => Direction.Names d t) given i.direction) ∧
    ∀ (text : String) (d : Direction),
      (∀ content x o, Reading.ofText content = (x, false) →
        x.given? Settings.names "direction" = some (.scalar (.text text)) →
        readOptions content = .ok o → (o.direction = d ↔ d.Names text)) ∧
      (readOptions (directionFile text).toPretty = .ok { Options.default with direction := d } ↔
        d.Names text) ∧
      (∀ name, name ≠ "" →
        ((∃ j, parse [Setting.direction.name ++ "=" ++ text, "--", name] = .ok (some j) ∧
          j.direction = some d) ↔ d.Names text)) ∧
      ∀ theme o, (∃ p, Environment.override ⟨some text, theme⟩ o = .ok p ∧ p.direction = d) ↔
        d.Names text := by
  intro chosen
  obtain ⟨result, hresult⟩ := chooseOptions_run i env v
  have hvolume : chosen.2 = v := congrArg Prod.snd hresult
  refine ⟨hvolume, fun _ => chooseOptions_eq_error_iff, fun _ => chooseOptions_eq_ok_iff,
    fun _ => direction_of_parse, fun text d => ?_⟩
  exact ⟨fun _ _ _ => direction_of_readOptions, readOptions_directionFile_iff,
    fun _ => parse_direction_iff, fun _ _ => override_direction_iff⟩

/-- A file without the description, a flag against the title and an environment with a direction
and an empty theme. A direction that is none is told, but not if the file is missing. -/
theorem chooseOptions_fileFlagEnvironment :
    let file : Tree := .object
      [("includeDescription", .bool false), ("direction", .text "RL"), ("theme", .text "neutral")]
    let v : Volume := ⟨.directory [("options.json", .file file.toPretty.toUTF8)], [], none⟩
    let args (name : String) := ["--options", name, "--no-title", "--direction", "lr", "flow.json"]
    let i (name : String) : Invocation :=
      ⟨some name, some .leftRight, none, true, false, none, none, false, false, "flow.json"⟩
    let chosen (name : String) (env : Environment) :=
      ((chooseOptions (i name) env : StateM Volume (Except Failure Options)) v).1
    parse (args "options.json") = .ok (some (i "options.json")) ∧ Direction.leftRight.Names "lr" ∧
    (∃ j, parse ["--direction=lr", "--", "flow.json"] = .ok (some j) ∧
      j.direction = some .leftRight) ∧
    chosen "options.json" ⟨none, none⟩ = .ok ⟨false, false, .leftRight, some "neutral"⟩ ∧
    chosen "options.json" ⟨some " bt ", some ""⟩ = .ok ⟨false, false, .bottomTop, none⟩ ∧
    chosen "options.json" ⟨some "up", none⟩ = .error (.environment ⟨"up"⟩) ∧
    chosen "gone.json" ⟨some "up", none⟩ = .error (.readingOptions "gone.json" .notFound) := by
  intro file v args i chosen
  have hparse : parse (args "options.json") = .ok (some (i "options.json")) := rfl
  have hreadable : file.IsReadable := by
    simp [file, Tree.IsReadable, Tree.numbers, Tree.memberNumbers]
  have hread : Reading.ofText file.toPretty = (.object
      [(.ok "includeDescription", .scalar (.bool false)), (.ok "direction", .scalar (.text "RL")),
        (.ok "theme", .scalar (.text "neutral"))] none, false) := Reading.ofText_toPretty hreadable
  have hsettings : FileSays v (some "options.json")
      ⟨none, some false, some .rightLeft, some (some "neutral")⟩ := by
    refine .named rfl (fromUTF8?_toUTF8 _) ⟨_, hread, .object ?_, .none, .some rfl,
      .some ⟨"RL", rfl, Direction.ofText_eq_ok_iff.1 rfl⟩, .some (.text "neutral")⟩
    refine Reading.members_cons_iff.2 ⟨by simp, fun hother => absurd (by decide) hother, ?_⟩
    refine Reading.members_cons_iff.2 ⟨by simp, fun hother => absurd (by decide) hother, ?_⟩
    exact Reading.members_cons_iff.2 ⟨by simp, fun hother => absurd (by decide) hother, .nil⟩
  have hup : ∀ d : Direction, ¬d.Names "up" := (Direction.ofText_eq_error_iff.1 rfl).1
  obtain ⟨-, -, hplain, hflag, hroutes⟩ := chooseOptions_layered (i "options.json") ⟨none, none⟩ v
  obtain ⟨-, -, hcleared, -⟩ :=
    chooseOptions_layered (i "options.json") ⟨some " bt ", some ""⟩ v
  obtain ⟨-, hrefused, -⟩ := chooseOptions_layered (i "options.json") ⟨some "up", none⟩ v
  obtain ⟨-, hmissing, -⟩ := chooseOptions_layered (i "gone.json") ⟨some "up", none⟩ v
  have hlr : Direction.leftRight.Names "lr" := by
    obtain ⟨ws, given, hws, hgiven, hnames⟩ := hflag _ hparse
    cases hws
    cases hgiven
    cases hnames with
    | some h => exact h
  have hshort := ((hroutes "lr" .leftRight).2.2.1 "flow.json" (by decide)).2 hlr
  refine ⟨hparse, hlr, hshort, (hplain _).2 ⟨_, hsettings, ?_⟩, (hcleared _).2 ⟨_, hsettings, ?_⟩,
    ?_, ?_⟩
  · exact ⟨by simp, fun _ => rfl, by simp, fun _ => rfl, by decide, by decide⟩
  · refine ⟨?_, by simp, by simp, by simp, by decide, by decide⟩
    intro t ht
    cases ht
    exact Direction.ofText_eq_ok_iff.1 rfl
  · exact (hrefused _).2 (.inr ⟨⟨_, hsettings⟩, "up", rfl, hup, rfl⟩)
  · exact (hmissing _).2 (.inl (.unreadable rfl))

end FlowDiagram.Command
