import FlowDiagram.Command.Arguments
import FlowDiagram.Proofs.Except
/-! What arguments ask for, word by word, and what one more option in front of them adds. -/

namespace FlowDiagram.Command

/-- What each word contributes to a run that is asked for. -/
structure Asks (ws : List Word) (i : Invocation) : Prop where
  options : fileName ws .options = .ok i.options
  direction : (settingValue ws .direction >>= directionValue) = .ok i.direction
  theme : settingValue ws .theme = .ok i.theme
  noTitle : flagValue ws .noTitle = .ok i.noTitle
  noDescription : flagValue ws .noDescription = .ok i.noDescription
  output : fileName ws .output = .ok i.output
  outDir : fileName ws .outDir = .ok i.outDir
  check : flagValue ws .check = .ok i.check
  stats : flagValue ws .stats = .ok i.stats
  document : documentName ws = .ok (some i.document)
  no_help : .flag .help ∉ ws
  one_output : i.output = none ∨ i.outDir = none

theorem parse_eq_ok_some_iff {args : List String} {i : Invocation} :
    parse args = .ok (some i) ↔ ∃ ws, words args = .ok ws ∧ Asks ws i := by
  simp only [parse, bind_eq_ok_iff]
  constructor
  · rintro ⟨ws, hws, options, hoptions, given, hgiven, direction, hdirection, theme, htheme,
      noTitle, hnoTitle, noDescription, hnoDescription, output, houtput, outDir, houtDir, check,
      hcheck, stats, hstats, document, hdocument, h⟩
    split at h
    · cases h
    · rename_i hhelp
      split at h
      · cases h
      · rename_i hboth
        cases document with
        | none => cases h
        | some document =>
          cases h
          have hone : output = none ∨ outDir = none := by
            cases output <;> cases outDir <;> simp_all
          exact ⟨ws, hws, hoptions, bind_eq_ok_iff.2 ⟨given, hgiven, hdirection⟩, htheme, hnoTitle,
            hnoDescription, houtput, houtDir, hcheck, hstats, hdocument, by simpa using hhelp, hone⟩
  · rintro ⟨ws, hws, h⟩
    obtain ⟨given, hgiven, hdirection⟩ := bind_eq_ok_iff.1 h.direction
    refine ⟨ws, hws, _, h.options, given, hgiven, _, hdirection, _, h.theme, _, h.noTitle, _,
      h.noDescription, _, h.output, _, h.outDir, _, h.check, _, h.stats, _, h.document, ?_⟩
    have hhelp : ws.contains (.flag .help) = false := by simpa using h.no_help
    have hboth : (i.output.isSome && i.outDir.isSome) = false := by
      obtain hnone | hnone := h.one_output <;> simp [hnone]
    simp only [hhelp, hboth]
    rfl

/-! A flag in front -/

theorem words_check (args : List String) :
    words (Flag.check.name :: args) = (words args).map (.flag .check :: ·) := by
  have hdashes : Flag.check.name ≠ "--" := by decide
  have hoption : looksLikeOption Flag.check.name = true := by decide
  have hflag : OptionArgument.ofText Flag.check.name = .flag .check none := by cbv
  rw [words, if_neg hdashes, if_pos hoption, hflag]

variable {ws : List Word}

theorem flagValue_flag_of_ne {f g : Flag} (h : f ≠ g) :
    flagValue (.flag f :: ws) g = flagValue ws g := by
  rw [flagValue, List.count_cons_of_ne (by simpa using h), flagValue]

/-- A flag that is not given yet may be given in front. -/
theorem flagValue_flag_self {f : Flag} (h : flagValue ws f = .ok false) :
    flagValue (.flag f :: ws) f = .ok true := by
  rw [flagValue] at h ⊢
  split at h
  · rename_i hcount
    simp only [List.count_cons_self, hcount]
  · cases h
  · cases h

/-- A flag is no setting and no document. -/
theorem asks_check {i : Invocation} (h : Asks ws i) (hcheck : i.check = false) :
    Asks (.flag .check :: ws) { i with check := true } where
  options := h.options
  direction := h.direction
  theme := h.theme
  noTitle := (flagValue_flag_of_ne (by decide)).trans h.noTitle
  noDescription := (flagValue_flag_of_ne (by decide)).trans h.noDescription
  output := h.output
  outDir := h.outDir
  check := flagValue_flag_self (hcheck ▸ h.check)
  stats := (flagValue_flag_of_ne (by decide)).trans h.stats
  document := h.document
  no_help := by simpa using h.no_help
  one_output := h.one_output

theorem parse_check {args : List String} {i : Invocation} (h : parse args = .ok (some i))
    (hcheck : i.check = false) :
    parse (Flag.check.name :: args) = .ok (some { i with check := true }) := by
  obtain ⟨ws, hws, hasks⟩ := parse_eq_ok_some_iff.1 h
  exact parse_eq_ok_some_iff.2 ⟨_, by rw [words_check, hws]; rfl, asks_check hasks hcheck⟩

/-! A setting in front, its value attached -/

theorem exists_attached_eq (s : Setting) (value : String) :
    ∃ cs, (s.name ++ "=" ++ value).toList = '-' :: '-' :: cs := by
  simp only [String.toList_append]
  cases s <;> exact ⟨_, rfl⟩

theorem splitValue_attached {name : String} (h : '=' ∉ name.toList) (value : String) :
    splitValue (name ++ "=" ++ value) = (name, some value) := by
  have hchars : (name ++ "=" ++ value).toList = name.toList ++ '=' :: value.toList := by simp
  have hname : ∀ c ∈ name.toList, decide (c ≠ '=') = true := by
    intro c hc
    simp only [decide_eq_true_eq]
    rintro rfl
    exact h hc
  rw [splitValue, hchars, List.takeWhile_append_of_pos hname, List.dropWhile_append_of_pos hname]
  simp

theorem ofText_attached (s : Setting) (value : String) :
    OptionArgument.ofText (s.name ++ "=" ++ value) = .setting s (some value) := by
  have hname : '=' ∉ s.name.toList := by cases s <;> decide
  have hsplit := splitValue_attached hname value
  have hfind : Setting.all.find? (·.name = s.name) = some s := by cases s <;> decide
  obtain ⟨cs, hcs⟩ := exists_attached_eq s value
  unfold OptionArgument.ofText
  rw [hcs]
  simp only [hsplit, hfind]
  rfl

/-- Attached to its option any text is a value, also one that looks like an option. -/
theorem words_attached (s : Setting) (value : String) (args : List String) :
    words ((s.name ++ "=" ++ value) :: args) = (words args).map (.setting s value :: ·) := by
  have hequals : s.name ++ "=" ++ value ≠ "--" := by
    intro h
    have hmem : '=' ∈ (s.name ++ "=" ++ value).toList := by simp
    rw [h] at hmem
    exact absurd hmem (by decide)
  have hoption : looksLikeOption (s.name ++ "=" ++ value) = true := by
    obtain ⟨cs, hcs⟩ := exists_attached_eq s value
    rw [looksLikeOption, hcs]
    rfl
  rw [words, if_neg hequals, if_pos hoption, ofText_attached]

end FlowDiagram.Command
