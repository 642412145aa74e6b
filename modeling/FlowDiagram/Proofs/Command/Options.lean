import FlowDiagram.Command.Options
import FlowDiagram.Proofs.Graph.Direction
import FlowDiagram.Proofs.Json.Fields
/-! What a file of options says. -/

namespace FlowDiagram.Command

open Json

/-! Values that may be absent -/

section Optional

variable {α β : Type} {R : α → β → Prop} {x : Option α} {a b : Option β}

theorem rel_unique (hR : ∀ x a b, R x a → R x b → a = b) (ha : Option.Rel R x a)
    (hb : Option.Rel R x b) : a = b := by
  cases ha with
  | none =>
    cases hb
    rfl
  | some ha =>
    cases hb with
    | some hb => rw [hR _ _ _ ha hb]

theorem exists_of_rel {y : α} (h : Option.Rel R x a) (hx : x = some y) : ∃ b, R y b := by
  cases h with
  | some hb =>
    cases hx
    exact ⟨_, hb⟩
  | none => cases hx

end Optional

/-! Values of settings -/

def IsSwitch (x : Reading) (b : Bool) : Prop := x = .scalar (.bool b)

def IsDirection (x : Reading) (d : Direction) : Prop := ∃ s, x = .scalar (.text s) ∧ d.Names s

/-- A theme, or that there is none. -/
inductive IsTheme : Reading → Option String → Prop
  | null : IsTheme (.scalar .null) none
  | text (s : String) : IsTheme (.scalar (.text s)) (some s)

theorem IsSwitch.unique (x : Reading) (a b : Bool) (ha : IsSwitch x a) (hb : IsSwitch x b) :
    a = b := by
  cases ha.symm.trans hb
  rfl

theorem IsDirection.unique (x : Reading) (d e : Direction) (hd : IsDirection x d)
    (he : IsDirection x e) : d = e := by
  obtain ⟨s, rfl, hd⟩ := hd
  obtain ⟨t, ht, he⟩ := he
  cases ht
  exact hd.unique he

theorem IsTheme.unique (x : Reading) (t u : Option String) (ht : IsTheme x t)
    (hu : IsTheme x u) : t = u := by
  cases ht with
  | null =>
    cases hu
    rfl
  | text s =>
    cases hu
    rfl

section Decoders

variable {o : Origin} {x : Reading}

theorem boolDecoder_eq_ok_iff {b : Bool} : Decoder.bool o x = .ok b ↔ IsSwitch x b :=
  Decoder.bool_eq_ok_iff

theorem directionDecoder_eq_ok_iff {d : Direction} :
    Direction.decoder o x = .ok d ↔ IsDirection x d := by
  simp only [Direction.decoder, bind_eq_ok_iff, Decoder.text_eq_ok_iff]
  refine exists_congr fun s => and_congr_right fun _ => ?_
  rw [← Direction.ofText_eq_ok_iff]
  cases Direction.ofText s with
  | ok e => simp [pure, Except.pure]
  | error e => simp

theorem themeDecoder_eq_ok_iff {t : Option String} :
    Decoder.optional .text o x = .ok t ↔ IsTheme x t := by
  unfold Decoder.optional
  split
  · constructor
    · intro h
      cases h
      exact .null
    · intro h
      cases h
      rfl
  · rename_i hnull
    simp only [map_eq_ok_iff, Decoder.text_eq_ok_iff]
    constructor
    · rintro ⟨s, rfl, rfl⟩
      exact .text s
    · intro h
      cases h with
      | null => exact absurd rfl hnull
      | text s => exact ⟨s, rfl, rfl⟩

end Decoders

/-! Settings -/

/-- What a file of options sets. -/
structure Settings where
  includeTitle : Option Bool
  includeDescription : Option Bool
  direction : Option Direction
  /-- The theme that is set, of which it may be set that there is none. -/
  theme : Option (Option String)
deriving DecidableEq, Repr

namespace Settings

/-- Nothing is set. -/
def silent : Settings := ⟨none, none, none, none⟩

/-- The options of the settings, with the usual ones for those that are not set. -/
def complete (s : Settings) : Options where
  includeTitle := s.includeTitle.getD true
  includeDescription := s.includeDescription.getD true
  direction := s.direction.getD .topDown
  theme := s.theme.getD none

def names : List String := ["includeTitle", "includeDescription", "direction", "theme"]

/-- A value says just these settings. -/
structure SaidBy (s : Settings) (x : Reading) : Prop where
  isRecord : x.IsRecord names
  includeTitle : Option.Rel IsSwitch (x.given? names "includeTitle") s.includeTitle
  includeDescription :
    Option.Rel IsSwitch (x.given? names "includeDescription") s.includeDescription
  direction : Option.Rel IsDirection (x.given? names "direction") s.direction
  theme : Option.Rel IsTheme (x.given? names "theme") s.theme

theorem SaidBy.unique {s t : Settings} {x : Reading} (hs : s.SaidBy x) (ht : t.SaidBy x) :
    s = t := by
  cases s
  cases t
  congr
  · exact rel_unique IsSwitch.unique hs.includeTitle ht.includeTitle
  · exact rel_unique IsSwitch.unique hs.includeDescription ht.includeDescription
  · exact rel_unique IsDirection.unique hs.direction ht.direction
  · exact rel_unique IsTheme.unique hs.theme ht.theme

end Settings

/-! Reading them -/

section Record

variable {origin : Origin} {x : Reading} {o : Options}

theorem names_record : Options.record.names = Settings.names := rfl

theorem nodup_names : Options.record.names.Nodup := by
  rw [names_record]
  decide

theorem forall_mem_fields {P : Json.Field Options → Prop} : (∀ f ∈ Options.record.fields, P f) ↔
    P (.allow "includeTitle" .bool fun includeTitle o => { o with includeTitle }) ∧
    P (.allow "includeDescription" .bool fun includeDescription o =>
      { o with includeDescription }) ∧
    P (.allow "direction" Direction.decoder fun direction o => { o with direction }) ∧
    P (.allow "theme" (.optional .text) fun theme o => { o with theme }) := by
  simp [Options.record]

theorem required_fields : ∀ f ∈ Options.record.fields, f.required = false :=
  forall_mem_fields.2 ⟨rfl, rfl, rfl, rfl⟩

theorem part_includeTitle :
    Options.record.Part origin "includeTitle" (·.includeTitle) IsSwitch := by
  refine .of_allow nodup_names (forall_mem_fields.1 fun _ => id).1
    (fun _ _ _ => boolDecoder_eq_ok_iff.1)
    (forall_mem_fields.2 ⟨.inl rfl, .inr ?_, .inr ?_, .inr ?_⟩)
  all_goals exact Json.Field.leaves_allow fun _ _ => rfl

theorem part_includeDescription :
    Options.record.Part origin "includeDescription" (·.includeDescription) IsSwitch := by
  refine .of_allow nodup_names (forall_mem_fields.1 fun _ => id).2.1
    (fun _ _ _ => boolDecoder_eq_ok_iff.1)
    (forall_mem_fields.2 ⟨.inr ?_, .inl rfl, .inr ?_, .inr ?_⟩)
  all_goals exact Json.Field.leaves_allow fun _ _ => rfl

theorem part_direction : Options.record.Part origin "direction" (·.direction) IsDirection := by
  refine .of_allow nodup_names (forall_mem_fields.1 fun _ => id).2.2.1
    (fun _ _ _ => directionDecoder_eq_ok_iff.1)
    (forall_mem_fields.2 ⟨.inr ?_, .inr ?_, .inl rfl, .inr ?_⟩)
  all_goals exact Json.Field.leaves_allow fun _ _ => rfl

theorem part_theme : Options.record.Part origin "theme" (·.theme) IsTheme := by
  refine .of_allow nodup_names (forall_mem_fields.1 fun _ => id).2.2.2
    (fun _ _ _ => themeDecoder_eq_ok_iff.1)
    (forall_mem_fields.2 ⟨.inr ?_, .inr ?_, .inr ?_, .inl rfl⟩)
  all_goals exact Json.Field.leaves_allow fun _ _ => rfl

/-- What is read are settings that the value says, completed. -/
theorem exists_saidBy_of_decode (h : Options.decoder (.text 0) x = .ok o) :
    ∃ s : Settings, s.SaidBy x ∧ o = s.complete := by
  have henter : (Origin.text 0).enter = .ok (.text 1) := rfl
  obtain ⟨includeTitle, htitle, hotitle⟩ := part_includeTitle.of_decode nodup_names henter h
  obtain ⟨includeDescription, hdescription, hodescription⟩ :=
    part_includeDescription.of_decode nodup_names henter h
  obtain ⟨direction, hdirection, hodirection⟩ := part_direction.of_decode nodup_names henter h
  obtain ⟨theme, htheme, hotheme⟩ := part_theme.of_decode nodup_names henter h
  refine ⟨⟨includeTitle, includeDescription, direction, theme⟩, ?_, ?_⟩
  · exact ⟨Record.isRecord_of_decode henter h, htitle, hdescription, hdirection, htheme⟩
  · cases o
    simp only [Settings.complete, Options.mk.injEq]
    exact ⟨hotitle, hodescription, hodirection, hotheme⟩

/-- Each value that is given for a name is one that its field reads. -/
theorem exists_decode_of_saidBy {s : Settings} (h : s.SaidBy x) :
    ∃ o, Options.decoder (.text 0) x = .ok o := by
  have henter : (Origin.text 0).enter = .ok (.text 1) := rfl
  refine Record.exists_decode required_fields nodup_names henter h.isRecord ?_
  refine forall_mem_fields.2 ⟨?_, ?_, ?_, ?_⟩
  · intro y hy
    obtain ⟨b, hb⟩ := exists_of_rel h.includeTitle hy
    exact Json.Field.exists_read_allow (boolDecoder_eq_ok_iff.2 hb)
  · intro y hy
    obtain ⟨b, hb⟩ := exists_of_rel h.includeDescription hy
    exact Json.Field.exists_read_allow (boolDecoder_eq_ok_iff.2 hb)
  · intro y hy
    obtain ⟨d, hd⟩ := exists_of_rel h.direction hy
    exact Json.Field.exists_read_allow (directionDecoder_eq_ok_iff.2 hd)
  · intro y hy
    obtain ⟨t, ht⟩ := exists_of_rel h.theme hy
    exact Json.Field.exists_read_allow (themeDecoder_eq_ok_iff.2 ht)

theorem decode_eq_ok_iff :
    Options.decoder (.text 0) x = .ok o ↔ ∃ s : Settings, s.SaidBy x ∧ o = s.complete := by
  refine ⟨exists_saidBy_of_decode, ?_⟩
  rintro ⟨s, hs, rfl⟩
  obtain ⟨o, ho⟩ := exists_decode_of_saidBy hs
  obtain ⟨t, ht, rfl⟩ := exists_saidBy_of_decode ho
  rw [hs.unique ht, ho]

end Record

/-- What the text of a file says, with nothing after it but white space. -/
def Settings.WrittenIn (s : Settings) (text : String) : Prop :=
  ∃ x, Reading.ofText text = (x, false) ∧ s.SaidBy x

/-- A file of options is accepted if it says settings, and read as these, completed. -/
theorem readOptions_eq_ok_iff {text : String} {o : Options} :
    readOptions text = .ok o ↔ ∃ s : Settings, s.WrittenIn text ∧ o = s.complete := by
  simp only [readOptions, Decoder.run, bind_eq_ok_iff, decode_eq_ok_iff, Settings.WrittenIn]
  cases Reading.ofText text with
  | mk x overlong =>
    cases overlong with
    | true => simp
    | false => simp [pure, Except.pure, eq_comm]

end FlowDiagram.Command
