import FlowDiagram.Diagram.Label
/-! Identifiers of ids: what they are made of, which ids are their own, and which ids share one. -/

namespace FlowDiagram.Identifier

/-- A letter from A to Z, large or small. -/
def IsLetter (c : Char) : Prop := ('A' ≤ c ∧ c ≤ 'Z') ∨ ('a' ≤ c ∧ c ≤ 'z')

instance (c : Char) : Decidable (IsLetter c) := inferInstanceAs (Decidable (_ ∨ _))

/-- Such a letter, a digit from 0 to 9 or an underscore. -/
def IsPlainChar (c : Char) : Prop := IsLetter c ∨ ('0' ≤ c ∧ c ≤ '9') ∨ c = '_'

instance (c : Char) : Decidable (IsPlainChar c) := inferInstanceAs (Decidable (_ ∨ _))

def StartsWithLetter (s : String) : Prop := ∃ c cs, s.toList = c :: cs ∧ IsLetter c

/-- A letter, then letters, digits and underscores. -/
def IsIdentifier (s : String) : Prop :=
  ∃ c cs, s.toList = c :: cs ∧ IsLetter c ∧ ∀ d ∈ cs, IsPlainChar d

/-- The id with an underscore in the place of every other character. -/
def underscored (id : String) : String :=
  String.ofList (id.toList.map fun c => if IsPlainChar c then c else '_')

/-- One text is the other behind the lead, which stands there because that has no letter in front. -/
structure Leads (s t : String) : Prop where
  eq : s = "node_" ++ t
  bare : ¬StartsWithLetter t

theorem isAlpha_iff {c : Char} : c.isAlpha = true ↔ IsLetter c := by
  have hupper : c.isUpper = true ↔ 'A' ≤ c ∧ c ≤ 'Z' := decide_eq_true_iff
  have hlower : c.isLower = true ↔ 'a' ≤ c ∧ c ≤ 'z' :=
    Bool.and_eq_true_iff.trans (and_congr decide_eq_true_iff decide_eq_true_iff)
  exact Bool.or_eq_true_iff.trans (or_congr hupper hlower)

theorem isIdentifierChar_iff {c : Char} : isIdentifierChar c = true ↔ IsPlainChar c := by
  have hdigit : c.isDigit = true ↔ '0' ≤ c ∧ c ≤ '9' :=
    Bool.and_eq_true_iff.trans (and_congr decide_eq_true_iff decide_eq_true_iff)
  have halphanum : c.isAlphanum = true ↔ IsLetter c ∨ ('0' ≤ c ∧ c ≤ '9') :=
    Bool.or_eq_true_iff.trans (or_congr isAlpha_iff hdigit)
  rw [isIdentifierChar, Bool.or_eq_true, halphanum, decide_eq_true_eq, or_assoc]
  rfl

theorem IsIdentifier.startsWithLetter {s : String} (h : IsIdentifier s) : StartsWithLetter s := by
  obtain ⟨c, cs, hs, hc, -⟩ := h
  exact ⟨c, cs, hs, hc⟩

theorem isIdentifier_iff {s : String} :
    IsIdentifier s ↔ StartsWithLetter s ∧ ∀ c ∈ s.toList, IsPlainChar c := by
  constructor
  · rintro ⟨c, cs, hs, hc, hcs⟩
    rw [hs]
    exact ⟨⟨c, cs, hs, hc⟩, List.forall_mem_cons.2 ⟨.inl hc, hcs⟩⟩
  · rintro ⟨⟨c, cs, hs, hc⟩, hplain⟩
    rw [hs] at hplain
    exact ⟨c, cs, hs, hc, (List.forall_mem_cons.1 hplain).2⟩

theorem startsWithLetter_iff {s : String} :
    startsWithLetter s.toList = true ↔ StartsWithLetter s := by
  unfold StartsWithLetter
  cases s.toList with
  | nil => simp [startsWithLetter]
  | cons c cs => simp [startsWithLetter, isAlpha_iff]

theorem isPlainChar_of_mem_underscored {id : String} :
    ∀ c ∈ (underscored id).toList, IsPlainChar c := by
  intro c hc
  rw [underscored, String.toList_ofList] at hc
  obtain ⟨d, -, rfl⟩ := List.mem_map.1 hc
  split
  · assumption
  · decide

theorem underscored_eq_self {id : String} (h : ∀ c ∈ id.toList, IsPlainChar c) :
    underscored id = id := by
  have hmap : (id.toList.map fun c => if IsPlainChar c then c else '_') = id.toList := by
    refine (List.map_congr_left fun c hc => ?_).trans (List.map_id _)
    exact if_pos (h c hc)
  rw [underscored, hmap, String.ofList_toList]

/-- The lead stands in front of what has no letter there. -/
theorem ofId_cases (id : String) :
    (StartsWithLetter (underscored id) ∧ ofId id = underscored id) ∨
      (¬StartsWithLetter (underscored id) ∧ ofId id = "node_" ++ underscored id) := by
  have hreplaced : replaceOthers id.toList = (underscored id).toList := by
    simp [replaceOthers, underscored, isIdentifierChar_iff]
  have hlead : String.ofList lead = "node_" := rfl
  rw [ofId, ofChars, hreplaced, ← startsWithLetter_iff]
  split
  · rename_i hletter
    exact .inl ⟨hletter, String.ofList_toList⟩
  · rename_i hbare
    exact .inr ⟨hbare, by rw [String.ofList_append, hlead, String.ofList_toList]⟩

theorem startsWithLetter_lead (s : String) : StartsWithLetter ("node_" ++ s) :=
  ⟨'n', _, String.toList_append, by decide⟩

theorem isIdentifier_ofId (id : String) : IsIdentifier (ofId id) := by
  rw [isIdentifier_iff]
  obtain ⟨hletter, hid⟩ | ⟨-, hid⟩ := ofId_cases id
  · rw [hid]
    exact ⟨hletter, isPlainChar_of_mem_underscored⟩
  · rw [hid]
    refine ⟨startsWithLetter_lead _, fun c hc => ?_⟩
    rw [String.toList_append] at hc
    obtain hc | hc := List.mem_append.1 hc
    · have hlead : "node_".toList.all (fun c => IsPlainChar c) = true := by decide
      exact of_decide_eq_true (List.all_eq_true.1 hlead c hc)
    · exact isPlainChar_of_mem_underscored c hc

theorem ofId_eq_self {id : String} (h : IsIdentifier id) : ofId id = id := by
  have hself : underscored id = id := underscored_eq_self (isIdentifier_iff.1 h).2
  obtain ⟨-, hid⟩ | ⟨hbare, -⟩ := ofId_cases id
  · rw [hid, hself]
  · rw [hself] at hbare
    exact absurd h.startsWithLetter hbare

/-- Ids share an identifier in two ways: their characters become the same, or the lead in front of
one makes it the other. -/
theorem ofId_eq_ofId_iff {a b : String} :
    ofId a = ofId b ↔
      underscored a = underscored b ∨ Leads (underscored a) (underscored b) ∨
        Leads (underscored b) (underscored a) := by
  obtain ⟨hletter, ha⟩ | ⟨hbare, ha⟩ := ofId_cases a <;>
    obtain ⟨hletter', hb⟩ | ⟨hbare', hb⟩ := ofId_cases b <;> rw [ha, hb]
  · -- Neither has a lead in front.
    refine ⟨.inl, ?_⟩
    rintro (heq | hleads | hleads)
    · exact heq
    · exact absurd hletter' hleads.bare
    · exact absurd hletter hleads.bare
  · refine ⟨fun heq => .inr (.inl ⟨heq, hbare'⟩), ?_⟩
    rintro (heq | hleads | hleads)
    · exact absurd (heq ▸ hletter) hbare'
    · exact hleads.eq
    · exact absurd hletter hleads.bare
  · refine ⟨fun heq => .inr (.inr ⟨heq.symm, hbare⟩), ?_⟩
    rintro (heq | hleads | hleads)
    · exact absurd (heq ▸ hletter') hbare
    · exact absurd hletter' hleads.bare
    · exact hleads.eq.symm
  · -- Both have it, so that neither is the other behind one more.
    refine ⟨fun heq => .inl ((String.append_right_inj _).1 heq), ?_⟩
    rintro (heq | hleads | hleads)
    · rw [heq]
    · exact absurd (hleads.eq ▸ startsWithLetter_lead _) hbare
    · exact absurd (hleads.eq ▸ startsWithLetter_lead _) hbare'

/-- Every identifier is one, those that are keep as they are, and ids share one exactly if they
differ in characters that are replaced or in the lead. -/
theorem ofId_isIdentifier_and_collides_iff :
    (∀ id, IsIdentifier (ofId id) ∧ (ofId id = id ↔ IsIdentifier id) ∧
      ofId (ofId id) = ofId id) ∧
    ∀ a b, ofId a = ofId b ↔
      underscored a = underscored b ∨ Leads (underscored a) (underscored b) ∨
        Leads (underscored b) (underscored a) := by
  refine ⟨fun id => ⟨isIdentifier_ofId id, ⟨fun h => ?_, ofId_eq_self⟩, ?_⟩, fun a b => ofId_eq_ofId_iff⟩
  · rw [← h]
    exact isIdentifier_ofId id
  · exact ofId_eq_self (isIdentifier_ofId id)

example : ofId "0x" = ofId "node_0x" ∧ ofId "" = ofId "node_" := by decide

end FlowDiagram.Identifier
