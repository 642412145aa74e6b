import FlowDiagram.Codec.Display
import FlowDiagram.Document.Basic
import FlowDiagram.Proofs.Codec.Node
import FlowDiagram.Proofs.Graph.Direction
import FlowDiagram.Proofs.Json.Compact
/-! Compact texts: what they are decoded to, and that documents are read from them as from texts over
several lines. -/

namespace FlowDiagram

open Json

/-! Options, previews and reports -/

namespace Direction

theorem names_keyword (d : Direction) : d.Names d.keyword := by
  rw [names_iff]
  cases d <;> decide

theorem decoder_toTree (o : Origin) (d : Direction) : decoder o (.ofTree d.toTree) = .ok d := by
  have hread : ofText d.keyword = .ok d := ofText_eq_ok_iff.2 d.names_keyword
  simp only [decoder, toTree, Reading.ofTree, Decoder.text, Decoder.textFor, ok_bind, hread]
  rfl

end Direction

namespace Options

theorem decoder_toTree (o : Options) : decoder (.text 0) (.ofTree o.toTree) = .ok o := by
  obtain ⟨includeTitle, includeDescription, direction, theme⟩ := o
  have hdirection : (Field.allow "direction" Direction.decoder fun direction (o : Options) =>
      { o with direction }).read (.text 1) (.ofTree direction.toTree) =
        .ok fun o => { o with direction } := Field.read_allow _ (direction.decoder_toTree _)
  have hread : ∃ seen, record.readMembers Record.ignoreRest (.text 1)
      ((.ok "includeTitle", .scalar (.bool includeTitle)) ::
        (.ok "includeDescription", .scalar (.bool includeDescription)) ::
        (.ok "direction", .ofTree direction.toTree) ::
        Reading.ofMembers (textMember "theme" theme)) [] record.blank =
      .ok (seen, ⟨includeTitle, includeDescription, direction, theme⟩) := by
    rw [Record.readMembers_field rfl (by decide) rfl, Record.readMembers_field rfl (by decide) rfl,
      Record.readMembers_field rfl (by decide) hdirection]
    cases theme with
    | none => exact ⟨_, rfl⟩
    | some theme => exact ⟨_, rfl⟩
  obtain ⟨seen, hread⟩ := hread
  have hmissing : record.missing? seen = none := by simp [Record.missing?, record, Field.allow]
  exact Record.readObject_of_readMembers rfl hread hmissing

theorem isLossless_toTree (o : Options) : o.toTree.IsLossless := by
  obtain ⟨includeTitle, includeDescription, direction, theme⟩ := o
  cases theme <;> exact fun n hn => by cases hn

end Options

namespace Preview

theorem countDecoder_nat {n : Nat} (h : n < 0x10000000000000000) (o : Origin) :
    countDecoder o (.ofTree (.nat n)) = .ok n :=
  Decoder.natBelow_nat h (fits_of_lt h) "usize" o

theorem decoder_of_counts {code : String} {lineCount characterCount : Nat}
    {lines characters : Reading} (hlines : countDecoder (.text 1) lines = .ok lineCount)
    (hcharacters : countDecoder (.text 1) characters = .ok characterCount) :
    decoder (.text 0) (.object [(.ok "code", .scalar (.text code)), (.ok "lineCount", lines),
      (.ok "characterCount", characters)] none) = .ok ⟨code, lineCount, characterCount⟩ := by
  have hlineCount : (Field.need "lineCount" countDecoder fun lineCount (p : Preview) =>
      { p with lineCount }).read (.text 1) lines = .ok fun p => { p with lineCount } :=
    Field.read_need _ hlines
  have hcharacterCount : (Field.need "characterCount" countDecoder
      fun characterCount (p : Preview) => { p with characterCount }).read (.text 1) characters =
        .ok fun p => { p with characterCount } := Field.read_need _ hcharacters
  have hread : record.readMembers Record.ignoreRest (.text 1)
      [(.ok "code", .scalar (.text code)), (.ok "lineCount", lines),
        (.ok "characterCount", characters)] [] record.blank =
      .ok (["characterCount", "lineCount", "code"], ⟨code, lineCount, characterCount⟩) := by
    rw [Record.readMembers_field rfl (by decide) rfl,
      Record.readMembers_field rfl (by decide) hlineCount,
      Record.readMembers_field rfl (by decide) hcharacterCount]
    rfl
  exact Record.readObject_of_readMembers rfl hread rfl

variable {p : Preview}

theorem decoder_toTree (hlines : p.lineCount < 0x10000000000000000)
    (hcharacters : p.characterCount < 0x10000000000000000) :
    decoder (.text 0) (.ofTree p.toTree) = .ok p :=
  decoder_of_counts (countDecoder_nat hlines _) (countDecoder_nat hcharacters _)

theorem isLossless_toTree (hlines : p.lineCount < 0x10000000000000000)
    (hcharacters : p.characterCount < 0x10000000000000000) : p.toTree.IsLossless := by
  intro n hn
  have hn : n = .ofNat p.lineCount ∨ n = .ofNat p.characterCount := by
    simpa [toTree, Tree.numbers, Tree.memberNumbers, Tree.nat] using hn
  rcases hn with hn | hn
  · rw [hn, Number.reread?_ofNat (fits_of_lt hlines)]
  · rw [hn, Number.reread?_ofNat (fits_of_lt hcharacters)]

end Preview

namespace Report

theorem decoder_toTree (r : Report) : decoder (.text 0) (.ofTree r.toTree) = .ok r := by
  obtain ⟨isValid, warnings, errors⟩ := r
  have henter : (Origin.text 1).enter = .ok (.text 2) := rfl
  have hwarnings : (Field.need "warnings" (.list .text) fun warnings (r : Report) =>
      { r with warnings }).read (.text 1) (.ofTree (.array (warnings.map .text))) =
        .ok fun r => { r with warnings } := Field.read_need _ (Decoder.list_texts henter _)
  have herrors : (Field.need "errors" (.list .text) fun errors (r : Report) =>
      { r with errors }).read (.text 1) (.ofTree (.array (errors.map .text))) =
        .ok fun r => { r with errors } := Field.read_need _ (Decoder.list_texts henter _)
  have hread : record.readMembers Record.ignoreRest (.text 1)
      [(.ok "isValid", .scalar (.bool isValid)),
        (.ok "warnings", .ofTree (.array (warnings.map .text))),
        (.ok "errors", .ofTree (.array (errors.map .text)))] [] record.blank =
      .ok (["errors", "warnings", "isValid"], ⟨isValid, warnings, errors⟩) := by
    rw [Record.readMembers_field rfl (by decide) rfl,
      Record.readMembers_field rfl (by decide) hwarnings,
      Record.readMembers_field rfl (by decide) herrors]
    rfl
  exact Record.readObject_of_readMembers rfl hread rfl

theorem isLossless_toTree (r : Report) : r.toTree.IsLossless := by
  intro n hn
  simp [toTree, Tree.numbers, Tree.memberNumbers, Tree.itemNumbers_texts] at hn

end Report

/-! Attributes -/

namespace Kind

/-- What is asked of a kind for its attributes to come back from a text of their own. -/
structure IsLossless (k : Kind) : Prop where
  /-- No attribute besides the label has its name. -/
  unlabelled : ∀ m ∈ k.extra, m.1 ≠ "label"
  /-- Around each attribute there is the object of all. -/
  room : ∀ m ∈ k.extra, m.2.depth + 1 ≤ maxDepth
  lossless : ∀ m ∈ k.extra, m.2.IsLossless

theorem decoder_toTree_other {extra : Attributes} (tag : String) (label : Option String)
    (h : ∀ m ∈ extra.members, IsOther (.text 1) m) :
    decoder (.other tag) (.text 0) (.ofTree ((Kind.other tag extra).toTree label)) =
      .ok (label, .other tag extra) := by
  have hgiven : GivesLabel (textMember "label" label) label := by
    cases label with
    | none => exact .absent
    | some l => exact .text l
  have hread := decoder_other_of_enter (o := .text 0) tag hgiven rfl (List.forall_mem_nil _) h
  rwa [List.nil_append, List.nil_append, extra.ofMembers_members] at hread

theorem decoder_toTree {k : Kind} (label : Option String) (h : k.IsLossless) :
    decoder k.category (.text 0) (.ofTree (k.toTree label)) = .ok (label, k) := by
  cases k with
  | start | finish | connector => cases label <;> rfl
  | process description => cases label <;> cases description <;> rfl
  | decision yesLabel noLabel => cases label <;> cases yesLabel <;> cases noLabel <;> rfl
  | other tag extra =>
    exact decoder_toTree_other tag label fun m hm =>
      ⟨h.unlabelled m hm, Nat.le_sub_of_add_le (h.room m hm)⟩

theorem isLossless_toTree {k : Kind} (label : Option String) (h : k.IsLossless) :
    (k.toTree label).IsLossless := by
  intro n hn
  obtain ⟨m, hm, hn⟩ := Tree.mem_memberNumbers.1 hn
  rcases mem_attributes hm with ⟨s, hs⟩ | hm
  · simp [hs, Tree.numbers] at hn
  · exact h.lossless m hm n hn

end Kind

/-! All of them -/

/-- What has a compact form is decoded from it, and a document is whatever its form over several
lines is decoded to. -/
theorem run_compact_eq_ok :
    (∀ o : Options, Options.decoder.run o.toTree.toCompact = .ok o) ∧
      (∀ r : Report, Report.decoder.run r.toTree.toCompact = .ok r) ∧
      (∀ p : Preview, p.lineCount < 0x10000000000000000 → p.characterCount < 0x10000000000000000 →
        Preview.decoder.run p.toTree.toCompact = .ok p) ∧
      (∀ d : Direction, Direction.decoder.run d.toTree.toCompact = .ok d) ∧
      (∀ (k : Kind) (label : Option String), k.IsLossless →
        (Kind.decoder k.category).run (k.toTree label).toCompact = .ok (label, k)) ∧
      ∀ d : Document, Document.decoder.run d.toTree.toCompact = Document.decoder.run d.render ∧
        Document.parse d.toTree.toCompact = Document.parse d.render := by
  refine ⟨fun o => ?_, fun r => ?_, fun p hlines hcharacters => ?_, fun d => ?_,
    fun k label h => ?_, fun d => ?_⟩
  · exact Decoder.run_toCompact_of_isLossless o.isLossless_toTree o.decoder_toTree
  · exact Decoder.run_toCompact_of_isLossless r.isLossless_toTree r.decoder_toTree
  · exact Decoder.run_toCompact_of_isLossless (Preview.isLossless_toTree hlines hcharacters)
      (Preview.decoder_toTree hlines hcharacters)
  · exact Decoder.run_toCompact_of_isLossless (fun n hn => by cases hn) (d.decoder_toTree _)
  · exact Decoder.run_toCompact_of_isLossless (Kind.isLossless_toTree label h)
      (Kind.decoder_toTree label h)
  · have hrun : Document.decoder.run d.toTree.toCompact = Document.decoder.run d.render :=
      Decoder.run_toCompact _ _
    exact ⟨hrun, by rw [Document.parse, Document.parse, hrun]⟩

/-- A kind without rules with one attribute besides its label. -/
def Kind.sized (tag : String) : Kind := .other tag (.ofMembers [("size", .float 0.25)])

theorem Kind.isLossless_sized (tag : String) : (sized tag).IsLossless where
  unlabelled := List.forall_mem_singleton.2 (by decide)
  room := List.forall_mem_singleton.2 (by decide)
  lossless := List.forall_mem_singleton.2 (List.forall_mem_singleton.2 (by decide +kernel))

/-- A preview of one line, and a label that is there but empty. -/
theorem run_compact_sized :
    (Preview.ofText "flowchart TD").lineCount < 0x10000000000000000 ∧
      (Preview.ofText "flowchart TD").characterCount < 0x10000000000000000 ∧
      Preview.decoder.run (Preview.ofText "flowchart TD").toTree.toCompact =
        .ok (Preview.ofText "flowchart TD") ∧
      (Kind.sized "note").IsLossless ∧
      (Kind.decoder (.other "note")).run ((Kind.sized "note").toTree (some "")).toCompact =
        .ok (some "", Kind.sized "note") := by
  have hlines : (Preview.ofText "flowchart TD").lineCount < 0x10000000000000000 := by
    decide +kernel
  have hcharacters : (Preview.ofText "flowchart TD").characterCount < 0x10000000000000000 := by
    decide +kernel
  have hsized := Kind.isLossless_sized "note"
  obtain ⟨-, -, hpreview, -, hkind, -⟩ := run_compact_eq_ok
  exact ⟨hlines, hcharacters, hpreview (Preview.ofText "flowchart TD") hlines hcharacters, hsized,
    hkind (Kind.sized "note") (some "") hsized⟩

end FlowDiagram
