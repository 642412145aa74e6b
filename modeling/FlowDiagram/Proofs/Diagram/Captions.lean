import FlowDiagram.Proofs.Diagram.Edges
import FlowDiagram.Proofs.Diagram.Nodes
/-! Captions: what is shown of a label that has a fallback, and of which labels nothing is. -/

namespace FlowDiagram

/-! Labels of which nothing is shown -/

namespace Label

/-- A label that is absent or empty. -/
def IsMissing (label : Option String) : Prop := label = none ∨ label = some ""

/-- A label that is not missing, but nothing of it is shown. -/
def IsInvisible (label : Option String) : Prop :=
  ∃ l, label = some l ∧ l ≠ "" ∧ ∀ c ∈ l.toList, isHidden c = true

/-- The label, or the fallback if it is missing. -/
def orElse (label : Option String) (fallback : String) : String :=
  (label.filter (· ≠ "")).getD fallback

/-- What is shown of a label that has a fallback. -/
structure Shows (label : Option String) (fallback shown : String) : Prop where
  missing : IsMissing label → shown = fallback
  own : ∀ l, label = some l → l ≠ "" → ¬ IsInvisible label → shown = escape l
  /-- No other label leaves it empty. -/
  empty : shown = "" → IsInvisible label

section Fallback

variable {label : Option String} {fallback l : String}

theorem isMissing_or_eq_some (label : Option String) :
    IsMissing label ∨ ∃ l, label = some l ∧ l ≠ "" := by
  cases label with
  | none => exact .inl (.inl rfl)
  | some l =>
    by_cases hl : l = ""
    · exact .inl (.inr (congrArg some hl))
    · exact .inr ⟨l, rfl, hl⟩

theorem IsMissing.not_isInvisible (h : IsMissing label) : ¬ IsInvisible label := by
  rintro ⟨l, rfl, hl, -⟩
  rcases h with h | h
  · cases h
  · exact hl (Option.some.inj h)

theorem IsMissing.orElse_eq (h : IsMissing label) : orElse label fallback = fallback := by
  rcases h with rfl | rfl <;> rfl

theorem orElse_some (hl : l ≠ "") : orElse (some l) fallback = l := by
  simp [orElse, Option.filter, hl]

/-- A fallback that is shown stands for every label that is missing, and for no other. -/
theorem escape_orElse_eq_empty_iff (h : escape fallback ≠ "") :
    escape (orElse label fallback) = "" ↔ IsInvisible label := by
  rcases isMissing_or_eq_some label with hmissing | ⟨l, rfl, hl⟩
  · simp only [hmissing.orElse_eq, h, hmissing.not_isInvisible]
  · rw [orElse_some hl, escape_eq_empty_iff]
    constructor
    · intro hhidden
      exact ⟨l, rfl, hl, hhidden⟩
    · rintro ⟨m, hm, -, hhidden⟩
      obtain rfl := Option.some.inj hm
      exact hhidden

theorem shows_escape_orElse (hescape : escape fallback = fallback) (hne : fallback ≠ "") :
    Shows label fallback (escape (orElse label fallback)) where
  missing h := by rw [h.orElse_eq, hescape]
  own l hlabel hl _ := by rw [hlabel, orElse_some hl]
  empty := (escape_orElse_eq_empty_iff (by rwa [hescape])).1

end Fallback

end Label

/-! Nodes -/

theorem Kind.escape_defaultLabel (k : Kind) : Label.escape k.defaultLabel = k.defaultLabel := by
  cases k <;> simp only [defaultLabel] <;> decide +kernel

theorem Kind.defaultLabel_ne_empty (k : Kind) : k.defaultLabel ≠ "" := by
  cases k <;> simp [defaultLabel, bullet]

namespace Node

theorem shownLabel_eq_orElse (n : Node) :
    n.shownLabel = Label.orElse n.label n.kind.defaultLabel := by
  obtain ⟨id, position, label, kind⟩ := n
  rcases Label.isMissing_or_eq_some label with hmissing | ⟨l, rfl, hl⟩
  · rw [hmissing.orElse_eq]
    rcases hmissing with rfl | rfl <;> rfl
  · rw [Label.orElse_some hl]
    simp [shownLabel, hl]

theorem escape_shownLabel_eq_empty_iff {n : Node} :
    Label.escape n.shownLabel = "" ↔ Label.IsInvisible n.label := by
  rw [n.shownLabel_eq_orElse, Label.escape_orElse_eq_empty_iff]
  rw [n.kind.escape_defaultLabel]
  exact n.kind.defaultLabel_ne_empty

/-- A connector whose label is invisible shows a bullet. Every other label is shown as it is. -/
theorem displayedLabel_cases (n : Node) :
    n.kind = .connector ∧ Label.IsInvisible n.label ∧ n.displayedLabel = bullet ∨
      ¬ (n.kind = .connector ∧ Label.IsInvisible n.label) ∧
        n.displayedLabel = Label.escape (Label.orElse n.label n.kind.defaultLabel) := by
  have hcircle : n.kind.shape = .circle ↔ n.kind = .connector := by
    cases n.kind <;> simp [Kind.shape]
  rw [displayedLabel, Shape.caption, ← n.shownLabel_eq_orElse, ← escape_shownLabel_eq_empty_iff,
    ← hcircle]
  split
  · rename_i h
    exact .inl ⟨h.1, h.2, rfl⟩
  · rename_i h
    exact .inr ⟨h, rfl⟩

/-- The brackets of a node are empty only around a label that is white space, and never those of a
connector. -/
theorem displayedLabel_eq_empty_iff {n : Node} :
    n.displayedLabel = "" ↔ n.kind ≠ .connector ∧ Label.IsInvisible n.label := by
  rcases n.displayedLabel_cases with ⟨hkind, -, hbullet⟩ | ⟨hnot, hescape⟩
  · simp [hbullet, hkind, bullet]
  · rw [hescape, ← n.shownLabel_eq_orElse, escape_shownLabel_eq_empty_iff]
    constructor
    · intro hlabel
      exact ⟨fun hkind => hnot ⟨hkind, hlabel⟩, hlabel⟩
    · exact And.right

theorem shows_displayedLabel (n : Node) :
    Label.Shows n.label n.kind.defaultLabel n.displayedLabel := by
  have hshows : Label.Shows n.label n.kind.defaultLabel _ :=
    Label.shows_escape_orElse n.kind.escape_defaultLabel n.kind.defaultLabel_ne_empty
  rcases n.displayedLabel_cases with ⟨-, hlabel, hbullet⟩ | ⟨-, hescape⟩
  · refine ⟨fun h => absurd hlabel h.not_isInvisible, ?_, fun _ => hlabel⟩
    intro l _ _ hvisible
    exact absurd hlabel hvisible
  · rwa [hescape]

end Node

/-! Edges -/

namespace Branch

/-- What a decision itself calls the output. -/
def own (yesLabel noLabel : Option String) : Branch → Option String
  | .yes => yesLabel
  | .no => noLabel

def fallback : Branch → String
  | .yes => "Yes"
  | .no => "No"

theorem label_eq_orElse (yesLabel noLabel : Option String) (b : Branch) :
    b.label yesLabel noLabel = Label.orElse (b.own yesLabel noLabel) b.fallback := by
  cases b <;> rfl

theorem shows_label (yesLabel noLabel : Option String) (b : Branch) :
    Label.Shows (b.own yesLabel noLabel) b.fallback (Label.escape (b.label yesLabel noLabel)) := by
  rw [label_eq_orElse]
  cases b <;> exact Label.shows_escape_orElse (by decide) (by decide)

end Branch

theorem Edge.branch_of_handle {e : Edge} {b : Branch} (h : e.sourceHandle = some b.handle) :
    e.branch = some b := by
  cases b <;> simp [Edge.branch, h, Branch.handle]

namespace Graph

open Diagram

/-- An edge that leaves a decision by an output shows what the output is called. -/
theorem lineFrom_of_branch {e : Edge} {n : Node} {yesLabel noLabel : Option String} {b : Branch}
    (hkind : n.kind = .decision yesLabel noLabel) (hhandle : e.sourceHandle = some b.handle)
    (hcaption : Label.escape (b.label yesLabel noLabel) ≠ "") :
    lineFrom e n =
      indent ++ Identifier.ofId e.source ++ " -->|" ++ Label.escape (b.label yesLabel noLabel) ++
        "| " ++ Identifier.ofId e.target := by
  have hlabel : e.shownLabel n = some (b.label yesLabel noLabel) := by
    simp only [Edge.shownLabel, hkind, Edge.branch_of_handle hhandle]
  simp [lineFrom, Arrow.between, hlabel, Option.filter, hcaption, Arrow.line]

variable (g : Graph) (metadata : Option Metadata) (o : Options)

/-- The line of an edge tells by which output of a decision it leaves. -/
def TellsBranch (e : Edge) (l : String) : Prop :=
  ∀ n yesLabel noLabel (b : Branch), g.find? e.source = some n → n.kind = .decision yesLabel noLabel →
    e.sourceHandle = some b.handle →
      ∃ caption, Label.Shows (b.own yesLabel noLabel) b.fallback caption ∧
        (caption ≠ "" →
          l = indent ++ Identifier.ofId e.source ++ " -->|" ++ caption ++ "| " ++
            Identifier.ofId e.target)

/-- All that has a fallback shows something, but for a label that is there and is white space
without a newline: it stands in the way of the fallback, except of that of a connector. -/
theorem captions_visible :
    g.diagramText metadata o =
      "\n".intercalate
        (if g.nodes = [] then frontLines metadata o ++ [placeholder]
        else
          frontLines metadata o ++ g.nodeLines ++
            (if g.edges = [] then [] else "" :: g.edgeLines) ++ backLines metadata o) ∧
    (∀ l, l ∈ g.nodeLines ↔ ∃ n ∈ g.nodes,
      l = indent ++ Identifier.ofId n.id ++
        (n.kind.shape.brackets.1 ++ n.displayedLabel ++ n.kind.shape.brackets.2)) ∧
    (∀ n ∈ g.nodes, Label.Shows n.label n.kind.defaultLabel n.displayedLabel) ∧
    (∀ n ∈ g.nodes, n.kind = .connector →
      n.displayedLabel ≠ "" ∧ (Label.IsInvisible n.label → n.displayedLabel = bullet)) ∧
    List.Forall₂ g.TellsBranch (g.edges.filter fun e => e ∉ g.looseEdges) g.edgeLines := by
  refine ⟨?_, fun l => g.mem_nodeLines, fun n _ => n.shows_displayedLabel, ?_, ?_⟩
  · rw [diagramText_eq_intercalate]
    split
    · rename_i h
      rw [g.lines_of_nodes_eq_nil metadata o h]
    · rename_i h
      rw [g.lines_of_nodes_ne_nil metadata o h]
      rfl
  · intro n _ hkind
    rcases n.displayedLabel_cases with ⟨-, -, hbullet⟩ | ⟨hnot, -⟩
    · exact ⟨by simp [hbullet, bullet], fun _ => hbullet⟩
    · refine ⟨fun hempty => ?_, fun hlabel => absurd ⟨hkind, hlabel⟩ hnot⟩
      exact (Node.displayedLabel_eq_empty_iff.1 hempty).1 hkind
  · rw [filter_not_mem_looseEdges]
    refine (g.forall₂_lineFrom g.edges).imp ?_
    rintro e l ⟨n, hn, rfl⟩
    intro m yesLabel noLabel b hm hkind hhandle
    obtain rfl := Option.some.inj (hn.symm.trans hm)
    exact ⟨_, b.shows_label yesLabel noLabel, lineFrom_of_branch hkind hhandle⟩

/-- A process and an output of a decision whose labels are there, but show nothing. -/
def whiteLabels : Graph :=
  ⟨[.process "p" " ", (Node.decision "d" "?").nameBranches "\r" "No"], [.ofBranch "d" "p" .yes]⟩

/-- Neither falls back to what stands for a label that is missing. -/
theorem text_whiteLabels :
    whiteLabels.diagramText none .default =
      "flowchart TD\n    p[]\n    d\x7b?\x7d\n\n    d --> p" ∧
    (∃ n ∈ whiteLabels.nodes, n.displayedLabel = "") ∧
    ∃ e ∈ whiteLabels.edges, ∃ n yesLabel noLabel, whiteLabels.find? e.source = some n ∧
      n.kind = .decision yesLabel noLabel ∧ e.sourceHandle = some Branch.yes.handle ∧
        (whiteLabels.arrow? e).map Arrow.caption = some none := by
  refine ⟨by decide +kernel, ⟨.process "p" " ", by decide, by decide⟩, ?_⟩
  exact ⟨.ofBranch "d" "p" .yes, by decide, _, some "\r", some "No", rfl, rfl, rfl, by decide +kernel⟩

end Graph

end FlowDiagram
