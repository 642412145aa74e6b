import FlowDiagram.Document.FileName
import FlowDiagram.Proofs.Storage.Plain
import FlowDiagram.Proofs.Text.Lowercase
import Mathlib.Data.List.Chain
/-! File names of titles: they are spelt by the runs of letters and numbers, and name one file. -/

namespace FlowDiagram.FileName

open Text

/-- Letters and numbers next to each other. -/
structure IsRun (cs : List Char) : Prop where
  ne_nil : cs ≠ []
  alphanumeric : ∀ c ∈ cs, isAlphanumeric c = true

/-- What stands before, between and behind runs. -/
def IsGap (cs : List Char) : Prop := ∀ c ∈ cs, isAlphanumeric c = false

instance (cs : List Char) : Decidable (IsGap cs) :=
  decidable_of_iff (cs.all (!isAlphanumeric ·) = true) (by simp [IsGap])

/-- The runs of a text in order. A run goes on for as long as it can. -/
inductive HasRuns : List Char → List (List Char) → Prop
  | gap {cs : List Char} (h : IsGap cs) : HasRuns cs []
  | run {before run after : List Char} {runs : List (List Char)} (hbefore : IsGap before)
    (hrun : IsRun run) (hend : ∀ c ∈ after.head?, isAlphanumeric c = false)
    (hafter : HasRuns after runs) : HasRuns (before ++ run ++ after) (run :: runs)

/-- The runs of a text, found by splitting it at all other characters. -/
def runs (cs : List Char) : List (List Char) :=
  (splitAt (fun c => !isAlphanumeric c) cs).filter (· ≠ [])

def lowercase (run : List Char) : List Char := run.flatMap toLowercase

/-- The runs in lower case with a hyphen between every two of them. -/
def hyphenated (runs : List (List Char)) : List Char := ['-'].intercalate (runs.map lowercase)

variable {cs before run after base : List Char} {found : List (List Char)} {c : Char}

/-! Runs -/

theorem HasRuns.prepend_gap (h : HasRuns cs found) (hbefore : IsGap before) :
    HasRuns (before ++ cs) found := by
  cases h with
  | gap h => exact .gap (List.forall_mem_append.2 ⟨hbefore, h⟩)
  | run hgap hrun hend hafter =>
    rw [← List.append_assoc, ← List.append_assoc]
    exact .run (List.forall_mem_append.2 ⟨hbefore, hgap⟩) hrun hend hafter

theorem head?_append_gap (hcs : ∀ c ∈ cs.head?, isAlphanumeric c = false) (hafter : IsGap after) :
    ∀ c ∈ (cs ++ after).head?, isAlphanumeric c = false := by
  cases cs with
  | nil => exact fun c hc => hafter c (List.mem_of_mem_head? hc)
  | cons d cs => exact hcs

theorem HasRuns.append_gap (h : HasRuns cs found) (hafter : IsGap after) :
    HasRuns (cs ++ after) found := by
  induction h with
  | gap h => exact .gap (List.forall_mem_append.2 ⟨h, hafter⟩)
  | run hbefore hrun hend _ ih =>
    rw [List.append_assoc]
    exact .run hbefore hrun (head?_append_gap hend hafter) ih

theorem runs_append_cons (hc : isAlphanumeric c = false) (cs ds : List Char) :
    runs (cs ++ c :: ds) = runs cs ++ runs ds := by
  have hbreak : (!isAlphanumeric c) = true := by simp [hc]
  simp only [runs, splitAt_eq_splitOnP]
  rw [List.splitOnP_append_cons (p := fun c => !isAlphanumeric c) cs ds hbreak, List.filter_append]

theorem runs_of_alphanumeric (h : ∀ c ∈ cs, isAlphanumeric c = true) :
    runs cs = if cs = [] then [] else [cs] := by
  have hsplit : cs.splitOnP (fun c => !isAlphanumeric c) = [cs] :=
    List.splitOnP_eq_singleton (by simpa using h)
  rw [runs, splitAt_eq_splitOnP, hsplit]
  by_cases hcs : cs = [] <;> simp [hcs]

theorem HasRuns.prepend_run (h : HasRuns after found)
    (hend : ∀ c ∈ after.head?, isAlphanumeric c = false) (hrun : ∀ c ∈ run, isAlphanumeric c = true) :
    HasRuns (run ++ after) (runs run ++ found) := by
  rw [runs_of_alphanumeric hrun]
  split
  · rename_i hnil
    rwa [hnil]
  · rename_i hne
    have hnone : IsGap [] := by simp [IsGap]
    exact .run hnone ⟨hne, hrun⟩ hend h

/-- The induction is on what follows a run that may still go on. -/
theorem hasRuns_append (hrun : ∀ c ∈ run, isAlphanumeric c = true) (cs : List Char) :
    HasRuns (run ++ cs) (runs (run ++ cs)) := by
  induction cs generalizing run with
  | nil =>
    have hnone : HasRuns [] [] := .gap (by simp [IsGap])
    have hwhole := hnone.prepend_run (by simp) hrun
    rw [List.append_nil] at hwhole ⊢
    rwa [List.append_nil] at hwhole
  | cons c cs ih =>
    cases hc : isAlphanumeric c with
    | true =>
      have hlonger : ∀ d ∈ run ++ [c], isAlphanumeric d = true :=
        List.forall_mem_append.2 ⟨hrun, List.forall_mem_singleton.2 hc⟩
      have hwhole := ih hlonger
      rwa [List.append_assoc, List.singleton_append] at hwhole
    | false =>
      have hlater : HasRuns ([c] ++ cs) (runs cs) :=
        (ih (List.forall_mem_nil _)).prepend_gap (List.forall_mem_singleton.2 hc)
      rw [runs_append_cons hc]
      exact hlater.prepend_run (by simpa using hc) hrun

theorem hasRuns_runs (cs : List Char) : HasRuns cs (runs cs) :=
  hasRuns_append (List.forall_mem_nil _) cs

theorem runs_cons_gap (hc : isAlphanumeric c = false) (cs : List Char) : runs (c :: cs) = runs cs :=
  runs_append_cons hc [] cs

theorem runs_gap_append (h : IsGap before) (cs : List Char) : runs (before ++ cs) = runs cs := by
  induction before with
  | nil => rfl
  | cons c before ih =>
    rw [IsGap, List.forall_mem_cons] at h
    rw [List.cons_append, runs_cons_gap h.1, ih h.2]

/-- A text has no other runs than those that splitting it finds. -/
theorem HasRuns.eq_runs (h : HasRuns cs found) : found = runs cs := by
  induction h with
  | @gap cs hgap =>
    have hruns := runs_gap_append hgap []
    rw [List.append_nil] at hruns
    exact hruns.symm
  | @run before run after found hgap hrun hend _ ih =>
    have hself : runs run = [run] := by
      rw [runs_of_alphanumeric hrun.alphanumeric, if_neg hrun.ne_nil]
    rw [List.append_assoc, runs_gap_append hgap]
    cases after with
    | nil => rw [List.append_nil, hself, ih]; rfl
    | cons c after =>
      have hc : isAlphanumeric c = false := by simpa using hend
      rw [runs_append_cons hc, hself, ih, runs_cons_gap hc, List.singleton_append]

theorem HasRuns.isRun (h : HasRuns cs found) : ∀ run ∈ found, IsRun run := by
  induction h with
  | gap => simp
  | run _ hrun _ _ ih => exact List.forall_mem_cons.2 ⟨hrun, ih⟩

/-! The name as it grows -/

/-- A reversed name without a hyphen at its end. -/
def IsSettled (base : List Char) : Prop := base.head? ≠ some '-'

/-- What a gap makes of a reversed name: nothing, as long as there is nothing to keep apart. -/
def separated (base : List Char) : List Char := if base = [] then [] else '-' :: base

/-- What a run makes of a reversed name. -/
def join (base run : List Char) : List Char := (lowercase run).reverse ++ separated base

theorem lowercase_cons (c : Char) (run : List Char) :
    lowercase (c :: run) = toLowercase c ++ lowercase run := rfl

theorem lowercase_ne_nil (h : run ≠ []) : lowercase run ≠ [] := by
  cases run with
  | nil => exact absurd rfl h
  | cons c run => simp [lowercase_cons, toLowercase_ne_nil]

theorem not_isBarred_of_mem_lowercase (h : IsRun run) (hc : c ∈ lowercase run) :
    ¬IsBarred c ∧ c ≠ '-' := by
  obtain ⟨d, hd, hc⟩ := List.mem_flatMap.1 hc
  exact not_isBarred_of_mem_toLowercase (h.alphanumeric d hd) hc

theorem isSettled_join (h : IsRun run) (base : List Char) : IsSettled (join base run) := by
  obtain ⟨c, cs, hcs⟩ := List.exists_cons_of_ne_nil
    (mt List.reverse_eq_nil_iff.1 (lowercase_ne_nil h.ne_nil))
  have hc : c ∈ lowercase run := List.mem_reverse.1 (hcs ▸ List.mem_cons_self)
  simp [IsSettled, join, hcs, (not_isBarred_of_mem_lowercase h hc).2]

theorem join_ne_nil (h : IsRun run) (base : List Char) : join base run ≠ [] := by
  simp [join, lowercase_ne_nil h.ne_nil]

theorem foldl_extend_run (h : ∀ c ∈ run, isAlphanumeric c = true) (name : List Char) :
    run.foldl extend name = (lowercase run).reverse ++ name := by
  induction run generalizing name with
  | nil => rfl
  | cons c run ih =>
    rw [List.forall_mem_cons] at h
    rw [List.foldl_cons, ih h.2, extend, if_pos h.1, lowercase_cons, List.reverse_append,
      List.append_assoc]

theorem extend_separated (hc : isAlphanumeric c = false) :
    extend (separated base) c = separated base := by
  by_cases hbase : base = [] <;> simp [extend, separated, hc, hbase]

theorem extend_of_isSettled (hc : isAlphanumeric c = false) (hbase : IsSettled base) :
    extend base c = separated base := by
  have hhead : base.head? ≠ some '-' := hbase
  by_cases hnil : base = [] <;> simp [extend, separated, hc, hhead, hnil]

theorem foldl_extend_separated (h : IsGap before) :
    before.foldl extend (separated base) = separated base := by
  induction before with
  | nil => rfl
  | cons c before ih =>
    rw [IsGap, List.forall_mem_cons] at h
    rw [List.foldl_cons, extend_separated h.1, ih h.2]

theorem foldl_extend_of_isSettled (h : IsGap before) (hne : before ≠ []) (hbase : IsSettled base) :
    before.foldl extend base = separated base := by
  cases before with
  | nil => exact absurd rfl hne
  | cons c before =>
    rw [IsGap, List.forall_mem_cons] at h
    rw [List.foldl_cons, extend_of_isSettled h.1 hbase, foldl_extend_separated h.2]

theorem dropWhile_of_isSettled (h : IsSettled base) : base.dropWhile (· = '-') = base := by
  cases base with
  | nil => rfl
  | cons c base =>
    have hc : c ≠ '-' := by simpa [IsSettled] using h
    simp [hc]

theorem dropWhile_separated (h : IsSettled base) :
    (separated base).dropWhile (· = '-') = base := by
  unfold separated
  split
  · rename_i hnil
    rw [hnil]
    rfl
  · rw [List.dropWhile_cons_of_pos (by simp), dropWhile_of_isSettled h]

/-- Runs are joined to a settled name one by one, whether a hyphen is already there or still comes. -/
theorem HasRuns.foldl_extend (h : HasRuns cs found) (hbase : IsSettled base) :
    ((cs.foldl extend (separated base)).dropWhile (· = '-') = found.foldl join base) ∧
      ((∀ c ∈ cs.head?, isAlphanumeric c = false) →
        (cs.foldl extend base).dropWhile (· = '-') = found.foldl join base) := by
  induction h generalizing base with
  | @gap cs hgap =>
    refine ⟨?_, fun _ => ?_⟩
    · rw [foldl_extend_separated hgap, dropWhile_separated hbase, List.foldl_nil]
    · by_cases hcs : cs = []
      · rw [hcs, List.foldl_nil, List.foldl_nil, dropWhile_of_isSettled hbase]
      · rw [foldl_extend_of_isSettled hgap hcs hbase, dropWhile_separated hbase, List.foldl_nil]
  | @run before run after found hgap hrun hend _ ih =>
    have hlater := (ih (isSettled_join hrun base)).2 hend
    have hrunning : run.foldl extend (separated base) = join base run :=
      foldl_extend_run hrun.alphanumeric _
    refine ⟨?_, fun hhead => ?_⟩
    · rw [List.foldl_append, List.foldl_append, foldl_extend_separated hgap, hrunning, hlater,
        List.foldl_cons]
    · have hne : before ≠ [] := by
        rintro rfl
        obtain ⟨c, cs, hcs⟩ := List.exists_cons_of_ne_nil hrun.ne_nil
        have hc := hrun.alphanumeric c (hcs ▸ List.mem_cons_self)
        rw [hhead c (by simp [hcs])] at hc
        cases hc
      rw [List.foldl_append, List.foldl_append, foldl_extend_of_isSettled hgap hne hbase, hrunning,
        hlater, List.foldl_cons]

theorem reverse_foldl_join (h : ∀ run ∈ found, IsRun run) (hbase : base ≠ []) :
    (found.foldl join base).reverse = ['-'].intercalate (base.reverse :: found.map lowercase) := by
  induction found generalizing base with
  | nil => simp
  | cons run found ih =>
    rw [List.forall_mem_cons] at h
    rw [List.foldl_cons, ih h.2 (join_ne_nil h.1 base), List.map_cons]
    cases found <;> simp [join, separated, hbase, List.intercalate_cons_cons]

theorem slug_eq_hyphenated (h : HasRuns cs found) : slug cs = hyphenated found := by
  have hruns := h.isRun
  have hempty : IsSettled [] := by simp [IsSettled]
  have hfold : (cs.foldl extend []).dropWhile (· = '-') = found.foldl join [] :=
    (h.foldl_extend hempty).1
  rw [slug, hfold]
  cases found with
  | nil => rfl
  | cons run found =>
    rw [List.forall_mem_cons] at hruns
    rw [List.foldl_cons, reverse_foldl_join hruns.2 (join_ne_nil hruns.1 []), hyphenated,
      List.map_cons]
    simp [join, separated]

/-! Stems -/

/-- What stands in front of the ending of a file name. -/
structure IsStem (cs : List Char) : Prop where
  ne_nil : cs ≠ []
  head?_ne : cs.head? ≠ some '-'
  getLast?_ne : cs.getLast? ≠ some '-'
  apart : cs.IsChain fun c d => ¬(c = '-' ∧ d = '-')
  not_isBarred : ∀ c ∈ cs, ¬IsBarred c

/-- The stem that the runs of a title spell. -/
def stemOf (runs : List (List Char)) : List Char :=
  if runs = [] then "flowchart".toList else hyphenated runs

theorem isStem_of_no_hyphen (hne : cs ≠ []) (h : ∀ c ∈ cs, ¬IsBarred c ∧ c ≠ '-') : IsStem cs where
  ne_nil := hne
  head?_ne hhead := (h _ (List.mem_of_mem_head? hhead)).2 rfl
  getLast?_ne hlast := (h _ (List.mem_of_getLast? hlast)).2 rfl
  apart := by
    refine (List.pairwise_of_forall_mem_list fun c hc _ _ => ?_).isChain
    rintro ⟨rfl, -⟩
    exact (h _ hc).2 rfl
  not_isBarred c hc := (h c hc).1

theorem IsStem.append_hyphen {ds : List Char} (h : IsStem cs) (hds : IsStem ds) :
    IsStem (cs ++ '-' :: ds) where
  ne_nil := by simp
  head?_ne := by
    rw [List.head?_append_of_ne_nil _ h.ne_nil]
    exact h.head?_ne
  getLast?_ne := by
    obtain ⟨d, rest, hrest⟩ := List.exists_cons_of_ne_nil hds.ne_nil
    have hlast := hds.getLast?_ne
    rw [hrest] at hlast
    rw [hrest, List.getLast?_append_of_ne_nil _ (List.cons_ne_nil _ _), List.getLast?_cons_cons]
    exact hlast
  apart := by
    refine List.isChain_append.2 ⟨h.apart, List.isChain_cons.2 ⟨?_, hds.apart⟩, ?_⟩
    · rintro d hd ⟨-, rfl⟩
      exact hds.head?_ne hd
    · rintro c hc d - ⟨rfl, -⟩
      exact h.getLast?_ne hc
  not_isBarred := by
    refine List.forall_mem_append.2 ⟨h.not_isBarred, List.forall_mem_cons.2 ⟨?_, hds.not_isBarred⟩⟩
    decide

theorem isStem_lowercase (h : IsRun run) : IsStem (lowercase run) :=
  isStem_of_no_hyphen (lowercase_ne_nil h.ne_nil) fun _ hc => not_isBarred_of_mem_lowercase h hc

theorem isStem_hyphenated (h : ∀ run ∈ found, IsRun run) (hne : found ≠ []) :
    IsStem (hyphenated found) := by
  induction found with
  | nil => exact absurd rfl hne
  | cons run found ih =>
    rw [List.forall_mem_cons] at h
    cases found with
    | nil => simpa [hyphenated] using isStem_lowercase h.1
    | cons next found =>
      have hrest := ih h.2 (List.cons_ne_nil next found)
      have hjoined : hyphenated (run :: next :: found) =
          lowercase run ++ '-' :: hyphenated (next :: found) := by
        simp [hyphenated, List.intercalate_cons_cons]
      rw [hjoined]
      exact (isStem_lowercase h.1).append_hyphen hrest

theorem isStem_stemOf (h : ∀ run ∈ found, IsRun run) : IsStem (stemOf found) := by
  unfold stemOf
  split
  · have hall : "flowchart".toList.all (fun c => ¬IsBarred c ∧ c ≠ '-') = true := by decide
    exact isStem_of_no_hyphen (by decide) (by simpa using hall)
  · rename_i hne
    exact isStem_hyphenated h hne

/-! File names -/

theorem ofTitle_eq_stemOf {title : Option String} (h : HasRuns (title.getD "").toList found) :
    ofTitle title = String.ofList (stemOf found) ++ ".mmd" := by
  rw [ofTitle, slug_eq_hyphenated h, stemOf]
  by_cases hfound : found = []
  · subst hfound
    decide
  · have hstem := (isStem_hyphenated h.isRun hfound).ne_nil
    simp [hfound, hstem]

theorem isPlain_of_isStem (h : IsStem cs) : Storage.IsPlain (String.ofList cs ++ ".mmd") := by
  have hlong : (String.ofList cs ++ ".mmd").toList.length = cs.length + 4 := by simp
  have hother : ∀ s : String, s.toList.length < 4 → String.ofList cs ++ ".mmd" ≠ s := by
    rintro s hs rfl
    omega
  refine ⟨hother _ (by decide), hother _ (by decide), hother _ (by decide), fun hslash => ?_⟩
  simp only [String.toList_append, String.toList_ofList, List.mem_append] at hslash
  rcases hslash with hslash | hslash
  · exact h.not_isBarred _ hslash (by decide)
  · revert hslash
    decide

/-- The name of a file is spelt by the runs of the title, and by nothing else. It is a single name in
whatever directory it is put. -/
theorem ofTitle_spelt_by_runs (title : Option String) :
    (∀ found, HasRuns (title.getD "").toList found ↔ found = runs (title.getD "").toList) ∧
      ofTitle title = String.ofList (stemOf (runs (title.getD "").toList)) ++ ".mmd" ∧
      IsStem (stemOf (runs (title.getD "").toList)) ∧
      Storage.IsPlain (ofTitle title) ∧
      (∀ directory : String, let l := Storage.Location.ofText directory
        (l.child (ofTitle title)).route = ⟨l.route.fromTop, l.route.names ++ [ofTitle title]⟩ ∧
          (l.child (ofTitle title)).ending = .name) ∧
      ∀ before after : String, IsGap before.toList → IsGap after.toList →
        ofTitle (some (before ++ title.getD "" ++ after)) = ofTitle title := by
  have hruns := hasRuns_runs (title.getD "").toList
  have hname := ofTitle_eq_stemOf hruns
  have hstem := isStem_stemOf hruns.isRun
  have hplain : Storage.IsPlain (ofTitle title) := hname ▸ isPlain_of_isStem hstem
  refine ⟨fun found => ⟨HasRuns.eq_runs, fun h => h ▸ hruns⟩, hname, hstem, hplain,
    Storage.Location.child_ofText hplain, fun before after hbefore hafter => ?_⟩
  have haround : HasRuns ((some (before ++ title.getD "" ++ after)).getD "").toList
      (runs (title.getD "").toList) := by
    simpa using (hruns.append_gap hafter).prepend_gap hbefore
  rw [ofTitle_eq_stemOf haround, hname]

theorem ofTitle_order_flow : IsGap "** ".toList ∧ IsGap " !".toList ∧
    ofTitle (some "** Order Flow (v2) !") = ofTitle (some "Order Flow (v2)") := by
  have hbefore : IsGap "** ".toList := by decide +kernel
  have hafter : IsGap " !".toList := by decide +kernel
  exact ⟨hbefore, hafter,
    (ofTitle_spelt_by_runs (some "Order Flow (v2)")).2.2.2.2.2 "** " " !" hbefore hafter⟩

example : ofTitle (some "* Pay (v2)") = "pay-v2.mmd" := by decide +kernel

end FlowDiagram.FileName
