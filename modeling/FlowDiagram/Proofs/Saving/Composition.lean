import FlowDiagram.Proofs.Saving.Answers
import Mathlib.Data.List.Permutation
/-! What time and steps on different keys come to: it does not matter into how many advances time is
cut, nor in which order steps on different keys are taken between two of them. -/

namespace FlowDiagram.Schedule

variable {κ α : Type}

/-! Time that passes at once or bit by bit -/

/-- Runs in the order of their times. Those of one time stay in their order. -/
def inOrder (rs : List (Run κ α)) : List (Run κ α) := rs.mergeSort fun r t => r.time ≤ t.time

theorem time_le_trans (r t u : Run κ α) (hrt : decide (r.time ≤ t.time) = true)
    (htu : decide (t.time ≤ u.time) = true) : decide (r.time ≤ u.time) = true :=
  decide_eq_true (Nat.le_trans (of_decide_eq_true hrt) (of_decide_eq_true htu))

theorem time_le_total (r t : Run κ α) :
    (decide (r.time ≤ t.time) || decide (t.time ≤ r.time)) = true := by
  simpa using Nat.le_total r.time t.time

theorem pairwise_inOrder (rs : List (Run κ α)) : (inOrder rs).Pairwise (·.time ≤ ·.time) :=
  (List.pairwise_mergeSort time_le_trans time_le_total rs).imp of_decide_eq_true

theorem mem_inOrder {rs : List (Run κ α)} {r : Run κ α} : r ∈ inOrder rs ↔ r ∈ rs :=
  List.mem_mergeSort

theorem filter_time_inOrder (rs : List (Run κ α)) (time : Nat) :
    (inOrder rs).filter (·.time = time) = rs.filter (·.time = time) := by
  have hsorted : (rs.filter (·.time = time)).Pairwise fun r t => decide (r.time ≤ t.time) := by
    refine List.pairwise_of_forall_mem_list fun r hr t ht => ?_
    have hr := of_decide_eq_true (List.mem_filter.1 hr).2
    have ht := of_decide_eq_true (List.mem_filter.1 ht).2
    exact decide_eq_true (by omega)
  have hsublist : (rs.filter (·.time = time)).Sublist (inOrder rs) :=
    List.sublist_mergeSort time_le_trans time_le_total hsorted List.filter_sublist
  have hfilter := hsublist.filter (·.time = time)
  rw [List.filter_filter] at hfilter
  simp only [Bool.and_self] at hfilter
  exact (hfilter.eq_of_length ((List.mergeSort_perm rs _).filter _).length_eq.symm).symm

/-- Runs in the order of their times are known by the runs of each time. -/
theorem eq_of_filter_time {rs ts : List (Run κ α)} (hrs : rs.Pairwise (·.time ≤ ·.time))
    (hts : ts.Pairwise (·.time ≤ ·.time))
    (h : ∀ time, rs.filter (·.time = time) = ts.filter (·.time = time)) : rs = ts := by
  have hmem : ∀ {r}, r ∈ rs ↔ r ∈ ts := by
    intro r
    have hr := congrArg (r ∈ ·) (h r.time)
    simpa using hr
  induction rs generalizing ts with
  | nil =>
    cases ts with
    | nil => rfl
    | cons t ts => exact absurd (hmem.2 List.mem_cons_self) List.not_mem_nil
  | cons r rs ih =>
    cases ts with
    | nil => exact absurd (hmem.1 List.mem_cons_self) List.not_mem_nil
    | cons t ts =>
      rw [List.pairwise_cons] at hrs hts
      have htime : r.time = t.time := by
        have hle : ∀ u ∈ r :: rs, r.time ≤ u.time :=
          List.forall_mem_cons.2 ⟨Nat.le_refl _, hrs.1⟩
        have hle' : ∀ u ∈ t :: ts, t.time ≤ u.time :=
          List.forall_mem_cons.2 ⟨Nat.le_refl _, hts.1⟩
        exact Nat.le_antisymm (hle t (hmem.2 List.mem_cons_self))
          (hle' r (hmem.1 List.mem_cons_self))
      have hhead := h t.time
      simp only [List.filter_cons, htime, decide_true, if_true, List.cons.injEq] at hhead
      obtain ⟨rfl, -⟩ := hhead
      have hrest : ∀ time, rs.filter (·.time = time) = ts.filter (·.time = time) := by
        intro time
        have htimes := h time
        simp only [List.filter_cons] at htimes
        split at htimes
        · exact (List.cons.inj htimes).2
        · exact htimes
      refine congrArg (r :: ·) (ih hrs.2 hts.2 hrest ?_)
      intro u
      have hu := congrArg (u ∈ ·) (hrest u.time)
      simpa using hu

/-- What comes up to a time stands before what comes later. -/
theorem inOrder_filter_le (rs : List (Run κ α)) {m n : Nat} (h : m ≤ n) :
    inOrder (rs.filter (·.time ≤ n)) =
      inOrder (rs.filter (·.time ≤ m)) ++ inOrder ((rs.filter (m < ·.time)).filter (·.time ≤ n)) := by
  refine eq_of_filter_time (pairwise_inOrder _) (List.pairwise_append.2
    ⟨pairwise_inOrder _, pairwise_inOrder _, fun r hr t ht => ?_⟩) fun time => ?_
  · simp only [mem_inOrder, List.mem_filter, decide_eq_true_eq] at hr ht
    omega
  · simp only [List.filter_append, filter_time_inOrder, List.filter_filter]
    by_cases htime : time ≤ m
    · have hlate : rs.filter (fun r => decide (r.time = time) &&
          (decide (r.time ≤ n) && decide (m < r.time))) = [] := by
        simp only [List.filter_eq_nil_iff, Bool.and_eq_true, decide_eq_true_eq]
        omega
      rw [hlate, List.append_nil]
      refine List.filter_congr fun r _ => ?_
      rw [Bool.eq_iff_iff]
      simp only [Bool.and_eq_true, decide_eq_true_eq]
      omega
    · have hearly : rs.filter (fun r => decide (r.time = time) && decide (r.time ≤ m)) = [] := by
        simp only [List.filter_eq_nil_iff, Bool.and_eq_true, decide_eq_true_eq]
        omega
      rw [hearly, List.nil_append]
      refine List.filter_congr fun r _ => ?_
      rw [Bool.eq_iff_iff]
      simp only [Bool.and_eq_true, decide_eq_true_eq]
      omega

theorem runs_advance (d : Schedule κ α) (ms : Nat) :
    (d.advance ms).1 = inOrder (d.waitingTasks.filter (·.time ≤ d.now + ms)) := by
  rw [filter_waitingTasks]
  rfl

theorem Slot.afterTime_afterTime {m n : Nat} (h : m ≤ n) (s : Slot κ α) :
    (s.afterTime m).afterTime n = s.afterTime n := by
  by_cases hm : s.isDue m = true
  · have hn : s.isDue n = true := by
      simp only [isDue, Bool.and_eq_true, decide_eq_true_eq] at hm ⊢
      exact ⟨hm.1, Nat.le_trans hm.2 h⟩
    have hdone : isDue n { s with waiting := false } = false := rfl
    simp only [afterTime, if_pos hm, if_pos hn, hdone, Bool.false_eq_true, if_false]
  · simp only [afterTime, if_neg hm]

variable [DecidableEq κ]

theorem waitingTasks_advance (d : Schedule κ α) (ms : Nat) :
    (d.advance ms).2.waitingTasks = d.waitingTasks.filter (d.now + ms < ·.time) := by
  have hstep := waitingTasks_step d (.advance ms)
  simp only [Step.task?, Option.toList_none, List.append_nil] at hstep
  refine hstep.trans (List.filter_congr fun r _ => ?_)
  rw [Bool.eq_iff_iff, Step.leaves_advance, decide_eq_true_eq]
  rfl

/-- Time that passes in two parts comes to the same as time that passes at once. -/
theorem advance_add (d : Schedule κ α) (m n : Nat) :
    d.advance (m + n) =
      ((d.advance m).1 ++ ((d.advance m).2.advance n).1, ((d.advance m).2.advance n).2) := by
  have hnow : (d.advance m).2.now = d.now + m := rfl
  have hslots : (d.slots.map (·.afterTime (d.now + m))).map (·.afterTime (d.now + m + n)) =
      d.slots.map (·.afterTime (d.now + (m + n))) := by
    rw [List.map_map]
    refine List.map_congr_left fun s _ => ?_
    rw [Function.comp_apply, Slot.afterTime_afterTime (Nat.le_add_right _ _), Nat.add_assoc]
  refine Prod.ext ?_ ?_
  · rw [runs_advance, runs_advance, runs_advance, waitingTasks_advance, hnow, ← Nat.add_assoc,
      inOrder_filter_le _ (Nat.le_add_right (d.now + m) n)]
  · simp only [advance]
    rw [hslots, Nat.add_assoc]

/-! Steps on different keys -/

/-- The key that a step concerns alone. -/
def Step.key? : Step κ α → Option κ
  | plan key _ _ | cancel key => some key
  | cancelAll | drop | advance _ | idle => none

/-- Each of the steps plans or cancels, and they have different keys. -/
def Step.Apart (s t : Step κ α) : Prop := ∃ k l, s.key? = some k ∧ t.key? = some l ∧ k ≠ l

namespace Step

variable {s t : Step κ α} {k l : κ}

omit [DecidableEq κ] in
theorem duration_of_key? (h : s.key? = some k) : s.duration = 0 := by
  cases s <;> first | rfl | cases h

theorem leaves_of_key? (h : s.key? = some k) (now : Nat) :
    s.leaves now = fun r => decide (r.key ≠ k) := by
  funext r
  rw [Bool.eq_iff_iff, decide_eq_true_eq]
  cases s with
  | plan key value delay =>
    cases h
    exact leaves_plan
  | cancel key =>
    cases h
    exact leaves_cancel
  | _ => cases h

omit [DecidableEq κ] in
theorem key_of_mem_task? (h : s.key? = some k) (now : Nat) : ∀ r ∈ s.task? now, r.key = k := by
  intro r hr
  cases s with
  | plan key value delay =>
    cases h
    cases hr
    rfl
  | _ => cases hr

theorem concerns_of_key? (h : s.key? = some k) (key : κ) : s.concerns key = decide (k = key) := by
  cases s <;> first | (cases h; rfl) | cases h

omit [DecidableEq κ] in
theorem Apart.symm (h : s.Apart t) : t.Apart s := by
  obtain ⟨k, l, hk, hl, hne⟩ := h
  exact ⟨l, k, hl, hk, hne.symm⟩

end Step

section Apart

variable {s t : Step κ α}

theorem waitingTasks_of_apart {k l : κ} (hk : s.key? = some k) (hl : t.key? = some l) (hne : k ≠ l)
    (d : Schedule κ α) :
    ((d.step s).2.step t).2.waitingTasks =
      d.waitingTasks.filter (fun r => decide (r.key ≠ l) && decide (r.key ≠ k)) ++
        ((s.task? d.now).toList ++ (t.task? d.now).toList) := by
  have hnow : (d.step s).2.now = d.now := by rw [now_step, Step.duration_of_key? hk, Nat.add_zero]
  have htask : (s.task? d.now).toList.filter (fun r => decide (r.key ≠ l)) =
      (s.task? d.now).toList := by
    refine List.filter_eq_self.2 fun r hr => decide_eq_true ?_
    rw [Step.key_of_mem_task? hk d.now r (Option.mem_toList.1 hr)]
    exact hne
  rw [waitingTasks_step, waitingTasks_step, hnow, Step.leaves_of_key? hk, Step.leaves_of_key? hl,
    List.filter_append, List.filter_filter, htask, List.append_assoc]

/-- In either order the same tasks are left waiting. -/
theorem alike_of_apart (h : s.Apart t) (d : Schedule κ α) :
    ((d.step s).2.step t).2.Alike ((d.step t).2.step s).2 := by
  constructor
  · simp only [now_step]
    omega
  · obtain ⟨k, l, hk, hl, hne⟩ := h
    rw [waitingTasks_of_apart hk hl hne, waitingTasks_of_apart hl hk hne.symm]
    simp only [Bool.and_comm]
    exact List.perm_append_comm.append_left _

theorem AgreesOn.isWaiting_eq {d e : Schedule κ α} {key : κ} (h : AgreesOn key d e) :
    d.isWaiting key = e.isWaiting key := by
  have hsome : ∀ f : Schedule κ α, (∃ r ∈ f.waitingTasks, r.key = key) ↔
      f.waitingTasks.filter (·.key = key) ≠ [] := by
    intro f
    simp [List.filter_eq_nil_iff]
  rw [Bool.eq_iff_iff, isWaiting_iff, isWaiting_iff, hsome, hsome, h.tasks]

theorem AgreesOn.result_eq {d e : Schedule κ α} {key : κ} (h : AgreesOn key d e)
    (hs : s.key? = some key) : d.result s = e.result s := by
  cases s with
  | cancel k =>
    cases hs
    exact congrArg some h.isWaiting_eq
  | _ => rfl

/-- Neither of the steps changes what the other returns. -/
theorem result_of_apart (h : s.Apart t) (d : Schedule κ α) :
    (d.step t).2.result s = d.result s := by
  obtain ⟨k, l, hk, hl, hne⟩ := h
  have hother : t.concerns k = false := by
    rw [Step.concerns_of_key? hl, decide_eq_false_iff_not]
    exact hne.symm
  exact (agreesOn_step hother).result_eq hk

/-- Neither of the steps lets anything run. -/
theorem runs_of_apart (h : s.Apart t) (d : Schedule κ α) (later : List (Step κ α)) :
    d.runs (s :: t :: later) = ((d.step s).2.step t).2.runs later := by
  obtain ⟨k, l, hk, hl, -⟩ := h
  have hquiet : ∀ {u : Step κ α} {key : κ}, u.key? = some key → ∀ e : Schedule κ α,
      (e.step u).1 = [] := by
    intro u key hu e
    cases u <;> first | rfl | cases hu
  simp only [runs, hquiet hk, hquiet hl, List.nil_append]

end Apart

theorem Alike.perm_runs_all {d e : Schedule κ α} (h : d.Alike e) (steps : List (Step κ α)) :
    (d.runs steps).Perm (e.runs steps) := by
  induction steps generalizing d e with
  | nil => exact List.Perm.refl _
  | cons s steps ih => exact (h.perm_runs s).append (ih (h.step s))

/-! What the steps on one key come to -/

/-- Puts a step in front of others. Two advances in front become one. -/
def Step.onto : Step κ α → List (Step κ α) → List (Step κ α)
  | advance m, advance n :: steps => advance (m + n) :: steps
  | s, steps => s :: steps

/-- Steps with advances that follow each other made into one. -/
def joinAdvances (steps : List (Step κ α)) : List (Step κ α) := steps.foldr Step.onto []

/-- The steps that concern a key, and the time that passes between them. -/
def course (key : κ) (steps : List (Step κ α)) : List (Step κ α) :=
  joinAdvances (steps.filter (·.concerns key))

/-- What the plans and cancels of a key return, one after the other. -/
def resultsOn (key : κ) (d : Schedule κ α) : List (Step κ α) → List (Option Bool)
  | [] => []
  | s :: steps =>
    (if s.key? = some key then [d.result s] else []) ++ resultsOn key (d.step s).2 steps

/-- Both come to the same, whatever was before. -/
structure Interchangeable (steps steps' : List (Step κ α)) : Prop where
  after : ∀ d : Schedule κ α, d.after steps = d.after steps'
  runs : ∀ d : Schedule κ α, d.runs steps = d.runs steps'
  results : ∀ (d : Schedule κ α) key, resultsOn key d steps = resultsOn key d steps'

namespace Interchangeable

variable {steps steps' : List (Step κ α)}

theorem refl (steps : List (Step κ α)) : Interchangeable steps steps :=
  ⟨fun _ => rfl, fun _ => rfl, fun _ _ => rfl⟩

theorem cons (h : Interchangeable steps steps') (s : Step κ α) :
    Interchangeable (s :: steps) (s :: steps') where
  after d := h.after (d.step s).2
  runs d := by rw [Schedule.runs, Schedule.runs, h.runs]
  results d key := by rw [resultsOn, resultsOn, h.results]

theorem trans {steps'' : List (Step κ α)} (h : Interchangeable steps steps')
    (h' : Interchangeable steps' steps'') : Interchangeable steps steps'' where
  after d := (h.after d).trans (h'.after d)
  runs d := (h.runs d).trans (h'.runs d)
  results d key := (h.results d key).trans (h'.results d key)

theorem advance_add (m n : Nat) (steps : List (Step κ α)) :
    Interchangeable (.advance (m + n) :: steps) (.advance m :: .advance n :: steps) where
  after d := by simp only [Schedule.after, List.foldl_cons, step, d.advance_add m n]
  runs d := by simp only [Schedule.runs, step, d.advance_add m n, List.append_assoc]
  results d key := by simp only [resultsOn, step, d.advance_add m n, Step.key?, reduceCtorEq,
    if_false, List.nil_append]

theorem onto (s : Step κ α) (steps : List (Step κ α)) :
    Interchangeable (s.onto steps) (s :: steps) := by
  unfold Step.onto
  split
  · exact advance_add _ _ _
  · exact refl _

theorem joinAdvances (steps : List (Step κ α)) :
    Interchangeable (Schedule.joinAdvances steps) steps := by
  induction steps with
  | nil => exact refl []
  | cons s steps ih => exact (onto s _).trans (ih.cons s)

end Interchangeable

theorem AgreesOn.after {d e : Schedule κ α} {key : κ} (h : AgreesOn key d e)
    (steps : List (Step κ α)) :
    AgreesOn key (d.after steps) (e.after (steps.filter (·.concerns key))) := by
  induction steps generalizing d e with
  | nil => exact h
  | cons s steps ih =>
    cases hs : s.concerns key with
    | true =>
      rw [List.filter_cons_of_pos hs]
      exact ih (h.step s)
    | false =>
      rw [List.filter_cons_of_neg (by simp [hs])]
      have hstep : AgreesOn key (d.step s).2 d := agreesOn_step hs
      exact ih ⟨hstep.now.trans h.now, hstep.tasks.trans h.tasks⟩

theorem AgreesOn.resultsOn_eq {d e : Schedule κ α} {key : κ} (h : AgreesOn key d e)
    (steps : List (Step κ α)) :
    resultsOn key d steps = resultsOn key e (steps.filter (·.concerns key)) := by
  induction steps generalizing d e with
  | nil => rfl
  | cons s steps ih =>
    cases hs : s.concerns key with
    | true =>
      rw [List.filter_cons_of_pos hs, resultsOn, resultsOn, ih (h.step s)]
      congr 1
      split
      · rename_i hkey
        rw [h.result_eq hkey]
      · rfl
    | false =>
      have hkey : s.key? ≠ some key := by
        intro hkey
        simp [Step.concerns_of_key? hkey] at hs
      rw [List.filter_cons_of_neg (by simp [hs]), resultsOn, if_neg hkey, List.nil_append]
      have hstep : AgreesOn key (d.step s).2 d := agreesOn_step hs
      exact ih ⟨hstep.now.trans h.now, hstep.tasks.trans h.tasks⟩

section Course

variable {d : Schedule κ α} {key : κ} {steps steps' : List (Step κ α)}

theorem agreesOn_course (d : Schedule κ α) (key : κ) (steps : List (Step κ α)) :
    AgreesOn key (d.after steps) (d.after (course key steps)) := by
  have hself : AgreesOn key d d := ⟨rfl, rfl⟩
  rw [course, (Interchangeable.joinAdvances _).after]
  exact hself.after steps

theorem resultsOn_course (d : Schedule κ α) (key : κ) (steps : List (Step κ α)) :
    resultsOn key d steps = resultsOn key d (course key steps) := by
  have hself : AgreesOn key d d := ⟨rfl, rfl⟩
  rw [course, (Interchangeable.joinAdvances _).results]
  exact hself.resultsOn_eq steps

theorem WellFormed.runs_course (h : d.WellFormed) (key : κ) (steps : List (Step κ α)) :
    (d.runs steps).filter (·.key = key) = (d.runs (course key steps)).filter (·.key = key) := by
  have hself : AgreesOn key d d := ⟨rfl, rfl⟩
  rw [course, (Interchangeable.joinAdvances _).runs]
  exact hself.runs h h steps

/-- Tasks are the same if they are under each key. -/
theorem perm_of_filter_key {rs ts : List (Run κ α)}
    (h : ∀ key, rs.filter (·.key = key) = ts.filter (·.key = key)) : rs.Perm ts := by
  classical
  refine List.perm_iff_count.2 fun r => ?_
  have hcount : ∀ us : List (Run κ α), us.count r = (us.filter (·.key = r.key)).count r := by
    intro us
    rw [List.count_filter]
    exact decide_eq_true rfl
  rw [hcount rs, hcount ts, h]

end Course

/-- Time may pass at once or in two parts: the same runs and the same schedule. Neighbouring steps on
different keys may change places: each returns what it would have, and so does all that comes
later. So what becomes of a key depends on its own steps and on the time between them alone. -/
theorem steps_compose (before : List (Step κ α)) :
    let d := start.after before
    (∀ m n, d.advance (m + n) =
      ((d.advance m).1 ++ ((d.advance m).2.advance n).1, ((d.advance m).2.advance n).2)) ∧
    (∀ s t : Step κ α, s.Apart t →
      (d.step t).2.result s = d.result s ∧ (d.step s).2.result t = d.result t ∧
      (∀ later, (d.after [s, t]).answers later = (d.after [t, s]).answers later) ∧
      ∀ later, (d.runs (s :: t :: later)).Perm (d.runs (t :: s :: later))) ∧
    (∀ key steps steps', course key steps = course key steps' →
      (d.runs steps).filter (·.key = key) = (d.runs steps').filter (·.key = key) ∧
      resultsOn key d steps = resultsOn key d steps' ∧
      (d.after steps).isWaiting key = (d.after steps').isWaiting key) ∧
    ∀ steps steps', (∀ key, course key steps = course key steps') →
      (d.runs steps).Perm (d.runs steps') ∧
      (d.after steps).pending = (d.after steps').pending := by
  intro d
  have hwellFormed : d.WellFormed := wellFormed_start.after before
  have hruns : ∀ key steps steps', course key steps = course key steps' →
      (d.runs steps).filter (·.key = key) = (d.runs steps').filter (·.key = key) := by
    intro key steps steps' h
    rw [hwellFormed.runs_course, h, ← hwellFormed.runs_course]
  refine ⟨d.advance_add, fun s t h => ⟨result_of_apart h d, result_of_apart h.symm d, ?_, ?_⟩,
    fun key steps steps' h => ⟨hruns key steps steps' h, ?_, ?_⟩, fun steps steps' h => ⟨?_, ?_⟩⟩
  · exact (alike_of_apart h d).answers_eq
  · intro later
    rw [runs_of_apart h, runs_of_apart h.symm]
    exact (alike_of_apart h d).perm_runs_all later
  · rw [resultsOn_course, h, ← resultsOn_course]
  · rw [(agreesOn_course d key steps).isWaiting_eq, h, ← (agreesOn_course d key steps').isWaiting_eq]
  · exact perm_of_filter_key fun key => hruns key steps steps' (h key)
  · have htasks : (d.after steps).waitingTasks.Perm (d.after steps').waitingTasks := by
      refine perm_of_filter_key fun key => ?_
      rw [(agreesOn_course d key steps).tasks, h key, ← (agreesOn_course d key steps').tasks]
    rw [pending_eq_length, pending_eq_length, htasks.length_eq]

/-- The steps on two keys put together in two ways, one of which cuts time into more parts. -/
theorem runs_twoOrders :
    let steps : List (Step Nat Char) :=
      [.plan 1 'a' 5, .cancel 2, .advance 2, .plan 2 'b' 1, .advance 4]
    let steps' : List (Step Nat Char) :=
      [.cancel 2, .plan 1 'a' 5, .advance 1, .advance 1, .plan 2 'b' 1, .advance 4]
    (Step.plan 1 'a' 5).Apart (.cancel 2) ∧ (∀ key, course key steps = course key steps') ∧
      start.runs steps = [⟨3, 2, 'b'⟩, ⟨5, 1, 'a'⟩] ∧
      (start.runs steps).Perm (start.runs steps') := by
  intro steps steps'
  have hapart : (Step.plan 1 'a' 5).Apart (.cancel 2) := ⟨1, 2, rfl, rfl, by decide⟩
  have hcourse : ∀ key, course key steps = course key steps' := by
    intro key
    by_cases h : key = 1
    · subst h
      rfl
    by_cases h' : key = 2
    · subst h'
      rfl
    simp [steps, steps', course, joinAdvances, Step.onto, Step.concerns, Ne.symm h, Ne.symm h']
  exact ⟨hapart, hcourse, by cbv, ((steps_compose []).2.2.2 steps steps' hcourse).1⟩

end FlowDiagram.Schedule
