import FlowDiagram.Proofs.Saving.Waiting
import Mathlib.Data.List.Range
import Mathlib.Data.Nat.Find
/-! Which of the tasks that steps plan run: those whose time comes before another step ends their
wait, each of them once. -/

namespace FlowDiagram.Schedule

variable {κ α : Type}

/-- The task that is planned at a position, with the time at which it is due. -/
def plannedAt? (steps : List (Step κ α)) (i : Nat) : Option (Run κ α) :=
  steps[i]?.bind (Step.task? (clock (steps.take i)))

theorem plannedAt?_append (steps more : List (Step κ α)) {i : Nat} (hi : i < steps.length) :
    plannedAt? (steps ++ more) i = plannedAt? steps i := by
  rw [plannedAt?, plannedAt?, List.getElem?_append_left hi,
    List.take_append_of_le_length (Nat.le_of_lt hi)]

theorem plannedAt?_length (steps : List (Step κ α)) (s : Step κ α) :
    plannedAt? (steps ++ [s]) steps.length = s.task? (clock steps) := by
  simp [plannedAt?]

theorem mem_between {steps : List (Step κ α)} {i j : Nat} {s : Step κ α} :
    s ∈ (steps.take j).drop (i + 1) ↔ ∃ k, i < k ∧ k < j ∧ steps[k]? = some s := by
  rw [List.mem_iff_getElem?]
  simp only [List.getElem?_drop, List.getElem?_take]
  constructor
  · rintro ⟨k, hk⟩
    split at hk
    · exact ⟨i + 1 + k, by omega, by assumption, hk⟩
    · cases hk
  · rintro ⟨k, hik, hkj, hk⟩
    refine ⟨k - (i + 1), ?_⟩
    rw [show i + 1 + (k - (i + 1)) = k by omega, if_pos hkj, hk]

variable [DecidableEq κ]

/-- The step at position `j` lets the clock reach the time of the task that is planned at position
`i`, and no step between the two ends the task's wait. -/
def Reaches (steps : List (Step κ α)) (i j : Nat) : Prop :=
  i < j ∧ (∃ s ∈ steps[j]?, s.isAdvance = true) ∧
    ∃ r ∈ plannedAt? steps i, r.time ≤ clock (steps.take (j + 1)) ∧
      ∀ s ∈ (steps.take j).drop (i + 1), s.ends r.key = false

/-- The step at position `j` is the first to let the clock reach the time of the task. -/
def Fires (steps : List (Step κ α)) (i j : Nat) : Prop :=
  Reaches steps i j ∧ ∀ k < j, ¬Reaches steps i k

instance (steps : List (Step κ α)) (i j : Nat) : Decidable (Reaches steps i j) :=
  inferInstanceAs (Decidable (_ ∧ _ ∧ _))

instance (steps : List (Step κ α)) (i j : Nat) : Decidable (Fires steps i j) :=
  inferInstanceAs (Decidable (_ ∧ _))

/-- A task that is planned at a position still waits at the end of the steps. -/
def StillWaits (steps : List (Step κ α)) (i : Nat) (r : Run κ α) : Prop :=
  ∀ j < steps.length, i < j → ∀ s ∈ steps[j]?, s.leaves (clock (steps.take (j + 1))) r = true

instance (steps : List (Step κ α)) (i : Nat) (r : Run κ α) : Decidable (StillWaits steps i r) :=
  inferInstanceAs (Decidable (∀ _ < _, _))

variable (steps : List (Step κ α)) (s : Step κ α)

theorem stillWaits_concat {i : Nat} {r : Run κ α} (hi : i < steps.length) :
    StillWaits (steps ++ [s]) i r ↔
      StillWaits steps i r ∧ s.leaves (clock (steps ++ [s])) r = true := by
  have hold : ∀ j < steps.length, (steps ++ [s])[j]? = steps[j]? ∧
      (steps ++ [s]).take (j + 1) = steps.take (j + 1) := fun j hj =>
    ⟨List.getElem?_append_left hj, List.take_append_of_le_length hj⟩
  simp only [StillWaits, List.length_append, List.length_singleton, Nat.forall_lt_succ_right]
  refine and_congr (forall₂_congr fun j hj => ?_) ?_
  · rw [(hold j hj).1, (hold j hj).2]
  · have hall : (steps ++ [s]).take (steps.length + 1) = steps ++ [s] :=
      List.take_of_length_le (by simp)
    simp [hi, hall]

theorem stillWaits_length (r : Run κ α) : StillWaits (steps ++ [s]) steps.length r := by
  intro j hj hlt
  simp at hj
  omega

/-- The tasks that wait are those that still wait after all steps since they were planned. -/
theorem waitingTasks_after_start :
    (start.after steps).waitingTasks = (List.range steps.length).filterMap fun i =>
      (plannedAt? steps i).filter fun r => StillWaits steps i r := by
  induction steps using List.reverseRecOn with
  | nil => rfl
  | append_singleton steps s ih =>
    rw [after_concat, waitingTasks_step, ih, now_after, List.length_append, List.length_singleton,
      List.range_succ, List.filterMap_append, List.filter_filterMap]
    congr 1
    · apply List.filterMap_congr
      intro i hi
      have hi := List.mem_range.1 hi
      rw [plannedAt?_append steps [s] hi, Option.filter_filter]
      congr 1
      funext r
      rw [Bool.eq_iff_iff]
      simp [stillWaits_concat steps s hi, clock_concat, start]
    · cases h : s.task? (clock steps) <;>
        simp [start, plannedAt?_length, h, stillWaits_length]

variable {steps} {i j : Nat} {r : Run κ α}

theorem stillWaits_take (hj : j ≤ steps.length) :
    StillWaits (steps.take j) i r ↔
      ∀ k < j, i < k → ∀ s ∈ steps[k]?, s.leaves (clock (steps.take (k + 1))) r = true := by
  rw [StillWaits, List.length_take, Nat.min_eq_left hj]
  refine forall₂_congr fun k hk => ?_
  rw [List.getElem?_take_of_lt hk, List.take_take, Nat.min_eq_left hk]

/-- A task fires in the first step that lets it run while it still waits. -/
theorem fires_iff (hr : plannedAt? steps i = some r) (hj : j ≤ steps.length) :
    Fires steps i j ↔
      i < j ∧ StillWaits (steps.take j) i r ∧
        ∃ s ∈ steps[j]?, s.lets (clock (steps.take (j + 1))) r = true := by
  rw [stillWaits_take hj]
  constructor
  · rintro ⟨⟨hij, ⟨s, hs, hadvance⟩, r', hr', htime, hends⟩, hfirst⟩
    obtain rfl : r = r' := Option.some.inj (hr.symm.trans hr')
    refine ⟨hij, fun k hk hik t ht => ?_, s, hs, by simp [Step.lets, hadvance, htime]⟩
    have hend : t.ends r.key = false := hends t (mem_between.2 ⟨k, hik, hk, ht⟩)
    have hlet : t.lets (clock (steps.take (k + 1))) r = false := by
      by_contra h
      simp only [Step.lets, Bool.not_eq_false, Bool.and_eq_true, decide_eq_true_eq] at h
      refine hfirst k hk ⟨hik, ⟨t, ht, h.1⟩, r, hr, h.2, fun u hu => ?_⟩
      obtain ⟨l, hil, hlk, hl⟩ := mem_between.1 hu
      exact hends u (mem_between.2 ⟨l, hil, Nat.lt_trans hlk hk, hl⟩)
    rw [Step.leaves, hend, hlet]
    rfl
  · rintro ⟨hij, hwaits, s, hs, hlets⟩
    simp only [Step.lets, Bool.and_eq_true, decide_eq_true_eq] at hlets
    have hquiet : ∀ k < j, i < k → ∀ t ∈ steps[k]?, t.ends r.key = false ∧
        t.lets (clock (steps.take (k + 1))) r = false := by
      intro k hk hik t ht
      simpa [Step.leaves] using hwaits k hk hik t ht
    refine ⟨⟨hij, ⟨s, hs, hlets.1⟩, r, hr, hlets.2, fun t ht => ?_⟩, ?_⟩
    · obtain ⟨k, hik, hk, ht⟩ := mem_between.1 ht
      exact (hquiet k hk hik t ht).1
    · rintro k hk ⟨hik, ⟨t, ht, hadvance⟩, r', hr', htime, -⟩
      obtain rfl : r = r' := Option.some.inj (hr.symm.trans hr')
      have hlet := (hquiet k hk hik t ht).2
      simp [Step.lets, hadvance, htime] at hlet

theorem now_after_take {s : Step κ α} (hs : steps[j]? = some s) :
    (start.after (steps.take j)).now + s.duration = clock (steps.take (j + 1)) := by
  rw [now_after, List.take_add_one, hs, Option.toList_some, clock_concat]
  simp [start]

/-- The tasks that run in a step are those that fire in it. -/
theorem perm_runsAt (steps : List (Step κ α)) (j : Nat) :
    (runsAt steps j).Perm
      (((List.range j).filter fun i => Fires steps i j).filterMap (plannedAt? steps)) := by
  rw [List.filterMap_filter]
  cases hs : steps[j]? with
  | none =>
    have hnone : (List.range j).filterMap
        (fun i => if decide (Fires steps i j) = true then plannedAt? steps i else none) = [] := by
      refine List.filterMap_eq_nil_iff.2 fun i _ => if_neg ?_
      simp [Fires, Reaches, hs]
    rw [hnone, runsAt, hs]
  | some s =>
    have hlt : j < steps.length := (List.getElem?_eq_some_iff.1 hs).1
    have hperm := perm_runs_step (start.after (steps.take j)) s
    rw [now_after_take hs, waitingTasks_after_start, List.length_take,
      Nat.min_eq_left (Nat.le_of_lt hlt), List.filter_filterMap] at hperm
    rw [runsAt, hs]
    refine hperm.trans (List.Perm.of_eq (List.filterMap_congr fun i hi => ?_))
    have hij := List.mem_range.1 hi
    have hplanned : plannedAt? (steps.take j) i = plannedAt? steps i := by
      rw [plannedAt?, plannedAt?, List.getElem?_take_of_lt hij, List.take_take,
        Nat.min_eq_left (Nat.le_of_lt hij)]
    rw [hplanned, Option.filter_filter]
    cases hr : plannedAt? steps i with
    | none => simp
    | some r =>
      have hfires : Fires steps i j ↔ StillWaits (steps.take j) i r ∧
          s.lets (clock (steps.take (j + 1))) r = true := by
        simp [fires_iff hr (Nat.le_of_lt hlt), hs, hij]
      rw [Option.filter_some]
      exact if_congr (by simp [hfires]) rfl rfl

/-- A task runs at its time, which lies within the step that it runs in. -/
theorem time_of_mem_runsAt (h : r ∈ runsAt steps j) :
    clock (steps.take j) ≤ r.time ∧ r.time ≤ clock (steps.take (j + 1)) := by
  cases hs : steps[j]? with
  | none => simp [runsAt, hs] at h
  | some s =>
    rw [runsAt, hs] at h
    obtain ⟨hr, hlets⟩ := List.mem_filter.1 ((perm_runs_step _ s).mem_iff.1 h)
    have hfrom := (wellFormed_start.after (steps.take j)).now_le r hr
    rw [now_after] at hfrom
    rw [now_after_take hs, Step.lets, Bool.and_eq_true, decide_eq_true_eq] at hlets
    exact ⟨Nat.le_trans (Nat.le_add_left _ _) hfrom, hlets.2⟩

theorem exists_reaches_iff (steps : List (Step κ α)) (i : Nat) :
    (∃ j, Reaches steps i j) ↔ ∃! j, Fires steps i j := by
  constructor
  · intro h
    refine ⟨Nat.find h, ⟨Nat.find_spec h, fun k => Nat.find_min h⟩, fun j hj => ?_⟩
    exact ((Nat.find_eq_iff h).2 hj).symm
  · rintro ⟨j, hj, -⟩
    exact ⟨j, hj.1⟩

theorem runs_concat (d : Schedule κ α) (steps : List (Step κ α)) (s : Step κ α) :
    d.runs (steps ++ [s]) = d.runs steps ++ ((d.after steps).step s).1 := by
  induction steps generalizing d with
  | nil => simp [runs, after]
  | cons t steps ih =>
    rw [List.cons_append, runs, ih, runs, List.append_assoc]
    rfl

theorem runs_eq_flatMap_runsAt (steps : List (Step κ α)) :
    start.runs steps = (List.range steps.length).flatMap (runsAt steps) := by
  induction steps using List.reverseRecOn with
  | nil => rfl
  | append_singleton steps s ih =>
    have hold : ∀ j ∈ List.range steps.length, runsAt (steps ++ [s]) j = runsAt steps j := by
      intro j hj
      have hj := List.mem_range.1 hj
      rw [runsAt, runsAt, List.getElem?_append_left hj,
        List.take_append_of_le_length (Nat.le_of_lt hj)]
    rw [runs_concat, ih, List.length_append, List.length_singleton, List.range_succ,
      List.flatMap_append, List.flatMap_congr hold]
    simp [runsAt]

/-! Keys do not meddle with each other -/

/-- Whether a step can change what is planned under a key, or lets it run. -/
def Step.concerns (key : κ) : Step κ α → Bool
  | plan k _ _ | cancel k => k = key
  | cancelAll | drop | advance _ => true
  | idle => false

/-- The same waits under a key, at the same time. -/
structure AgreesOn (key : κ) (d e : Schedule κ α) : Prop where
  now : d.now = e.now
  tasks : d.waitingTasks.filter (·.key = key) = e.waitingTasks.filter (·.key = key)

variable {d e : Schedule κ α} {key : κ}

theorem AgreesOn.step (h : AgreesOn key d e) (s : Step κ α) :
    AgreesOn key (d.step s).2 (e.step s).2 := by
  constructor
  · rw [now_step, now_step, h.now]
  · rw [waitingTasks_step, waitingTasks_step, List.filter_append, List.filter_append,
      List.filter_comm, h.tasks, h.now, List.filter_comm]

theorem Step.leaves_of_not_concerns {s : Step κ α} (h : s.concerns key = false) (now : Nat)
    (hr : r.key = key) : s.leaves now r = true := by
  cases s with
  | plan k value delay =>
    refine leaves_plan.2 fun hk => ?_
    simp [concerns, ← hr, hk] at h
  | cancel k =>
    refine leaves_cancel.2 fun hk => ?_
    simp [concerns, ← hr, hk] at h
  | idle => rfl
  | _ => cases h

theorem Step.key_of_task? {s : Step κ α} (h : s.concerns key = false) (now : Nat) :
    ∀ r ∈ s.task? now, r.key ≠ key := by
  cases s <;> simp_all [concerns, task?]

/-- A step on another key changes nothing under the key. -/
theorem agreesOn_step {s : Step κ α} (h : s.concerns key = false) :
    AgreesOn key (d.step s).2 d := by
  constructor
  · cases s <;> first | rfl | cases h
  · have hleft : (d.waitingTasks.filter (s.leaves (d.now + s.duration))).filter (·.key = key) =
        d.waitingTasks.filter (·.key = key) := by
      rw [List.filter_filter]
      apply List.filter_congr
      intro r _
      by_cases hr : r.key = key <;> simp [hr, Step.leaves_of_not_concerns h]
    have hplanned : (s.task? d.now).toList.filter (·.key = key) = [] := by
      simpa [List.filter_eq_nil_iff] using Step.key_of_task? h d.now
    rw [waitingTasks_step, List.filter_append, hleft, hplanned, List.append_nil]

theorem runs_of_not_concerns {s : Step κ α} (h : s.concerns key = false) : (d.step s).1 = [] := by
  cases s <;> first | rfl | cases h

/-- No more than one task runs under a key in one step. -/
theorem WellFormed.pairwise_runs_step (h : d.WellFormed) (s : Step κ α) :
    ((d.step s).1.filter (·.key = key)).Pairwise fun _ _ => False := by
  have hdiffer : (d.step s).1.Pairwise fun r t => r.key ≠ t.key :=
    (perm_runs_step d s).symm.pairwise (h.keys_differ.filter _) fun hrt => hrt.symm
  refine List.Pairwise.imp_of_mem ?_ (hdiffer.filter _)
  intro r t hr ht hne
  have hr := (List.mem_filter.1 hr).2
  have ht := (List.mem_filter.1 ht).2
  simp only [decide_eq_true_eq] at hr ht
  exact hne (hr.trans ht.symm)

theorem AgreesOn.runs_step (h : AgreesOn key d e) (hd : d.WellFormed) (he : e.WellFormed)
    (s : Step κ α) :
    (d.step s).1.filter (·.key = key) = (e.step s).1.filter (·.key = key) := by
  have hperm := ((perm_runs_step d s).filter (·.key = key)).trans (List.Perm.of_eq ?_)|>.trans
    ((perm_runs_step e s).filter (·.key = key)).symm
  · exact hperm.eq_of_pairwise (fun _ _ _ _ h => h.elim) (hd.pairwise_runs_step s)
      (he.pairwise_runs_step s)
  · rw [List.filter_comm, h.tasks, h.now, List.filter_comm]

theorem AgreesOn.runs (h : AgreesOn key d e) (hd : d.WellFormed) (he : e.WellFormed)
    (steps : List (Step κ α)) :
    (d.runs steps).filter (·.key = key) =
      (e.runs (steps.filter (·.concerns key))).filter (·.key = key) := by
  induction steps generalizing d e with
  | nil => rfl
  | cons s steps ih =>
    rw [Schedule.runs, List.filter_append]
    cases hs : s.concerns key with
    | true =>
      rw [List.filter_cons_of_pos hs, Schedule.runs, List.filter_append, h.runs_step hd he s,
        ih (h.step s) (hd.step s) (he.step s)]
    | false =>
      have hstep : AgreesOn key (d.step s).2 d := agreesOn_step hs
      have hagrees : AgreesOn key (d.step s).2 e :=
        ⟨hstep.now.trans h.now, hstep.tasks.trans h.tasks⟩
      rw [List.filter_cons_of_neg (by simp [hs]), runs_of_not_concerns hs,
        ih hagrees (hd.step s) he]
      rfl

/-- In every step those tasks run, each once, whose time the clock reaches in it for the first time
and whose wait no step in between ended; they run at their time, and nothing else ever runs. What
runs under a key does not depend on the steps on other keys. -/
theorem runs_exactly_survivors (steps : List (Step κ α)) :
    start.runs steps = (List.range steps.length).flatMap (runsAt steps) ∧
    (∀ j, (runsAt steps j).Perm
      (((List.range j).filter fun i => Fires steps i j).filterMap (plannedAt? steps))) ∧
    (∀ i, (∃ j, Reaches steps i j) ↔ ∃! j, Fires steps i j) ∧
    (∀ j, ∀ r ∈ runsAt steps j,
      clock (steps.take j) ≤ r.time ∧ r.time ≤ clock (steps.take (j + 1))) ∧
    ∀ key, (start.runs steps).filter (·.key = key) =
      (start.runs (steps.filter (·.concerns key))).filter (·.key = key) := by
  refine ⟨runs_eq_flatMap_runsAt steps, perm_runsAt steps, exists_reaches_iff steps,
    fun j r => time_of_mem_runsAt, fun key => ?_⟩
  have hsame : AgreesOn key (start : Schedule κ α) start := ⟨rfl, rfl⟩
  exact hsame.runs wellFormed_start wellFormed_start steps

/-- A task due at once runs only when time passes, one that is replaced does not run, and its key
can be planned anew after its task has run. -/
example : start.runs [.plan 1 'a' 0, .plan 2 'b' 5, .plan 2 'c' 5, .advance 0, .plan 1 'd' 3,
    .advance 9, .cancel 2, .advance 9] = [⟨0, 1, 'a'⟩, ⟨3, 1, 'd'⟩, ⟨5, 2, 'c'⟩] := by
  cbv

end FlowDiagram.Schedule
