import FlowDiagram.Proofs.Saving.Survival
import Mathlib.Data.Set.Card
/-! What schedules answer: they count and cancel the tasks that still wait, and no others. -/

namespace FlowDiagram.Schedule

variable {κ α : Type}

/-- What is seen of a step: what it returns, how many tasks wait after it, and which tasks run in
it, each with its time. -/
structure Answer (κ α : Type) where
  result : Option Bool
  pending : Nat
  runs : Multiset (Run κ α)

theorem pending_eq_length (d : Schedule κ α) : d.pending = d.waitingTasks.length := by
  rw [pending, waitingTasks, List.length_map, List.countP_eq_length_filter]

variable [DecidableEq κ]

/-- What a step returns. Only a cancel returns anything. -/
def result (d : Schedule κ α) : Step κ α → Option Bool
  | .cancel key => some (d.cancel key).1
  | _ => none

def answer (d : Schedule κ α) (s : Step κ α) : Answer κ α :=
  ⟨d.result s, (d.step s).2.pending, (d.step s).1⟩

/-- The answers of steps, one after the other. -/
def answers (d : Schedule κ α) : List (Step κ α) → List (Answer κ α)
  | [] => []
  | s :: steps => d.answer s :: (d.step s).2.answers steps

/-! Answers depend on the time and on the tasks that wait, and on nothing else -/

theorem isWaiting_iff {d : Schedule κ α} {key : κ} :
    d.isWaiting key = true ↔ ∃ r ∈ d.waitingTasks, r.key = key := by
  rw [← Bool.not_eq_false, isWaiting_eq_false_iff]
  simp only [not_forall, not_not, exists_prop]

/-- The same tasks wait, at the same time. What became of other tasks does not matter. -/
structure Alike (d e : Schedule κ α) : Prop where
  now : d.now = e.now
  tasks : d.waitingTasks.Perm e.waitingTasks

namespace Alike

variable {d e : Schedule κ α}

theorem step (h : d.Alike e) (s : Step κ α) : (d.step s).2.Alike (e.step s).2 := by
  constructor
  · rw [now_step, now_step, h.now]
  · rw [waitingTasks_step, waitingTasks_step, h.now]
    exact (h.tasks.filter _).append_right _

theorem isWaiting_eq (h : d.Alike e) (key : κ) : d.isWaiting key = e.isWaiting key := by
  rw [Bool.eq_iff_iff, isWaiting_iff, isWaiting_iff]
  exact exists_congr fun r => and_congr_left fun _ => h.tasks.mem_iff

theorem result_eq (h : d.Alike e) (s : Step κ α) : d.result s = e.result s := by
  cases s with
  | cancel key => exact congrArg some (h.isWaiting_eq key)
  | _ => rfl

omit [DecidableEq κ] in
theorem pending_eq (h : d.Alike e) : d.pending = e.pending := by
  rw [pending_eq_length, pending_eq_length, h.tasks.length_eq]

theorem perm_runs (h : d.Alike e) (s : Step κ α) : (d.step s).1.Perm (e.step s).1 := by
  have hperm := perm_runs_step d s
  rw [h.now] at hperm
  exact hperm.trans ((h.tasks.filter _).trans (perm_runs_step e s).symm)

theorem answers_eq (h : d.Alike e) (steps : List (Step κ α)) :
    d.answers steps = e.answers steps := by
  induction steps generalizing d e with
  | nil => rfl
  | cons s steps ih =>
    have hanswer : d.answer s = e.answer s := by
      simp only [answer, h.result_eq s, (h.step s).pending_eq, Multiset.coe_eq_coe.2 (h.perm_runs s)]
    rw [answers, answers, hanswer, ih (h.step s)]

end Alike

/-! The tasks that wait, by the steps that planned them -/

/-- The task that is planned at a position has the key and still waits after all steps. -/
def Waits (steps : List (Step κ α)) (i : Nat) (key : κ) : Prop :=
  ∃ r ∈ plannedAt? steps i, r.key = key ∧ StillWaits steps i r

instance (steps : List (Step κ α)) (i : Nat) (key : κ) : Decidable (Waits steps i key) :=
  inferInstanceAs (Decidable (∃ _ ∈ _, _ ∧ _))

variable {steps : List (Step κ α)} {i j : Nat} {r : Run κ α} {key : κ}

omit [DecidableEq κ] in
theorem lt_length_of_plannedAt? (h : plannedAt? steps i = some r) : i < steps.length := by
  obtain ⟨s, hs, -⟩ := Option.bind_eq_some_iff.1 h
  exact (List.getElem?_eq_some_iff.1 hs).1

theorem mem_waitingTasks_iff :
    r ∈ (start.after steps).waitingTasks ↔ ∃ i, plannedAt? steps i = some r ∧ StillWaits steps i r := by
  simp only [waitingTasks_after_start, List.mem_filterMap, List.mem_range,
    Option.filter_eq_some_iff, decide_eq_true_eq]
  exact exists_congr fun i => and_iff_right_of_imp fun h => lt_length_of_plannedAt? h.1

theorem exists_waits_iff :
    (∃ i, Waits steps i key) ↔ ∃ r ∈ (start.after steps).waitingTasks, r.key = key := by
  simp only [Waits, mem_waitingTasks_iff, Option.mem_def]
  constructor
  · rintro ⟨i, r, hr, hkey, hwaits⟩
    exact ⟨r, ⟨i, hr, hwaits⟩, hkey⟩
  · rintro ⟨r, ⟨i, hr, hwaits⟩, hkey⟩
    exact ⟨i, r, hr, hkey, hwaits⟩

/-- A task does not wait on when another is planned under its key. -/
theorem Waits.not_lt (hi : Waits steps i key) (hj : Waits steps j key) : ¬ i < j := by
  intro hij
  obtain ⟨r, hr, hrkey, hwaits⟩ := hi
  obtain ⟨t, ht, htkey, -⟩ := hj
  obtain ⟨s, hs, hplan⟩ := Option.bind_eq_some_iff.1 ht
  have hleaves := hwaits j (List.getElem?_eq_some_iff.1 hs).1 hij s hs
  cases s with
  | plan k value delay =>
    cases hplan
    exact Step.leaves_plan.1 hleaves (hrkey.trans htkey.symm)
  | _ => cases hplan

theorem Waits.unique (hi : Waits steps i key) (hj : Waits steps j key) : i = j :=
  Nat.le_antisymm (Nat.le_of_not_lt (hj.not_lt hi)) (Nat.le_of_not_lt (hi.not_lt hj))

omit [DecidableEq κ] in
theorem WellFormed.nodup_keys {d : Schedule κ α} (h : d.WellFormed) :
    (d.waitingTasks.map (·.key)).Nodup :=
  List.pairwise_map.2 h.keys_differ

theorem pending_eq_ncard (steps : List (Step κ α)) :
    (start.after steps).pending = {key | ∃ i, Waits steps i key}.ncard := by
  have hkeys : {key | ∃ i, Waits steps i key} =
      (((start.after steps).waitingTasks.map (·.key)).toFinset : Set κ) := by
    ext key
    simp only [Set.mem_ofPred_eq, exists_waits_iff, List.coe_toFinset, List.mem_map]
  have hnodup := (wellFormed_start.after steps).nodup_keys
  rw [hkeys, Set.ncard_coe_finset, List.toFinset_card_of_nodup hnodup, List.length_map,
    pending_eq_length]

/-- Once the clock has gone far enough, all that waited has run. -/
theorem exists_length_advance (d : Schedule κ α) :
    ∃ far, ∀ ms, far ≤ ms → (d.advance ms).1.length = d.pending := by
  refine ⟨(d.waitingTasks.map (·.time)).toFinset.sup id, fun ms hms => ?_⟩
  have hall : d.waitingTasks.filter ((Step.advance ms).lets (d.now + ms)) = d.waitingTasks := by
    refine List.filter_eq_self.2 fun r hr => ?_
    have htime : r.time ≤ (d.waitingTasks.map (·.time)).toFinset.sup id :=
      Finset.le_sup (f := id) (List.mem_toFinset.2 (List.mem_map_of_mem hr))
    simp only [Step.lets, Step.isAdvance, Bool.true_and, decide_eq_true_eq]
    omega
  have hperm := perm_runs_step d (.advance ms)
  rw [show d.now + (Step.advance ms : Step κ α).duration = d.now + ms from rfl, hall] at hperm
  rw [pending_eq_length, ← hperm.length_eq]
  rfl

/-! Cancelling -/

theorem waitingTasks_cancel (d : Schedule κ α) (key : κ) :
    (d.cancel key).2.waitingTasks = d.waitingTasks.filter (·.key ≠ key) := by
  have hstep := waitingTasks_step d (.cancel key)
  simp only [Step.task?, Option.toList_none, List.append_nil] at hstep
  refine hstep.trans (List.filter_congr fun r _ => ?_)
  rw [Bool.eq_iff_iff, Step.leaves_cancel, decide_eq_true_eq]

theorem WellFormed.pending_cancel {d : Schedule κ α} (h : d.WellFormed)
    (hkey : ∃ r ∈ d.waitingTasks, r.key = key) : (d.cancel key).2.pending + 1 = d.pending := by
  have hone : d.waitingTasks.countP (·.key = key) = 1 := by
    have hcount := List.count_eq_one_of_mem h.nodup_keys (List.mem_map.2 hkey)
    rw [List.count, List.countP_map] at hcount
    exact hcount
  rw [pending_eq_length, pending_eq_length, waitingTasks_cancel, ← List.countP_eq_length_filter,
    List.length_eq_countP_add_countP (·.key = key), hone, Nat.add_comm]
  simp

theorem waitingTasks_cancel_of_none (d : Schedule κ α)
    (hkey : ¬ ∃ r ∈ d.waitingTasks, r.key = key) :
    (d.cancel key).2.waitingTasks = d.waitingTasks := by
  rw [waitingTasks_cancel, List.filter_eq_self]
  intro r hr
  exact decide_eq_true fun h => hkey ⟨r, hr, h⟩

/-- Nothing runs under a key under which nothing waits, until it is planned again. -/
theorem key_ne_of_mem_runs {d : Schedule κ α} (hd : ∀ t ∈ d.waitingTasks, t.key ≠ key)
    {later : List (Step κ α)} (hlater : ∀ value delay, .plan key value delay ∉ later) :
    ∀ t ∈ d.runs later, t.key ≠ key := by
  induction later generalizing d with
  | nil => exact List.forall_mem_nil _
  | cons s later ih =>
    have hnext : ∀ t ∈ (d.step s).2.waitingTasks, t.key ≠ key := by
      intro t ht
      rw [waitingTasks_step, List.mem_append, List.mem_filter] at ht
      rcases ht with ⟨ht, -⟩ | ht
      · exact hd t ht
      · cases s with
        | plan k value delay =>
          obtain rfl : t = ⟨d.now + delay, k, value⟩ := by simpa [Step.task?] using ht
          rintro rfl
          exact hlater value delay List.mem_cons_self
        | _ => simp [Step.task?] at ht
    rw [runs, List.forall_mem_append]
    refine ⟨fun t ht => hd t ?_, ih hnext fun value delay h => ?_⟩
    · exact (List.mem_filter.1 ((perm_runs_step d s).mem_iff.1 ht)).1
    · exact hlater value delay (List.mem_cons_of_mem s h)

/-- A task that still waits has not been reached. -/
theorem StillWaits.length_le_of_reaches (h : StillWaits steps i r) (hr : plannedAt? steps i = some r)
    {more : List (Step κ α)} (hreaches : Reaches (steps ++ more) i j) : steps.length ≤ j := by
  by_contra hlt
  have hlt : j < steps.length := Nat.lt_of_not_le hlt
  obtain ⟨hij, ⟨s, hs, hadvance⟩, t, ht, htime, -⟩ := hreaches
  rw [plannedAt?_append steps more (lt_length_of_plannedAt? hr), hr] at ht
  obtain rfl := Option.some.inj ht
  rw [List.getElem?_append_left hlt] at hs
  rw [List.take_append_of_le_length hlt] at htime
  have hleaves := h j hlt hij s hs
  simp [Step.leaves, Step.lets, hadvance, htime] at hleaves

/-- A task that is cancelled never runs. -/
theorem Waits.not_reaches (h : Waits steps i key) (later : List (Step κ α)) (j : Nat) :
    ¬ Reaches (steps ++ .cancel key :: later) i j := by
  intro hreaches
  obtain ⟨r, hr, hkey, hwaits⟩ := h
  have hi := lt_length_of_plannedAt? hr
  have hle := hwaits.length_le_of_reaches hr hreaches
  obtain ⟨hij, ⟨s, hs, hadvance⟩, t, ht, -, hends⟩ := hreaches
  have hcancel : (steps ++ .cancel key :: later)[steps.length]? = some (.cancel key) := by simp
  rcases Nat.eq_or_lt_of_le hle with rfl | hlt
  · obtain rfl := Option.some.inj (hcancel.symm.trans hs)
    cases hadvance
  · rw [plannedAt?_append steps _ hi, hr] at ht
    obtain rfl := Option.some.inj ht
    have hend := hends _ (mem_between.2 ⟨steps.length, hi, hlt, hcancel⟩)
    simp [Step.ends, hkey] at hend

/-! Slots of tasks that have run -/

/-- A key has one slot at most. -/
def DistinctSlots (d : Schedule κ α) : Prop := d.slots.Pairwise fun s t => s.key ≠ t.key

omit [DecidableEq κ] in
theorem Slot.key_afterTime (now : Nat) (t : Slot κ α) : (t.afterTime now).key = t.key := by
  rw [afterTime]
  split <;> rfl

theorem DistinctSlots.step {d : Schedule κ α} (h : d.DistinctSlots) (s : Step κ α) :
    (d.step s).2.DistinctSlots := by
  cases s with
  | plan key value delay =>
    refine List.pairwise_append.2 ⟨h.filter _, List.pairwise_singleton _ _, fun t ht u hu => ?_⟩
    obtain rfl := List.mem_singleton.1 hu
    simpa using (Bool.and_eq_true_iff.1 (List.mem_filter.1 ht).2).2
  | cancel key => exact h.filter _
  | cancelAll | drop => exact List.Pairwise.nil
  | advance ms =>
    refine List.pairwise_map.2 (h.imp fun hne => ?_)
    rwa [Slot.key_afterTime, Slot.key_afterTime]
  | idle => exact h

theorem distinctSlots_after (steps : List (Step κ α)) :
    (start.after steps : Schedule κ α).DistinctSlots := by
  induction steps using List.reverseRecOn with
  | nil => exact List.Pairwise.nil
  | append_singleton steps s ih =>
    rw [after_concat]
    exact ih.step s

/-- A slot whose task no longer waits was there before, or its task has just run. -/
theorem finished_step {d : Schedule κ α} {s : Step κ α} {t : Slot κ α}
    (ht : t ∈ (d.step s).2.slots) (hdone : t.waiting = false) :
    t ∈ d.slots ∨ t.run ∈ (d.step s).1 := by
  cases s with
  | plan key value delay =>
    rcases List.mem_append.1 ht with ht | ht
    · exact .inl (List.mem_filter.1 ht).1
    · obtain rfl := List.mem_singleton.1 ht
      cases hdone
  | cancel key => exact .inl (List.mem_filter.1 ht).1
  | cancelAll | drop => cases ht
  | advance ms =>
    obtain ⟨u, hu, rfl⟩ := List.mem_map.1 ht
    rw [Slot.afterTime]
    split
    · rename_i hdue
      refine .inr (List.mem_mergeSort.2 (List.mem_map.2 ⟨u, List.mem_filter.2 ⟨hu, hdue⟩, rfl⟩))
    · exact .inl hu
  | idle => exact .inl ht

/-- The task of a slot that is not cleaned up yet has run. -/
theorem mem_runs_of_finished {steps : List (Step κ α)} {t : Slot κ α}
    (ht : t ∈ (start.after steps).slots) (hdone : t.waiting = false) :
    t.run ∈ start.runs steps := by
  induction steps using List.reverseRecOn with
  | nil => cases ht
  | append_singleton steps s ih =>
    rw [after_concat] at ht
    rw [runs_concat, List.mem_append]
    exact (finished_step ht hdone).imp_left ih

theorem DistinctSlots.isWaiting_of_finished {d : Schedule κ α} (h : d.DistinctSlots) {t : Slot κ α}
    (ht : t ∈ d.slots) (hdone : t.waiting = false) : d.isWaiting t.key = false := by
  rw [isWaiting, List.any_eq_false]
  intro u hu hwaits
  obtain ⟨hwaits, hkey⟩ := Bool.and_eq_true_iff.1 hwaits
  have hkeys : (d.slots.map (·.key)).Nodup := List.pairwise_map.2 h
  obtain rfl := List.inj_on_of_nodup_map hkeys hu ht (of_decide_eq_true hkey)
  rw [hdone] at hwaits
  cases hwaits

/-- After any steps no key has more than one task that waits. The tasks that wait are those that are
counted, that would all run if time just passed, and that can be cancelled: a cancel ends one wait
and makes sure that the task never runs, or changes nothing. Tasks that have run are none of them,
even while they have a slot. -/
theorem observers_exact (steps : List (Step κ α)) :
    let d := start.after steps
    (∀ key i j, Waits steps i key → Waits steps j key → i = j) ∧
    d.pending = {key | ∃ i, Waits steps i key}.ncard ∧
    (∃ far, ∀ ms, far ≤ ms → (d.advance ms).1.length = d.pending) ∧
    (∀ key, (d.cancel key).1 = true ↔ ∃ i, Waits steps i key) ∧
    (∀ key i, Waits steps i key →
      (d.cancel key).2.pending + 1 = d.pending ∧
      ∀ later j, ¬ Reaches (steps ++ .cancel key :: later) i j) ∧
    (∀ key later, (∀ value delay, .plan key value delay ∉ later) →
      ∀ r ∈ (d.cancel key).2.runs later, r.key ≠ key) ∧
    (∀ key, (¬ ∃ i, Waits steps i key) →
      (d.cancel key).2.now = d.now ∧ (d.cancel key).2.waitingTasks = d.waitingTasks ∧
      ∀ later, (d.cancel key).2.answers later = d.answers later) ∧
    (∀ i j key, Reaches steps i j → ¬ Waits steps i key) ∧
    ∀ t ∈ d.slots, t.waiting = false → t.run ∈ start.runs steps ∧ (d.cancel t.key).1 = false := by
  intro d
  have hwellFormed : d.WellFormed := wellFormed_start.after steps
  refine ⟨fun key i j hi hj => hi.unique hj, pending_eq_ncard steps, exists_length_advance d,
    fun key => isWaiting_iff.trans exists_waits_iff.symm, fun key i hi => ⟨?_, hi.not_reaches⟩,
    fun key later hlater => ?_, fun key hnone => ?_, ?_,
    fun t ht hdone => ⟨mem_runs_of_finished ht hdone, ?_⟩⟩
  · exact hwellFormed.pending_cancel (exists_waits_iff.1 ⟨i, hi⟩)
  · refine key_ne_of_mem_runs (fun t ht => ?_) hlater
    rw [waitingTasks_cancel] at ht
    exact of_decide_eq_true (List.mem_filter.1 ht).2
  · have htasks := d.waitingTasks_cancel_of_none (mt exists_waits_iff.2 hnone)
    have halike : (d.cancel key).2.Alike d := ⟨rfl, List.Perm.of_eq htasks⟩
    exact ⟨rfl, htasks, halike.answers_eq⟩
  · rintro i j key hreaches ⟨r, hr, -, hwaits⟩
    have hlast : Reaches (steps ++ []) i j := by rwa [List.append_nil]
    have hle := hwaits.length_le_of_reaches hr hlast
    obtain ⟨-, ⟨s, hs, -⟩, -⟩ := hreaches
    exact absurd (List.getElem?_eq_some_iff.1 hs).1 (Nat.not_lt.2 hle)
  · exact (distinctSlots_after steps).isWaiting_of_finished ht hdone

/-- Two tasks, of which the first has run and still has its slot. -/
theorem observers_afterFirst :
    let steps : List (Step Nat Char) := [.plan 1 'a' 0, .plan 2 'b' 5, .advance 2]
    let d := start.after steps
    Waits steps 1 2 ∧ (d.cancel 2).2.pending + 1 = d.pending ∧
      Reaches steps 0 2 ∧ ¬ Waits steps 0 1 ∧
      (⟨1, 'a', 0, false⟩ : Slot Nat Char) ∈ d.slots ∧ (d.cancel 1).1 = false := by
  intro steps d
  have hwaits : Waits steps 1 2 := by decide
  have hreaches : Reaches steps 0 2 := by decide
  have hslot : (⟨1, 'a', 0, false⟩ : Slot Nat Char) ∈ d.slots := by decide
  obtain ⟨-, -, -, -, hcancel, -, -, hran, hfinished⟩ := observers_exact steps
  exact ⟨hwaits, (hcancel 2 1 hwaits).1, hreaches, hran 0 2 1 hreaches, hslot,
    (hfinished _ hslot rfl).2⟩

end FlowDiagram.Schedule
