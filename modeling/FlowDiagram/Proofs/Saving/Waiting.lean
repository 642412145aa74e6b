import FlowDiagram.Saving.Steps
import Mathlib.Data.List.Basic
import Mathlib.Data.List.Induction
/-! The tasks that wait in a schedule: what one step does to them, and which of them run. -/

namespace FlowDiagram.Schedule

variable {κ α : Type}

namespace Step

/-- The time that a step lets pass. -/
def duration : Step κ α → Nat
  | advance ms => ms
  | _ => 0

def isAdvance : Step κ α → Bool
  | advance _ => true
  | _ => false

/-- The task that a step plans at a time. -/
def task? (now : Nat) : Step κ α → Option (Run κ α)
  | plan key value delay => some ⟨now + delay, key, value⟩
  | _ => none

variable [DecidableEq κ]

/-- Whether a step ends the wait of a task under a key without running it. -/
def ends (key : κ) : Step κ α → Bool
  | plan k _ _ | cancel k => key = k
  | cancelAll | drop => true
  | advance _ | idle => false

/-- Whether a step, at the end of which it is `now`, lets a waiting task run. -/
def lets (now : Nat) (s : Step κ α) (r : Run κ α) : Bool := s.isAdvance && r.time ≤ now

/-- Whether a task still waits after a step. -/
def leaves (now : Nat) (s : Step κ α) (r : Run κ α) : Bool := !s.ends r.key && !s.lets now r

theorem leaves_plan {now delay : Nat} {key : κ} {value : α} {r : Run κ α} :
    (plan key value delay).leaves now r = true ↔ r.key ≠ key := by
  simp [leaves, ends, lets, isAdvance]

theorem leaves_cancel {now : Nat} {key : κ} {r : Run κ α} :
    (cancel key).leaves now r = true ↔ r.key ≠ key := by
  simp [leaves, ends, lets, isAdvance]

theorem leaves_advance {now ms : Nat} {r : Run κ α} :
    (advance ms).leaves now r = true ↔ now < r.time := by
  simp [leaves, ends, lets, isAdvance]

end Step

/-- The tasks that wait, in the order in which they were planned. -/
def waitingTasks (d : Schedule κ α) : List (Run κ α) := (d.slots.filter (·.waiting)).map Slot.run

/-- No two tasks wait under one key, and none waits beyond its time. -/
structure WellFormed (d : Schedule κ α) : Prop where
  keys_differ : d.waitingTasks.Pairwise fun r t => r.key ≠ t.key
  now_le : ∀ r ∈ d.waitingTasks, d.now ≤ r.time

theorem wellFormed_start : (start : Schedule κ α).WellFormed :=
  ⟨List.Pairwise.nil, fun _ h => nomatch h⟩

theorem WellFormed.eq_of_key_eq {d : Schedule κ α} (h : d.WellFormed) {r t : Run κ α}
    (hr : r ∈ d.waitingTasks) (ht : t ∈ d.waitingTasks) (hkey : r.key = t.key) : r = t := by
  refine List.Pairwise.forall_of_forall_of_flip (R := fun r t : Run κ α => r.key = t.key → r = t)
    (fun _ _ _ => rfl) (h.keys_differ.imp ?_) (h.keys_differ.imp ?_) hr ht hkey
  · exact fun hne heq => absurd heq hne
  · exact fun hne heq => absurd heq.symm hne

/-- The time that steps let pass. -/
def clock (steps : List (Step κ α)) : Nat := steps.foldl (fun now s => now + s.duration) 0

theorem clock_concat (steps : List (Step κ α)) (s : Step κ α) :
    clock (steps ++ [s]) = clock steps + s.duration :=
  List.foldl_concat ..

theorem filter_waitingTasks (d : Schedule κ α) (p : Run κ α → Bool) :
    d.waitingTasks.filter p = (d.slots.filter fun t => t.waiting && p t.run).map Slot.run := by
  simp only [waitingTasks, List.filter_map, List.filter_filter, Function.comp_def, Bool.and_comm]

theorem isDue_eq (now : Nat) (t : Slot κ α) : t.isDue now = (t.waiting && t.run.time ≤ now) := rfl

/-- Time leaves those tasks waiting that are due later. -/
theorem filter_waiting_afterTime (now : Nat) (slots : List (Slot κ α)) :
    (slots.map (·.afterTime now)).filter (·.waiting) =
      slots.filter fun t => t.waiting && !decide (t.run.time ≤ now) := by
  induction slots with
  | nil => rfl
  | cons t slots ih =>
    rw [List.map_cons, List.filter_cons, List.filter_cons, ih]
    cases hw : t.waiting <;> by_cases hd : t.run.time ≤ now <;>
      simp [Slot.afterTime, isDue_eq, hw, hd]

variable [DecidableEq κ] (d : Schedule κ α) (s : Step κ α)

theorem now_step : (d.step s).2.now = d.now + s.duration := by
  cases s <;> rfl

/-- A step takes away the tasks that it ends or lets run, and adds the one that it plans. -/
theorem waitingTasks_step :
    (d.step s).2.waitingTasks =
      d.waitingTasks.filter (s.leaves (d.now + s.duration)) ++ (s.task? d.now).toList := by
  rw [filter_waitingTasks]
  cases s with
  | plan key value delay =>
    simp only [step, Schedule.plan, waitingTasks, List.filter_append, List.filter_filter,
      List.map_append]
    congr 2
    apply List.filter_congr
    intro t _
    rw [Bool.eq_iff_iff]
    simp [Step.leaves_plan, Slot.run]
  | cancel key =>
    simp only [step, Schedule.cancel, waitingTasks, List.filter_filter, Step.task?,
      Option.toList_none, List.append_nil]
    congr 1
    apply List.filter_congr
    intro t _
    rw [Bool.eq_iff_iff]
    simp [Step.leaves_cancel, Slot.run]
  | cancelAll | drop => simp [step, clear, waitingTasks, Step.task?, Step.leaves, Step.ends]
  | idle => simp [step, waitingTasks, Step.task?, Step.leaves, Step.ends, Step.lets, Step.isAdvance]
  | advance ms =>
    simp only [step, advance, waitingTasks, filter_waiting_afterTime, Step.task?,
      Option.toList_none, List.append_nil]
    rfl

/-- The tasks that run in a step are those that it lets run. -/
theorem perm_runs_step :
    (d.step s).1.Perm (d.waitingTasks.filter (s.lets (d.now + s.duration))) := by
  cases s with
  | advance ms =>
    rw [filter_waitingTasks]
    exact List.mergeSort_perm _ _
  | _ => simp [step, Step.lets, Step.isAdvance]

theorem pairwise_runs_step : (d.step s).1.Pairwise fun r t => r.time ≤ t.time := by
  cases s with
  | advance ms =>
    refine (List.pairwise_mergeSort ?_ ?_ _).imp of_decide_eq_true
    · intro r t u hrt htu
      exact decide_eq_true (Nat.le_trans (of_decide_eq_true hrt) (of_decide_eq_true htu))
    · intro r t
      simpa using Nat.le_total r.time t.time
  | _ => exact List.Pairwise.nil

/-! What holds of every schedule that is reached from its start -/

theorem WellFormed.step {d : Schedule κ α} (h : d.WellFormed) (s : Step κ α) :
    (d.step s).2.WellFormed := by
  constructor
  · rw [waitingTasks_step, List.pairwise_append]
    refine ⟨h.keys_differ.filter _, ?_, ?_⟩
    · cases s <;> simp [Step.task?]
    · intro r hr t ht
      cases s with
      | plan key value delay =>
        obtain rfl : t = ⟨d.now + delay, key, value⟩ := by simpa [Step.task?] using ht
        exact Step.leaves_plan.1 (List.mem_filter.1 hr).2
      | _ => simp [Step.task?] at ht
  · intro r hr
    rw [waitingTasks_step, List.mem_append, List.mem_filter] at hr
    rw [now_step]
    rcases hr with ⟨hr, hleaves⟩ | hr
    · cases s with
      | advance ms => exact Nat.le_of_lt (Step.leaves_advance.1 hleaves)
      | _ => exact h.now_le r hr
    · cases s with
      | plan key value delay =>
        obtain rfl : r = ⟨d.now + delay, key, value⟩ := by simpa [Step.task?] using hr
        exact Nat.le_add_right _ _
      | _ => simp [Step.task?] at hr

theorem isWaiting_eq_false_iff {key : κ} :
    d.isWaiting key = false ↔ ∀ r ∈ d.waitingTasks, r.key ≠ key := by
  simp only [isWaiting, List.any_eq_false, waitingTasks, List.mem_map, List.mem_filter]
  constructor
  · rintro h r ⟨t, ⟨ht, hwaits⟩, rfl⟩ hkey
    exact h t ht (by simpa [hwaits, Slot.run] using hkey)
  · intro h t ht hboth
    simp only [Bool.and_eq_true, decide_eq_true_eq] at hboth
    exact h t.run ⟨t, ⟨ht, hboth.1⟩, rfl⟩ hboth.2

/-- No task waits under the key of one that has just run. -/
theorem WellFormed.isWaiting_of_mem_runs {d : Schedule κ α} (h : d.WellFormed) {s : Step κ α}
    {r : Run κ α} (hr : r ∈ (d.step s).1) : (d.step s).2.isWaiting r.key = false := by
  obtain ⟨hwaited, hlets⟩ := List.mem_filter.1 ((perm_runs_step d s).mem_iff.1 hr)
  rw [isWaiting_eq_false_iff, waitingTasks_step]
  intro t ht hkey
  cases s with
  | advance ms =>
    simp only [Step.task?, Option.toList_none, List.append_nil, List.mem_filter] at ht
    obtain ⟨ht, hleaves⟩ := ht
    obtain rfl := h.eq_of_key_eq ht hwaited hkey
    simp [Step.leaves, hlets] at hleaves
  | _ => cases hr

theorem WellFormed.after {d : Schedule κ α} (h : d.WellFormed) (steps : List (Step κ α)) :
    (d.after steps).WellFormed := by
  induction steps generalizing d with
  | nil => exact h
  | cons s steps ih => exact ih (h.step s)

theorem after_concat (steps : List (Step κ α)) :
    d.after (steps ++ [s]) = ((d.after steps).step s).2 :=
  List.foldl_concat ..

theorem now_after (steps : List (Step κ α)) : (d.after steps).now = d.now + clock steps := by
  induction steps using List.reverseRecOn with
  | nil => rfl
  | append_singleton steps s ih => rw [after_concat, now_step, ih, clock_concat, Nat.add_assoc]

end FlowDiagram.Schedule
