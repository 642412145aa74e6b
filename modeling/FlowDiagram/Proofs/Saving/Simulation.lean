import FlowDiagram.Proofs.Saving.Pool
/-! A pool of tasks does what a schedule does, whatever becomes of its handles. -/

namespace FlowDiagram.Pool

open Schedule

variable {κ α : Type} [DecidableEq κ]

/-! The schedule that a pool is -/

/-- The slots of the tasks that there are handles on. -/
def slotsOf (handles : List (κ × Nat)) (tasks : List (Task κ α)) : List (Slot κ α) :=
  (tasks.filter fun t => t.entry ∈ handles).map Task.slot

/-- A pool as it is seen from outside. -/
def schedule (p : Pool κ α) : Schedule κ α := ⟨p.now, slotsOf p.handles p.tasks⟩

variable {p : Pool κ α} {handles handles' : List (κ × Nat)} {tasks : List (Task κ α)}

theorem mem_slotsOf {s : Slot κ α} :
    s ∈ slotsOf handles tasks ↔ ∃ t ∈ tasks, t.entry ∈ handles ∧ t.slot = s := by
  simp only [slotsOf, List.mem_map, List.mem_filter, decide_eq_true_eq, and_assoc]

theorem slotsOf_append (handles : List (κ × Nat)) (tasks more : List (Task κ α)) :
    slotsOf handles (tasks ++ more) = slotsOf handles tasks ++ slotsOf handles more := by
  simp [slotsOf]

theorem slotsOf_map {f : Task κ α → Task κ α} {g : Slot κ α → Slot κ α} (hf : Keeps f)
    (hg : ∀ t ∈ tasks, t.entry ∈ handles → (f t).slot = g t.slot) :
    slotsOf handles (tasks.map f) = (slotsOf handles tasks).map g := by
  have hheld : ((fun t => decide (t.entry ∈ handles)) ∘ f) = fun t => decide (t.entry ∈ handles) :=
    funext fun t => by simp only [Function.comp_apply, hf.entry]
  rw [slotsOf, slotsOf, List.filter_map, hheld, List.map_map, List.map_map]
  refine List.map_congr_left fun t ht => ?_
  obtain ⟨ht, hentry⟩ := List.mem_filter.1 ht
  exact hg t ht (of_decide_eq_true hentry)

theorem slotsOf_filter {q : Slot κ α → Bool}
    (hq : ∀ t ∈ tasks, t.entry ∈ handles' ↔ t.entry ∈ handles ∧ q t.slot = true) :
    slotsOf handles' tasks = (slotsOf handles tasks).filter q := by
  rw [slotsOf, slotsOf, List.filter_map, List.filter_filter]
  congr 1
  refine List.filter_congr fun t ht => ?_
  rw [Bool.eq_iff_iff]
  simp [hq t ht, and_comm]

/-! Each call does to the schedule what it does to the pool -/

theorem schedule_advance (p : Pool κ α) (ms : Nat) :
    (p.advance ms).2.schedule = (p.schedule.advance ms).2 := by
  have hslots : slotsOf p.handles (p.tasks.map (·.afterTime (p.now + ms))) =
      (slotsOf p.handles p.tasks).map (·.afterTime (p.now + ms)) :=
    slotsOf_map (keeps_afterTime _) fun t _ _ => slot_afterTime _ t
  exact congrArg (Schedule.mk (p.now + ms)) hslots

namespace WellFormed

/-- A task that becomes due waits, so there is a handle on it. -/
theorem runs_advance (h : p.WellFormed) (ms : Nat) :
    (p.advance ms).1 = (p.schedule.advance ms).1 := by
  have hdue : p.tasks.filter (·.isDue (p.now + ms)) =
      (p.tasks.filter fun t => t.entry ∈ p.handles).filter (·.isDue (p.now + ms)) := by
    rw [List.filter_filter]
    refine List.filter_congr fun t ht => ?_
    rw [Bool.eq_iff_iff, Bool.and_eq_true, decide_eq_true_eq]
    refine ⟨fun hdue => ⟨hdue, h.waiting t ht ?_⟩, And.left⟩
    exact (Bool.and_eq_true_iff.1 hdue).1
  have hruns : (p.tasks.filter (·.isDue (p.now + ms))).map (·.run) =
      (p.schedule.slots.filter (·.isDue (p.now + ms))).map Slot.run := by
    rw [hdue, schedule, slotsOf, List.filter_map, List.map_map]
    rfl
  simp only [Pool.advance, Schedule.advance, hruns]
  rfl

theorem schedule_clear (p : Pool κ α) : p.clear.schedule = p.schedule.clear := by
  rw [clear_eq]
  simp [schedule, slotsOf, Schedule.clear]

/-- The tasks that keep their slots wait under other keys. -/
theorem entry_mem_plan_iff (h : p.WellFormed) {key : κ} {t : Task κ α} (ht : t ∈ p.tasks) :
    t.entry ∈ (key, p.tasks.length) :: without p.retained key ↔
      t.entry ∈ p.handles ∧ (t.slot.waiting && decide (t.slot.key ≠ key)) = true := by
  have hnew : t.entry ≠ (key, p.tasks.length) := fun heq =>
    Nat.ne_of_lt (h.id_lt ht) (congrArg Prod.snd heq)
  rw [List.mem_cons, or_iff_right hnew, mem_without, h.mem_retained ht, Bool.and_eq_true,
    decide_eq_true_eq, and_assoc]
  rfl

theorem schedule_plan (h : p.WellFormed) (key : κ) (value : α) (delay : Nat) :
    (p.plan key value delay).schedule = p.schedule.plan key value delay := by
  have hsame : ∀ t ∈ p.tasks ++ [p.started key value delay],
      t.entry ∈ (key, p.tasks.length) :: without p.retained key →
        (p.afterPlan key t).slot = id t.slot := by
    intro t ht hentry
    rcases List.mem_append.1 ht with ht | ht
    · obtain ⟨-, hkept⟩ := (h.entry_mem_plan_iff ht).1 hentry
      rw [h.afterPlan_eq ht (of_decide_eq_true (Bool.and_eq_true_iff.1 hkept).2), id]
    · rw [List.mem_singleton.1 ht, h.afterPlan_started, id]
  have hold : slotsOf ((key, p.tasks.length) :: without p.retained key) p.tasks =
      (slotsOf p.handles p.tasks).filter fun s => s.waiting && decide (s.key ≠ key) :=
    slotsOf_filter fun t ht => h.entry_mem_plan_iff ht
  have hnew : slotsOf ((key, p.tasks.length) :: without p.retained key)
      [p.started key value delay] = [(p.started key value delay).slot] := by
    have hentry : (p.started key value delay).entry = (key, p.tasks.length) := rfl
    simp [slotsOf, hentry]
  rw [plan_eq, schedule, slotsOf_map (p.keeps_afterPlan key) hsame, List.map_id, slotsOf_append,
    hold, hnew]
  rfl

theorem schedule_cancel (h : p.WellFormed) (key : κ) :
    (p.cancel key).2.schedule = (p.schedule.cancel key).2 := by
  have hothers : slotsOf (without p.handles key) p.tasks =
      (slotsOf p.handles p.tasks).filter (·.key ≠ key) :=
    slotsOf_filter fun t _ => by rw [mem_without, decide_eq_true_eq]; rfl
  unfold Pool.cancel
  split
  · rename_i handle hlookup
    have hsame : ∀ t ∈ p.tasks, t.entry ∈ without p.handles key →
        (t.afterAbort handle).slot = id t.slot := by
      intro t ht hentry
      obtain ⟨-, hkey⟩ := mem_without.1 hentry
      have hne : t.id ≠ handle := fun hid =>
        hkey (congrArg Prod.fst (h.entry_eq (mem_of_lookup hlookup) ht hid))
      rw [afterAbort_of_ne hne, id]
    simp only [schedule, abort, slotsOf_map (keeps_afterAbort handle) hsame, List.map_id, hothers,
      Schedule.cancel]
  · rename_i hnone
    have hall : without p.handles key = p.handles := by
      refine List.filter_eq_self.2 fun entry hentry => ?_
      exact decide_eq_true (key_ne_of_lookup hnone hentry)
    rw [hall] at hothers
    simp only [schedule, Schedule.cancel, ← hothers]

theorem cancel_answer (h : p.WellFormed) (key : κ) :
    (p.cancel key).1 = (p.schedule.cancel key).1 := by
  have hwaiting : (p.schedule.cancel key).1 = true ↔
      ∃ t ∈ p.tasks, t.entry ∈ p.handles ∧ t.isWaiting = true ∧ t.run.key = key := by
    simp only [Schedule.cancel, Schedule.isWaiting, List.any_eq_true, schedule, mem_slotsOf,
      Bool.and_eq_true, decide_eq_true_eq]
    constructor
    · rintro ⟨_, ⟨t, ht, hentry, rfl⟩, hwaits, hkey⟩
      exact ⟨t, ht, hentry, hwaits, hkey⟩
    · rintro ⟨t, ht, hentry, hwaits, hkey⟩
      exact ⟨t.slot, ⟨t, ht, hentry, rfl⟩, hwaits, hkey⟩
  rw [Bool.eq_iff_iff, hwaiting]
  unfold Pool.cancel
  split
  · rename_i handle hlookup
    have hhandle := mem_of_lookup hlookup
    obtain ⟨t, ht, hentry⟩ := h.held _ hhandle
    obtain rfl : t.id = handle := congrArg Prod.snd hentry
    rw [h.isFinished_id ht, Bool.not_not]
    constructor
    · intro hwaits
      exact ⟨t, ht, hentry ▸ hhandle, hwaits, congrArg Prod.fst hentry⟩
    · rintro ⟨u, hu, hentry', hwaits, rfl⟩
      obtain rfl := h.eq_of_id_eq hu ht (h.handle_eq hentry' hhandle)
      exact hwaits
  · rename_i hnone
    constructor
    · intro hwaits
      cases hwaits
    · rintro ⟨t, -, hentry, -, hkey⟩
      exact absurd hkey (key_ne_of_lookup hnone hentry)

/-- The handles on tasks that are not at their end are as many as the slots of tasks that wait. -/
theorem pending_eq (h : p.WellFormed) : p.pending = p.schedule.pending := by
  have hids : (p.tasks.map (·.id)).Nodup := by
    rw [h.ids]
    exact List.nodup_range
  have hslots : p.schedule.slots.filter (·.waiting) =
      (p.tasks.filter fun t => t.isWaiting && decide (t.entry ∈ p.handles)).map Task.slot := by
    rw [schedule, slotsOf, List.filter_map, List.filter_filter]
    rfl
  have hperm : p.retained.Perm
      ((p.tasks.filter fun t => t.isWaiting && decide (t.entry ∈ p.handles)).map Task.entry) := by
    refine (List.perm_ext_iff_of_nodup ?_ ?_).2 fun entry => ?_
    · exact (List.Nodup.of_map _ h.keys).filter _
    · refine List.Nodup.of_map Prod.snd ?_
      rw [List.map_map]
      exact hids.sublist (List.filter_sublist.map _)
    · simp only [List.mem_map, List.mem_filter, Bool.and_eq_true, decide_eq_true_eq]
      constructor
      · intro hentry
        obtain ⟨t, ht, rfl⟩ := h.held entry (List.mem_filter.1 hentry).1
        obtain ⟨hhandle, hwaits⟩ := (h.mem_retained ht).1 hentry
        exact ⟨t, ⟨ht, hwaits, hhandle⟩, rfl⟩
      · rintro ⟨t, ⟨ht, hwaits, hhandle⟩, rfl⟩
        exact (h.mem_retained ht).2 ⟨hhandle, hwaits⟩
  rw [pending, Schedule.pending, List.countP_eq_length_filter, List.countP_eq_length_filter, hslots,
    List.length_map]
  exact hperm.length_eq.trans (List.length_map _)

/-- A step lets the same tasks run, and leaves a pool that is again what the schedule is. -/
theorem step_eq (h : p.WellFormed) (s : Schedule.Step κ α) :
    (p.step s).1 = (p.schedule.step s).1 ∧
      (p.step s).2.schedule = (p.schedule.step s).2 := by
  cases s with
  | plan key value delay => exact ⟨rfl, h.schedule_plan key value delay⟩
  | cancel key => exact ⟨rfl, h.schedule_cancel key⟩
  | cancelAll | drop => exact ⟨rfl, schedule_clear p⟩
  | advance ms => exact ⟨h.runs_advance ms, schedule_advance p ms⟩
  | idle => exact ⟨rfl, rfl⟩

theorem after (h : p.WellFormed) (steps : List (Schedule.Step κ α)) :
    (p.after steps).WellFormed := by
  induction steps generalizing p with
  | nil => exact h
  | cons s steps ih => exact ih (h.step s)

theorem schedule_after (h : p.WellFormed) (steps : List (Schedule.Step κ α)) :
    (p.after steps).schedule = p.schedule.after steps := by
  induction steps generalizing p with
  | nil => rfl
  | cons s steps ih =>
    have hrest := ih (h.step s)
    rw [(h.step_eq s).2] at hrest
    exact hrest

theorem runs_eq (h : p.WellFormed) (steps : List (Schedule.Step κ α)) :
    p.runs steps = p.schedule.runs steps := by
  induction steps generalizing p with
  | nil => rfl
  | cons s steps ih =>
    obtain ⟨hruns, hafter⟩ := h.step_eq s
    rw [Pool.runs, Schedule.runs, hruns, ih (h.step s), hafter]

end WellFormed

/-- Whatever steps are taken, a pool and a schedule let the same tasks run in the same order, count
the same tasks as waiting, and answer alike to whether one waits under a key. -/
theorem does_as_schedule (steps : List (Schedule.Step κ α)) :
    (Pool.start : Pool κ α).runs steps = Schedule.start.runs steps ∧
    ((Pool.start : Pool κ α).after steps).pending = (Schedule.start.after steps).pending ∧
    ∀ key, (((Pool.start : Pool κ α).after steps).cancel key).1 =
      ((Schedule.start.after steps).cancel key).1 := by
  have hstart := wellFormed_start (κ := κ) (α := α)
  have hafter := hstart.after steps
  have hschedule : ((Pool.start : Pool κ α).after steps).schedule = Schedule.start.after steps :=
    hstart.schedule_after steps
  refine ⟨hstart.runs_eq steps, ?_, fun key => ?_⟩
  · rw [hafter.pending_eq, hschedule]
  · rw [hafter.cancel_answer, hschedule]

end FlowDiagram.Pool
