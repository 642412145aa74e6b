import FlowDiagram.Proofs.Saving.Waiting
import FlowDiagram.Saving.Pool
import Mathlib.Data.List.Nodup
/-! Pools of tasks: what the calls make of tasks and handles, and what holds after any of them. -/

namespace FlowDiagram.Pool

open Schedule

variable {κ α : Type}

/-! Tasks and handles -/

/-- What a handle on the task is kept as. -/
def Task.entry (t : Task κ α) : κ × Nat := (t.run.key, t.id)

/-- The slot that a schedule has for a task. -/
def Task.slot (t : Task κ α) : Slot κ α := ⟨t.run.key, t.run.value, t.run.time, t.isWaiting⟩

/-- Handles are kept on tasks of their keys, one for a key at most, and on every task that waits.
Tasks are numbered in the order of their starts. -/
structure WellFormed (p : Pool κ α) : Prop where
  ids : p.tasks.map (·.id) = List.range p.tasks.length
  held : ∀ entry ∈ p.handles, ∃ t ∈ p.tasks, t.entry = entry
  keys : (p.handles.map (·.1)).Nodup
  waiting : ∀ t ∈ p.tasks, t.isWaiting = true → t.entry ∈ p.handles

theorem wellFormed_start : (Pool.start : Pool κ α).WellFormed :=
  ⟨rfl, fun _ h => (nomatch h), List.nodup_nil, fun _ h => nomatch h⟩

/-- Something becomes of tasks that leaves them the tasks they are. -/
def Keeps (f : Task κ α → Task κ α) : Prop := ∀ t, (f t).id = t.id ∧ (f t).run = t.run

theorem keeps_afterTime (now : Nat) : Keeps (Task.afterTime now : Task κ α → Task κ α) := by
  intro t
  rw [Task.afterTime]
  split <;> exact ⟨rfl, rfl⟩

theorem keeps_afterAbort (handle : Nat) :
    Keeps (Task.afterAbort handle : Task κ α → Task κ α) := by
  intro t
  rw [Task.afterAbort]
  split <;> exact ⟨rfl, rfl⟩

theorem Keeps.entry {f : Task κ α → Task κ α} (hf : Keeps f) (t : Task κ α) :
    (f t).entry = t.entry := by
  simp only [Task.entry, (hf t).1, (hf t).2]

theorem Keeps.map_id {f : Task κ α → Task κ α} (hf : Keeps f) (tasks : List (Task κ α)) :
    (tasks.map f).map (·.id) = tasks.map (·.id) := by
  rw [List.map_map]
  exact List.map_congr_left fun t _ => (hf t).1

namespace WellFormed

variable {p : Pool κ α} (h : p.WellFormed)

include h

theorem eq_of_id_eq {t u : Task κ α} (ht : t ∈ p.tasks) (hu : u ∈ p.tasks) (hid : t.id = u.id) :
    t = u := by
  have hnodup : (p.tasks.map (·.id)).Nodup := by
    rw [h.ids]
    exact List.nodup_range
  exact List.inj_on_of_nodup_map hnodup ht hu hid

theorem handle_eq {key : κ} {handle handle' : Nat} (hhandle : (key, handle) ∈ p.handles)
    (hhandle' : (key, handle') ∈ p.handles) : handle = handle' :=
  congrArg Prod.snd (List.inj_on_of_nodup_map h.keys hhandle hhandle' rfl)

/-- A handle is on the task of its number, and kept for the key of that task. -/
theorem entry_eq {entry : κ × Nat} (hentry : entry ∈ p.handles) {t : Task κ α} (ht : t ∈ p.tasks)
    (hid : t.id = entry.2) : t.entry = entry := by
  obtain ⟨u, hu, rfl⟩ := h.held entry hentry
  rw [h.eq_of_id_eq ht hu hid]

theorem id_lt {t : Task κ α} (ht : t ∈ p.tasks) : t.id < p.tasks.length := by
  have hmem : t.id ∈ p.tasks.map (·.id) := List.mem_map_of_mem ht
  rwa [h.ids, List.mem_range] at hmem

theorem isFinished_id {t : Task κ α} (ht : t ∈ p.tasks) : p.isFinished t.id = !t.isWaiting := by
  rw [Bool.eq_iff_iff, isFinished, List.any_eq_true]
  constructor
  · rintro ⟨u, hu, hends⟩
    simp only [Bool.and_eq_true, decide_eq_true_eq] at hends
    rw [← h.eq_of_id_eq hu ht hends.1]
    exact hends.2
  · intro hends
    exact ⟨t, ht, by simpa using hends⟩

/-- What becomes of tasks is in order if a handle is left on each that waits. -/
theorem map_tasks {f : Task κ α → Task κ α} (hf : Keeps f) {handles : List (κ × Nat)} (now : Nat)
    (hhandles : handles.Sublist p.handles)
    (hwaiting : ∀ t ∈ p.tasks, (f t).isWaiting = true → t.entry ∈ handles) :
    WellFormed ⟨now, p.tasks.map f, handles⟩ where
  ids := by rw [hf.map_id, h.ids, List.length_map]
  held entry hentry := by
    obtain ⟨t, ht, rfl⟩ := h.held entry (hhandles.subset hentry)
    exact ⟨f t, List.mem_map_of_mem ht, hf.entry t⟩
  keys := h.keys.sublist (hhandles.map _)
  waiting := by
    refine List.forall_mem_map.2 fun t ht hwaits => ?_
    rw [hf.entry]
    exact hwaiting t ht hwaits

end WellFormed

/-! The calls, each as what it makes of tasks and handles -/

theorem slot_afterTime (now : Nat) (t : Task κ α) :
    (t.afterTime now).slot = t.slot.afterTime now := by
  have hdue : t.slot.isDue now = t.isDue now := rfl
  unfold Task.afterTime Slot.afterTime
  rw [hdue]
  split <;> rfl

theorem isWaiting_of_afterTime {now : Nat} {t : Task κ α}
    (h : (t.afterTime now).isWaiting = true) : t.isWaiting = true := by
  unfold Task.afterTime at h
  split at h
  · cases h
  · exact h

theorem isWaiting_of_afterAbort {handle : Nat} {t : Task κ α}
    (h : (t.afterAbort handle).isWaiting = true) : t.isWaiting = true ∧ t.id ≠ handle := by
  unfold Task.afterAbort at h
  split at h
  · cases h
  · rename_i hnot
    exact ⟨h, fun hid => hnot ⟨hid, h⟩⟩

theorem afterAbort_of_ne {handle : Nat} {t : Task κ α} (h : t.id ≠ handle) :
    t.afterAbort handle = t := if_neg fun hboth => h hboth.1

/-- The task after all of the handles have been used to abort. -/
def Task.afterAborts (handles : List (κ × Nat)) (t : Task κ α) : Task κ α :=
  handles.foldl (fun t entry => t.afterAbort entry.2) t

theorem keeps_afterAborts (handles : List (κ × Nat)) :
    Keeps (Task.afterAborts handles : Task κ α → Task κ α) := by
  intro t
  induction handles generalizing t with
  | nil => exact ⟨rfl, rfl⟩
  | cons entry handles ih =>
    obtain ⟨hid, hrun⟩ := ih (t.afterAbort entry.2)
    obtain ⟨hid', hrun'⟩ := keeps_afterAbort entry.2 t
    exact ⟨hid.trans hid', hrun.trans hrun'⟩

theorem isWaiting_of_afterAborts {handles : List (κ × Nat)} {t : Task κ α}
    (h : (t.afterAborts handles).isWaiting = true) :
    t.isWaiting = true ∧ ∀ entry ∈ handles, t.id ≠ entry.2 := by
  induction handles generalizing t with
  | nil => exact ⟨h, fun _ hentry => nomatch hentry⟩
  | cons entry handles ih =>
    obtain ⟨hwaits, hothers⟩ := ih h
    obtain ⟨hwaits, hne⟩ := isWaiting_of_afterAbort hwaits
    refine ⟨hwaits, List.forall_mem_cons.2 ⟨hne, fun other hother => ?_⟩⟩
    rw [← (keeps_afterAbort entry.2 t).1]
    exact hothers other hother

theorem foldl_abort (handles : List (κ × Nat)) (p : Pool κ α) :
    handles.foldl (fun p entry => p.abort entry.2) p =
      { p with tasks := p.tasks.map (·.afterAborts handles) } := by
  induction handles generalizing p with
  | nil =>
    have hid : (Task.afterAborts [] : Task κ α → Task κ α) = id := rfl
    rw [hid, List.map_id]
    rfl
  | cons entry handles ih =>
    rw [List.foldl_cons, ih]
    simp only [abort, List.map_map]
    rfl

theorem clear_eq (p : Pool κ α) :
    p.clear = ⟨p.now, p.tasks.map (·.afterAborts p.handles), []⟩ := foldl_abort _ _

theorem WellFormed.advance {p : Pool κ α} (h : p.WellFormed) (ms : Nat) :
    (p.advance ms).2.WellFormed :=
  h.map_tasks (keeps_afterTime _) _ (List.Sublist.refl _) fun t ht hwaits =>
    h.waiting t ht (isWaiting_of_afterTime hwaits)

theorem WellFormed.clear {p : Pool κ α} (h : p.WellFormed) : p.clear.WellFormed := by
  rw [clear_eq]
  refine h.map_tasks (keeps_afterAborts _) _ (List.nil_sublist _) fun t ht hwaits => ?_
  obtain ⟨hwaits, hnone⟩ := isWaiting_of_afterAborts hwaits
  exact absurd rfl (hnone _ (h.waiting t ht hwaits))

/-- The handles on tasks that are not at their end. -/
def retained (p : Pool κ α) : List (κ × Nat) :=
  p.handles.filter fun entry => !p.isFinished entry.2

/-- The task that is started to run after a delay. -/
def started (p : Pool κ α) (key : κ) (value : α) (delay : Nat) : Task κ α :=
  ⟨p.tasks.length, ⟨p.now + delay, key, value⟩, .waiting⟩

theorem isFinished_spawn (p : Pool κ α) (key : κ) (value : α) (delay handle : Nat) :
    (p.spawn key value delay).2.isFinished handle = p.isFinished handle := by
  simp [isFinished, spawn, Task.isWaiting]

theorem WellFormed.mem_retained {p : Pool κ α} (h : p.WellFormed) {t : Task κ α}
    (ht : t ∈ p.tasks) : t.entry ∈ p.retained ↔ t.entry ∈ p.handles ∧ t.isWaiting = true := by
  rw [retained, List.mem_filter, Task.entry, h.isFinished_id ht, Bool.not_not]

variable [DecidableEq κ]

theorem mem_without {handles : List (κ × Nat)} {key : κ} {entry : κ × Nat} :
    entry ∈ without handles key ↔ entry ∈ handles ∧ entry.1 ≠ key := by
  simp [without]

theorem mem_of_lookup {handles : List (κ × Nat)} {key : κ} {handle : Nat}
    (h : handles.lookup key = some handle) : (key, handle) ∈ handles := by
  obtain ⟨before, after, rfl, -⟩ := List.lookup_eq_some_iff.1 h
  simp

theorem key_ne_of_lookup {handles : List (κ × Nat)} {key : κ} (h : handles.lookup key = none)
    {entry : κ × Nat} (hentry : entry ∈ handles) : entry.1 ≠ key := by
  have hne : key ≠ entry.1 := by simpa using List.lookup_eq_none_iff.1 h entry hentry
  exact hne.symm

theorem WellFormed.cancel {p : Pool κ α} (h : p.WellFormed) (key : κ) :
    (p.cancel key).2.WellFormed := by
  unfold Pool.cancel
  split
  · rename_i handle hlookup
    refine h.map_tasks (keeps_afterAbort handle) _ List.filter_sublist fun t ht hwaits => ?_
    obtain ⟨hwaits, hne⟩ := isWaiting_of_afterAbort hwaits
    have hentry := h.waiting t ht hwaits
    refine mem_without.2 ⟨hentry, ?_⟩
    rintro rfl
    exact hne (h.handle_eq hentry (mem_of_lookup hlookup))
  · exact h

/-! Planning, in the order of its calls -/

/-- What becomes of a task when another one is planned: it is aborted if it had the place. -/
def afterPlan (p : Pool κ α) (key : κ) (t : Task κ α) : Task κ α :=
  match p.retained.lookup key with
  | some previous => t.afterAbort previous
  | none => t

theorem plan_eq (p : Pool κ α) (key : κ) (value : α) (delay : Nat) :
    p.plan key value delay =
      ⟨p.now, (p.tasks ++ [p.started key value delay]).map (p.afterPlan key),
        (key, p.tasks.length) :: without p.retained key⟩ := by
  have hretained : (p.spawn key value delay).2.handles.filter
      (fun entry => !(p.spawn key value delay).2.isFinished entry.2) = p.retained :=
    List.filter_congr fun entry _ => by rw [isFinished_spawn]
  have hafter : p.afterPlan key = match p.retained.lookup key with
      | some previous => Task.afterAbort previous
      | none => id := by
    funext t
    unfold afterPlan
    cases p.retained.lookup key <;> rfl
  simp only [plan, hretained, hafter]
  cases p.retained.lookup key with
  | some previous => rfl
  | none =>
    rw [List.map_id]
    rfl

theorem keeps_afterPlan (p : Pool κ α) (key : κ) : Keeps (p.afterPlan key) := by
  intro t
  unfold afterPlan
  split
  · exact keeps_afterAbort _ t
  · exact ⟨rfl, rfl⟩

namespace WellFormed

variable {p : Pool κ α} (h : p.WellFormed)

include h

/-- Only a task of the same key is aborted. -/
theorem afterPlan_eq {key : κ} {t : Task κ α} (ht : t ∈ p.tasks) (hkey : t.run.key ≠ key) :
    p.afterPlan key t = t := by
  unfold afterPlan
  split
  · rename_i previous hlookup
    refine afterAbort_of_ne fun hid => hkey ?_
    have hentry := (List.mem_filter.1 (mem_of_lookup hlookup)).1
    exact congrArg Prod.fst (h.entry_eq hentry ht hid)
  · rfl

/-- The task that is started has a handle of its own. -/
theorem afterPlan_started (key : κ) (value : α) (delay : Nat) :
    p.afterPlan key (p.started key value delay) = p.started key value delay := by
  unfold afterPlan
  split
  · rename_i previous hlookup
    refine afterAbort_of_ne ?_
    rintro rfl
    have hentry := (List.mem_filter.1 (mem_of_lookup hlookup)).1
    obtain ⟨u, hu, hentry⟩ := h.held _ hentry
    have hlt := h.id_lt hu
    have hid : u.id = p.tasks.length := congrArg Prod.snd hentry
    omega
  · rfl

/-- A task that is still waiting after another has been planned was not in its place. -/
theorem key_ne_of_afterPlan {key : κ} {t : Task κ α} (ht : t ∈ p.tasks)
    (hwaits : (p.afterPlan key t).isWaiting = true) : t.isWaiting = true ∧ t.run.key ≠ key := by
  have hbefore : t.isWaiting = true := by
    unfold afterPlan at hwaits
    split at hwaits
    · exact (isWaiting_of_afterAbort hwaits).1
    · exact hwaits
  refine ⟨hbefore, ?_⟩
  rintro rfl
  have hretained := (h.mem_retained ht).2 ⟨h.waiting t ht hbefore, hbefore⟩
  unfold afterPlan at hwaits
  split at hwaits
  · rename_i previous hlookup
    have hprevious := (List.mem_filter.1 (mem_of_lookup hlookup)).1
    exact (isWaiting_of_afterAbort hwaits).2 (h.handle_eq (h.waiting t ht hbefore) hprevious)
  · rename_i hnone
    exact key_ne_of_lookup hnone hretained rfl

theorem plan (key : κ) (value : α) (delay : Nat) : (p.plan key value delay).WellFormed := by
  have hkeeps := p.keeps_afterPlan key
  have hsub : (without p.retained key).Sublist p.handles :=
    List.filter_sublist.trans List.filter_sublist
  rw [plan_eq]
  refine ⟨?_, ?_, ?_, ?_⟩
  · rw [hkeeps.map_id, List.map_append, h.ids, List.length_map, List.length_append,
      List.length_singleton, List.range_succ]
    rfl
  · refine List.forall_mem_cons.2 ⟨?_, fun entry hentry => ?_⟩
    · refine ⟨p.started key value delay, ?_, rfl⟩
      rw [List.map_append, List.map_singleton, h.afterPlan_started]
      simp
    · obtain ⟨t, ht, rfl⟩ := h.held entry (hsub.subset hentry)
      exact ⟨p.afterPlan key t, List.mem_map_of_mem (List.mem_append_left _ ht), hkeeps.entry t⟩
  · rw [List.map_cons, List.nodup_cons]
    refine ⟨?_, h.keys.sublist (hsub.map _)⟩
    intro hkey
    obtain ⟨entry, hentry, hkey⟩ := List.mem_map.1 hkey
    exact (mem_without.1 hentry).2 hkey
  · refine List.forall_mem_map.2 fun t ht hwaits => ?_
    rw [hkeeps.entry]
    rcases List.mem_append.1 ht with ht | ht
    · obtain ⟨hwaits, hkey⟩ := h.key_ne_of_afterPlan ht hwaits
      have hretained := (h.mem_retained ht).2 ⟨h.waiting t ht hwaits, hwaits⟩
      exact List.mem_cons_of_mem _ (mem_without.2 ⟨hretained, hkey⟩)
    · rw [List.mem_singleton.1 ht]
      exact List.mem_cons_self

theorem step (s : Schedule.Step κ α) : (p.step s).2.WellFormed := by
  cases s with
  | plan key value delay => exact h.plan key value delay
  | cancel key => exact h.cancel key
  | cancelAll | drop => exact h.clear
  | advance ms => exact h.advance ms
  | idle => exact h

end WellFormed

end FlowDiagram.Pool
