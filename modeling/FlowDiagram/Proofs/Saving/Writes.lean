import FlowDiagram.Proofs.Document.Reloading
import FlowDiagram.Proofs.Saving.Survival
import FlowDiagram.Proofs.Storage.AllOrNothing
import FlowDiagram.Saving.QueueSteps
/-! A queue saves the last request of each burst, and nothing else. -/

namespace FlowDiagram.SaveQueue

open Storage Calendar Schedule

variable {clock : Nat → Instant} {a : SaveQueue} {v w : Volume}

/-! The tasks of a queue -/

theorem after_concat (steps : List Step) (s : Step) :
    after clock a v (steps ++ [s]) =
      (after clock a v steps).1.step clock s (after clock a v steps).2 :=
  List.foldl_concat ..

theorem tasks_step (s : Step) :
    (a.step clock s v).1 = { a with tasks := (a.tasks.step (s.task a.delay)).2 } := by
  cases s <;> rfl

/-- The tasks of a queue are those of its schedule, whatever happens to the files. -/
theorem tasks_after_start (delay : Nat) (steps : List Step) :
    (after clock (start delay) v steps).1 =
      ⟨delay, Schedule.start.after (steps.map (Step.task delay))⟩ := by
  induction steps using List.reverseRecOn with
  | nil => rfl
  | append_singleton steps s ih =>
    rw [after_concat, tasks_step, ih, List.map_append, List.map_singleton, Schedule.after_concat]

/-! What saving does to the files -/

/-- What saves leave of the files. -/
def saved (clock : Nat → Instant) (v : Volume) (r : Run Location.Key (Location × Document)) :
    Volume :=
  ((save clock r : StateM Volume Unit) v).2

theorem forM_save (runs : List (Run Location.Key (Location × Document))) :
    (runs.forM (save clock) : StateM Volume Unit) v = ((), runs.foldl (saved clock) v) := by
  induction runs generalizing v with
  | nil => rfl
  | cons r runs ih => exact ih

theorem files_advance (ms : Nat) :
    (a.step clock (.advance ms) v).2 = (a.tasks.advance ms).1.foldl (saved clock) v := by
  have hadvance : (a.step clock (.advance ms) v).2 =
      (((a.tasks.advance ms).1.forM (save clock) : StateM Volume Unit) v).2 := rfl
  rw [hadvance, forM_save]

/-- What becomes of a task whose time has come: its document is in its file, stamped with that time,
or it could not be saved. No other file changes. Where the location is a plain path, the document is
saved unless a file is in the way or the path is a directory. -/
inductive Settled (clock : Nat → Instant) (r : Run Location.Key (Location × Document))
    (v : Volume) : Volume → Prop
  | saved {w : Volume} {p : Path}
    (hsave : (Storage.save r.value.1 (r.value.2.stamp (clock r.time)) :
      StateM Volume (Except Error Unit)) v = (.ok (), w))
    (hfree : ∀ q, v.Names r.value.1 q → ¬v.Refuses q)
    (hpath : w.filePath? r.value.1 = some p)
    (hload : (load r.value.1 : StateM Volume (Except LoadError Document)) w =
      (.ok (r.value.2.reread.stamp (clock r.time).reread), w))
    (hothers : ∀ q, q ≠ p → ∀ content,
      w.top.entryAt? q = some (.file content) ↔ v.top.entryAt? q = some (.file content)) :
    Settled clock r v w
  | failed {w : Volume} {e : Error}
    (hsave : (Storage.save r.value.1 (r.value.2.stamp (clock r.time)) :
      StateM Volume (Except Error Unit)) v = (.error e, w))
    (hrefused : ∀ q, v.Names r.value.1 q → v.Refuses q)
    (hfiles : ∀ q content,
      w.top.entryAt? q = some (.file content) ↔ v.top.entryAt? q = some (.file content)) :
    Settled clock r v w

/-- Tasks are settled one after the other. -/
inductive SettledInTurn (clock : Nat → Instant) :
    List (Run Location.Key (Location × Document)) → Volume → Volume → Prop
  | nil (v : Volume) : SettledInTurn clock [] v v
  | cons {r : Run Location.Key (Location × Document)}
    {rs : List (Run Location.Key (Location × Document))} {v u w : Volume} (h : Settled clock r v u) (hrest : SettledInTurn clock rs u w) :
    SettledInTurn clock (r :: rs) v w

/-- At a plain path a document is saved exactly if nothing refuses it. -/
theorem refuses_iff_of_save {l : Location} {d : Document} {outcome : Except Error Unit}
    (hsave : (Storage.save l d : StateM Volume (Except Error Unit)) v = (outcome, w)) {p : Path}
    (hp : v.Names l p) : v.Refuses p ↔ ∃ e, outcome = .error e := by
  have hwritten := hp.written d.render
  rw [Storage.save] at hsave
  rw [hsave] at hwritten
  cases hwritten with
  | written hfree _ => exact ⟨fun h => absurd h hfree, fun ⟨_, he⟩ => by cases he⟩
  | refused h => exact ⟨fun _ => ⟨_, rfl⟩, fun _ => h⟩

theorem settled_saved (hv : v.IsRooted) {r : Run Location.Key (Location × Document)}
    (hd : ∃ s, Document.parse s = .ok r.value.2) : Settled clock r v (saved clock v r) := by
  obtain ⟨s, hs⟩ := hd
  have hparse := Document.parse_render_stamp_of_parse hs (clock r.time)
  cases hsave : (Storage.save r.value.1 (r.value.2.stamp (clock r.time)) :
      StateM Volume (Except Error Unit)) v with
  | mk outcome w =>
    have hsaved : saved clock v r = w := congrArg Prod.snd hsave
    rw [hsaved]
    cases outcome with
    | error e =>
      exact .failed hsave (fun q hq => (refuses_iff_of_save hsave hq).2 ⟨e, rfl⟩)
        fun q content => (grows_of_writeFile_error hv hsave).file_iff q content
    | ok =>
      obtain ⟨u, p, hgrows, hwrites, hpath, hread⟩ := writes_of_writeFile_ok hv hsave
      refine .saved hsave (fun q hq hrefused => ?_) hpath ?_ fun q hq content => ?_
      · obtain ⟨e, he⟩ := (refuses_iff_of_save hsave hq).1 hrefused
        cases he
      · rw [load_of_read hread, loaded, hparse]
        rfl
      · rw [hwrites.entryAt?, if_neg hq, hgrows.file_iff]

/-! What holds of the files after any steps -/

theorem isRooted_saved (hv : v.IsRooted) (r : Run Location.Key (Location × Document)) :
    (saved clock v r).IsRooted := isRooted_writeFile hv r.value.1 _

theorem settledInTurn_foldl (hv : v.IsRooted) {rs : List (Run Location.Key (Location × Document))}
    (hd : ∀ r ∈ rs, ∃ s, Document.parse s = .ok r.value.2) :
    SettledInTurn clock rs v (rs.foldl (saved clock) v) := by
  induction rs generalizing v with
  | nil => exact .nil v
  | cons r rs ih =>
    exact .cons (settled_saved hv (hd r List.mem_cons_self))
      (ih (isRooted_saved hv r) fun t ht => hd t (List.mem_cons_of_mem r ht))

theorem isRooted_step (hv : v.IsRooted) (s : Step) : (a.step clock s v).2.IsRooted := by
  cases s with
  | request l d => exact hv
  | cancel r => exact hv
  | write l content =>
    exact isRooted_step_write ((Volume.grows_makeParent hv l).isRooted hv) l content
  | advance ms =>
    rw [files_advance]
    exact List.foldlRecOn (motive := Volume.IsRooted) _ _ hv fun v hv r _ => isRooted_saved hv r

theorem isRooted_after (hv : v.IsRooted) (steps : List Step) :
    (after clock a v steps).2.IsRooted := by
  induction steps using List.reverseRecOn with
  | nil => exact hv
  | append_singleton steps s ih =>
    rw [after_concat]
    exact isRooted_step ih s

/-- What runs in a step was asked for in one before. -/
theorem mem_of_mem_runsAt {delay : Nat} {steps : List Step} {j : Nat}
    {r : Run Location.Key (Location × Document)}
    (hr : r ∈ runsAt (steps.map (Step.task delay)) j) :
    Step.request r.value.1 r.value.2 ∈ steps := by
  obtain ⟨i, -, hi⟩ := List.mem_filterMap.1 ((perm_runsAt _ j).mem_iff.1 hr)
  obtain ⟨t, ht, htask⟩ := Option.bind_eq_some_iff.1 hi
  rw [List.getElem?_map, Option.map_eq_some_iff] at ht
  obtain ⟨s, hs, rfl⟩ := ht
  cases s with
  | request l d =>
    cases htask
    exact List.mem_of_getElem? hs
  | _ => cases htask

/-- A queue saves a document, in the file and at the time that it was requested for, exactly if no
other request for the file and no cancel comes before that time does. The document is loaded from
there, unless saving fails; then it is not tried again. Nothing else happens to the files but what
others write. -/
theorem saves_lastRequests (delay : Nat) (clock : Nat → Instant) {v : Volume} (hv : v.IsRooted)
    (steps : List Step) (hd : ∀ l d, Step.request l d ∈ steps → ∃ s, Document.parse s = .ok d) :
    let tasks := steps.map (Step.task delay)
    let before j := after clock (start delay) v (steps.take j)
    (∀ i l d, steps[i]? = some (.request l d) →
      plannedAt? tasks i = some ⟨Schedule.clock (tasks.take i) + delay, l.key, (l, d)⟩ ∧
      ((∃ j, Reaches tasks i j) ↔ ∃! j, Fires tasks i j)) ∧
    ∀ (j : Nat) (s : Step), steps[j]? = some s →
      match s with
      | .request _ _ | .cancel _ => (before (j + 1)).2 = (before j).2
      | .write l content => (before (j + 1)).2 = (Volume.overwrite l content (before j).2).2
      | .advance _ => ∃ saves : List (Run Location.Key (Location × Document)),
        saves.Perm (((List.range j).filter fun i => Fires tasks i j).filterMap (plannedAt? tasks)) ∧
        saves.Pairwise (fun r t => r.time ≤ t.time) ∧
        SettledInTurn clock saves (before j).2 (before (j + 1)).2 ∧
        ∀ r ∈ saves, (before (j + 1)).1.tasks.isWaiting r.key = false := by
  intro tasks before
  have htask : ∀ {j : Nat} {s : Step}, steps[j]? = some s → tasks[j]? = some (s.task delay) := by
    intro j s hs
    rw [List.getElem?_map, hs, Option.map_some]
  refine ⟨fun i l d hi => ⟨?_, exists_reaches_iff tasks i⟩, fun j s hs => ?_⟩
  · rw [plannedAt?, htask hi]
    rfl
  · have hnext : before (j + 1) = (before j).1.step clock s (before j).2 := by
      simp only [before, List.take_add_one, hs, Option.toList_some, after_concat]
    cases s with
    | request l d => rw [hnext]; rfl
    | cancel r => rw [hnext]; rfl
    | write l content => rw [hnext]; rfl
    | advance ms =>
      have hqueue : (before j).1 = ⟨delay, Schedule.start.after (tasks.take j)⟩ := by
        rw [tasks_after_start, List.map_take]
      have hruns : runsAt tasks j = ((before j).1.tasks.advance ms).1 := by
        rw [runsAt, htask hs, hqueue]
        rfl
      have hfiles : (before (j + 1)).2 = (runsAt tasks j).foldl (saved clock) (before j).2 := by
        rw [hnext, files_advance, hruns]
      refine ⟨runsAt tasks j, perm_runsAt tasks j, ?_, ?_, fun r hr => ?_⟩
      · rw [hruns]
        exact pairwise_runs_step _ (.advance ms)
      · rw [hfiles]
        exact settledInTurn_foldl (isRooted_after hv _) fun r hr => hd _ _ (mem_of_mem_runsAt hr)
      · have hwellFormed := wellFormed_start.after (tasks.take j)
        rw [hruns, hqueue] at hr
        rw [hnext, tasks_step, hqueue]
        exact hwellFormed.isWaiting_of_mem_runs (s := .advance ms) hr

/-- Of two requests for a location, the second of which comes in time, that one is saved. -/
theorem settled_secondRequest :
    let clock (ms : Nat) : Instant :=
      ⟨⟨2024, 2, 29⟩, 12, 0, 0, ms % 1000 * 1000000, by decide, by decide, by decide, by decide,
        by omega⟩
    let l := Location.ofText ("/".intercalate ["flow.json"])
    let first := (Document.single "note").reread
    let second := (Document.single "memo").reread
    let v : Volume := ⟨.directory [], [], none⟩
    let steps := [Step.request l first, .advance 2, .request l second, .advance 9]
    let w := (after clock (start 5) v steps).2
    (load l : StateM Volume (Except LoadError Document)) w =
      (.ok (second.reread.stamp (clock 7)), w) := by
  intro clock l first second v steps w
  have hd : ∀ l' d, Step.request l' d ∈ steps → ∃ s, Document.parse s = .ok d := by
    intro l' d h
    simp only [steps, List.mem_cons, Step.request.injEq, reduceCtorEq, List.not_mem_nil, or_false,
      false_or] at h
    obtain ⟨-, rfl⟩ | ⟨-, rfl⟩ := h
    · exact Document.exists_parse_single (by decide)
    · exact Document.exists_parse_single (by decide)
  have hkey : l.key = [.name "flow.json"] := by decide
  obtain ⟨saves, hperm, -, hsettled, -⟩ :=
    (saves_lastRequests 5 clock (v := v) rfl steps hd).2 3 (.advance 9) rfl
  have htasks : steps.map (Step.task 5) = [.plan [.name "flow.json"] (l, first) 5, .advance 2,
      .plan [.name "flow.json"] (l, second) 5, .advance 9] := by
    simp only [steps, List.map_cons, List.map_nil, Step.task, hkey]
  rw [htasks] at hperm
  generalize (l, first) = x at hperm
  have hfires (x y : Location × Document) :
      let tasks : List (Schedule.Step Location.Key (Location × Document)) :=
        [.plan [.name "flow.json"] x 5, .advance 2, .plan [.name "flow.json"] y 5, .advance 9]
      ((List.range 3).filter fun i => Fires tasks i 3).filterMap (plannedAt? tasks) =
        [⟨7, [.name "flow.json"], y⟩] := by
    cbv
  rw [hfires, List.perm_singleton] at hperm
  rw [hperm] at hsettled
  have hbefore : (after clock (start 5) v (steps.take 3)).2 = v := by
    have hruns : (((start 5).request l first).tasks.advance 2).1 = [] := by
      simp [Schedule.advance, request, plan, Slot.isDue, start, Schedule.start]
    have hfiles : (((start 5).request l first).step clock (.advance 2) v).2 =
        (((start 5).request l first).tasks.advance 2).1.foldl (saved clock) v := files_advance 2
    rw [hruns] at hfiles
    exact hfiles
  rw [hbefore] at hsettled
  cases hsettled with
  | cons h hrest =>
    cases hrest
    cases h with
    | saved _ _ _ hload _ =>
      have hstamp : (clock 7).reread = clock 7 := Instant.reread_eq_self_iff.2 (by decide)
      rw [← hstamp]
      exact hload
    | failed _ hrefused _ =>
      have hplaced : v.IsPlaced := Volume.IsRooted.isPlaced rfl rfl
      have hnames : v.Names l ["flow.json"] :=
        ⟨hplaced, by decide, Volume.fitsPath_of_bounds_eq_none rfl _, rfl⟩
      exact absurd (hrefused _ hnames) (Volume.not_refuses_of_free hplaced rfl)

end FlowDiagram.SaveQueue
