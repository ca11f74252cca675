import Mathlib.Data.List.Nodup
import Mathlib.Data.List.Infix
import Mathlib.Data.List.Perm.Subperm

/-!
# Futures

A thread launches tasks, one after the other, then takes their results in the
order in which it launched them. The tasks run concurrently, so that they finish
in any order; a result is taken when its task has finished, and a task that
raised an exception raises it again there, after which no result is taken. What
is left then are the destructors, which wait for all tasks.

* `step`: the steps of the launching thread and of the tasks; a schedule is a list
  of them.
* `taken_eq`: whatever the schedule, the results taken are those of the tasks before the
  first one that raises, and it is its exception that is raised.
* `isSome_step_next`, `length_le`: unless all is done a step can be made, and no schedule is
  longer than three steps a task. Hence a scheduler, which completes any tasks, exists
  (`Scheduler.eager`).
-/

namespace IpServer.Futures

variable {ε α : Type*}

/-- A step: the next task is launched, a task finishes, or the next result is taken. -/
inductive Label
  | launch
  | finish (i : ℕ)
  | get
  deriving DecidableEq

/-- How many tasks are launched, which have finished, and what was taken of them. -/
structure State (ε α : Type*) where
  launched : ℕ := 0
  finished : List ℕ := []
  taken : List α := []
  raised : Option ε := none

variable (tasks : List (Except ε α))

/-- A step, if it can be made. -/
def step (s : State ε α) : Label → Option (State ε α)
  | .launch =>
    if s.launched < tasks.length then some { s with launched := s.launched + 1 } else none
  | .finish i =>
    if i < s.launched ∧ i ∉ s.finished then some { s with finished := i :: s.finished } else none
  | .get =>
    if s.launched = tasks.length ∧ s.taken.length ∈ s.finished ∧ s.raised.isNone then
      match tasks[s.taken.length]? with
      | none => none
      | some (.ok a) => some { s with taken := s.taken ++ [a] }
      | some (.error e) => some { s with raised := some e }
    else none

/-- The state after a schedule, if all its steps can be made. -/
def run : State ε α → List Label → Option (State ε α)
  | s, [] => some s
  | s, l :: ls =>
    match step tasks s l with
    | none => none
    | some s => run s ls

/-- All tasks have finished, and all results are taken, or one was an exception. -/
def State.Complete (s : State ε α) : Prop :=
  s.launched = tasks.length ∧ (∀ i < tasks.length, i ∈ s.finished) ∧
    (s.raised.isSome ∨ s.taken.length = tasks.length)

/-- The results before the first exception, and that exception. -/
def collected : List (Except ε α) → List α × Option ε
  | [] => ([], none)
  | .ok a :: ts => (a :: (collected ts).1, (collected ts).2)
  | .error e :: _ => ([], some e)

/-- What holds in every state a schedule reaches. -/
structure State.Inv (s : State ε α) : Prop where
  launched_le : s.launched ≤ tasks.length
  lt_launched : ∀ i ∈ s.finished, i < s.launched
  nodup : s.finished.Nodup
  taken_prefix : s.taken.map Except.ok <+: tasks
  raised_eq : ∀ e, s.raised = some e → tasks[s.taken.length]? = some (.error e)

/-- The number of steps made. -/
def State.steps (s : State ε α) : ℕ :=
  s.launched + s.finished.length + s.taken.length + if s.raised.isSome then 1 else 0

variable {tasks} {s s' : State ε α} {ls : List Label} {l : Label}

/-- What a step does. -/
theorem step_cases (h : step tasks s l = some s') :
    (l = .launch ∧ s.launched < tasks.length ∧ s' = { s with launched := s.launched + 1 }) ∨
    (∃ i, l = .finish i ∧ i < s.launched ∧ i ∉ s.finished ∧
      s' = { s with finished := i :: s.finished }) ∨
    (l = .get ∧ s.raised = none ∧ ∃ a, tasks[s.taken.length]? = some (.ok a) ∧
      s' = { s with taken := s.taken ++ [a] }) ∨
    (l = .get ∧ s.raised = none ∧ ∃ e, tasks[s.taken.length]? = some (.error e) ∧
      s' = { s with raised := some e }) := by
  cases l with
  | launch =>
    rw [step, Option.ite_none_right_eq_some] at h
    exact .inl ⟨rfl, h.1, (Option.some_inj.1 h.2).symm⟩
  | finish i =>
    rw [step, Option.ite_none_right_eq_some] at h
    exact .inr (.inl ⟨i, rfl, h.1.1, h.1.2, (Option.some_inj.1 h.2).symm⟩)
  | get =>
    rw [step, Option.ite_none_right_eq_some] at h
    obtain ⟨⟨-, -, hraised⟩, h⟩ := h
    rw [Option.isNone_iff_eq_none] at hraised
    cases htask : tasks[s.taken.length]? with
    | none => simp [htask] at h
    | some result =>
      rw [htask] at h
      cases result with
      | ok a => exact .inr (.inr (.inl ⟨rfl, hraised, a, rfl, (Option.some_inj.1 h).symm⟩))
      | error e => exact .inr (.inr (.inr ⟨rfl, hraised, e, rfl, (Option.some_inj.1 h).symm⟩))

theorem inv_init : ({} : State ε α).Inv tasks where
  launched_le := Nat.zero_le _
  lt_launched _ h := absurd h List.not_mem_nil
  nodup := List.nodup_nil
  taken_prefix := List.nil_prefix
  raised_eq _ h := by cases h

theorem inv_step (hs : s.Inv tasks) (h : step tasks s l = some s') : s'.Inv tasks := by
  obtain ⟨-, hlt, rfl⟩ | ⟨i, -, hi, hnew, rfl⟩ | ⟨-, hraised, a, ha, rfl⟩ | ⟨-, -, e, he, rfl⟩ :=
    step_cases h
  · exact { hs with
      launched_le := hlt
      lt_launched := fun i hi => (hs.lt_launched i hi).trans (Nat.lt_succ_self _) }
  · exact { hs with
      lt_launched := List.forall_mem_cons.2 ⟨hi, hs.lt_launched⟩
      nodup := List.nodup_cons.2 ⟨hnew, hs.nodup⟩ }
  · refine { hs with taken_prefix := ?_, raised_eq := fun e he => ?_ }
    · obtain ⟨rest, hrest⟩ := hs.taken_prefix
      rw [← hrest, List.getElem?_append_right (by rw [List.length_map]), List.length_map,
        Nat.sub_self] at ha
      cases rest with
      | nil => cases ha
      | cons t rest =>
        obtain rfl := Option.some_inj.1 ha
        exact ⟨rest, by rw [← hrest, List.map_append, List.append_assoc]; rfl⟩
    · exact absurd (hraised.symm.trans he) (by simp)
  · exact { hs with
      raised_eq := fun e' he' => by
        obtain rfl := Option.some_inj.1 he'
        exact he }

theorem steps_step (h : step tasks s l = some s') : s'.steps = s.steps + 1 := by
  obtain ⟨-, -, rfl⟩ | ⟨i, -, -, -, rfl⟩ | ⟨-, -, a, -, rfl⟩ | ⟨-, hraised, e, -, rfl⟩ :=
    step_cases h
  · simp only [State.steps]
    omega
  · simp only [State.steps, List.length_cons]
    omega
  · simp only [State.steps, List.length_append, List.length_singleton]
    omega
  · simp [State.steps, hraised]

theorem run_cons_eq_some : run tasks s (l :: ls) = some s' ↔
    ∃ t, step tasks s l = some t ∧ run tasks t ls = some s' := by
  rw [run]
  cases step tasks s l with
  | none => simp
  | some t => simp

theorem inv_run (hs : s.Inv tasks) (h : run tasks s ls = some s') : s'.Inv tasks := by
  induction ls generalizing s with
  | nil => exact Option.some_inj.1 h ▸ hs
  | cons l ls ih =>
    obtain ⟨t, hl, hls⟩ := run_cons_eq_some.1 h
    exact ih (inv_step hs hl) hls

theorem steps_run (h : run tasks s ls = some s') : s'.steps = s.steps + ls.length := by
  induction ls generalizing s with
  | nil => rw [← Option.some_inj.1 h, List.length_nil, Nat.add_zero]
  | cons l ls ih =>
    obtain ⟨t, hl, hls⟩ := run_cons_eq_some.1 h
    rw [ih hls, steps_step hl, List.length_cons]
    omega

/-! ### The results do not depend on the schedule -/

theorem collected_map_ok (as : List α) : collected (as.map (Except.ok (ε := ε))) = (as, none) := by
  induction as with
  | nil => rfl
  | cons a as ih => rw [List.map_cons, collected, ih]

/-- If there is no exception, there is a result for each task. -/
theorem eq_map_of_collected {ts : List (Except ε α)} (h : (collected ts).2 = none) :
    ts = (collected ts).1.map Except.ok := by
  induction ts with
  | nil => rfl
  | cons t ts ih =>
    cases t with
    | ok a => exact congrArg (Except.ok a :: ·) (ih h)
    | error e => cases h

theorem collected_error (as : List α) (e : ε) (rest : List (Except ε α)) :
    collected (as.map Except.ok ++ .error e :: rest) = (as, some e) := by
  induction as with
  | nil => rfl
  | cons a as ih => rw [List.map_cons, List.cons_append, collected, ih]

/-- What is made of each result is made of those that are taken. -/
theorem collected_map {β : Type*} (f : α → β) (ts : List (Except ε α)) :
    collected (ts.map (Except.map f)) = ((collected ts).1.map f, (collected ts).2) := by
  induction ts with
  | nil => rfl
  | cons t ts ih =>
    cases t with
    | ok a =>
      rw [List.map_cons, collected, Except.map, collected, ih]
      rfl
    | error e => rfl

theorem State.Inv.taken_eq (hs : s.Inv tasks) (hc : s.Complete tasks) :
    (s.taken, s.raised) = collected tasks := by
  obtain ⟨rest, hrest⟩ := hs.taken_prefix
  cases hraised : s.raised with
  | none =>
    have hlen : s.taken.length = tasks.length := by simpa [hraised] using hc.2.2
    have hnil : rest = [] := by
      rw [← hrest, List.length_append, List.length_map] at hlen
      exact List.length_eq_zero_iff.1 (by omega)
    rw [← hrest, hnil, List.append_nil, collected_map_ok]
  | some e =>
    have he := hs.raised_eq e hraised
    rw [← hrest, List.getElem?_append_right (by rw [List.length_map]), List.length_map,
      Nat.sub_self] at he
    cases rest with
    | nil => cases he
    | cons t rest =>
      obtain rfl := Option.some_inj.1 he
      rw [← hrest, collected_error]

/-- In whatever order the tasks finish, the results taken are those before the first
    exception. -/
theorem taken_eq (h : run tasks {} ls = some s) (hc : s.Complete tasks) :
    (s.taken, s.raised) = collected tasks := (inv_run inv_init h).taken_eq hc

/-! ### Progress -/

theorem State.Inv.finished_length_le (hs : s.Inv tasks) : s.finished.length ≤ s.launched := by
  have hsub : s.finished ⊆ List.range s.launched := fun i hi =>
    List.mem_range.2 (hs.lt_launched i hi)
  simpa using (hs.nodup.subperm hsub).length_le

theorem State.Inv.steps_le (hs : s.Inv tasks) : s.steps ≤ 3 * tasks.length := by
  have hfinished := hs.finished_length_le
  have hlaunched := hs.launched_le
  have htaken := hs.taken_prefix.length_le
  rw [List.length_map] at htaken
  rw [State.steps]
  cases hraised : s.raised with
  | none =>
    simp only [Option.isSome_none, Bool.false_eq_true, if_false]
    omega
  | some e =>
    obtain ⟨hlt, -⟩ := List.getElem?_eq_some_iff.1 (hs.raised_eq e hraised)
    simp only [Option.isSome_some, if_true]
    omega

/-- No schedule is longer than three steps a task. -/
theorem length_le (h : run tasks {} ls = some s) : ls.length ≤ 3 * tasks.length := by
  have hsteps := steps_run h
  have hle := (inv_run inv_init h).steps_le
  omega

variable (tasks)

/-- A step that can be made, unless all is done: tasks are launched before any finishes, and
    have finished before a result is taken. -/
def next (s : State ε α) : Label :=
  if s.launched < tasks.length then .launch
  else
    match (List.range tasks.length).find? (· ∉ s.finished) with
    | some i => .finish i
    | none => .get

variable {tasks}

/-- Unless all is done, a step can be made. -/
theorem State.Inv.isSome_step_next (hs : s.Inv tasks) (hc : ¬s.Complete tasks) :
    (step tasks s (next tasks s)).isSome := by
  rw [next]
  split
  · next hlt => rw [step, if_pos hlt, Option.isSome_some]
  · next hlaunched =>
    have hlaunched : s.launched = tasks.length := by
      have := hs.launched_le
      omega
    -- all tasks are launched: one is to finish, or all have finished and one is to be taken
    cases hfind : (List.range tasks.length).find? (· ∉ s.finished) with
    | some i =>
      have hi := List.mem_range.1 (List.mem_of_find?_eq_some hfind)
      have hnew : i ∉ s.finished := by simpa using List.find?_some hfind
      simp only [step, hlaunched, if_pos (And.intro hi hnew), Option.isSome_some]
    | none =>
      have hall : ∀ i < tasks.length, i ∈ s.finished := fun i hi => by
        simpa using List.find?_eq_none.1 hfind i (List.mem_range.2 hi)
      have hopen : s.raised = none ∧ s.taken.length < tasks.length := by
        have hle := hs.taken_prefix.length_le
        rw [List.length_map] at hle
        rw [State.Complete, not_and, not_and, not_or] at hc
        obtain ⟨hraised, htaken⟩ := hc hlaunched hall
        exact ⟨Option.not_isSome_iff_eq_none.1 hraised, by omega⟩
      simp only [step, hlaunched, hall _ hopen.2, hopen.1, Option.isNone_none, and_self, if_true,
        List.getElem?_eq_getElem hopen.2]
      cases tasks[s.taken.length] <;> rfl

variable (tasks)

/-- The schedule that makes the next step as long as one can be made, at most `fuel` of them. -/
def eager : ℕ → State ε α → List Label
  | 0, _ => []
  | fuel + 1, s =>
    match step tasks s (next tasks s) with
    | none => []
    | some s' => next tasks s :: eager fuel s'

variable {tasks}

theorem run_eager {fuel : ℕ} (hs : s.Inv tasks) (hfuel : 3 * tasks.length < s.steps + fuel) :
    ∃ s', run tasks s (eager tasks fuel s) = some s' ∧ s'.Complete tasks := by
  induction fuel generalizing s with
  | zero => exact absurd hs.steps_le (by omega)
  | succ fuel ih =>
    rw [eager]
    cases hstep : step tasks s (next tasks s) with
    | none =>
      refine ⟨s, rfl, ?_⟩
      by_contra hc
      simpa [hstep] using hs.isSome_step_next hc
    | some t =>
      obtain ⟨s', hrun, hc⟩ := ih (inv_step hs hstep) (by rw [steps_step hstep]; omega)
      exact ⟨s', run_cons_eq_some.2 ⟨t, hstep, hrun⟩, hc⟩

/-- A scheduler gives any tasks a schedule that completes them. -/
structure Scheduler (ε α : Type*) where
  labels : List (Except ε α) → List Label
  complete : ∀ tasks, ∃ s, run tasks {} (labels tasks) = some s ∧ s.Complete tasks

namespace Scheduler

/-- The scheduler that makes the next step as long as one can be made. -/
def eager : Scheduler ε α where
  labels tasks := Futures.eager tasks (3 * tasks.length + 1) {}
  complete tasks := run_eager inv_init (by simp [State.steps])

variable (scheduler : Scheduler ε α)

/-- The state in which the tasks are completed. -/
def final (tasks : List (Except ε α)) : State ε α :=
  (run tasks {} (scheduler.labels tasks)).getD {}

theorem final_eq (tasks : List (Except ε α)) :
    ((scheduler.final tasks).taken, (scheduler.final tasks).raised) = collected tasks := by
  obtain ⟨s, hrun, hc⟩ := scheduler.complete tasks
  rw [final, hrun, Option.getD_some]
  exact taken_eq hrun hc

end Scheduler

end IpServer.Futures
