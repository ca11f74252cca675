import Mathlib.Algebra.BigOperators.Group.Finset.Basic
import Mathlib.Algebra.BigOperators.Group.Finset.Piecewise
import Mathlib.Algebra.Order.BigOperators.Group.Finset
import Mathlib.Data.Fintype.BigOperators

/-!
# Interleavings

Threads that each take a list of atomic steps, in any order between them. A run is
the list of the steps taken so far, each with its thread: it interleaves the threads
if what it holds of each of them is how that thread starts (`Interleaves`).

* `countP_eq_sum`: what a run holds, it holds of its threads.
* `Interleaves.countP_le`: a bound on how every thread starts is a bound on every run.
-/

namespace IpServer

variable {ι α : Type*} [DecidableEq ι]

/-- The steps of one thread in a run. -/
def ofThread (i : ι) (run : List (ι × α)) : List α :=
  run.filterMap fun step => if step.1 = i then some step.2 else none

/-- Each thread has taken some of its first steps, in order. -/
def Interleaves (threads : ι → List α) (run : List (ι × α)) : Prop :=
  ∀ i, ofThread i run <+: threads i

variable {threads : ι → List α} {run : List (ι × α)} {p q : α → Bool}

@[simp] theorem ofThread_append (i : ι) (run rest : List (ι × α)) :
    ofThread i (run ++ rest) = ofThread i run ++ ofThread i rest :=
  List.filterMap_append

theorem ofThread_cons (i : ι) (step : ι × α) (run : List (ι × α)) :
    ofThread i (step :: run) = (if step.1 = i then [step.2] else []) ++ ofThread i run := by
  rw [ofThread, List.filterMap_cons]
  split
  · next hnone =>
    rw [ite_eq_right_iff] at hnone
    rw [if_neg fun h => nomatch hnone h]
    rfl
  · next a hsome =>
    obtain ⟨h, ha⟩ := Option.ite_none_right_eq_some.1 hsome
    rw [if_pos h, ← Option.some_inj.1 ha]
    rfl

theorem ofThread_map (i j : ι) (steps : List α) :
    ofThread i (steps.map (j, ·)) = if j = i then steps else [] := by
  rw [ofThread, List.filterMap_map]
  split
  · next h => simp [h]
  · next h => simp [h]

theorem mem_ofThread {i : ι} {a : α} : a ∈ ofThread i run ↔ (i, a) ∈ run := by
  rw [ofThread, List.mem_filterMap]
  constructor
  · rintro ⟨⟨j, b⟩, hmem, hstep⟩
    obtain ⟨rfl, hb⟩ := Option.ite_none_right_eq_some.1 hstep
    exact Option.some_inj.1 hb ▸ hmem
  · intro hmem
    exact ⟨(i, a), hmem, if_pos rfl⟩

namespace Interleaves

theorem of_append {rest : List (ι × α)} (h : Interleaves threads (run ++ rest)) :
    Interleaves threads run := fun i => by
  have hi := h i
  rw [ofThread_append] at hi
  exact (List.prefix_append _ _).trans hi

/-- One thread may run alone. -/
theorem of_single {i : ι} {steps : List α} (h : steps <+: threads i) :
    Interleaves threads (steps.map (i, ·)) := fun j => by
  rw [ofThread_map]
  split
  · next hij => exact hij ▸ h
  · exact List.nil_prefix

/-- Every step of a run is one of a thread. -/
theorem mem (h : Interleaves threads run) {step : ι × α} (hstep : step ∈ run) :
    step.2 ∈ threads step.1 :=
  (h step.1).subset (mem_ofThread.2 hstep)

end Interleaves

variable [Fintype ι]

/-- The steps of a run are those of its threads. -/
theorem countP_eq_sum (p : α → Bool) (run : List (ι × α)) :
    (run.map Prod.snd).countP p = ∑ i, (ofThread i run).countP p := by
  induction run with
  | nil => simp [ofThread]
  | cons step run ih =>
    obtain ⟨j, a⟩ := step
    have hhead : ∑ i, (if j = i then [a] else []).countP p = [a].countP p := by
      simp only [apply_ite (List.countP p), List.countP_nil, Finset.sum_ite_eq, Finset.mem_univ,
        if_true]
    simp only [ofThread_cons, List.countP_append, Finset.sum_add_distrib, hhead, ← ih]
    rw [List.map_cons, ← List.singleton_append, List.countP_append]

/-- What holds however a thread has started, on how many steps of two kinds it has taken, holds
    of every run. -/
theorem Interleaves.countP_le (h : Interleaves threads run)
    (hle : ∀ i steps, steps <+: threads i → steps.countP p ≤ steps.countP q) :
    (run.map Prod.snd).countP p ≤ (run.map Prod.snd).countP q := by
  rw [countP_eq_sum, countP_eq_sum]
  exact Finset.sum_le_sum fun i _ => hle i _ (h i)

/-- A run takes no more steps than its threads have. -/
theorem Interleaves.countP_le_sum (h : Interleaves threads run) (p : α → Bool) :
    (run.map Prod.snd).countP p ≤ ∑ i, (threads i).countP p := by
  rw [countP_eq_sum]
  exact Finset.sum_le_sum fun i _ => (h i).sublist.countP_le

end IpServer
