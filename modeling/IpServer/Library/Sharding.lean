import Mathlib.Logic.Function.Basic
import IpServer.Library.Machine

/-!
# Sharded machines

A family of copies of one machine, each input being routed to one of them. The
copies do not interact: a run of the family is, on each copy, the run of the
inputs routed to it (`run_sharded`), and two inputs routed to different copies
commute (`sharded_fst_comm`, `sharded_snd_comm`).
-/

namespace IpServer.Machine

variable {ι σ α β : Type*} [DecidableEq ι] (m : Machine σ α β) (route : α → ι)

/-- The family: an input is given to the copy it is routed to. -/
def sharded : Machine (ι → σ) α β := fun s a =>
  ((m (s (route a)) a).1, Function.update s (route a) (m (s (route a)) a).2)

variable {m route}

theorem sharded_fst (s : ι → σ) (a : α) : (m.sharded route s a).1 = (m (s (route a)) a).1 := rfl

theorem sharded_snd_self (s : ι → σ) (a : α) :
    (m.sharded route s a).2 (route a) = (m (s (route a)) a).2 :=
  Function.update_self ..

theorem sharded_snd_of_ne (s : ι → σ) {a : α} {i : ι} (h : i ≠ route a) :
    (m.sharded route s a).2 i = s i :=
  Function.update_of_ne h ..

/-- What every step of the machine preserves, a step of the family preserves on each copy. -/
theorem sharded_invariant {I : σ → Prop} (hstep : ∀ s a, I s → I (m s a).2) {s : ι → σ} (a : α)
    (hs : ∀ i, I (s i)) (i : ι) : I ((m.sharded route s a).2 i) := by
  by_cases hi : i = route a
  · subst hi
    rw [sharded_snd_self]
    exact hstep _ a (hs _)
  · rw [sharded_snd_of_ne s hi]
    exact hs i

/-- On each copy, a run of the family is the run of the inputs routed to it. -/
theorem run_sharded (s : ι → σ) (as : List α) (i : ι) :
    (m.sharded route).run s as i = m.run (s i) (as.filter (route · = i)) := by
  induction as generalizing s with
  | nil => rfl
  | cons a as ih =>
    rw [run_cons, ih]
    by_cases hi : i = route a
    · subst hi
      rw [sharded_snd_self, List.filter_cons_of_pos (by simp), run_cons]
    · rw [sharded_snd_of_ne s hi, List.filter_cons_of_neg (by simpa using Ne.symm hi)]

/-- A condition on the steps of a run of the family, stated on the copy the input is
    routed to, is a condition on the run of each copy. -/
theorem along_sharded {P : σ → α → Prop} {s : ι → σ} {as : List α}
    (h : (m.sharded route).Along (fun s a => P (s (route a)) a) s as) (i : ι) :
    m.Along P (s i) (as.filter (route · = i)) := by
  induction as generalizing s with
  | nil => trivial
  | cons a as ih =>
    have hrest := ih h.2
    by_cases hi : i = route a
    · subst hi
      rw [sharded_snd_self] at hrest
      rw [List.filter_cons_of_pos (by simp)]
      exact ⟨h.1, hrest⟩
    · rw [sharded_snd_of_ne s hi] at hrest
      rwa [List.filter_cons_of_neg (by simpa using Ne.symm hi)]

/-- Two inputs routed to different copies give the same answers in either order. -/
theorem sharded_fst_comm (s : ι → σ) {a b : α} (h : route a ≠ route b) :
    (m.sharded route (m.sharded route s b).2 a).1 = (m.sharded route s a).1 := by
  rw [sharded_fst, sharded_fst, sharded_snd_of_ne s h]

/-- Two inputs routed to different copies lead to the same state in either order. -/
theorem sharded_snd_comm (s : ι → σ) {a b : α} (h : route a ≠ route b) :
    (m.sharded route (m.sharded route s a).2 b).2 =
      (m.sharded route (m.sharded route s b).2 a).2 := by
  simp only [sharded]
  rw [Function.update_of_ne h.symm, Function.update_of_ne h, Function.update_comm h]

end IpServer.Machine
