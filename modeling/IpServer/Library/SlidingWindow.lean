import Mathlib.Algebra.Order.Group.Defs
import Mathlib.Algebra.Order.Sub.Defs
import Mathlib.Algebra.Order.Group.Unbundled.Basic
import Mathlib.Data.List.Sort
import Mathlib.Data.List.TakeWhile

/-!
# Sliding windows

A log of times, of which only those within a window of length `w` before the
current time count. The log is kept as the part of it that is left after some
times that no longer count have been dropped from its front (`Window`): dropping
more of them, appending a time and letting time pass keep it so, and what is
left after pruning is exactly what counts (`Window.prune_eq_live`).

An admission has two readings, one that is recorded and one at which the log is
looked at. Where each admission of a sequence found fewer than `k` of the earlier
ones in its window (`Paced`), any `k + 1` of them span more than `w`
(`Paced.span_gt`), and no interval of length `w` holds more than `k`
(`Paced.length_within_le`).
-/

namespace IpServer.SlidingWindow

variable {T : Type*} [AddCommGroup T] [LinearOrder T]

/-- Drop the times older than `w` from the front. -/
def prune (w now : T) (ts : List T) : List T := ts.dropWhile fun t => decide (now - t > w)

/-- The times that count: those not older than `w`. -/
def live (w now : T) (log : List T) : List T := log.filter fun t => decide (now - t ≤ w)

/-- `ts` is the log without some of its first times, which no longer count at `now`. -/
def Window (w now : T) (log ts : List T) : Prop :=
  ∃ old, log = old ++ ts ∧ ∀ t ∈ old, now - t > w

variable {w now now' : T} {log ts : List T}

theorem live_eq_nil (h : ∀ t ∈ log, now - t > w) : live w now log = [] :=
  List.filter_eq_nil_iff.2 fun t ht => by simpa only [decide_eq_true_eq, not_le] using h t ht

theorem prune_sublist (w now : T) (ts : List T) : (prune w now ts).Sublist ts :=
  List.dropWhile_sublist _

/-- Times that all count are kept. -/
theorem prune_eq_self (h : ∀ t ∈ ts, now - t ≤ w) : prune w now ts = ts := by
  rcases ts with _ | ⟨t, ts⟩
  · rfl
  · have ht : ¬decide (now - t > w) = true := by
      simpa only [decide_eq_true_eq, not_lt] using h t List.mem_cons_self
    exact List.dropWhile_cons_of_neg ht

theorem Window.nil (w now : T) : Window w now [] [] :=
  ⟨[], rfl, fun _ h => absurd h List.not_mem_nil⟩

/-- A new time is appended to both. -/
theorem Window.append (h : Window w now log ts) (new : List T) :
    Window w now (log ++ new) (ts ++ new) := by
  obtain ⟨old, hlog, hold⟩ := h
  exact ⟨old, by rw [hlog, List.append_assoc], hold⟩

/-- Pruning drops times that no longer count. -/
theorem Window.prune (h : Window w now log ts) :
    Window w now log (SlidingWindow.prune w now ts) := by
  obtain ⟨old, hlog, hold⟩ := h
  refine ⟨old ++ ts.takeWhile fun t => decide (now - t > w), ?_, fun t ht => ?_⟩
  · rw [hlog, List.append_assoc, SlidingWindow.prune, List.takeWhile_append_dropWhile]
  · rcases List.mem_append.1 ht with ht | ht
    · exact hold t ht
    · simpa only [decide_eq_true_eq] using List.mem_takeWhile_imp ht

variable [IsOrderedAddMonoid T]

/-- On a log in order, pruning leaves exactly the times that count. -/
theorem prune_eq_live (h : ts.Pairwise (· ≤ ·)) : prune w now ts = live w now ts := by
  induction ts with
  | nil => rfl
  | cons t ts ih =>
    obtain ⟨hle, hts⟩ := List.pairwise_cons.1 h
    by_cases ht : now - t > w
    · rw [prune, List.dropWhile_cons_of_pos (by simpa only [decide_eq_true_eq] using ht), live,
        List.filter_cons_of_neg (by simpa only [decide_eq_true_eq, not_le] using ht)]
      exact ih hts
    · have hall : ∀ t' ∈ t :: ts, now - t' ≤ w := fun t' ht' => by
        rcases List.mem_cons.1 ht' with rfl | ht'
        · exact not_lt.1 ht
        · exact (sub_le_sub_left (hle t' ht') now).trans (not_lt.1 ht)
      rw [prune, List.dropWhile_cons_of_neg (by simpa only [decide_eq_true_eq] using ht), live,
        List.filter_eq_self.2 fun t' ht' => decide_eq_true (hall t' ht')]

/-- What is dropped earlier would be dropped later. -/
theorem prune_prune (hnow : now ≤ now') (ts : List T) :
    prune w now' (prune w now ts) = prune w now' ts := by
  induction ts with
  | nil => rfl
  | cons t ts ih =>
    by_cases ht : now - t > w
    · have ht' : now' - t > w := ht.trans_le (sub_le_sub_right hnow t)
      have hdrop : prune w now (t :: ts) = prune w now ts :=
        List.dropWhile_cons_of_pos (decide_eq_true ht)
      have hdrop' : prune w now' (t :: ts) = prune w now' ts :=
        List.dropWhile_cons_of_pos (decide_eq_true ht')
      rw [hdrop, hdrop', ih]
    · have hkeep : prune w now (t :: ts) = t :: ts :=
        List.dropWhile_cons_of_neg (by simpa only [decide_eq_true_eq] using ht)
      rw [hkeep]

namespace Window

/-- What no longer counts does not count later. -/
theorem mono (h : Window w now log ts) (hnow : now ≤ now') : Window w now' log ts := by
  obtain ⟨old, hlog, hold⟩ := h
  exact ⟨old, hlog, fun t ht => (hold t ht).trans_le (sub_le_sub_right hnow t)⟩

/-- What is left of a log in order, pruned, is what counts of the log. -/
theorem prune_eq_live (h : Window w now log ts) (hlog : log.Pairwise (· ≤ ·)) :
    SlidingWindow.prune w now ts = live w now log := by
  obtain ⟨old, rfl, hold⟩ := h
  rw [SlidingWindow.prune_eq_live (List.pairwise_append.1 hlog).2.1]
  have hnil := live_eq_nil hold
  simp only [live] at hnil ⊢
  rw [List.filter_append, hnil, List.nil_append]

/-- When nothing is left, nothing counts, now or later. -/
theorem live_eq_nil (h : Window w now log []) (hnow : now ≤ now') : live w now' log = [] := by
  obtain ⟨old, hlog, hold⟩ := h.mono hnow
  rw [hlog, List.append_nil]
  exact SlidingWindow.live_eq_nil hold

end Window

/-- An admission: the time that was recorded, and the time at which the log was pruned. -/
structure Admission (T : Type*) where
  recorded : T
  pruned : T
  deriving DecidableEq, Repr

/-- Each admission found fewer than `k` of the earlier ones in its window. -/
def Paced (k : ℕ) (w : T) (as : List (Admission T)) : Prop :=
  ∀ pre a post, as = pre ++ a :: post → (live w a.pruned (pre.map (·.recorded))).length < k

variable {k : ℕ} {as block : List (Admission T)}

omit [IsOrderedAddMonoid T] in
theorem Paced.nil : Paced k w ([] : List (Admission T)) := fun pre a post h => by simp at h

omit [IsOrderedAddMonoid T] in
theorem Paced.concat (h : Paced k w as) {a : Admission T}
    (ha : (live w a.pruned (as.map (·.recorded))).length < k) : Paced k w (as ++ [a]) := by
  intro pre b post heq
  rcases List.eq_nil_or_concat post with rfl | ⟨post, c, rfl⟩
  · obtain ⟨rfl, hb⟩ := List.append_inj' heq rfl
    obtain rfl : a = b := by simpa using hb
    exact ha
  · refine h pre b post ?_
    rw [List.concat_eq_append, ← List.cons_append, ← List.append_assoc] at heq
    exact (List.append_inj' heq rfl).1

/-- Any `k + 1` admissions, from the time recorded for the first to the time the last
    looked at the log, span more than the window. -/
theorem Paced.span_gt (h : Paced k w as) (hsorted : (as.map (·.recorded)).Pairwise (· ≤ ·))
    (hblock : block.Sublist as) (hlen : block.length = k + 1) {first last : Admission T}
    (hfirst : block.head? = some first) (hlast : block.getLast? = some last) :
    last.pruned - first.recorded > w := by
  by_contra hspan
  obtain ⟨init, rfl⟩ := List.getLast?_eq_some_iff.1 hlast
  obtain ⟨xs, ys, rfl, hinit, hys⟩ := List.append_sublist_iff.1 hblock
  obtain ⟨ys₁, ys₂, rfl⟩ := List.append_of_mem (List.singleton_sublist.1 hys)
  have hcount := h (xs ++ ys₁) last ys₂ (by simp)
  have hsub : (init.map (·.recorded)).Sublist ((xs ++ ys₁).map (·.recorded)) :=
    (hinit.trans (List.sublist_append_left xs ys₁)).map _
  have hall : ∀ t ∈ init.map (·.recorded), last.pruned - t ≤ w := by
    intro t ht
    have hle : first.recorded ≤ t := by
      cases init with
      | nil => simp at ht
      | cons a init =>
        obtain rfl : a = first := by simpa using hfirst
        have hpair := hsorted.sublist
          ((hinit.trans (List.sublist_append_left xs (ys₁ ++ last :: ys₂))).map (·.recorded))
        rw [List.map_cons, List.pairwise_cons] at hpair
        rcases List.mem_cons.1 ht with rfl | ht
        · exact le_refl _
        · exact hpair.1 t ht
    exact (sub_le_sub_left hle _).trans (not_lt.1 hspan)
  have hlive : (live w last.pruned (init.map (·.recorded))) = init.map (·.recorded) :=
    List.filter_eq_self.2 fun t ht => decide_eq_true (hall t ht)
  have hle := (hsub.filter fun t => decide (last.pruned - t ≤ w)).length_le
  rw [← live, ← live, hlive, List.length_map] at hle
  simp only [List.length_append, List.length_singleton] at hlen
  omega

/-- At most `k` admissions are recorded and checked within an interval of length `w`. -/
theorem Paced.length_within_le (h : Paced k w as)
    (hsorted : (as.map (·.recorded)).Pairwise (· ≤ ·)) (t : T) :
    (as.filter fun a => decide (t ≤ a.recorded ∧ a.pruned ≤ t + w)).length ≤ k := by
  by_contra hlen
  set within := as.filter fun a => decide (t ≤ a.recorded ∧ a.pruned ≤ t + w)
  have hmem : ∀ a ∈ within.take (k + 1), t ≤ a.recorded ∧ a.pruned ≤ t + w := fun a ha =>
    of_decide_eq_true (List.mem_filter.1 (List.mem_of_mem_take ha)).2
  have htake : (within.take (k + 1)).length = k + 1 := List.length_take_of_le (by omega)
  have hne : within.take (k + 1) ≠ [] := List.ne_nil_of_length_eq_add_one htake
  have hfirst := List.head?_eq_some_head hne
  have hlast := List.getLast?_eq_some_getLast hne
  have hspan := h.span_gt hsorted ((List.take_sublist _ _).trans List.filter_sublist) htake
    hfirst hlast
  have hle : ((within.take (k + 1)).getLast hne).pruned
      - ((within.take (k + 1)).head hne).recorded ≤ w := by
    rw [sub_le_iff_le_add']
    exact (hmem _ (List.getLast_mem hne)).2.trans
      (add_le_add_left (hmem _ (List.head_mem hne)).1 w)
  exact absurd hspan (not_lt.2 hle)

end IpServer.SlidingWindow
