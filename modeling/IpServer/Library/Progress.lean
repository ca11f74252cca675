import IpServer.Library.Machine

/-!
# Progress

Threads whose steps are those of a machine reach a goal if, in every state before it, some of the
steps help: such a step lowers a rank, and any other step lowers it too, or leaves it and what
helps as they are (`Machine.Progress`). No order of the threads is fixed. A round is a part of a
run in which every thread gets its turn, so that it holds a step that helps, whatever state it
starts in.

* `Progress.run_round`: a round reaches the goal, or lowers the rank.
* `Progress.reaches`: as many rounds as the rank says reach the goal.
-/

namespace IpServer.Machine

variable {σ α β : Type*}

/-- Before the goal, a step that helps lowers the rank, and another one does no harm. The steps
    meet `P`, and the states `I`. -/
structure Progress (m : Machine σ α β) (P : σ → α → Prop) (I : σ → Prop) (rank : σ → ℕ)
    (Helps : σ → α → Prop) (Goal : σ → Prop) : Prop where
  keeps : ∀ s a, I s → P s a → I (m s a).2
  stays : ∀ s a, Goal s → Goal (m s a).2
  helps : ∀ s a, I s → P s a → ¬Goal s → Helps s a → Goal (m s a).2 ∨ rank (m s a).2 < rank s
  unharmed : ∀ s a, I s → P s a → ¬Goal s → Goal (m s a).2 ∨ rank (m s a).2 < rank s ∨
    rank (m s a).2 = rank s ∧ ∀ b, Helps s b → Helps (m s a).2 b

/-- Whatever state it starts in, a round holds a step that helps. -/
def Round (I : σ → Prop) (Helps : σ → α → Prop) (Goal : σ → Prop) (round : List α) : Prop :=
  ∀ s, I s → ¬Goal s → ∃ a ∈ round, Helps s a

namespace Progress

variable {m : Machine σ α β} {P : σ → α → Prop} {I : σ → Prop} {rank : σ → ℕ}
  {Helps : σ → α → Prop} {Goal : σ → Prop} {s : σ} {as : List α}

theorem goal_run (h : m.Progress P I rank Helps Goal) (hs : Goal s) : Goal (m.run s as) :=
  run_invariant (fun s a => h.stays s a) as hs

theorem inv_run (h : m.Progress P I rank Helps Goal) (hs : I s) (hP : m.Along P s as) :
    I (m.run s as) :=
  run_induction (fun s a => h.keeps s a) hs hP

/-- The rank never rises. -/
theorem rank_run_le (h : m.Progress P I rank Helps Goal) (hs : I s) (hP : m.Along P s as) :
    Goal (m.run s as) ∨ rank (m.run s as) ≤ rank s := by
  induction as generalizing s with
  | nil => exact .inr (Nat.le_refl _)
  | cons a as ih =>
    by_cases hgoal : Goal s
    · exact .inl (h.goal_run hgoal)
    · rw [run_cons]
      rcases h.unharmed s a hs hP.1 hgoal with hreached | hstep
      · exact .inl (h.goal_run hreached)
      · have hle : rank (m s a).2 ≤ rank s := hstep.elim Nat.le_of_lt fun heq => Nat.le_of_eq heq.1
        exact (ih (h.keeps s a hs hP.1) hP.2).imp_right (Nat.le_trans · hle)

/-- A part of a run with a step that would help at its start reaches the goal, or lowers the
    rank. -/
theorem run_round (h : m.Progress P I rank Helps Goal) (hs : I s) (hP : m.Along P s as)
    (hhelps : ∃ a ∈ as, Helps s a) : Goal (m.run s as) ∨ rank (m.run s as) < rank s := by
  induction as generalizing s with
  | nil =>
    obtain ⟨a, ha, -⟩ := hhelps
    exact absurd ha List.not_mem_nil
  | cons b as ih =>
    by_cases hgoal : Goal s
    · exact .inl (h.goal_run hgoal)
    rw [run_cons]
    have hrest := h.rank_run_le (h.keeps s b hs hP.1) hP.2
    -- once the rank is lower, it stays lower
    have hlower (hlt : rank (m s b).2 < rank s) :
        Goal (m.run (m s b).2 as) ∨ rank (m.run (m s b).2 as) < rank s :=
      hrest.imp_right fun hle => Nat.lt_of_le_of_lt hle hlt
    rcases h.unharmed s b hs hP.1 hgoal with hreached | hlt | ⟨heq, hsame⟩
    · exact .inl (h.goal_run hreached)
    · exact hlower hlt
    · obtain ⟨a, ha, hhelp⟩ := hhelps
      rcases List.mem_cons.1 ha with rfl | ha
      · rcases h.helps s a hs hP.1 hgoal hhelp with hreached | hlt
        · exact .inl (h.goal_run hreached)
        · exact hlower hlt
      · rw [← heq]
        exact ih (h.keeps s b hs hP.1) hP.2 ⟨a, ha, hsame a hhelp⟩

/-- As many rounds as the rank says reach the goal. -/
theorem reaches (h : m.Progress P I rank Helps Goal) {rounds : List (List α)} (hs : I s)
    (hP : m.Along P s rounds.flatten) (hrounds : ∀ r ∈ rounds, Round I Helps Goal r)
    (hrank : rank s < rounds.length) : Goal (m.run s rounds.flatten) := by
  induction rounds generalizing s with
  | nil => exact absurd hrank (Nat.not_lt_zero _)
  | cons r rounds ih =>
    rw [List.flatten_cons] at hP ⊢
    rw [run_append]
    obtain ⟨hr, hrest⟩ := along_append.1 hP
    by_cases hgoal : Goal s
    · exact h.goal_run (h.goal_run hgoal)
    rcases h.run_round hs hr (hrounds r List.mem_cons_self s hs hgoal) with hreached | hlt
    · exact h.goal_run hreached
    · refine ih (h.inv_run hs hr) hrest (fun r' hr' => hrounds r' (List.mem_cons_of_mem r hr')) ?_
      rw [List.length_cons] at hrank
      omega

end Progress

end IpServer.Machine
