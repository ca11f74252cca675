import Mathlib.Data.List.Basic

/-!
# Machines

A deterministic component that is called from outside: on each input it gives
an answer and moves to its next state. A run is the list of the inputs it is
given; what else may vary between two runs (the clock readings, the outcomes of
random draws, what another thread does in between) is part of the inputs.

* `Machine.run`, `Machine.answers`: the state after a run, and its answers;
* `Machine.Along`: a condition on each step of a run, on the input and the state
  it meets;
* `Machine.emitted`: what the steps of a run leave behind, in order;
* `Machine.run_induction`: what every step preserves, a run preserves.
-/

namespace IpServer

/-- A machine: on an input, it answers and moves. -/
abbrev Machine (σ α β : Type*) := σ → α → β × σ

namespace Machine

variable {σ α β γ : Type*} (m : Machine σ α β)

/-- The state after a run. -/
def run (s : σ) (as : List α) : σ := as.foldl (fun s a => (m s a).2) s

/-- The answers given along a run. -/
def answers : σ → List α → List β
  | _, [] => []
  | s, a :: as => (m s a).1 :: answers (m s a).2 as

/-- Every step of a run meets `P`, on the state it is taken in. -/
def Along (P : σ → α → Prop) : σ → List α → Prop
  | _, [] => True
  | s, a :: as => P s a ∧ Along P (m s a).2 as

/-- What the steps of a run leave behind, where a step leaves `f` of its state and input. -/
def emitted (f : σ → α → List γ) : σ → List α → List γ
  | _, [] => []
  | s, a :: as => f s a ++ emitted f (m s a).2 as

@[simp] theorem run_nil (s : σ) : m.run s [] = s := rfl

@[simp] theorem run_cons (s : σ) (a : α) (as : List α) :
    m.run s (a :: as) = m.run (m s a).2 as := rfl

theorem run_append (s : σ) (as bs : List α) : m.run s (as ++ bs) = m.run (m.run s as) bs :=
  List.foldl_append

theorem run_concat (s : σ) (as : List α) (a : α) :
    m.run s (as ++ [a]) = (m (m.run s as) a).2 := m.run_append s as [a]

@[simp] theorem answers_nil (s : σ) : m.answers s [] = [] := rfl

@[simp] theorem answers_cons (s : σ) (a : α) (as : List α) :
    m.answers s (a :: as) = (m s a).1 :: m.answers (m s a).2 as := rfl

@[simp] theorem emitted_nil (f : σ → α → List γ) (s : σ) : m.emitted f s [] = [] := rfl

@[simp] theorem emitted_cons (f : σ → α → List γ) (s : σ) (a : α) (as : List α) :
    m.emitted f s (a :: as) = f s a ++ m.emitted f (m s a).2 as := rfl

theorem emitted_append (f : σ → α → List γ) (s : σ) (as bs : List α) :
    m.emitted f s (as ++ bs) = m.emitted f s as ++ m.emitted f (m.run s as) bs := by
  induction as generalizing s with
  | nil => rfl
  | cons a as ih => simp [ih]

/-- What is left behind at some point is left by a step that the run takes. -/
theorem exists_of_emitted_eq {f : σ → α → List γ} {s : σ} {as : List α} {xs ys : List γ} {c : γ}
    (h : m.emitted f s as = xs ++ c :: ys) : ∃ pre a post us vs, as = pre ++ a :: post ∧
      f (m.run s pre) a = us ++ c :: vs ∧ xs = m.emitted f s pre ++ us ∧
      ys = vs ++ m.emitted f (m.run s (pre ++ [a])) post := by
  induction as generalizing s xs with
  | nil => exact absurd h.symm (List.append_ne_nil_of_right_ne_nil _ (List.cons_ne_nil c ys))
  | cons a as ih =>
    rw [emitted_cons] at h
    rcases List.append_eq_append_iff.1 h with ⟨us, rfl, hrest⟩ | ⟨vs, hfirst, hrest⟩
    · obtain ⟨pre, b, post, us', vs, rfl, hb, rfl, hys⟩ := ih hrest
      exact ⟨a :: pre, b, post, us', vs, rfl, hb, by simp, hys⟩
    · cases vs with
      | nil =>
        have hnil : m.emitted f (m s a).2 as = [] ++ c :: ys := hrest.symm
        obtain ⟨pre, b, post, us', vs, rfl, hb, hxs, hys⟩ := ih hnil
        rw [List.append_nil] at hfirst
        refine ⟨a :: pre, b, post, us', vs, rfl, hb, ?_, hys⟩
        rw [emitted_cons, hfirst, List.append_assoc, ← hxs, List.append_nil]
      | cons d vs =>
        rw [List.cons_append, List.cons.injEq] at hrest
        obtain ⟨rfl, rfl⟩ := hrest
        exact ⟨[], a, as, xs, vs, rfl, hfirst, rfl, rfl⟩

theorem exists_of_mem_emitted {f : σ → α → List γ} {s : σ} {as : List α} {c : γ}
    (h : c ∈ m.emitted f s as) :
    ∃ pre a post, as = pre ++ a :: post ∧ c ∈ f (m.run s pre) a := by
  obtain ⟨xs, ys, hsplit⟩ := List.append_of_mem h
  obtain ⟨pre, a, post, us, vs, has, hleft, -⟩ := m.exists_of_emitted_eq hsplit
  exact ⟨pre, a, post, has, hleft ▸ List.mem_append_right us List.mem_cons_self⟩

variable {m}

instance decidableAlong {P : σ → α → Prop} [∀ s a, Decidable (P s a)] :
    ∀ (s : σ) (as : List α), Decidable (m.Along P s as)
  | _, [] => .isTrue trivial
  | s, a :: as => @instDecidableAnd _ _ _ (decidableAlong (m s a).2 as)

@[simp] theorem along_nil {P : σ → α → Prop} {s : σ} : m.Along P s [] := trivial

@[simp] theorem along_cons {P : σ → α → Prop} {s : σ} {a : α} {as : List α} :
    m.Along P s (a :: as) ↔ P s a ∧ m.Along P (m s a).2 as := Iff.rfl

theorem along_append {P : σ → α → Prop} {s : σ} {as bs : List α} :
    m.Along P s (as ++ bs) ↔ m.Along P s as ∧ m.Along P (m.run s as) bs := by
  induction as generalizing s with
  | nil => simp
  | cons a as ih => simp [ih, and_assoc]

/-- A condition on the inputs alone is met along every run that is given such inputs. -/
theorem along_of_forall {P : α → Prop} {s : σ} {as : List α} (h : ∀ a ∈ as, P a) :
    m.Along (fun _ a => P a) s as := by
  induction as generalizing s with
  | nil => trivial
  | cons a as ih =>
    exact ⟨h a List.mem_cons_self, ih fun b hb => h b (List.mem_cons_of_mem a hb)⟩

/-- A condition met along a run is met by each of its steps. -/
theorem Along.at {P : σ → α → Prop} {s : σ} {as bs : List α} {a : α}
    (h : m.Along P s (as ++ a :: bs)) : P (m.run s as) a :=
  (along_append.1 h).2.1

/-- A condition that each step of a run meets is met along the run. -/
theorem along_of_split {P : σ → α → Prop} {s : σ} {as : List α}
    (h : ∀ pre a post, as = pre ++ a :: post → P (m.run s pre) a) : m.Along P s as := by
  induction as generalizing s with
  | nil => trivial
  | cons a as ih =>
    refine ⟨h [] a as rfl, ih fun pre b post heq => ?_⟩
    exact h (a :: pre) b post (by rw [heq, List.cons_append])

/-- What each step meeting `P` preserves, a run whose steps all meet `P` preserves. -/
theorem run_induction {P : σ → α → Prop} {I : σ → Prop}
    (hstep : ∀ s a, I s → P s a → I (m s a).2) {s : σ} {as : List α} (hs : I s)
    (has : m.Along P s as) : I (m.run s as) := by
  induction as generalizing s with
  | nil => exact hs
  | cons a as ih => exact ih (hstep s a hs has.1) has.2

/-- What every step preserves, a run preserves. -/
theorem run_invariant {I : σ → Prop} (hstep : ∀ s a, I s → I (m s a).2) {s : σ} (as : List α)
    (hs : I s) : I (m.run s as) := by
  induction as generalizing s with
  | nil => exact hs
  | cons a as ih => exact ih (hstep s a hs)

/-- A condition that an invariant and a weaker condition give holds along a run. -/
theorem along_mono {P Q : σ → α → Prop} {I : σ → Prop}
    (hstep : ∀ s a, I s → P s a → I (m s a).2) (hPQ : ∀ s a, I s → P s a → Q s a) {s : σ}
    {as : List α} (hs : I s) (has : m.Along P s as) : m.Along Q s as := by
  induction as generalizing s with
  | nil => trivial
  | cons a as ih => exact ⟨hPQ s a hs has.1, ih (hstep s a hs has.1) has.2⟩

/-- A condition on all that is left behind is a condition on what each step leaves. -/
theorem along_of_emitted {f : σ → α → List γ} {P : γ → Prop} {s : σ} {as : List α}
    (h : ∀ c ∈ m.emitted f s as, P c) : m.Along (fun s a => ∀ c ∈ f s a, P c) s as := by
  induction as generalizing s with
  | nil => trivial
  | cons a as ih =>
    rw [emitted_cons, List.forall_mem_append] at h
    exact ⟨h.1, ih h.2⟩

end Machine

end IpServer
