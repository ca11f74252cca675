import Mathlib.Data.List.Basic
import Mathlib.Data.List.Induction
import Mathlib.Data.Nat.Basic

/-!
# Resources

What is done with resources, as a log of events: each is acquired, used and released. Those of one
origin are acquired one on top of the other, at one level after the other, and the last one that
was acquired is the first one to be released.

In a proper log (`Proper`) a resource is acquired at most once, and only what is open is used or
released. So nothing is released twice (`Proper.count_release`).

* `Acquires`, `Releases`: the events of one origin by which its levels are opened and closed.
* `Acquires.proper`, `Releases.proper`: such events may follow a proper log, and open or close
  what they say.
-/

namespace IpServer

/-- A resource: where it comes from, and how many were acquired there before it. -/
structure Resource where
  origin : ℕ
  level : ℕ
  deriving DecidableEq

/-- What is done with a resource. -/
inductive ResourceEvent
  | acquire (r : Resource)
  | use (r : Resource)
  | release (r : Resource)
  deriving DecidableEq

namespace ResourceEvent

/-- The resource that an event is about. -/
def resource : ResourceEvent → Resource
  | .acquire r => r
  | .use r => r
  | .release r => r

/-- The resource has been acquired, and has not been released. -/
def IsOpen (log : List ResourceEvent) (r : Resource) : Prop :=
  .acquire r ∈ log ∧ .release r ∉ log

/-- The event may come next: a resource is acquired only once, on top of others that are open; it
    is used while it is open, and released while it is open and nothing on top of it is. -/
def Follows (log : List ResourceEvent) : ResourceEvent → Prop
  | .acquire r => .acquire r ∉ log ∧ .release r ∉ log ∧ ∀ k < r.level, IsOpen log ⟨r.origin, k⟩
  | .use r => IsOpen log r
  | .release r => IsOpen log r ∧ ∀ k > r.level, ¬IsOpen log ⟨r.origin, k⟩

/-- Every event may come after those before it. -/
def Proper (log : List ResourceEvent) : Prop :=
  ∀ pre e post, log = pre ++ e :: post → Follows pre e

/-- Of the resources from `n`, those below the level `k` are open. -/
def OpenTo (log : List ResourceEvent) (n k : ℕ) : Prop :=
  ∀ j, IsOpen log ⟨n, j⟩ ↔ j < k

/-- Of the resources from `n`, those from the level `k` on have not been acquired yet. -/
def FreshFrom (log : List ResourceEvent) (n k : ℕ) : Prop :=
  ∀ j, k ≤ j → .acquire ⟨n, j⟩ ∉ log ∧ .release ⟨n, j⟩ ∉ log

/-- Of the resources from `n`, those from the level `k` up to `m` are acquired, and open ones
    used. -/
inductive Acquires (n : ℕ) : ℕ → List ResourceEvent → ℕ → Prop
  | nil (k : ℕ) : Acquires n k [] k
  | acquire {k m : ℕ} {es : List ResourceEvent} :
      Acquires n (k + 1) es m → Acquires n k (.acquire ⟨n, k⟩ :: es) m
  | use {j k m : ℕ} {es : List ResourceEvent} :
      j < k → Acquires n k es m → Acquires n k (.use ⟨n, j⟩ :: es) m

/-- Of the resources from `n`, those below the level `k` are released, down to `m`, and open ones
    used. -/
inductive Releases (n : ℕ) : ℕ → List ResourceEvent → ℕ → Prop
  | nil (k : ℕ) : Releases n k [] k
  | release {k m : ℕ} {es : List ResourceEvent} :
      Releases n k es m → Releases n (k + 1) (.release ⟨n, k⟩ :: es) m
  | use {j k m : ℕ} {es : List ResourceEvent} :
      j < k → Releases n k es m → Releases n k (.use ⟨n, j⟩ :: es) m

variable {log es : List ResourceEvent} {e : ResourceEvent} {r : Resource} {n k m : ℕ}

/-! ### Proper logs -/

theorem Proper.nil : Proper [] := fun _ _ _ h =>
  absurd h.symm (List.append_ne_nil_of_right_ne_nil _ (List.cons_ne_nil _ _))

theorem Proper.concat (h : Proper log) (he : Follows log e) : Proper (log ++ [e]) := by
  intro pre e' post heq
  rcases List.eq_nil_or_concat post with rfl | ⟨post, last, rfl⟩
  · obtain ⟨rfl, hlast⟩ := List.append_inj' heq rfl
    obtain rfl := List.singleton_inj.1 hlast
    exact he
  · rw [List.concat_eq_append, ← List.cons_append, ← List.append_assoc] at heq
    exact h pre e' post (List.append_inj' heq rfl).1

theorem Proper.of_append (h : Proper (log ++ es)) : Proper log := by
  rintro pre e post rfl
  exact h pre e (post ++ es) (by rw [List.append_assoc, List.cons_append])

/-- What may not follow itself happens at most once. -/
theorem Proper.count_le_one (h : Proper log) (he : ∀ log, Follows log e → e ∉ log) :
    log.count e ≤ 1 := by
  induction log using List.reverseRecOn with
  | nil => exact Nat.zero_le 1
  | append_singleton log e' ih =>
    rw [List.count_append]
    by_cases heq : e' = e
    · subst heq
      have hnot := he log (h log e' [] rfl)
      rw [List.count_eq_zero_of_not_mem hnot, List.count_singleton_self, Nat.zero_add]
    · rw [List.count_singleton, beq_false_of_ne heq, if_neg Bool.false_ne_true]
      exact ih h.of_append

theorem Proper.count_acquire (h : Proper log) (hr : .acquire r ∈ log) :
    log.count (.acquire r) = 1 :=
  Nat.le_antisymm (h.count_le_one fun log (hfollows : Follows log (.acquire r)) => hfollows.1)
    (List.count_pos_iff.2 hr)

/-- Nothing is released twice. -/
theorem Proper.count_release (h : Proper log) (hr : .release r ∈ log) :
    log.count (.release r) = 1 :=
  Nat.le_antisymm (h.count_le_one fun log (hfollows : Follows log (.release r)) => hfollows.1.2)
    (List.count_pos_iff.2 hr)

/-! ### What an event opens and closes -/

/-- An event about another resource leaves this one as it is. -/
theorem isOpen_concat_of_ne (h : e.resource ≠ r) : IsOpen (log ++ [e]) r ↔ IsOpen log r := by
  have hacquire : e ≠ .acquire r := fun heq => h (by rw [heq, resource])
  have hrelease : e ≠ .release r := fun heq => h (by rw [heq, resource])
  simp only [IsOpen, List.mem_append, List.mem_singleton, hacquire.symm, hrelease.symm, or_false]

theorem isOpen_concat_use (r r' : Resource) : IsOpen (log ++ [.use r']) r ↔ IsOpen log r := by
  simp only [IsOpen, List.mem_append, List.mem_singleton, reduceCtorEq, or_false]

/-- Events about other origins leave the resources from `n` as they are. -/
theorem isOpen_append (h : ∀ e ∈ es, e.resource.origin ≠ r.origin) :
    IsOpen (log ++ es) r ↔ IsOpen log r := by
  have hacquire : .acquire r ∉ es := fun hmem => h _ hmem rfl
  have hrelease : .release r ∉ es := fun hmem => h _ hmem rfl
  simp only [IsOpen, List.mem_append, hacquire, hrelease, or_false]

/-! ### Acquiring -/

theorem Acquires.origin (h : Acquires n k es m) : ∀ e ∈ es, e.resource.origin = n := by
  induction h with
  | nil k => exact List.forall_mem_nil _
  | acquire _ ih => exact List.forall_mem_cons.2 ⟨rfl, ih⟩
  | use _ _ ih => exact List.forall_mem_cons.2 ⟨rfl, ih⟩

theorem Acquires.le (h : Acquires n k es m) : k ≤ m := by
  induction h with
  | nil k => exact le_refl k
  | acquire _ ih => exact Nat.le_of_succ_le ih
  | use _ _ ih => exact ih

/-- Only levels below the last one are acquired, and none is released. -/
theorem Acquires.level_lt (h : Acquires n k es m) : ∀ r, .acquire r ∈ es → r.level < m := by
  induction h with
  | nil k => exact fun r hr => absurd hr List.not_mem_nil
  | acquire hrest ih =>
    intro r hr
    rcases List.mem_cons.1 hr with heq | hr
    · obtain rfl := ResourceEvent.acquire.inj heq
      exact hrest.le
    · exact ih r hr
  | use _ _ ih =>
    intro r hr
    rcases List.mem_cons.1 hr with heq | hr
    · cases heq
    · exact ih r hr

theorem Acquires.not_release (h : Acquires n k es m) (r : Resource) : .release r ∉ es := by
  induction h with
  | nil k => exact List.not_mem_nil
  | acquire _ ih => simpa only [List.mem_cons, reduceCtorEq, false_or] using ih
  | use _ _ ih => simpa only [List.mem_cons, reduceCtorEq, false_or] using ih

/-- Acquiring may follow, if nothing has been acquired from there on, and opens what it says. -/
theorem Acquires.proper (h : Acquires n k es m) (hlog : Proper log) (hopen : OpenTo log n k)
    (hfresh : FreshFrom log n k) : Proper (log ++ es) ∧ OpenTo (log ++ es) n m := by
  induction h generalizing log with
  | nil k =>
    rw [List.append_nil]
    exact ⟨hlog, hopen⟩
  | @acquire k m es hrest ih =>
    rw [List.append_cons]
    obtain ⟨hacquire, hrelease⟩ := hfresh k (le_refl k)
    refine ih (hlog.concat ⟨hacquire, hrelease, fun j hj => (hopen j).2 hj⟩) (fun j => ?_)
      fun j hj => ?_
    · by_cases hj : j = k
      · subst hj
        refine iff_of_true ⟨List.mem_concat_self, fun hmem => ?_⟩ (Nat.lt_succ_self j)
        rcases List.mem_append.1 hmem with hmem | hmem
        · exact (hfresh j (le_refl j)).2 hmem
        · cases List.mem_singleton.1 hmem
      · have hne : (ResourceEvent.acquire ⟨n, k⟩).resource ≠ ⟨n, j⟩ :=
          fun heq => hj (Resource.mk.inj heq).2.symm
        rw [isOpen_concat_of_ne hne, hopen j]
        omega
    · obtain ⟨hacquire, hrelease⟩ := hfresh j (Nat.le_of_succ_le hj)
      have hne : k ≠ j := by omega
      simpa [hacquire, hrelease] using hne.symm
  | @use j k m es hj hrest ih =>
    rw [List.append_cons]
    have hopen' : OpenTo (log ++ [.use ⟨n, j⟩]) n k :=
      fun i => (isOpen_concat_use _ _).trans (hopen i)
    refine ih (hlog.concat ((hopen j).2 hj)) hopen' fun i hi => ?_
    simpa using hfresh i hi

/-! ### Releasing -/

theorem Releases.origin (h : Releases n k es m) : ∀ e ∈ es, e.resource.origin = n := by
  induction h with
  | nil k => exact List.forall_mem_nil _
  | release _ ih => exact List.forall_mem_cons.2 ⟨rfl, ih⟩
  | use _ _ ih => exact List.forall_mem_cons.2 ⟨rfl, ih⟩

theorem Releases.not_acquire (h : Releases n k es m) (r : Resource) : .acquire r ∉ es := by
  induction h with
  | nil k => exact List.not_mem_nil
  | release _ ih => simpa only [List.mem_cons, reduceCtorEq, false_or] using ih
  | use _ _ ih => simpa only [List.mem_cons, reduceCtorEq, false_or] using ih

/-- Releasing may follow where that much is open, and closes what it says. -/
theorem Releases.proper (h : Releases n k es m) (hlog : Proper log) (hopen : OpenTo log n k) :
    Proper (log ++ es) ∧ OpenTo (log ++ es) n m := by
  induction h generalizing log with
  | nil k =>
    rw [List.append_nil]
    exact ⟨hlog, hopen⟩
  | @release k m es hrest ih =>
    rw [List.append_cons]
    refine ih (hlog.concat ⟨(hopen k).2 (Nat.lt_succ_self k), ?_⟩) fun j => ?_
    · -- what is on top of the last level is not open
      exact fun j hj hopen' => absurd ((hopen j).1 hopen') (Nat.not_lt.2 hj)
    · by_cases hj : j = k
      · subst hj
        exact iff_of_false (fun hopen' => hopen'.2 List.mem_concat_self) (Nat.lt_irrefl j)
      · have hne : (ResourceEvent.release ⟨n, k⟩).resource ≠ ⟨n, j⟩ :=
          fun heq => hj (Resource.mk.inj heq).2.symm
        rw [isOpen_concat_of_ne hne, hopen j]
        omega
  | @use j k m es hj hrest ih =>
    rw [List.append_cons]
    exact ih (hlog.concat ((hopen j).2 hj)) fun i => (isOpen_concat_use _ _).trans (hopen i)

end ResourceEvent

end IpServer
