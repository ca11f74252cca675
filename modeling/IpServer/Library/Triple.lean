import IpServer.Library.Guarantee

/-!
# Pre- and postconditions

A computation that may throw, from states that meet a condition: what holds of the value and the
state when it returns, and what of the state when it throws (`Triple`). What holds where an
exception is thrown is what its handler starts with (`Triple.tryCatch`).
-/

namespace IpServer

variable {ε σ α β : Type}

/-- Started in `P`, the computation returns in `Q` or throws in `E`. -/
structure Triple (P : σ → Prop) (x : EStateM ε σ α) (Q : α → σ → Prop) (E : σ → Prop) : Prop where
  ends : ∀ s, P s → match x.run s with
    | .ok a t => Q a t
    | .error _ t => E t

namespace Triple

variable {P P' : σ → Prop} {Q Q' : α → σ → Prop} {E E' : σ → Prop} {x : EStateM ε σ α}

theorem of_ok (h : Triple P x Q E) {s t : σ} {a : α} (hs : P s) (hrun : x.run s = .ok a t) :
    Q a t := by
  have hend := h.ends s hs
  rwa [hrun] at hend

/-- Less is asked before, and more after. -/
theorem mono (h : Triple P x Q E) (hP : ∀ s, P' s → P s) (hQ : ∀ a s, Q a s → Q' a s)
    (hE : ∀ s, E s → E' s) : Triple P' x Q' E' := by
  refine ⟨fun s hs => ?_⟩
  have hend := h.ends s (hP s hs)
  cases hrun : x.run s with
  | ok a t =>
    rw [hrun] at hend
    exact hQ a t hend
  | error e t =>
    rw [hrun] at hend
    exact hE t hend

theorem pure {a : α} (h : ∀ s, P s → Q a s) : Triple P (pure a : EStateM ε σ α) Q E := ⟨h⟩

theorem throw {e : ε} (h : ∀ s, P s → E s) : Triple P (throw e : EStateM ε σ α) Q E := ⟨h⟩

theorem ofExcept {a : Except ε α} (hok : ∀ v, a = .ok v → ∀ s, P s → Q v s)
    (herror : ∀ e, a = .error e → ∀ s, P s → E s) :
    Triple P (ofExcept a : EStateM ε σ α) Q E := by
  cases a with
  | ok v => exact ⟨hok v rfl⟩
  | error e => exact ⟨herror e rfl⟩

theorem modify {Q : PUnit → σ → Prop} {f : σ → σ} (h : ∀ s, P s → Q ⟨⟩ (f s)) :
    Triple P (modify f : EStateM ε σ PUnit) Q E := ⟨h⟩

/-- In sequence, the second part starts where the first one returned. -/
theorem bind {R : β → σ → Prop} {f : α → EStateM ε σ β} (hx : Triple P x Q E)
    (hf : ∀ a, Triple (Q a) (f a) R E) : Triple P (x >>= f) R E := by
  refine ⟨fun s hs => ?_⟩
  have hend := hx.ends s hs
  rw [EStateM.run_bind]
  cases hrun : x.run s with
  | ok a t =>
    rw [hrun] at hend
    exact (hf a).ends t hend
  | error e t =>
    rw [hrun] at hend
    exact hend

/-- The handler starts where the exception was thrown. -/
theorem tryCatch {handler : ε → EStateM ε σ α} (hx : Triple P x Q E)
    (hh : ∀ e, Triple E (handler e) Q E') : Triple P (tryCatch x handler) Q E' := by
  refine ⟨fun s hs => ?_⟩
  have hend := hx.ends s hs
  change match EStateM.tryCatch x handler s with
    | .ok a t => Q a t
    | .error _ t => E' t
  rw [EStateM.run] at hend
  delta EStateM.tryCatch
  dsimp only
  cases hrun : x s with
  | ok a t =>
    rw [hrun] at hend
    exact hend
  | error e t =>
    rw [hrun] at hend
    exact (hh e).ends t hend

/-- What a computation guarantees keeps a condition. -/
theorem of_guarantees {R : σ → σ → Prop} (h : Guarantees R x) (hR : ∀ s t, P s → R s t → P t) :
    Triple P x (fun _ => P) P := by
  refine ⟨fun s hs => ?_⟩
  have hend := h s
  cases hrun : x.run s with
  | ok a t =>
    rw [hrun] at hend
    exact hR s t hs hend
  | error e t =>
    rw [hrun] at hend
    exact hR s t hs hend

end Triple

end IpServer
