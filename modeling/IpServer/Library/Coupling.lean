import Mathlib.Logic.Basic

/-!
# Two runs side by side

Two computations, started in related states: they return the same value in related states, or they
throw the same exception (`Coupled`). Rules like those for one run at a time: in sequence, the
second parts start in the states in which the first ones returned; an exception is handled where
both have thrown it.

Side by side with itself, a computation does not show from which of two related states it started.
-/

namespace IpServer

variable {ε σ α β : Type}

/-- The same value, in states related by `Q`, or the same exception, in states related by `E`. -/
inductive SameEnd (Q E : σ → σ → Prop) :
    EStateM.Result ε σ α → EStateM.Result ε σ α → Prop
  | ok {a : α} {s t : σ} (h : Q s t) : SameEnd Q E (.ok a s) (.ok a t)
  | error {e : ε} {s t : σ} (h : E s t) : SameEnd Q E (.error e s) (.error e t)

theorem SameEnd.of_ok {Q E : σ → σ → Prop} {a : α} {s : σ} {r : EStateM.Result ε σ α}
    (h : SameEnd Q E (.ok a s) r) : ∃ t, r = .ok a t ∧ Q s t := by
  cases h with
  | ok h => exact ⟨_, rfl, h⟩

/-- Started in states related by `P`, both return the same in states related by `Q`, or throw the
    same in states related by `E`. -/
structure Coupled (P : σ → σ → Prop) (x y : EStateM ε σ α) (Q E : σ → σ → Prop) : Prop where
  ends : ∀ s t, P s t → SameEnd Q E (x.run s) (y.run t)

namespace Coupled

variable {P Q R E F : σ → σ → Prop} {x y : EStateM ε σ α}

theorem pure (a : α) (h : ∀ s t, P s t → Q s t) :
    Coupled P (pure a : EStateM ε σ α) (pure a) Q E := ⟨fun s t hs => .ok (h s t hs)⟩

theorem throw (e : ε) (h : ∀ s t, P s t → E s t) :
    Coupled P (throw e : EStateM ε σ α) (throw e) Q E := ⟨fun s t hs => .error (h s t hs)⟩

theorem ofExcept (a : Except ε α) :
    Coupled P (ofExcept a : EStateM ε σ α) (ofExcept a) P P := by
  cases a with
  | ok a => exact pure a fun _ _ hs => hs
  | error e => exact throw e fun _ _ hs => hs

theorem modify {f g : σ → σ} (h : ∀ s t, P s t → Q (f s) (g t)) :
    Coupled P (modify f : EStateM ε σ PUnit) (modify g) Q E := ⟨fun s t hs => .ok (h s t hs)⟩

/-- In sequence, the second parts start where the first ones returned. -/
theorem bind {f g : α → EStateM ε σ β} (hx : Coupled P x y Q E)
    (hf : ∀ a, Coupled Q (f a) (g a) R E) : Coupled P (x >>= f) (y >>= g) R E := by
  refine ⟨fun s t hs => ?_⟩
  rw [EStateM.run_bind, EStateM.run_bind]
  have hend := hx.ends s t hs
  generalize x.run s = r, y.run t = r' at hend
  cases hend with
  | ok h => exact (hf _).ends _ _ h
  | error h => exact .error h

/-- The handlers start where the exception was thrown. -/
theorem tryCatch {f g : ε → EStateM ε σ α} (hx : Coupled P x y Q E)
    (hf : ∀ e, Coupled E (f e) (g e) Q F) : Coupled P (tryCatch x f) (tryCatch y g) Q F := by
  refine ⟨fun s t hs => ?_⟩
  have hend := hx.ends s t hs
  change SameEnd Q F (EStateM.tryCatch x f s) (EStateM.tryCatch y g t)
  rw [EStateM.run, EStateM.run] at hend
  delta EStateM.tryCatch
  dsimp only
  generalize x s = r, y t = r' at hend
  cases hend with
  | ok h => exact .ok h
  | error h => exact (hf _).ends _ _ h

theorem forM {f g : β → EStateM ε σ PUnit} (h : ∀ b, Coupled P (f b) (g b) P P) (bs : List β) :
    Coupled P (bs.forM f) (bs.forM g) P P := by
  induction bs with
  | nil => exact pure _ fun _ _ hs => hs
  | cons b bs ih => exact bind (h b) fun _ => ih

end Coupled

end IpServer
