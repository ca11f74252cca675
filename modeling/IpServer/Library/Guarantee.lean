import Mathlib.Order.Defs.Unbundled

/-!
# Guarantees

What a computation that may throw does to its state, whether it returns or
throws, as a relation between the state before and the state after. A preorder is
kept by sequencing and by catching, so that a program guarantees it if its parts
do.
-/

namespace IpServer

variable {ε σ α β : Type}

/-- The state in which a computation ends. -/
def endState : EStateM.Result ε σ α → σ
  | .ok _ s => s
  | .error _ s => s

/-- However the computation ends, the state before and the state after are related. -/
def Guarantees (R : σ → σ → Prop) (x : EStateM ε σ α) : Prop := ∀ s, R s (endState (x.run s))

namespace Guarantees

variable {R Q : σ → σ → Prop} {x : EStateM ε σ α}

theorem mono (h : Guarantees R x) (hRQ : ∀ s t, R s t → Q s t) : Guarantees Q x := fun s =>
  hRQ _ _ (h s)

theorem modify {f : σ → σ} (h : ∀ s, R s (f s)) :
    Guarantees R (modify f : EStateM ε σ PUnit) := h

variable [IsPreorder σ R]

theorem pure (a : α) : Guarantees R (pure a : EStateM ε σ α) := fun s => Std.Refl.refl s

theorem throw (e : ε) : Guarantees R (throw e : EStateM ε σ α) := fun s => Std.Refl.refl s

theorem ofExcept (a : Except ε α) : Guarantees R (ofExcept a : EStateM ε σ α) := by
  cases a with
  | ok a => exact pure a
  | error e => exact throw e

/-- In sequence, the second part starts where the first one returned. -/
theorem bind {f : α → EStateM ε σ β} (hx : Guarantees R x) (hf : ∀ a, Guarantees R (f a)) :
    Guarantees R (x >>= f) := by
  intro s
  have hs := hx s
  rw [EStateM.run_bind]
  cases hrun : x.run s with
  | ok a t =>
    rw [hrun] at hs
    exact IsTrans.trans _ _ _ hs (hf a t)
  | error e t =>
    rw [hrun] at hs
    exact hs

/-- The handler starts where the exception was thrown. -/
theorem tryCatch {handler : ε → EStateM ε σ α} (hx : Guarantees R x)
    (hh : ∀ e, Guarantees R (handler e)) : Guarantees R (tryCatch x handler) := by
  intro s
  have hs := hx s
  change R s (endState (EStateM.tryCatch x handler s))
  rw [EStateM.run] at hs
  delta EStateM.tryCatch
  dsimp only
  cases hrun : x s with
  | ok a t =>
    rw [hrun] at hs
    exact hs
  | error e t =>
    rw [hrun] at hs
    exact IsTrans.trans _ _ _ hs (hh e t)

theorem forM {f : β → EStateM ε σ PUnit} (h : ∀ b, Guarantees R (f b)) (bs : List β) :
    Guarantees R (bs.forM f) := by
  induction bs with
  | nil => exact pure _
  | cons b bs ih => exact bind (h b) fun _ => ih

end Guarantees

end IpServer
