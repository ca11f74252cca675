import Mathlib.Data.Set.List

/-!
# Computations that may fail

What a computation in `Except` that succeeded has done: each of its parts
succeeded.
-/

namespace IpServer

universe u v

variable {ε : Type v} {α β : Type u}

/-- The exception that a computation has thrown, if it has. -/
def thrown? (x : Except ε α) : Option ε :=
  match x with
  | .ok _ => none
  | .error e => some e

theorem bind_eq_ok {x : Except ε α} {f : α → Except ε β} {b : β} :
    x >>= f = .ok b ↔ ∃ a, x = .ok a ∧ f a = .ok b := by
  constructor
  · intro h
    cases x with
    | error e => cases h
    | ok a => exact ⟨a, rfl, h⟩
  · rintro ⟨a, rfl, h⟩
    exact h

theorem pure_eq_ok {a b : α} : (pure a : Except ε α) = .ok b ↔ a = b :=
  ⟨Except.ok.inj, congrArg Except.ok⟩

theorem map_eq_ok {x : Except ε α} {f : α → β} {b : β} :
    x.map f = .ok b ↔ ∃ a, x = .ok a ∧ f a = b := by
  constructor
  · intro h
    cases x with
    | error e => cases h
    | ok a => exact ⟨a, rfl, Except.ok.inj h⟩
  · rintro ⟨a, rfl, rfl⟩
    rfl

theorem bind_eq_error {x : Except ε α} {f : α → Except ε β} {e : ε} :
    x >>= f = .error e ↔ x = .error e ∨ ∃ a, x = .ok a ∧ f a = .error e := by
  constructor
  · intro h
    cases x with
    | error e' => exact .inl (congrArg _ (Except.error.inj h))
    | ok a => exact .inr ⟨a, rfl, h⟩
  · rintro (rfl | ⟨a, rfl, h⟩)
    · rfl
    · exact h

theorem map_eq_error {x : Except ε α} {f : α → β} {e : ε} :
    x.map f = .error e ↔ x = .error e := by
  cases x with
  | error e' =>
    exact ⟨fun h => congrArg _ (Except.error.inj h), fun h => congrArg _ (Except.error.inj h)⟩
  | ok a => exact iff_of_false nofun nofun

theorem toOption_eq_some {x : Except ε α} {a : α} : x.toOption = some a ↔ x = .ok a := by
  constructor
  · intro h
    cases x with
    | error e => cases h
    | ok b => exact congrArg _ (Option.some_inj.1 h)
  · rintro rfl
    rfl

/-- Something is returned for each item if the items are mapped to what is returned. -/
theorem exists_map_eq_ok {f : α → Except ε β} {as : List α} :
    (∃ bs : List β, as.map f = bs.map .ok) ↔ ∀ a ∈ as, ∃ b, f a = .ok b := by
  have hrange := Set.ext_iff.1 (Set.range_list_map (Except.ok (ε := ε) (α := β))) (as.map f)
  simp only [Set.mem_range, Set.mem_ofPred_eq, List.forall_mem_map, eq_comm] at hrange
  simpa only [eq_comm] using hrange

end IpServer
