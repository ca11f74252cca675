import Mathlib.Data.List.Basic
import Mathlib.Data.Nat.Notation

/-!
# Successive writes into a list

`overwrite pos val l n` is the list `l` after the writes number `0, …, n - 1`,
where write `k` puts `val k` at position `pos k`. A position holds what was
written there last, or else what was there before (`getElem?_overwrite`); so an
element is in the list exactly if it was written by a write that no later one
hit, or was there before at a position that no write hit (`mem_overwrite`).
-/

namespace IpServer

variable {α : Type*}

/-- The list after the first `n` writes. -/
def overwrite (pos : ℕ → ℕ) (val : ℕ → α) (l : List α) : ℕ → List α
  | 0 => l
  | n + 1 => (overwrite pos val l n).set (pos n) (val n)

variable (pos : ℕ → ℕ) (val : ℕ → α) (l : List α) (n : ℕ)

@[simp] theorem length_overwrite : (overwrite pos val l n).length = l.length := by
  induction n with
  | zero => rfl
  | succ n ih => rw [overwrite, List.length_set, ih]

variable {pos val l n}

/-- Writes that are the same have the same effect. -/
theorem overwrite_congr {pos' : ℕ → ℕ} {val' : ℕ → α} (l : List α)
    (h : ∀ k < n, pos k = pos' k ∧ val k = val' k) :
    overwrite pos val l n = overwrite pos' val' l n := by
  induction n with
  | zero => rfl
  | succ n ih =>
    obtain ⟨hpos, hval⟩ := h n (Nat.lt_succ_self n)
    rw [overwrite, overwrite, ih fun k hk => h k (Nat.lt_succ_of_lt hk), hpos, hval]

/-- Writes to one position leave the last of them. -/
theorem overwrite_const {p : ℕ} (h : ∀ k < n + 1, pos k = p) :
    overwrite pos val l (n + 1) = l.set p (val n) := by
  induction n with
  | zero => rw [overwrite, overwrite, h 0 Nat.one_pos]
  | succ n ih =>
    rw [overwrite, ih fun k hk => h k (Nat.lt_succ_of_lt hk), h (n + 1) (Nat.lt_succ_self _),
      List.set_set]

/-- A position holds what was written there last, or else what was there before. -/
theorem getElem?_overwrite {p : ℕ} {c : α} : (overwrite pos val l n)[p]? = some c ↔
    (∃ k < n, pos k = p ∧ p < l.length ∧ val k = c ∧ ∀ j, k < j → j < n → pos j ≠ p) ∨
      (∀ j < n, pos j ≠ p) ∧ l[p]? = some c := by
  induction n with
  | zero => simp [overwrite]
  | succ n ih =>
    rw [overwrite]
    by_cases hp : pos n = p
    · -- the last write is to `p`: nothing before it matters
      subst hp
      constructor
      · intro hc
        have hlen : pos n < l.length := by
          simpa using (List.getElem?_eq_some_iff.1 hc).1
        rw [List.getElem?_set_self (by rwa [length_overwrite]), Option.some_inj] at hc
        exact .inl ⟨n, Nat.lt_succ_self n, rfl, hlen, hc, fun j hj hj' => by omega⟩
      · rintro (⟨k, hk, hpos, hlen, hval, hlater⟩ | ⟨hnone, -⟩)
        · have hkn : k = n := by
            by_contra hne
            exact hlater n (by omega) (Nat.lt_succ_self n) rfl
          rw [List.getElem?_set_self (by rwa [length_overwrite]), ← hval, hkn]
        · exact absurd rfl (hnone n (Nat.lt_succ_self n))
    · -- the last write is elsewhere: the position is as before
      rw [List.getElem?_set_ne hp, ih]
      refine or_congr ⟨?_, ?_⟩ (and_congr_left fun _ => ⟨?_, ?_⟩)
      · rintro ⟨k, hk, hpos, hlen, hval, hlater⟩
        refine ⟨k, Nat.lt_succ_of_lt hk, hpos, hlen, hval, fun j hj hj' => ?_⟩
        rcases Nat.lt_succ_iff_lt_or_eq.1 hj' with hj' | rfl
        · exact hlater j hj hj'
        · exact hp
      · rintro ⟨k, hk, hpos, hlen, hval, hlater⟩
        have hkn : k ≠ n := fun heq => hp (heq ▸ hpos)
        exact ⟨k, by omega, hpos, hlen, hval, fun j hj hj' => hlater j hj (Nat.lt_succ_of_lt hj')⟩
      · intro hall j hj
        rcases Nat.lt_succ_iff_lt_or_eq.1 hj with hj | rfl
        · exact hall j hj
        · exact hp
      · exact fun hall j hj => hall j (Nat.lt_succ_of_lt hj)

/-- An element is there if a write that no later one hit put it there, or if it was there
    at a position that no write hit. -/
theorem mem_overwrite (hpos : ∀ k < n, pos k < l.length) {c : α} : c ∈ overwrite pos val l n ↔
    (∃ k < n, val k = c ∧ ∀ j, k < j → j < n → pos j ≠ pos k) ∨
      ∃ p, (∀ j < n, pos j ≠ p) ∧ l[p]? = some c := by
  rw [List.mem_iff_getElem?]
  constructor
  · rintro ⟨p, hp⟩
    rcases getElem?_overwrite.1 hp with ⟨k, hk, rfl, -, hval, hlater⟩ | h
    · exact .inl ⟨k, hk, hval, hlater⟩
    · exact .inr ⟨p, h⟩
  · rintro (⟨k, hk, hval, hlater⟩ | ⟨p, h⟩)
    · exact ⟨pos k, getElem?_overwrite.2 (.inl ⟨k, hk, rfl, hpos k hk, hval, hlater⟩)⟩
    · exact ⟨p, getElem?_overwrite.2 (.inr h)⟩

end IpServer
