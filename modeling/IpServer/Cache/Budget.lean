import Mathlib.Algebra.Order.BigOperators.Group.Finset
import Mathlib.Algebra.Order.Floor.Semiring
import Mathlib.Data.Rat.Floor
import Mathlib.Tactic.Linarith
import IpServer.Cache.IPCache

/-!
# The memory budget

The cache is meant to be bounded by its budget. An insertion restores the bound:
it evicts until the new entry fits. An overwrite does not: it replaces the value
in place, whatever its size, and evicts nothing. So the bound holds along a run
exactly when no overwrite makes its entry grow by more than the budget has left
(`OverwriteFits`, `budget_respected`); an entry that grows more exceeds it, even
if it is within the budget on its own (`budget_exceeded`).
-/

namespace IpServer

namespace CacheShard

variable (lib : JsonLibrary)

/-- The entry an operation stores, if any, is within the budget on its own. -/
def FitsAlone (maxMemoryBytes : ℕ) : CacheOp → Prop
  | .get _ _ => True
  | .put key result _ _ =>
    ∀ size ∈ (estimateEntrySize lib key result).toOption, size ≤ maxMemoryBytes

/-- If an operation overwrites an entry, the new entry is not larger than the old one
    by more than the budget has left. -/
def OverwriteFits (s : CacheShard) : CacheOp → Prop
  | .get _ _ => True
  | .put key result _ _ =>
    ∀ e ∈ s.cacheMap.lookup key, ∀ size ∈ (estimateEntrySize lib key result).toOption,
      size ≤ e.sizeBytes + (s.maxMemoryBytes - s.memoryUsageBytes)

instance (maxMemoryBytes : ℕ) : ∀ op, Decidable (FitsAlone lib maxMemoryBytes op)
  | .get _ _ => .isTrue trivial
  | .put key result _ _ => inferInstanceAs
    (Decidable (∀ size ∈ (estimateEntrySize lib key result).toOption, size ≤ maxMemoryBytes))

instance (s : CacheShard) : ∀ op, Decidable (OverwriteFits lib s op)
  | .get _ _ => .isTrue trivial
  | .put key result _ _ => inferInstanceAs
    (Decidable (∀ e ∈ s.cacheMap.lookup key, ∀ size ∈ (estimateEntrySize lib key result).toOption,
      size ≤ e.sizeBytes + (s.maxMemoryBytes - s.memoryUsageBytes)))

variable {lib} {s : CacheShard}

/-- A look-up never adds bytes. -/
theorem memoryUsageBytes_get_le (key : String) (now : TimePoint) :
    (s.get key now).2.memoryUsageBytes ≤ s.memoryUsageBytes := by
  unfold get
  split
  · exact le_rfl
  · split
    · exact Nat.sub_le _ _
    · exact le_rfl

/-- An insertion restores the bound, whatever the usage was before. -/
theorem memoryUsageBytes_insert_le (h : s.Inv lib) {key : String} {result : Json}
    {dataType : CacheDataType} {now : TimePoint} {entrySize : ℕ}
    (hsize : estimateEntrySize lib key result = .ok entrySize)
    (he : s.cacheMap.lookup key = none) (hfit : entrySize ≤ s.maxMemoryBytes) :
    (s.put lib key result dataType now).2.memoryUsageBytes ≤ s.maxMemoryBytes := by
  rw [put_of_none hsize he]
  rcases evictIfNeeded_done entrySize h with hle | hempty
  · exact hle
  · have hzero : (s.evictIfNeeded entrySize).memoryUsageBytes = 0 := by
      rw [(evictIfNeeded_spec entrySize h).1.usage, hempty, Dict.total_empty]
    simpa only [hzero, Nat.zero_add] using hfit

/-- An overwrite takes the bytes of the old entry off and adds those of the new one. -/
theorem memoryUsageBytes_overwrite {key : String} {result : Json}
    {dataType : CacheDataType} {now : TimePoint} {entrySize : ℕ} {e : CacheEntry}
    (hsize : estimateEntrySize lib key result = .ok entrySize)
    (he : s.cacheMap.lookup key = some e) :
    (s.put lib key result dataType now).2.memoryUsageBytes =
      s.memoryUsageBytes - e.sizeBytes + entrySize := by
  rw [put_of_some hsize he]

/-- From a state within the budget, a step whose entry fits on its own stays within it
    exactly when the entry it overwrites, if any, does not grow by more than is left. -/
theorem memoryUsageBytes_step_le_iff (h : s.Inv lib) {op : CacheOp}
    (hle : s.memoryUsageBytes ≤ s.maxMemoryBytes) (hfit : FitsAlone lib s.maxMemoryBytes op) :
    (step lib s op).2.memoryUsageBytes ≤ s.maxMemoryBytes ↔ OverwriteFits lib s op := by
  cases op with
  | get key now => exact iff_of_true ((memoryUsageBytes_get_le key now).trans hle) trivial
  | put key result dataType now =>
    cases hsize : estimateEntrySize lib key result with
    | error x =>
      simp only [step, put_of_error hsize, OverwriteFits, hsize]
      exact iff_of_true hle fun _ _ _ hx => by cases hx
    | ok entrySize =>
      cases he : s.cacheMap.lookup key with
      | none =>
        -- room is made for a new entry, and nothing is overwritten
        refine iff_of_true (memoryUsageBytes_insert_le h hsize he (hfit entrySize ?_)) ?_
        · rw [hsize]
          rfl
        · intro e he'
          rw [he] at he'
          cases he'
      | some e =>
        have hcover := h.usage_of_lookup he
        simp only [step, memoryUsageBytes_overwrite hsize he]
        constructor
        · intro hle' e' he' size hsize'
          rw [he, Option.mem_some_iff] at he'
          rw [hsize, Except.toOption, Option.mem_some_iff] at hsize'
          subst he' hsize'
          omega
        · intro hfits
          have := hfits e he entrySize (by rw [hsize]; rfl)
          omega

/-- The bound holds in every state of a run exactly when every overwrite fits. -/
theorem memoryUsageBytes_le_iff (h : s.Inv lib) {ops : List CacheOp}
    (hle : s.memoryUsageBytes ≤ s.maxMemoryBytes)
    (hfit : ∀ op ∈ ops, FitsAlone lib s.maxMemoryBytes op) :
    (∀ ops₁, ops₁ <+: ops → ((step lib).run s ops₁).memoryUsageBytes ≤ s.maxMemoryBytes) ↔
      (step lib).Along (OverwriteFits lib) s ops := by
  induction ops generalizing s with
  | nil =>
    refine iff_of_true (fun ops₁ hpre => ?_) trivial
    rw [List.prefix_nil.1 hpre]
    exact hle
  | cons op ops ih =>
    have hstep := memoryUsageBytes_step_le_iff h hle (hfit op List.mem_cons_self)
    have hmax := maxMemoryBytes_step h op
    have hrest : ∀ op' ∈ ops, FitsAlone lib (step lib s op).2.maxMemoryBytes op' :=
      fun op' hop' => hmax ▸ hfit op' (List.mem_cons_of_mem _ hop')
    constructor
    · intro hall
      -- the bound after the first step says that its overwrite fits
      have hone := hall [op] ⟨ops, rfl⟩
      refine ⟨hstep.1 hone, (ih (inv_step h op) (hmax ▸ hone) hrest).1 fun ops₁ hpre => ?_⟩
      rw [hmax]
      exact hall (op :: ops₁) (List.cons_prefix_cons.2 ⟨rfl, hpre⟩)
    · rintro ⟨hop, hops⟩ ops₁ hpre
      match ops₁ with
      | [] => exact hle
      | op₁ :: ops₁ =>
        obtain ⟨rfl, hpre'⟩ := List.cons_prefix_cons.1 hpre
        have hall := (ih (inv_step h op₁) (hmax ▸ hstep.2 hop) hrest).2 hops ops₁ hpre'
        rwa [hmax] at hall

end CacheShard

namespace IPCache

variable {n : ℕ}

/-- The budgets of the shards add up to at most `n` times the rounded-up share. -/
theorem shardMemory_le (maxMemoryBytes : ℕ) [NeZero n] :
    shardMemory maxMemoryBytes n ≤ ⌈(maxMemoryBytes : ℚ) / n⌉₊ := by
  have hn : 0 < n := Nat.pos_of_ne_zero (NeZero.ne n)
  have hshare : maxMemoryBytes ≤ ⌈(maxMemoryBytes : ℚ) / n⌉₊ * n := by
    have hceil := Nat.le_ceil ((maxMemoryBytes : ℚ) / n)
    rw [div_le_iff₀ (by exact_mod_cast hn)] at hceil
    exact_mod_cast hceil
  calc shardMemory maxMemoryBytes n
      ≤ (maxMemoryBytes + n - 1) / n := Nat.div_le_div_right (Nat.mod_le _ _)
    _ ≤ (⌈(maxMemoryBytes : ℚ) / n⌉₊ * n + (n - 1)) / n := Nat.div_le_div_right (by omega)
    _ = ⌈(maxMemoryBytes : ℚ) / n⌉₊ := by
      rw [Nat.mul_comm, Nat.mul_add_div hn, Nat.div_eq_of_lt (by omega), Nat.add_zero]

variable [NeZero n] {hash : String → ℕ} {lib : JsonLibrary} {maxMemoryBytes : ℕ}
  {ops : List CacheOp}

/-- If every overwrite fits, the reported usage is within the budgets of the shards. -/
theorem memoryUsageBytes_le (hfit : ∀ op ∈ ops, CacheShard.FitsAlone lib
      (shardMemory maxMemoryBytes n) op)
    (hover : (step hash lib).Along
      (fun c op => CacheShard.OverwriteFits lib (c (getShardIndex hash op.key)) op)
      (new n maxMemoryBytes) ops) :
    (getStats ((step hash lib).run (new n maxMemoryBytes) ops)).memoryUsageBytes ≤
      n * ⌈(maxMemoryBytes : ℚ) / n⌉₊ := by
  have hshard : ∀ i, ((step hash lib).run (new n maxMemoryBytes) ops i).memoryUsageBytes ≤
      ⌈(maxMemoryBytes : ℚ) / n⌉₊ := fun i => by
    rw [step, Machine.run_sharded]
    refine le_trans ?_ (shardMemory_le maxMemoryBytes)
    have hfit' : ∀ op ∈ ops.filter (getShardIndex hash ·.key = i),
        CacheShard.FitsAlone lib (shardMemory maxMemoryBytes n) op :=
      fun op hop => hfit op (List.mem_of_mem_filter hop)
    exact (CacheShard.memoryUsageBytes_le_iff (CacheShard.inv_new _) (Nat.zero_le _) hfit').2
      (Machine.along_sharded hover i) _ List.prefix_rfl
  calc (getStats ((step hash lib).run (new n maxMemoryBytes) ops)).memoryUsageBytes
      = ∑ i, ((step hash lib).run (new n maxMemoryBytes) ops i).memoryUsageBytes :=
        getStats_memoryUsageBytes hash lib maxMemoryBytes ops
    _ ≤ ∑ _i : Fin n, ⌈(maxMemoryBytes : ℚ) / n⌉₊ := Finset.sum_le_sum fun i _ => hshard i
    _ = n * ⌈(maxMemoryBytes : ℚ) / n⌉₊ := by simp

/-- When the budget is respected. For a shard, with entries that fit on their own: in
    every state of a run, if and only if no overwrite makes its entry grow by more than
    the budget has left. For a cache whose overwrites all fit in this way: in every state
    of a run. -/
theorem budget_respected (lib : JsonLibrary) :
    (∀ (maxMemoryBytes : ℕ) (ops : List CacheOp),
      (∀ op ∈ ops, CacheShard.FitsAlone lib maxMemoryBytes op) →
        ((∀ ops₁, ops₁ <+: ops →
            ((CacheShard.step lib).run (.new maxMemoryBytes) ops₁).memoryUsageBytes ≤
              maxMemoryBytes) ↔
          (CacheShard.step lib).Along (CacheShard.OverwriteFits lib) (.new maxMemoryBytes) ops)) ∧
    ∀ (n : ℕ) [NeZero n] (hash : String → ℕ) (maxMemoryBytes : ℕ) (ops : List CacheOp),
      (∀ op ∈ ops, CacheShard.FitsAlone lib (shardMemory maxMemoryBytes n) op) →
        (step hash lib).Along
          (fun c op => CacheShard.OverwriteFits lib (c (getShardIndex hash op.key)) op)
          (new n maxMemoryBytes) ops →
        ∀ ops₁, ops₁ <+: ops →
          (getStats ((step hash lib).run (new n maxMemoryBytes) ops₁)).memoryUsageBytes ≤
            n * ⌈(maxMemoryBytes : ℚ) / n⌉₊ := by
  refine ⟨fun maxMemoryBytes ops hfit => ?_, fun n _ hash maxMemoryBytes ops hfit hover => ?_⟩
  · exact CacheShard.memoryUsageBytes_le_iff (CacheShard.inv_new _) (Nat.zero_le _) hfit
  · rintro ops₁ ⟨ops₂, rfl⟩
    exact memoryUsageBytes_le (fun op hop => hfit op (List.mem_append_left _ hop))
      (Machine.along_append.1 hover).1

/-- An entry is overwritten by a larger value that the budget has room for. -/
def fittingOverwrite : List CacheOp :=
  [.put "a" (.string "x") .negative 0, .put "a" (.string "xxxxxx") .ipGeolocation 0]

theorem budget_respected_fittingOverwrite :
    (∀ ops₁, ops₁ <+: fittingOverwrite →
        ((CacheShard.step .sample).run (.new 15) ops₁).memoryUsageBytes ≤ 15) ∧
      ∀ ops₁, ops₁ <+: fittingOverwrite →
        (getStats ((step (fun _ => 0) .sample).run (new 1 15) ops₁)).memoryUsageBytes ≤
          1 * ⌈((15 : ℕ) : ℚ) / (1 : ℕ)⌉₊ :=
  ⟨((budget_respected .sample).1 15 fittingOverwrite (by decide +kernel)).2 (by decide +kernel),
    (budget_respected .sample).2 1 (fun _ => 0) 15 fittingOverwrite (by decide +kernel)
      (by decide +kernel)⟩

/-- Two small entries, the first of which is then overwritten by a larger value. -/
def growingOverwrite : List CacheOp :=
  [.put "a" (.string "x") .ipGeolocation 0, .put "b" (.string "x") .ipGeolocation 0,
    .put "a" (.string "xxxxxx") .ipGeolocation 0]

/-- An overwrite exceeds the budget although every entry fits on its own. -/
theorem budget_exceeded :
    (∀ op ∈ growingOverwrite, CacheShard.FitsAlone .sample 10 op) ∧
      ¬((CacheShard.step .sample).run (.new 10) growingOverwrite).memoryUsageBytes ≤ 10 ∧
      ¬(getStats ((step (fun _ => 0) .sample).run (new 1 10) growingOverwrite)).memoryUsageBytes ≤
        1 * ⌈(10 : ℚ) / 1⌉₊ := by
  refine ⟨by decide +kernel, by decide +kernel, ?_⟩
  have husage : (getStats ((step (fun _ => 0) .sample).run (new 1 10)
      growingOverwrite)).memoryUsageBytes = 15 := by decide +kernel
  rw [husage]
  norm_num

end IPCache

end IpServer
