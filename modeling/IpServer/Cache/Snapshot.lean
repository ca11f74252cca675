import IpServer.Cache.Conservation

/-!
# Statistics while the cache is used

`get_stats` takes the lock of one shard after the other, and twice each time: for the statistics,
and for the byte counter. In between, the cache is used. What it adds up then need not be the
statistics of any state of the cache; but the counters lie between those at its start and at its
end (`Before`), and they still add up (`Balanced`).

* `before_step`, `balanced_step`: what an operation does to the counters of a shard.
* `readStats_run`: what `get_stats` finds while the cache is used.
-/

namespace IpServer

namespace CacheStats

/-- Every counter has grown, if it has changed. -/
structure Before (s o : CacheStats) : Prop where
  totalLookups_le : s.totalLookups ≤ o.totalLookups
  hits_le : s.hits ≤ o.hits
  misses_le : s.misses ≤ o.misses
  evictions_le : s.evictions ≤ o.evictions
  expiredEntries_le : s.expiredEntries ≤ o.expiredEntries

/-- A look-up is a hit or a miss, and what is found expired is missed. -/
structure Balanced (s : CacheStats) : Prop where
  hits_add_misses : s.hits + s.misses = s.totalLookups
  expiredEntries_le : s.expiredEntries ≤ s.misses

variable {s o s' o' : CacheStats}

theorem Before.refl (s : CacheStats) : s.Before s := ⟨le_rfl, le_rfl, le_rfl, le_rfl, le_rfl⟩

theorem Before.trans {t : CacheStats} (h : s.Before o) (h' : o.Before t) : s.Before t where
  totalLookups_le := h.totalLookups_le.trans h'.totalLookups_le
  hits_le := h.hits_le.trans h'.hits_le
  misses_le := h.misses_le.trans h'.misses_le
  evictions_le := h.evictions_le.trans h'.evictions_le
  expiredEntries_le := h.expiredEntries_le.trans h'.expiredEntries_le

theorem Before.add (h : s.Before o) (h' : s'.Before o') : (s + s').Before (o + o') where
  totalLookups_le := Nat.add_le_add h.totalLookups_le h'.totalLookups_le
  hits_le := Nat.add_le_add h.hits_le h'.hits_le
  misses_le := Nat.add_le_add h.misses_le h'.misses_le
  evictions_le := Nat.add_le_add h.evictions_le h'.evictions_le
  expiredEntries_le := Nat.add_le_add h.expiredEntries_le h'.expiredEntries_le

theorem Balanced.add (h : s.Balanced) (h' : s'.Balanced) : (s + s').Balanced where
  hits_add_misses := by
    rw [add_hits, add_misses, add_totalLookups, ← h.hits_add_misses, ← h'.hits_add_misses]
    exact Nat.add_add_add_comm _ _ _ _
  expiredEntries_le := Nat.add_le_add h.expiredEntries_le h'.expiredEntries_le

theorem Before.sum {ι : Type*} {f g : ι → CacheStats} (h : ∀ i, (f i).Before (g i))
    (t : Finset ι) : (∑ i ∈ t, f i).Before (∑ i ∈ t, g i) := by
  induction t using Finset.cons_induction with
  | empty => exact .refl 0
  | cons i t hi ih =>
    rw [Finset.sum_cons, Finset.sum_cons]
    exact (h i).add ih

theorem Balanced.sum {ι : Type*} {f : ι → CacheStats} (h : ∀ i, (f i).Balanced)
    (t : Finset ι) : (∑ i ∈ t, f i).Balanced := by
  induction t using Finset.cons_induction with
  | empty => exact ⟨rfl, le_rfl⟩
  | cons i t hi ih =>
    rw [Finset.sum_cons]
    exact (h i).add ih

end CacheStats

namespace CacheShard

variable {lib : JsonLibrary} {s : CacheShard}

/-- An operation only adds to the counters. -/
theorem before_step (h : s.Inv lib) (op : CacheOp) :
    s.stats.Before (step lib s op).2.stats := by
  cases op with
  | get key now =>
    rw [step]
    cases he : s.cacheMap.lookup key with
    | none =>
      rw [get_of_none he]
      exact ⟨Nat.le_succ _, le_rfl, Nat.le_succ _, le_rfl, le_rfl⟩
    | some e =>
      by_cases hnow : now - e.timestamp > ttlForType e.dataType
      · rw [get_of_expired he hnow]
        exact ⟨Nat.le_succ _, le_rfl, Nat.le_succ _, le_rfl, Nat.le_succ _⟩
      · rw [get_of_live he hnow]
        exact ⟨Nat.le_succ _, Nat.le_succ _, le_rfl, le_rfl, le_rfl⟩
  | put key result dataType now =>
    rw [step]
    cases hsize : estimateEntrySize lib key result with
    | error x =>
      rw [put_of_error hsize]
      exact .refl _
    | ok size =>
      cases he : s.cacheMap.lookup key with
      | some e =>
        rw [put_of_some hsize he]
        exact .refl _
      | none =>
        obtain ⟨-, n, hto, -⟩ := evictIfNeeded_spec size h
        rw [put_of_none hsize he]
        simp only [hto.stats]
        exact ⟨le_rfl, le_rfl, le_rfl, Nat.le_add_right _ _, le_rfl⟩

/-- An operation keeps the counters balanced. -/
theorem balanced_step (h : s.Inv lib) (hs : s.stats.Balanced) (op : CacheOp) :
    (step lib s op).2.stats.Balanced := by
  obtain ⟨htotal, hlookups, hexpired⟩ := lookups_step h op
  have hsum := hs.hits_add_misses
  have hle := hs.expiredEntries_le
  exact ⟨by omega, by omega⟩

end CacheShard

namespace IPCache

variable {n : ℕ}

/-- `get_stats` while the cache is used: the statistics of the shard `i` are read in the state
    `localAt i` of the cache, and its byte counter in the state `memoryAt i`. -/
def readStats (localAt memoryAt : Fin n → IPCache n) : CacheStats :=
  getStats fun i => { memoryAt i i with stats := (localAt i i).stats }

/-- What is read lies between what could have been read before and after, shard by shard, and is
    balanced. -/
theorem readStats_between {lo hi : IPCache n} {localAt : Fin n → IPCache n}
    (memoryAt : Fin n → IPCache n) (hlo : ∀ i, (lo i).stats.Before (localAt i i).stats)
    (hhi : ∀ i, (localAt i i).stats.Before (hi i).stats)
    (hbalanced : ∀ i, (localAt i i).stats.Balanced) :
    (getStats lo).Before (readStats localAt memoryAt) ∧
      (readStats localAt memoryAt).Before (getStats hi) ∧
      (readStats localAt memoryAt).Balanced := by
  -- the bytes do not matter
  have hbefore {s o : CacheShard} (h : s.stats.Before o.stats) : s.report.Before o.report :=
    ⟨h.totalLookups_le, h.hits_le, h.misses_le, h.evictions_le, h.expiredEntries_le⟩
  rw [readStats, getStats_eq_sum, getStats_eq_sum, getStats_eq_sum]
  refine ⟨.sum (fun i => ?_) _, .sum (fun i => ?_) _, .sum (fun i => ?_) _⟩
  · exact hbefore (hlo i)
  · exact hbefore (hhi i)
  · exact ⟨(hbalanced i).hits_add_misses, (hbalanced i).expiredEntries_le⟩

variable [NeZero n] (hash : String → ℕ) (lib : JsonLibrary)

theorem balanced_shard (maxMemoryBytes : ℕ) (ops : List CacheOp) (i : Fin n) :
    ((step hash lib).run (new n maxMemoryBytes) ops i).stats.Balanced :=
  (run_invariant (I := fun s => s.Inv lib ∧ s.stats.Balanced)
    (fun _ op h => ⟨CacheShard.inv_step h.1 op, CacheShard.balanced_step h.1 h.2 op⟩)
    (fun _ => ⟨CacheShard.inv_new _, rfl, le_rfl⟩) ops i).2

/-- An operation only adds to the counters of its shard. -/
theorem before_shard_step {c : IPCache n} (hinv : ∀ i, (c i).Inv lib) (op : CacheOp) (i : Fin n) :
    (c i).stats.Before ((step hash lib c op).2 i).stats := by
  by_cases hi : i = getShardIndex hash op.key
  · subst hi
    rw [step_shard_self]
    exact CacheShard.before_step (hinv _) op
  · rw [step_shard_of_ne hash lib c hi]
    exact .refl _

/-- Further operations only add to the counters of the shards. -/
theorem before_shard (maxMemoryBytes : ℕ) (ops more : List CacheOp) (i : Fin n) :
    ((step hash lib).run (new n maxMemoryBytes) ops i).stats.Before
      ((step hash lib).run (new n maxMemoryBytes) (ops ++ more) i).stats := by
  induction more using List.reverseRecOn with
  | nil =>
    rw [List.append_nil]
    exact .refl _
  | append_singleton more op ih =>
    rw [← List.append_assoc, Machine.run_concat]
    exact ih.trans (before_shard_step hash lib (inv_run hash lib maxMemoryBytes _) op i)

/-- While the operations `during` are made, each shard is read after some of them: its statistics
    after `localAt i`, its bytes after `memoryAt i`. -/
theorem readStats_run (maxMemoryBytes : ℕ) (ops during : List CacheOp)
    (localAt memoryAt : Fin n → ℕ) :
    let after := fun k => (step hash lib).run (new n maxMemoryBytes) (ops ++ during.take k)
    let stats := readStats (fun i => after (localAt i)) (fun i => after (memoryAt i))
    (getStats ((step hash lib).run (new n maxMemoryBytes) ops)).Before stats ∧
      stats.Before (getStats ((step hash lib).run (new n maxMemoryBytes) (ops ++ during))) ∧
      stats.Balanced := by
  intro after stats
  refine readStats_between _ (fun i => before_shard hash lib maxMemoryBytes ops _ i) (fun i => ?_)
    fun i => balanced_shard hash lib maxMemoryBytes _ i
  have hrest := before_shard hash lib maxMemoryBytes (ops ++ during.take (localAt i))
    (during.drop (localAt i)) i
  rwa [List.append_assoc, List.take_append_drop] at hrest

end IPCache

end IpServer
